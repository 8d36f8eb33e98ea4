import LanChat.Client.World
import LanChat.Lib.Run

/-!
# The authentication store

`login` and `register` of `authStore.ts`, the timer that they share, and the
replies of the server. `setAuthLoading(true)` comes before `beginAuthRequest`,
which calls `setAuthError(null)`, and that setter ends the loading: a request is
never shown as pending, and its timer never reports a timeout
(`pending_visible_iff`). What is kept in `localStorage` is left out.
-/

namespace LanChat

open Lib Json

namespace Client

inductive AuthView where
  | login
  | register
deriving DecidableEq

structure AuthState where
  view : AuthView
  loading : Bool
  error : Option Bytes
deriving DecidableEq

/-- A timer of `beginAuthRequest`. -/
structure AuthTimer where
  handle : Nat
  requestSeq : Nat
  timeoutMessage : Bytes

/-- A call of `login` or `register` that waits for `ensureConnected` and `sendRawJson`. -/
structure AuthRequest where
  requestSeq : Nat
  request : Request

/-- The store with its counter and its timer. `timers` are those that are armed, and
`handles` is the last handle of `setTimeout`. `pending` is an annotation: the newest
request has been issued, and since then no reply has been handled, its send has not
failed, and its timer has not fired. -/
structure Auth where
  auth : AuthState
  authRequestSeq : Nat
  authTimeoutId : Option Nat
  timers : List AuthTimer
  handles : Nat
  requests : List AuthRequest
  pending : Bool

namespace Auth

inductive Event where
  | login (id : Int64) (password : Bytes)
  | register (nickname password : Bytes)
  /-- what the request at this position waits for resolves, or throws an error with this text -/
  | settle (position : Nat) (result : Except Bytes Unit)
  /-- the timer with this handle fires -/
  | fire (handle : Nat)
  /-- a payload comes in -/
  | receive (payload : Object)
  | setAuthView (view : AuthView)
  | logout

/-- The store when the page has been loaded. -/
def start : Auth := ⟨⟨.login, false, none⟩, 0, none, [], 0, [], false⟩

variable (js : Js)

/-! ## The setters -/

def setAuthView (s : Auth) (view : AuthView) : Auth := { s with auth := { s.auth with view := view, error := none } }

def setAuthLoading (s : Auth) (loading : Bool) : Auth := { s with auth := { s.auth with loading := loading } }

def setAuthError (s : Auth) (error : Option Bytes) : Auth :=
  { s with auth := { s.auth with error := error, loading := false } }

/-! ## Requests -/

/-- `window.clearTimeout`. -/
def clearTimeout (s : Auth) (handle : Nat) : Auth :=
  { s with timers := s.timers.filter fun timer => timer.handle ≠ handle }

def beginAuthRequest (s : Auth) (timeoutMessage : Bytes) : Auth :=
  let s := match s.authTimeoutId with
    | some handle => s.clearTimeout handle
    | none => s
  let requestSeq := s.authRequestSeq + 1
  let timer := s.handles + 1
  setAuthError
    { s with
      authRequestSeq := requestSeq
      authTimeoutId := some timer
      timers := s.timers ++ [⟨timer, requestSeq, timeoutMessage⟩]
      handles := timer }
    none

/-- `login` and `register`, up to `ensureConnected`. -/
def begin (s : Auth) (request : Request) (timeoutMessage : Bytes) : Auth :=
  let s := (s.setAuthLoading true).beginAuthRequest timeoutMessage
  { s with requests := s.requests ++ [⟨s.authRequestSeq, request⟩], pending := true }

/-- The rest of `login` or `register`. -/
def settle (s : Auth) (request : AuthRequest) : Except Bytes Unit → Auth
  | .ok _ => s
  | .error e => if request.requestSeq = s.authRequestSeq then { s.setAuthError (some e) with pending := false } else s

/-- The timer of `beginAuthRequest`. -/
def fire (s : Auth) (timer : AuthTimer) : Auth :=
  if timer.requestSeq = s.authRequestSeq then
    let s' := if s.auth.loading then s.setAuthError (some timer.timeoutMessage) else s
    { s' with pending := false }
  else s

/-! ## Replies -/

/-- The replies to the two requests. -/
def replies : List MsgType := [.LoginSuccessReturn, .LoginFailedReturn, .RegisterUserReturn]

/-- `auth` after a login or a registration. -/
def succeeded (s : Auth) : Auth := { s with auth := { s.auth with view := .login, loading := false, error := none } }

/-- The cases of `handleIncomingMessage` that concern the store, without `OfflineMessages`. -/
def answered (s : Auth) (raw : Object) : Auth :=
  let fails (fallback : Bytes) : Auth := s.setAuthError (some (stringField raw "msg" fallback))
  match typeField raw with
  | some .LoginSuccessReturn => s.succeeded
  | some .RegisterUserReturn => s.succeeded
  | some .LoginFailedReturn =>
    let errorMsg := stringField raw "msg" (js.t "store.loginFailed" none)
    s.setAuthError (some (if errorMsg = [] then js.t "store.loginFailed" none else errorMsg))
  | some .FileTransferDone => if Store.isOk raw then s else fails (lit "file transfer failed")
  | some .CreateGroupReturn =>
    if Store.isOk raw && truthy (member raw "groupId") then s else fails (lit "group create failed")
  | some .JoinGroupReturn => if Store.isOk raw then s else fails (lit "join group failed")
  | some .FriendRequestAck =>
    if stringField raw "status" [] = lit "error" ∨ stringField raw "status" [] = lit "failed" then
      fails (js.t "store.friendRequestFailed" none)
    else s
  | _ => s

def handleOne (s : Auth) (raw : Object) : Auth :=
  { s.answered js raw with pending := s.pending && (typeField raw).all fun type => type ∉ replies }

/-- `handleIncomingMessage`. The server puts no batch into a batch. -/
def handleIncomingMessage (s : Auth) (raw : Object) : Auth :=
  match typeField raw with
  | some .OfflineMessages => (elements (member raw "messages")).foldl (handleOne js) s
  | _ => s.handleOne js raw

/-- `logout`, as far as it concerns this store. -/
def logout (s : Auth) : Auth := { s with auth := ⟨.login, false, none⟩, pending := false }

def step (s : Auth) : Event → Option Auth
  | .login id password => some (s.begin (.login id password) (js.t "store.loginTimeout" none))
  | .register nickname password => some (s.begin (.register nickname password) (js.t "store.registerTimeout" none))
  | .settle position result =>
    (s.requests[position]?).map fun request => { s with requests := s.requests.eraseIdx position }.settle request result
  | .fire handle =>
    (s.timers.find? fun timer => timer.handle = handle).map fun timer => (s.clearTimeout handle).fire timer
  | .receive payload => some (s.handleIncomingMessage js payload)
  | .setAuthView view => some (s.setAuthView view)
  | .logout => some s.logout

/-! ## What a pending request should look like -/

/-- While a request is pending it is shown, and its timer sets the timeout error. -/
structure Visible (s : Auth) : Prop where
  loading : s.pending = true → s.auth.loading = true
  timeout : s.pending = true → ∀ timer ∈ s.timers, timer.requestSeq = s.authRequestSeq →
    ((s.clearTimeout timer.handle).fire timer).auth.error = some timer.timeoutMessage

/-- The event is the timer or the failure of a request that is not the newest one. -/
def superseded (s : Auth) : Event → Bool
  | .settle position (.error _) => (s.requests[position]?).any fun request => request.requestSeq ≠ s.authRequestSeq
  | .fire handle =>
    (s.timers.find? fun timer => timer.handle = handle).any fun timer => timer.requestSeq ≠ s.authRequestSeq
  | _ => false

/-- A request that is not the newest one changes nothing. -/
def SupersededIgnored (s : Auth) (event : Event) (s' : Auth) : Prop := superseded s event = true → s'.auth = s.auth

/-- `login` or `register` is called. -/
def makesRequest : Event → Bool
  | .login .. => true
  | .register .. => true
  | _ => false

/-! ## What happens -/

variable {js : Js} {s s' : Auth} {raw : Object} {event : Event}

/-- The last setter of `begin` ends the loading. -/
theorem loading_begin (s : Auth) (request : Request) (timeoutMessage : Bytes) :
    (s.begin request timeoutMessage).auth.loading = false := rfl

theorem loading_settle (h : s.auth.loading = false) (request : AuthRequest) (result : Except Bytes Unit) :
    (s.settle request result).auth.loading = false := by
  cases result with
  | ok _ => exact h
  | error e =>
    rw [settle]
    split
    · rfl
    · exact h

theorem auth_fire (h : s.auth.loading = false) (timer : AuthTimer) : (s.fire timer).auth = s.auth := by
  rw [fire]
  split
  · simp only [h, Bool.false_eq_true, if_false]
  · rfl

theorem loading_answered (h : s.auth.loading = false) (raw : Object) : (s.answered js raw).auth.loading = false := by
  unfold answered
  split <;> first | rfl | exact h | (split <;> first | rfl | exact h)

theorem loading_handle (h : s.auth.loading = false) (raw : Object) :
    (s.handleIncomingMessage js raw).auth.loading = false := by
  have hone : ∀ s : Auth, s.auth.loading = false → ∀ raw, (s.handleOne js raw).auth.loading = false :=
    fun s hs raw => loading_answered hs raw
  unfold handleIncomingMessage
  split
  · exact List.foldlRecOn (motive := fun s : Auth => s.auth.loading = false) _ _ h fun s hs raw _ => hone s hs raw
  · exact hone s h raw

/-- A payload makes no request. -/
theorem pending_handle (h : s.pending = false) (raw : Object) : (s.handleIncomingMessage js raw).pending = false := by
  have hone : ∀ s : Auth, s.pending = false → ∀ raw, (s.handleOne js raw).pending = false := by
    intro s hs raw
    rw [handleOne, hs]
    rfl
  unfold handleIncomingMessage
  split
  · exact List.foldlRecOn (motive := fun s : Auth => s.pending = false) _ _ h fun s hs raw _ => hone s hs raw
  · exact hone s h raw

/-- Nothing is ever shown as loading. -/
theorem loading_step (h : s.auth.loading = false) (hstep : step js s event = some s') : s'.auth.loading = false := by
  cases event with
  | login id password => cases hstep; rfl
  | register nickname password => cases hstep; rfl
  | settle position result =>
    obtain ⟨request, -, rfl⟩ := Option.map_eq_some_iff.mp hstep
    exact loading_settle (by exact h) request result
  | fire handle =>
    obtain ⟨timer, -, rfl⟩ := Option.map_eq_some_iff.mp hstep
    rw [auth_fire (by exact h)]
    exact h
  | receive payload => cases hstep; exact loading_handle h payload
  | setAuthView view => cases hstep; exact h
  | logout => cases hstep; rfl

/-- Only `login` and `register` make a request pending. -/
theorem pending_step (h : s.pending = false) (hevent : makesRequest event = false) (hstep : step js s event = some s') :
    s'.pending = false := by
  cases event with
  | login id password => cases hevent
  | register nickname password => cases hevent
  | settle position result =>
    obtain ⟨request, -, rfl⟩ := Option.map_eq_some_iff.mp hstep
    cases result with
    | ok _ => exact h
    | error e =>
      rw [settle]
      split
      · rfl
      · exact h
  | fire handle =>
    obtain ⟨timer, -, rfl⟩ := Option.map_eq_some_iff.mp hstep
    rw [fire]
    split
    · rfl
    · exact h
  | receive payload => cases hstep; exact pending_handle h payload
  | setAuthView view => cases hstep; exact h
  | logout => cases hstep; rfl

/-- The guards on `authRequestSeq` keep off every request but the newest one. -/
theorem superseded_ignored (hstep : step js s event = some s') : SupersededIgnored s event s' := by
  intro h
  cases event with
  | settle position result =>
    obtain ⟨request, hrequest, rfl⟩ := Option.map_eq_some_iff.mp hstep
    cases result with
    | ok _ => cases h
    | error e =>
      rw [superseded, hrequest, Option.any_some, decide_eq_true_eq] at h
      rw [settle, if_neg (by exact h)]
  | fire handle =>
    obtain ⟨timer, htimer, rfl⟩ := Option.map_eq_some_iff.mp hstep
    rw [superseded, htimer, Option.any_some, decide_eq_true_eq] at h
    rw [fire, if_neg (by exact h)]
    rfl
  | login id password => cases h
  | register nickname password => cases h
  | receive payload => cases h
  | setAuthView view => cases h
  | logout => cases h

/-- Where nothing is shown as loading, a pending request is not. -/
theorem visible_iff (h : s.auth.loading = false) : Visible s ↔ s.pending = false := by
  constructor
  · intro hvisible
    by_contra hpending
    have := hvisible.loading (Bool.eq_true_of_not_eq_false hpending)
    rw [h] at this
    cases this
  · intro hpending
    rw [← Bool.not_eq_true] at hpending
    exact ⟨fun h => absurd h hpending, fun h => absurd h hpending⟩

/-- Requests are shown while they are pending, and superseded ones are ignored, exactly
if no request is made at all. -/
theorem pending_visible_iff (js : Js) (events : List Event) :
    (Throughout (step js) Visible start events ∧ EachStep (step js) SupersededIgnored start events) ↔
      Along (step js) (fun _ event => makesRequest event = false) start events := by
  have hloading : ∀ s e s', s.auth.loading = false → step js s e = some s' → s'.auth.loading = false :=
    fun _ _ _ => loading_step
  have hstep : ∀ s e s', s.auth.loading = false → Visible s → step js s e = some s' →
      (Visible s' ↔ makesRequest e = false) := by
    intro s e s' hs hvisible hs'
    rw [visible_iff (loading_step hs hs')]
    rw [visible_iff hs] at hvisible
    refine ⟨fun hpending => ?_, fun he => pending_step hvisible he hs'⟩
    by_contra hrequest
    cases e with
    | login id password => cases hs'; cases hpending
    | register nickname password => cases hs'; cases hpending
    | _ => exact hrequest rfl
  have hguarded : ∀ s e s', step js s e = some s' → True → SupersededIgnored s e s' :=
    fun _ _ _ hs' _ => superseded_ignored hs'
  have hignored : EachStep (step js) SupersededIgnored start events :=
    eachStep_of_along hguarded (along_of_forall (fun _ _ => trivial) start events)
  rw [and_iff_left hignored]
  exact throughout_iff_along hloading hstep rfl ((visible_iff rfl).mpr rfl) events

/-- A login that gets no reply: it is not shown, and when its timer fires nothing is reported. -/
theorem login_timeout_silent :
    ∃ s s', run (step .plain) start [.login 1000 (lit "p")] = some s ∧ s.pending = true ∧ s.auth.loading = false ∧
      step .plain s (.fire 1) = some s' ∧ s'.auth.error = none ∧
      ¬Throughout (step .plain) Visible start [.login 1000 (lit "p")] := by
  have hrun : run (step .plain) start [.login 1000 (lit "p")] = some (start.begin (.login 1000 (lit "p")) []) := rfl
  refine ⟨_, ((start.begin (.login 1000 (lit "p")) []).clearTimeout 1).fire ⟨1, 1, []⟩, hrun, rfl, rfl, rfl, rfl,
    fun h => ?_⟩
  have hshown := (h.last hrun).loading rfl
  rw [loading_begin] at hshown
  cases hshown

end Auth

end Client

end LanChat
