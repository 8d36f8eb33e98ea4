import LanChat.Client.World

/-!
# The connection of the page

`connectionStore.ts` with the timers of the window and the calls of `invoke` that
have not settled. A timer is cancelled only through the handle in the store, and
both `connect` and `disconnect` write the status when their call settles, whatever
has happened in the meantime.

* `disconnect_final_iff`: when a `disconnect` that has completed is the last word.
* `timers_disciplined_iff`: when at most one reconnect is due, and none while connected.
-/

namespace LanChat

open Lib Json

namespace Client

/-- `RecentServer`. -/
structure RecentServer where
  host : Bytes
  port : Nat
deriving DecidableEq

/-- `ConnectionState`; a handle of `setTimeout` is a positive number. -/
structure ConnectionStore where
  status : ConnectionStatus
  host : Bytes
  port : Nat
  error : Option Bytes
  lastHeartbeat : Option Int
  retryCount : Nat
  retryTimer : Option Nat
  retryDueAt : Option Int
  reconnectTimer : Option Nat
  recentServers : List RecentServer

/-- A reconnect that `setTimeout` will start. -/
structure ReconnectTimer where
  handle : Nat
  host : Bytes
  port : Nat

/-- A call of `invoke` that `connect` or `disconnect` waits for. -/
inductive Invocation where
  | connect (host : Bytes) (port : Nat)
  | disconnect

/-- `timers` are those that are armed, and `handles` is the last handle. `ended` is an
annotation: `disconnect` has completed, and the user has not called `connect` since. -/
structure Connection extends ConnectionStore where
  timers : List ReconnectTimer
  handles : Nat
  invocations : List Invocation
  ended : Bool

namespace Connection

inductive Event where
  /-- the user calls `connect` -/
  | connect (host : Bytes) (port : Nat)
  | disconnect
  /-- `invoke` at this position resolves, or rejects with this text -/
  | settle (position : Nat) (result : Except Bytes Unit) (now : Int)
  /-- the listener for `connection-lost` in `App` -/
  | connectionLost (now : Int)
  /-- the timer with this handle fires -/
  | fire (handle : Nat)
  /-- `ReconnectBanner` is closed, or `App` unmounted -/
  | clearReconnect
  | updateHeartbeat (now : Int)
  | setHost (host : Bytes)
  | setPort (port : Nat)
  | dismissError

/-- What is kept in `localStorage` is the server, and the recent ones. -/
def start (host : Bytes) (port : Nat) (recentServers : List RecentServer) : Connection :=
  ⟨⟨.disconnected, host, port, none, none, 0, none, none, none, recentServers⟩, [], 0, [], false⟩

def MAX_RECONNECT_ATTEMPTS : Nat := 5

def rememberServer (servers : List RecentServer) (server : RecentServer) : List RecentServer :=
  (server :: servers.filter fun item => item.host ≠ server.host || item.port ≠ server.port).take 5

variable (js : Js) (c : Connection)

def setDisconnected : Connection := { c with status := .disconnected, lastHeartbeat := none }

/-- `window.clearTimeout`. -/
def clearTimeout (handle : Nat) : Connection := { c with timers := c.timers.filter fun timer => timer.handle ≠ handle }

def clearReconnect : Connection :=
  let c := match c.reconnectTimer with
    | some handle => c.clearTimeout handle
    | none => c
  { c with retryTimer := none, retryDueAt := none, reconnectTimer := none }

/-- `connect`, up to the call that it waits for. -/
def connect (host : Bytes) (port : Nat) : Connection :=
  { c.clearReconnect with
    status := .connecting, error := none, host := host, port := port,
    invocations := c.invocations ++ [.connect host port] }

def scheduleReconnect (now : Int) : Connection :=
  if c.status = .connected ∨ c.reconnectTimer.isSome then c
  else if c.retryCount ≥ MAX_RECONNECT_ATTEMPTS then
    { c with
      status := .disconnected
      error := some (js.t "store.reconnectStopped" (some (.int (.ofNat MAX_RECONNECT_ATTEMPTS))))
      retryTimer := none, retryDueAt := none, reconnectTimer := none }
  else
    let delay := min (1000 * 2 ^ c.retryCount) 30000
    let timer := c.handles + 1
    { c with
      timers := c.timers ++ [⟨timer, c.host, c.port⟩], handles := timer,
      retryTimer := some delay, retryDueAt := some (now + delay), retryCount := c.retryCount + 1,
      status := .connecting, reconnectTimer := some timer }

/-- `connect`, when its call has resolved. -/
def connected (host : Bytes) (port : Nat) (now : Int) : Connection :=
  { c with
    status := .connected, error := none, lastHeartbeat := some now, retryCount := 0, retryTimer := none,
    retryDueAt := none, reconnectTimer := none, recentServers := rememberServer c.recentServers ⟨host, port⟩ }

/-- `connect`, when its call has rejected. -/
def connectFailed (error : Bytes) (now : Int) : Connection :=
  { c with status := .disconnected, error := some error, lastHeartbeat := none }.scheduleReconnect js now

/-- `disconnect`, up to the call that it waits for. -/
def disconnect : Connection := { c.clearReconnect with invocations := c.invocations ++ [.disconnect] }

/-- `disconnect`, when its call has settled. -/
def disconnected : Connection :=
  { c with status := .disconnected, error := none, lastHeartbeat := none, retryCount := 0, ended := true }

/-- What the timer does. -/
def reconnect (timer : ReconnectTimer) : Connection :=
  { c.clearTimeout timer.handle with reconnectTimer := none, retryTimer := none, retryDueAt := none }.connect
    timer.host timer.port

def settled (now : Int) : Invocation → Except Bytes Unit → Connection
  | .connect host port, .ok _ => c.connected host port now
  | .connect _ _, .error error => c.connectFailed js error now
  | .disconnect, _ => c.disconnected

def step (c : Connection) : Event → Option Connection
  | .connect host port => some { c.connect host port with ended := false }
  | .disconnect => some c.disconnect
  | .settle position result now =>
    match c.invocations[position]? with
    | some invocation =>
      some ({ c with invocations := c.invocations.eraseIdx position }.settled js now invocation result)
    | none => none
  | .connectionLost now => some (c.setDisconnected.scheduleReconnect js now)
  | .fire handle => (c.timers.find? fun timer => timer.handle = handle).map c.reconnect
  | .clearReconnect => some c.clearReconnect
  | .updateHeartbeat now => some { c with lastHeartbeat := some now, retryCount := 0 }
  | .setHost host => some { c with host := host, error := none }
  | .setPort port => some { c with port := port, error := none }
  | .dismissError => some { c with error := none }

/-! ## The timers -/

variable {js} {c} {c' : Connection} {e : Event}

/-- The handle in the store is that of a timer that is armed. -/
def Held (c : Connection) : Prop :=
  ∀ handle, c.reconnectTimer = some handle → ∃ timer ∈ c.timers, timer.handle = handle

theorem clearReconnect_spec :
    ∃ timers, c.clearReconnect =
        { c with timers := timers, retryTimer := none, retryDueAt := none, reconnectTimer := none } ∧
      timers.Sublist c.timers ∧ ∀ timer ∈ timers, c.reconnectTimer ≠ some timer.handle := by
  unfold clearReconnect
  cases htimer : c.reconnectTimer with
  | none => exact ⟨c.timers, rfl, List.Sublist.refl _, nofun⟩
  | some handle =>
    refine ⟨c.timers.filter fun timer => timer.handle ≠ handle, rfl, List.filter_sublist, fun timer hmem hsame => ?_⟩
    have hne : timer.handle ≠ handle := by simpa using (List.mem_filter.mp hmem).2
    exact hne (Option.some.inj hsame).symm

/-- All that `scheduleReconnect` can do when the status is not `connected`. -/
theorem scheduleReconnect_spec (now : Int) (hstatus : c.status ≠ .connected) :
    (∃ status error retryTimer retryDueAt, status ≠ .connected ∧
      (c.reconnectTimer = none → MAX_RECONNECT_ATTEMPTS ≤ c.retryCount) ∧
      c.scheduleReconnect js now =
        { c with status := status, error := error, retryTimer := retryTimer, retryDueAt := retryDueAt }) ∨
    c.reconnectTimer = none ∧ c.retryCount < MAX_RECONNECT_ATTEMPTS ∧
      ∃ timer retryTimer retryDueAt, c.scheduleReconnect js now =
        { c with
          timers := c.timers ++ [timer], handles := timer.handle, retryTimer := retryTimer,
          retryDueAt := retryDueAt, retryCount := c.retryCount + 1, status := .connecting,
          reconnectTimer := some timer.handle } := by
  unfold scheduleReconnect
  cases htimer : c.reconnectTimer with
  | some handle =>
    refine .inl ⟨c.status, c.error, c.retryTimer, c.retryDueAt, hstatus, nofun, ?_⟩
    rw [if_pos (.inr rfl), ← htimer]
  | none =>
    rw [if_neg (by simpa using hstatus)]
    split
    · next hcount => exact .inl ⟨.disconnected, _, none, none, nofun, fun _ => hcount, by rw [← htimer]⟩
    · next hcount => exact .inr ⟨rfl, Nat.lt_of_not_le hcount, ⟨c.handles + 1, c.host, c.port⟩, _, _, rfl⟩

theorem Held.scheduleReconnect (h : Held c) (now : Int) (hstatus : c.status ≠ .connected) :
    Held (c.scheduleReconnect js now) := by
  obtain ⟨_, _, _, _, -, -, hsame⟩ | ⟨-, -, timer, _, _, hnew⟩ := @scheduleReconnect_spec js _ now hstatus
  · rw [hsame]
    exact h
  · rw [hnew]
    rintro handle hhandle
    exact ⟨timer, List.mem_append_right _ List.mem_cons_self, Option.some.inj hhandle⟩

theorem reconnectTimer_clearReconnect (c : Connection) : c.clearReconnect.reconnectTimer = none := by
  obtain ⟨_, hclear, -⟩ := c.clearReconnect_spec
  rw [hclear]

theorem reconnectTimer_connect (c : Connection) (host : Bytes) (port : Nat) :
    (c.connect host port).reconnectTimer = none :=
  reconnectTimer_clearReconnect c

theorem Held.step (h : Held c) (hstep : c.step js e = some c') : Held c' := by
  have hnone : ∀ {c : Connection}, c.reconnectTimer = none → Held c := fun hc handle hhandle => by
    rw [hc] at hhandle
    cases hhandle
  cases e with
  | connect host port =>
    cases hstep
    exact hnone (reconnectTimer_connect c host port)
  | disconnect =>
    cases hstep
    exact hnone (reconnectTimer_clearReconnect c)
  | clearReconnect =>
    cases hstep
    exact hnone (reconnectTimer_clearReconnect c)
  | fire handle =>
    obtain ⟨timer, -, rfl⟩ := Option.map_eq_some_iff.mp hstep
    exact hnone (reconnectTimer_connect _ timer.host timer.port)
  | connectionLost now =>
    cases hstep
    exact Held.scheduleReconnect (c := c.setDisconnected) h now nofun
  | settle position result now =>
    simp only [Connection.step] at hstep
    split at hstep
    · next invocation hinvocation =>
      cases hstep
      cases invocation with
      | connect host port =>
        cases result with
        | ok _ => exact hnone rfl
        | error error => exact Held.scheduleReconnect (by exact h) now nofun
      | disconnect => exact h
    · cases hstep
  | _ =>
    cases hstep
    exact h

/-! ## After a `disconnect` -/

/-- Since the user has disconnected, the client is not connected, and no reconnect is due. -/
def Final (c : Connection) : Prop := c.ended = true → c.status ≠ .connected ∧ c.timers = []

/-- No reconnect is due when a `disconnect` completes; after that, as long as the user
does not connect again, no attempt to connect settles and no connection is lost. -/
def LeavesFinal (c : Connection) : Event → Prop
  | .settle position _ _ =>
    match c.invocations[position]? with
    | some .disconnect => c.timers = []
    | some (.connect _ _) => c.ended = false
    | none => True
  | .connectionLost _ => c.ended = false
  | _ => True

/-- Nothing is left to count when the user has disconnected. -/
def Counted (c : Connection) : Prop := c.ended = true → c.retryCount = 0

theorem ended_clearReconnect (c : Connection) : c.clearReconnect.ended = c.ended := by
  obtain ⟨_, hclear, -⟩ := c.clearReconnect_spec
  rw [hclear]

theorem ended_scheduleReconnect (now : Int) : (c.scheduleReconnect js now).ended = c.ended := by
  unfold scheduleReconnect
  split
  · rfl
  · split <;> rfl

theorem ended_reconnect (timer : ReconnectTimer) : (c.reconnect timer).ended = c.ended :=
  ended_clearReconnect
    { c.clearTimeout timer.handle with reconnectTimer := none, retryTimer := none, retryDueAt := none }

theorem final_of_not_ended (h : c.ended = false) : Final c := fun hended => by
  rw [h] at hended
  cases hended

theorem counted_of_not_ended (h : c.ended = false) : Counted c := fun hended => by
  rw [h] at hended
  cases hended

/-- After a `disconnect` a reconnect would always be scheduled. -/
theorem not_final_scheduleReconnect (hheld : Held c) (hended : c.ended = true) (hcount : c.retryCount = 0)
    (hstatus : c.status ≠ .connected) (htimers : c.timers = []) (now : Int) :
    ¬Final (c.scheduleReconnect js now) := by
  have hnone : c.reconnectTimer = none := by
    cases htimer : c.reconnectTimer with
    | none => rfl
    | some handle =>
      obtain ⟨timer, hmem, -⟩ := hheld handle htimer
      rw [htimers] at hmem
      cases hmem
  intro hfinal
  obtain ⟨-, hempty⟩ := hfinal ((ended_scheduleReconnect now).trans hended)
  obtain ⟨_, _, _, _, -, hmany, -⟩ | ⟨-, -, timer, _, _, hnew⟩ := @scheduleReconnect_spec js _ now hstatus
  · exact absurd (hmany hnone) (by rw [hcount]; decide)
  · rw [hnew] at hempty
    exact List.append_ne_nil_of_right_ne_nil _ (List.cons_ne_nil _ _) hempty

theorem ended_settled {host : Bytes} {port : Nat} (now : Int) (result : Except Bytes Unit) :
    (c.settled js now (.connect host port) result).ended = c.ended := by
  cases result with
  | ok _ => rfl
  | error error => exact ended_scheduleReconnect now

/-- An attempt to connect that settles after a `disconnect` undoes it, whether it succeeds or fails. -/
theorem not_final_settled {host : Bytes} {port : Nat} (hheld : Held c) (hended : c.ended = true)
    (hcount : c.retryCount = 0) (htimers : c.timers = []) (now : Int) (result : Except Bytes Unit) :
    ¬Final (c.settled js now (.connect host port) result) := by
  cases result with
  | ok _ => exact fun hfinal => (hfinal hended).1 rfl
  | error error =>
    exact not_final_scheduleReconnect
      (c := { c with status := .disconnected, error := some error, lastHeartbeat := none })
      hheld hended hcount nofun htimers now

/-- Whether nothing happens after a `disconnect` depends on what the step is. -/
theorem final_step (hheld : Held c) (hcount : Counted c) (h : Final c) (hstep : c.step js e = some c') :
    (Final c' ↔ c.LeavesFinal e) ∧ (Final c' → Counted c') := by
  have hclear : Final c.clearReconnect ∧ Counted c.clearReconnect := by
    obtain ⟨timers, hclear, hsub, -⟩ := c.clearReconnect_spec
    rw [hclear]
    refine ⟨fun hended => ⟨(h hended).1, ?_⟩, hcount⟩
    rw [(h hended).2] at hsub
    exact List.sublist_nil.mp hsub
  cases e with
  | connect host port =>
    cases hstep
    exact ⟨iff_of_true (final_of_not_ended rfl) trivial, fun _ => counted_of_not_ended rfl⟩
  | disconnect =>
    cases hstep
    exact ⟨iff_of_true hclear.1 trivial, fun _ => hclear.2⟩
  | clearReconnect =>
    cases hstep
    exact ⟨iff_of_true hclear.1 trivial, fun _ => hclear.2⟩
  | fire handle =>
    obtain ⟨timer, hfind, rfl⟩ := Option.map_eq_some_iff.mp hstep
    have hended : c.ended = false := by
      by_contra hended
      have hempty := (h (Bool.eq_true_of_not_eq_false hended)).2
      rw [hempty] at hfind
      cases hfind
    have hended' : (c.reconnect timer).ended = false := (ended_reconnect timer).trans hended
    exact ⟨iff_of_true (final_of_not_ended hended') trivial, fun _ => counted_of_not_ended hended'⟩
  | connectionLost now =>
    cases hstep
    cases hended : c.ended with
    | false =>
      have hended' : (c.setDisconnected.scheduleReconnect js now).ended = false :=
        (ended_scheduleReconnect now).trans hended
      exact ⟨iff_of_true (final_of_not_ended hended') hended, fun _ => counted_of_not_ended hended'⟩
    | true =>
      have hnot : ¬Final (c.setDisconnected.scheduleReconnect js now) :=
        not_final_scheduleReconnect (c := c.setDisconnected) hheld hended (hcount hended) nofun (h hended).2 now
      refine ⟨iff_of_false hnot fun hfalse => ?_, fun hfinal => absurd hfinal hnot⟩
      have hfalse : c.ended = false := hfalse
      rw [hended] at hfalse
      cases hfalse
  | settle position result now =>
    simp only [Connection.step] at hstep
    split at hstep
    · next invocation hinvocation =>
      cases hstep
      simp only [LeavesFinal, hinvocation]
      cases invocation with
      | disconnect =>
        exact ⟨⟨fun hfinal => (hfinal rfl).2, fun hempty _ => ⟨nofun, hempty⟩⟩, fun _ _ => rfl⟩
      | connect host port =>
        by_cases hended : c.ended = true
        · have hnot : ¬Final ({ c with invocations := c.invocations.eraseIdx position }.settled js now
              (.connect host port) result) :=
            not_final_settled (c := { c with invocations := c.invocations.eraseIdx position }) hheld hended
              (hcount hended) (h hended).2 now result
          exact ⟨iff_of_false hnot (by simp [hended]), fun hfinal => absurd hfinal hnot⟩
        · have hended : c.ended = false := Bool.eq_false_of_not_eq_true hended
          have hended' : ({ c with invocations := c.invocations.eraseIdx position }.settled js now
              (.connect host port) result).ended = false := (ended_settled now result).trans hended
          exact ⟨iff_of_true (final_of_not_ended hended') hended, fun _ => counted_of_not_ended hended'⟩
    · cases hstep
  | updateHeartbeat now =>
    cases hstep
    exact ⟨iff_of_true h trivial, fun _ _ => rfl⟩
  | _ =>
    cases hstep
    exact ⟨iff_of_true h trivial, fun _ => hcount⟩

/-- A `disconnect` that has completed stays the last word throughout a run if and only
if no reconnect was due when it completed and, before the user connects again, no
attempt to connect settles and no connection is lost. -/
theorem disconnect_final_iff (js : Js) (host : Bytes) (port : Nat) (recentServers : List RecentServer)
    (es : List Event) :
    Throughout (step js) Final (start host port recentServers) es ↔
      Along (step js) LeavesFinal (start host port recentServers) es := by
  have hheld : Held (start host port recentServers) := by
    intro handle hhandle
    cases hhandle
  refine throughout_iff_along_of_kept (J := fun c => Held c ∧ Counted c) (fun c e c' hkept hfinal hstep hfinal' => ?_)
    (fun c e c' hkept hfinal hstep => (final_step hkept.1 hkept.2 hfinal hstep).1)
    ⟨hheld, counted_of_not_ended rfl⟩ (final_of_not_ended rfl) es
  exact ⟨hkept.1.step hstep, (final_step hkept.1 hkept.2 hfinal hstep).2 hfinal'⟩

/-- The connection is lost and an attempt to reconnect is under way when the user logs
out: it succeeds after `disconnect` has completed. -/
theorem connected_after_disconnect :
    ∃ c, run (step .plain) (start (lit "127.0.0.1") 12346 []) [.connect (lit "127.0.0.1") 12346, .settle 0 (.ok ()) 0,
      .connectionLost 1, .fire 1, .disconnect, .settle 1 (.ok ()) 2, .settle 0 (.ok ()) 3] = some c ∧ ¬Final c :=
  ⟨_, rfl, fun h => (h rfl).1 rfl⟩

/-! ## The reconnects that are due -/

/-- At most one reconnect is due, and none while the client is connected. -/
def Disciplined (c : Connection) : Prop :=
  c.timers.length ≤ 1 ∧ (c.status = .connected → c.timers = [])

/-- An attempt to connect succeeds only while no reconnect is due. -/
def SucceedsAlone (c : Connection) : Event → Prop
  | .settle position (.ok _) _ =>
    match c.invocations[position]? with
    | some (.connect _ _) => c.timers = []
    | _ => True
  | _ => True

/-- The store has the handle of every timer. -/
def Tracked (c : Connection) : Prop :=
  c.timers = [] ∨ ∃ timer, c.timers = [timer] ∧ c.reconnectTimer = some timer.handle

theorem tracked_clearReconnect (h : Tracked c) : c.clearReconnect.timers = [] := by
  obtain ⟨timers, hclear, hsub, hother⟩ := c.clearReconnect_spec
  rw [hclear]
  rcases h with hempty | ⟨timer, htimers, htimer⟩
  · rw [hempty] at hsub
    exact List.sublist_nil.mp hsub
  · rcases timers with _ | ⟨timer', rest⟩
    · rfl
    · have hmem : timer' ∈ c.timers := hsub.subset List.mem_cons_self
      rw [htimers, List.mem_singleton] at hmem
      rw [hmem] at hother
      exact absurd htimer (hother timer List.mem_cons_self)

theorem disciplined_of_empty (h : c.timers = []) : Disciplined c ∧ Tracked c := by
  refine ⟨⟨?_, fun _ => h⟩, .inl h⟩
  rw [h]
  exact Nat.zero_le _

theorem tracked_scheduleReconnect (h : Tracked c) (hstatus : c.status ≠ .connected) (now : Int) :
    Disciplined (c.scheduleReconnect js now) ∧ Tracked (c.scheduleReconnect js now) := by
  have hlength : c.timers.length ≤ 1 := by
    rcases h with hempty | ⟨timer, htimers, -⟩
    · rw [hempty]
      exact Nat.zero_le _
    · rw [htimers]
      exact Nat.le_refl _
  obtain ⟨_, _, _, _, hstatus', -, hsame⟩ | ⟨hnone, -, timer, _, _, hnew⟩ :=
    @scheduleReconnect_spec js _ now hstatus
  · rw [hsame]
    exact ⟨⟨hlength, fun hconnected => absurd hconnected hstatus'⟩, h⟩
  · have hempty : c.timers = [] := by
      rcases h with hempty | ⟨timer', -, htimer⟩
      · exact hempty
      · rw [hnone] at htimer
        cases htimer
    rw [hnew, hempty]
    exact ⟨⟨Nat.le_refl _, nofun⟩, .inr ⟨timer, rfl, rfl⟩⟩

theorem disciplined_step (h : Disciplined c) (htracked : Tracked c) (hstep : c.step js e = some c') :
    (Disciplined c' ↔ c.SucceedsAlone e) ∧ (Disciplined c' → Tracked c') := by
  have hclear : c.clearReconnect.timers = [] := tracked_clearReconnect htracked
  have hempty : ∀ {d : Connection}, d.timers = [] → (Disciplined d ↔ True) ∧ (Disciplined d → Tracked d) :=
    fun hd => ⟨iff_of_true (disciplined_of_empty hd).1 trivial, fun _ => .inl hd⟩
  cases e with
  | connect host port =>
    cases hstep
    exact hempty hclear
  | disconnect =>
    cases hstep
    exact hempty hclear
  | clearReconnect =>
    cases hstep
    exact hempty hclear
  | fire handle =>
    obtain ⟨timer, hfind, rfl⟩ := Option.map_eq_some_iff.mp hstep
    have hmem := List.mem_of_find?_eq_some hfind
    have hcleared : (c.clearTimeout timer.handle).timers = [] := by
      rcases htracked with hnone | ⟨timer', htimers, -⟩
      · rw [hnone] at hmem
        cases hmem
      · rw [htimers, List.mem_singleton] at hmem
        rw [clearTimeout, htimers, hmem]
        exact List.filter_eq_nil_iff.mpr (by simp)
    have hreconnect : (c.reconnect timer).timers = [] :=
      tracked_clearReconnect (c := { c.clearTimeout timer.handle with
        reconnectTimer := none, retryTimer := none, retryDueAt := none }) (.inl hcleared)
    exact hempty hreconnect
  | connectionLost now =>
    cases hstep
    have hschedule := @tracked_scheduleReconnect js c.setDisconnected htracked nofun now
    exact ⟨iff_of_true hschedule.1 trivial, fun _ => hschedule.2⟩
  | settle position result now =>
    simp only [Connection.step] at hstep
    split at hstep
    · next invocation hinvocation =>
      cases hstep
      cases invocation with
      | disconnect =>
        have halone : c.SucceedsAlone (.settle position result now) := by
          cases result with
          | ok _ => simp only [SucceedsAlone, hinvocation]
          | error _ => trivial
        exact ⟨iff_of_true ⟨h.1, nofun⟩ halone, fun _ => htracked⟩
      | connect host port =>
        cases result with
        | ok _ =>
          simp only [SucceedsAlone, hinvocation]
          exact ⟨⟨fun hdisciplined => hdisciplined.2 rfl, fun hempty => ⟨h.1, fun _ => hempty⟩⟩,
            fun hdisciplined => .inl (hdisciplined.2 rfl)⟩
        | error error =>
          have hschedule := @tracked_scheduleReconnect js { c with
            invocations := c.invocations.eraseIdx position, status := .disconnected, error := some error,
            lastHeartbeat := none } htracked nofun now
          exact ⟨iff_of_true hschedule.1 trivial, fun _ => hschedule.2⟩
    · cases hstep
  | _ =>
    cases hstep
    exact ⟨iff_of_true h trivial, fun _ => htracked⟩

/-- At most one reconnect is due, and none while connected, throughout a run if and
only if no attempt to connect succeeds while a reconnect is due. -/
theorem timers_disciplined_iff (js : Js) (host : Bytes) (port : Nat) (recentServers : List RecentServer)
    (es : List Event) :
    Throughout (step js) Disciplined (start host port recentServers) es ↔
      Along (step js) SucceedsAlone (start host port recentServers) es :=
  throughout_iff_along_of_kept (J := Tracked)
    (fun _ _ _ htracked h hstep h' => (disciplined_step h htracked hstep).2 h')
    (fun _ _ _ htracked h hstep => (disciplined_step h htracked hstep).1) (.inl rfl) ⟨Nat.zero_le _, fun _ => rfl⟩ es

/-- A connection is then not given up for a reconnect. -/
theorem not_connected_of_fire {handle : Nat} (h : Disciplined c) (hstep : c.step js (.fire handle) = some c') :
    c.status ≠ .connected := by
  intro hconnected
  obtain ⟨timer, hfind, -⟩ := Option.map_eq_some_iff.mp hstep
  rw [h.2 hconnected] at hfind
  cases hfind

/-- The attempt of a timer is under way when the user logs out and in again: it fails,
and schedules a reconnect, before the new attempt succeeds. -/
theorem reconnect_due_while_connected :
    ∃ c, run (step .plain) (start (lit "127.0.0.1") 12346 []) [.connect (lit "127.0.0.1") 12346,
      .settle 0 (.error (lit "refused")) 0, .fire 1, .disconnect, .settle 1 (.ok ()) 1,
      .connect (lit "127.0.0.1") 12346, .settle 0 (.error (lit "refused")) 2, .settle 0 (.ok ()) 3] = some c ∧
      ¬Disciplined c :=
  ⟨_, rfl, fun h => nomatch h.2 rfl⟩

end Connection

end Client

end LanChat
