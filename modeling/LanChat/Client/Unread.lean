import LanChat.Client.Contacts
import LanChat.Client.DirectPeers
import LanChat.Lib.Tally

/-!
# The unread counts

`ReceiveMsg` counts a message of a conversation that is not open. The server
hands a private message to its sender too, and the same branch handles that
echo: when the user has gone on to another contact, their own message counts as
unread (`unread_iff`).
-/

namespace LanChat

open Lib Json

namespace Client

/-- A `Contact`, as far as its count is concerned. -/
structure CountedContact where
  id : Option Value
  unread : Nat

/-- The message store with the counts of the contacts. -/
structure Inbox where
  store : Store
  contacts : List CountedContact

/-- `s.activeContactId === v`. -/
def Store.isActive (s : Store) (v : Option Value) : Bool :=
  s.activeContactId.any fun id => strictEq v (some (.int id))

/-- `peerId` of `ReceiveMsg`. -/
def Store.messagePeer (s : Store) (raw : Object) : Value :=
  if s.userId ≠ 0 then directPeerId raw s.userId else orElse (member raw "fromId") (.int 0)

namespace Inbox

variable (js : Js)

/-- Contacts that have just been received. -/
def toContacts (infos : Option Value) : List CountedContact :=
  (elements infos).map fun info => ⟨member info "id", 0⟩

/-- `ReceiveMsg`. -/
def received (s : Inbox) (raw : Object) : List CountedContact :=
  let peerId := s.store.messagePeer raw
  s.contacts.map fun c =>
    if strictEq c.id (some peerId) then
      { c with unread := if s.store.isActive (some peerId) then c.unread else c.unread + 1 }
    else c

/-- The contacts after a payload. Those that only change other fields of a contact
leave them as they are. -/
def contactsAfter (s : Inbox) (raw : Object) : List CountedContact :=
  match typeField raw with
  | some .LoginSuccessReturn =>
    toContacts (if truthy (member raw "users") then member raw "users" else member raw "friends")
  | some .ReceiveMsg => s.received raw
  | some .FriendAcceptReturn =>
    if Store.isOk raw && !s.contacts.any fun c => strictEq c.id (member raw "friendId") then
      s.contacts ++ [⟨member raw "friendId", 0⟩]
    else s.contacts
  | some .FriendListReturn =>
    let friends := toContacts (member raw "friends")
    (s.contacts.filter fun c => !friends.any fun f => strictEq f.id c.id) ++ friends
  | _ => s.contacts

/-- The cases of `handleIncomingMessage`, without `OfflineMessages`. -/
def handleOne (s : Inbox) (raw : Object) : Inbox := ⟨s.store.handleOne js raw, s.contactsAfter raw⟩

def setActiveContact (s : Inbox) (id : Option Int64) : Inbox where
  store := s.store.setActiveContact id
  contacts :=
    match id with
    | none => s.contacts
    | some id => s.contacts.map fun c => if strictEq c.id (some (.int id)) then { c with unread := 0 } else c

def selectGroup (s : Inbox) (id : Option Int64) : Inbox := { s with store := s.store.selectGroup id }

/-- What happens to the store, one payload at a time. -/
inductive Act where
  | handle (raw : Object)
  | setActiveContact (id : Option Int64)
  | selectGroup (id : Option Int64)

def act (s : Inbox) : Act → Inbox
  | .handle raw => s.handleOne js raw
  | .setActiveContact id => s.setActiveContact id
  | .selectGroup id => s.selectGroup id

/-- A payload that comes in, or a choice of the user. -/
inductive Event where
  | receive (payload : Object)
  | setActiveContact (id : Option Int64)
  | selectGroup (id : Option Int64)

/-- `handleIncomingMessage` takes a batch apart. -/
def Event.acts : Event → List Act
  | .receive payload => (carried payload).map .handle
  | .setActiveContact id => [.setActiveContact id]
  | .selectGroup id => [.selectGroup id]

def step (s : Inbox) (event : Event) : Inbox := event.acts.foldl (act js) s

/-- The acts of a run. -/
def acts (events : List Event) : List Act := events.flatMap Event.acts

/-- The page right after a login. -/
def JustLoggedIn (s : Inbox) : Prop :=
  ∃ (before : Inbox) (login : Object), typeField login = some .LoginSuccessReturn ∧ s = before.handleOne js login

/-- The act replaces no contact and adds none. -/
def leavesContacts (ids : List (Option Value)) : Act → Bool
  | .handle raw =>
    match typeField raw with
    | some .LoginSuccessReturn => false
    | some .FriendListReturn => false
    | some .FriendAcceptReturn => !Store.isOk raw || ids.any fun id => strictEq id (member raw "friendId")
    | _ => true
  | _ => true

/-! ## What has been missed -/

/-- The contact is made active. -/
def activates (id : Option Value) (_ : Inbox) : Act → Bool
  | .setActiveContact (some active) => strictEq id (some (.int active))
  | _ => false

/-- The payload is a message of the current user. -/
def isOwn (s : Inbox) : Act → Bool
  | .handle raw => (member raw "fromId").any fun fromId => same fromId s.store.userId
  | _ => false

/-- The payload is a `ReceiveMsg` of the contact, which is not active. -/
def misses (id : Option Value) (s : Inbox) : Act → Bool
  | .handle raw => typeField raw = some .ReceiveMsg && strictEq id (some (orElse (member raw "fromId") (.int 0))) &&
      !isOwn s (.handle raw) && !s.store.isActive id
  | _ => false

/-- The payload is the echo of a message of the current user, in the conversation with
the contact, which is not active. -/
def echoes (id : Option Value) (s : Inbox) : Act → Bool
  | .handle raw => typeField raw = some .ReceiveMsg && strictEq id (some (s.store.messagePeer raw)) &&
      isOwn s (.handle raw) && !s.store.isActive id
  | _ => false

/-- The messages of the contact that have been missed since it was last made active. -/
def missed (s : Inbox) (events : List Event) (id : Option Value) : Nat :=
  countSince (act js) (activates id) (misses id) s (acts events)

/-- No echo of a message to the contact has come since then while it was not active. -/
def NoEchoMissed (s : Inbox) (events : List Event) (id : Option Value) : Prop :=
  ∀ p ∈ traceSince (act js) (activates id) s (acts events), echoes id p.1 p.2 = false

/-- The payload counts, in the conversation that it is filed in. -/
def counts (id : Option Value) (s : Inbox) : Act → Bool
  | .handle raw => typeField raw = some .ReceiveMsg && strictEq id (some (s.store.messagePeer raw)) &&
      !s.store.isActive id
  | _ => false

/-! ## What is counted -/

variable {js : Js} {s : Inbox} {raw : Object} {id : Option Value} {a : Act} {ids : List (Option Value)}

theorem micros_of_strictEq {v w : Value} (h : strictEq (some v) (some w) = true) : micros v = micros w := by
  unfold strictEq at h
  split at h <;> simp_all

theorem isActive_congr {v w : Option Value} (h : strictEq v w = true) (s : Store) : s.isActive v = s.isActive w := by
  have hint : ∀ active : Int64, strictEq v (some (.int active)) = strictEq w (some (.int active)) := by
    intro active
    cases v with
    | none => cases w <;> first | rfl | cases h
    | some v =>
      cases w with
      | none => cases v <;> cases h
      | some w =>
        have hmicros := micros_of_strictEq h
        cases v <;> cases w <;> simp_all [strictEq, micros]
  simp only [Store.isActive, hint]

/-- A message of somebody else is filed under its sender. -/
theorem messagePeer_of_not_own (h : isOwn s (.handle raw) = false) :
    s.store.messagePeer raw = orElse (member raw "fromId") (.int 0) := by
  unfold Store.messagePeer Store.directPeerId
  split
  · exact if_neg (by rw [← isOwn, h]; decide)
  · rfl

theorem counts_and_not_own (id : Option Value) (s : Inbox) (a : Act) :
    (counts id s a && !isOwn s a) = misses id s a := by
  cases a with
  | handle raw =>
    cases hown : isOwn s (.handle raw) with
    | true => simp [counts, misses, hown]
    | false =>
      rw [counts, misses, messagePeer_of_not_own hown, hown]
      simp
  | setActiveContact id' => rfl
  | selectGroup id' => rfl

theorem counts_and_own (id : Option Value) (s : Inbox) (a : Act) : (counts id s a && isOwn s a) = echoes id s a := by
  cases a with
  | handle raw => simp only [counts, echoes, Bool.and_assoc, Bool.and_comm]
  | setActiveContact id' => rfl
  | selectGroup id' => rfl

/-- What one act makes of the contacts. -/
theorem contacts_act (h : leavesContacts (s.contacts.map (·.id)) a = true) :
    (s.act js a).contacts = s.contacts.map fun c =>
      { c with unread := if activates c.id s a then 0 else if counts c.id s a then c.unread + 1 else c.unread } := by
  have hsame : ∀ a : Act, (∀ c ∈ s.contacts, activates c.id s a = false) → (∀ c ∈ s.contacts, counts c.id s a = false) →
      s.contacts = s.contacts.map fun c =>
        { c with unread := if activates c.id s a then 0 else if counts c.id s a then c.unread + 1 else c.unread } := by
    intro a hno hnone
    symm
    refine (List.map_congr_left fun c hc => ?_).trans (List.map_id _)
    rw [hno c hc, hnone c hc]
    rfl
  cases a with
  | handle raw =>
    show s.contactsAfter raw = _
    unfold contactsAfter
    split
    · next htype => simp [leavesContacts, htype] at h
    · next htype =>
      refine List.map_congr_left fun c _ => ?_
      simp only [activates, counts, htype, Bool.false_eq_true, if_false]
      split
      · next hpeer =>
        rw [hpeer, ← isActive_congr hpeer s.store]
        cases s.store.isActive c.id <;> rfl
      · next hpeer =>
        rw [Bool.not_eq_true] at hpeer
        rw [hpeer]
        rfl
    · next htype =>
      rw [if_neg]
      · exact hsame _ (fun _ _ => rfl) fun c _ => by simp [counts, htype]
      · simp only [leavesContacts, htype, Bool.or_eq_true, Bool.not_eq_true', List.any_map] at h
        rcases h with h | h
        · rw [h]; simp
        · simp only [Function.comp_def] at h
          rw [h]; simp
    · next htype => simp [leavesContacts, htype] at h
    · next hother => exact hsame _ (fun _ _ => rfl) fun c _ => by simp_all [counts]
  | setActiveContact active =>
    cases active with
    | none => exact hsame _ (fun _ _ => rfl) fun _ _ => rfl
    | some active =>
      refine List.map_congr_left fun c _ => ?_
      have hactivates : activates c.id s (.setActiveContact (some active)) = strictEq c.id (some (.int active)) := rfl
      split
      · next hactive => rw [hactivates, if_pos hactive]
      · next hother => rw [hactivates, if_neg hother, if_neg (by exact Bool.false_ne_true)]
  | selectGroup group => exact hsame _ (fun _ _ => rfl) fun _ _ => rfl

/-- What a run makes of them. -/
theorem contacts_foldl (hids : s.contacts.map (·.id) = ids) (hzero : ∀ c ∈ s.contacts, c.unread = 0) (as : List Act)
    (h : ∀ a ∈ as, leavesContacts ids a = true) :
    (as.foldl (act js) s).contacts = s.contacts.map fun c =>
      { c with unread := countSince (act js) (activates c.id) (counts c.id) s as } := by
  induction as using List.reverseRecOn with
  | nil =>
    symm
    refine (List.map_congr_left fun c hc => ?_).trans (List.map_id _)
    rw [countSince_nil, ← hzero c hc]
    rfl
  | append_singleton as a ih =>
    have hbefore := ih fun a ha => h a (List.mem_append_left _ ha)
    have hkept : (as.foldl (act js) s).contacts.map (·.id) = ids := by
      rw [hbefore, List.map_map, ← hids]
      rfl
    have hlast : leavesContacts ((as.foldl (act js) s).contacts.map (·.id)) a = true := by
      rw [hkept]
      exact h a (List.mem_append_right _ List.mem_cons_self)
    rw [List.foldl_append, List.foldl_cons, List.foldl_nil, contacts_act hlast, hbefore, List.map_map]
    refine List.map_congr_left fun c _ => ?_
    simp only [Function.comp_apply, countSince_concat]

theorem contacts_justLoggedIn (h : JustLoggedIn js s) : ∀ c ∈ s.contacts, c.unread = 0 := by
  obtain ⟨before, login, htype, rfl⟩ := h
  intro c hc
  have hcontacts : (before.handleOne js login).contacts =
      toContacts (if truthy (member login "users") then member login "users" else member login "friends") := by
    simp only [handleOne, contactsAfter, htype]
  rw [hcontacts] at hc
  obtain ⟨info, -, rfl⟩ := List.mem_map.mp hc
  rfl

/-- A count is what has been missed exactly if no echo has been missed. -/
theorem unread_iff (js : Js) (s : Inbox) (hlogin : JustLoggedIn js s) (events : List Event)
    (hfixed : ∀ a ∈ acts events, leavesContacts (s.contacts.map (·.id)) a = true) :
    ∀ c ∈ (events.foldl (step js) s).contacts, c.unread = missed js s events c.id ↔ NoEchoMissed js s events c.id := by
  have hrun : events.foldl (step js) s = (acts events).foldl (act js) s := by
    rw [acts, List.foldl_flatMap]
    rfl
  rw [hrun, contacts_foldl rfl (contacts_justLoggedIn hlogin) _ hfixed]
  intro c hc
  obtain ⟨before, -, rfl⟩ := List.mem_map.mp hc
  have hsplit : countSince (act js) (activates before.id) (counts before.id) s (acts events) =
      countSince (act js) (activates before.id) (echoes before.id) s (acts events) +
        missed js s events before.id := by
    rw [countSince_split isOwn]
    simp only [counts_and_own, counts_and_not_own]
    rfl
  have hnone : NoEchoMissed js s events before.id ↔
      countSince (act js) (activates before.id) (echoes before.id) s (acts events) = 0 := countSince_eq_zero.symm
  show countSince _ _ _ _ _ = missed js s events before.id ↔ NoEchoMissed js s events before.id
  rw [hsplit, hnone]
  omega

/-! ## A user who writes and goes on -/

/-- User 1000 logs in, and has two contacts. -/
def loginOfTwo : Object :=
  object [("type", ofInt32 MsgType.LoginSuccessReturn.toInt), ("id", .int 1000),
    ("users", .arr [.obj (object [("id", .int 1001)]), .obj (object [("id", .int 1002)])])]

/-- The page of that user. -/
def ofTwo : Inbox := handleOne .plain ⟨.initial, []⟩ loginOfTwo

/-- A private message, as the server hands it out. -/
def privateMessage (from_id to_id : Int32) : Object :=
  MessageRouter.messageToJson .ReceiveMsg
    ⟨1, from_id, to_id, 0, lit "m", lit "text", 0, true, false, false, false, 0, 0, []⟩

theorem justLoggedIn_ofTwo : JustLoggedIn .plain ofTwo := ⟨_, loginOfTwo, by decide +kernel, rfl⟩

/-- A message that has been missed, and no echo. -/
theorem unread_iff_missed :
    ∃ c ∈ ([Event.receive (privateMessage 1002 1000)].foldl (step .plain) ofTwo).contacts,
      c.unread = 1 ∧ c.unread = missed .plain ofTwo [.receive (privateMessage 1002 1000)] c.id := by
  obtain ⟨c, hc, hone, hnone⟩ :
      ∃ c ∈ ([Event.receive (privateMessage 1002 1000)].foldl (step .plain) ofTwo).contacts, c.unread = 1 ∧
        ∀ p ∈ traceSince (act .plain) (activates c.id) ofTwo (acts [.receive (privateMessage 1002 1000)]),
          echoes c.id p.1 p.2 = false := by
    decide +kernel
  have hiff := unread_iff .plain ofTwo justLoggedIn_ofTwo [.receive (privateMessage 1002 1000)] (by decide +kernel) c hc
  exact ⟨c, hc, hone, hiff.mpr hnone⟩

/-- The user writes to contact 1002 and goes back to 1001 before the echo is there. -/
def writesAndLeaves : List Event :=
  [.setActiveContact (some 1002), .setActiveContact (some 1001), .receive (privateMessage 1000 1002)]

/-- Their own message counts as unread. -/
theorem own_message_unread :
    JustLoggedIn .plain ofTwo ∧ (∀ a ∈ acts writesAndLeaves, leavesContacts (ofTwo.contacts.map (·.id)) a = true) ∧
      ∃ c ∈ (writesAndLeaves.foldl (step .plain) ofTwo).contacts,
        c.unread = 1 ∧ missed .plain ofTwo writesAndLeaves c.id = 0 :=
  ⟨justLoggedIn_ofTwo, by decide +kernel, by decide +kernel⟩

end Inbox

end Client

end LanChat
