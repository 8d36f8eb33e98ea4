import LanChat.Client.MessageStore

/-!
# The contacts of the client

`messageStore.contacts` and `friendStore.friends`: who is shown, and as online or
offline. The unread counts, the last messages and the typing marks are left out,
and so are the friend requests that are waiting for an answer.
-/

namespace LanChat

open Lib Json

namespace Client

/-- `status` of a contact. No code sets `busy`. -/
inductive ContactStatus where
  | online
  | offline
deriving DecidableEq

/-- `Contact`. Its fields are whatever the payload holds. -/
structure Contact where
  id : Option Value
  nickname : Option Value
  headId : Option Value
  status : ContactStatus

/-- The id of `currentUser`, `contacts` and `friends`. -/
structure Page where
  currentUser : Option Int64
  contacts : List Contact
  friends : List Contact

/-- The number that a value is, in millionths. -/
def micros : Value → Option Int
  | .int i => some (i.toInt * 10 ^ 6)
  | .float d => some (if d.neg then -(d.micros : Int) else d.micros)
  | _ => none

/-- `===` of two values of payloads; arrays and objects are compared by reference. -/
def strictEq : Option Value → Option Value → Bool
  | none, none => true
  | some .null, some .null => true
  | some (.bool b), some (.bool b') => b = b'
  | some (.str s), some (.str s') => s = s'
  | some v, some v' => (micros v).isSome && micros v = micros v'
  | _, _ => false

theorem strictEq_ofInt32 (a b : Int32) : strictEq (some (ofInt32 a)) (some (ofInt32 b)) = decide (a = b) := by
  simp [strictEq, ofInt32, micros, Int32.toInt_inj]

namespace Page

/-- The page when it has been loaded. -/
def initial : Page := ⟨none, [], []⟩

/-- A contact that has just been received. -/
def toContact (info : Object) : Contact :=
  ⟨member info "id", member info "nickname", member info "headId", .offline⟩

/-- `toContacts`. -/
def toContacts (infos : Option Value) : List Contact := (elements infos).map toContact

/-- The contacts, those of the user with the new status. -/
def withStatus (user : Option Value) (status : ContactStatus) (contacts : List Contact) : List Contact :=
  contacts.map fun c => if strictEq c.id user then { c with status := status } else c

/-- `updateContactStatus`. -/
def updateContactStatus (page : Page) (user : Option Value) (status : ContactStatus) : Page :=
  { page with contacts := withStatus user status page.contacts }

/-- `addContact`. -/
def addContact (page : Page) (contact : Contact) : Page :=
  { page with contacts := (page.contacts.filter fun c => !strictEq c.id contact.id) ++ [contact] }

/-- `mergeFriendsIntoContacts`. -/
def mergeFriendsIntoContacts (page : Page) (friends : List Contact) : Page :=
  { page with contacts := (page.contacts.filter fun c => !friends.any fun f => strictEq f.id c.id) ++ friends }

/-- `LoginSuccessReturn`: everybody is shown as offline at first. -/
def loggedIn (raw : Object) : Page where
  currentUser := some (int64Field raw "id" 0)
  contacts := toContacts (if truthy (member raw "users") then member raw "users" else member raw "friends")
  friends := toContacts (member raw "friends")

/-- `FriendAcceptReturn`. -/
def friendAccepted (js : Js) (page : Page) (raw : Object) : Page :=
  let existing := page.contacts.find? fun c => strictEq c.id (member raw "friendId")
  let contact := existing.getD
    ⟨member raw "friendId",
      some (orElse (member raw "nickname") (.str (js.t "common.unknownUser" (member raw "friendId")))),
      member raw "headId", .offline⟩
  let page := if existing.isSome then page else page.addContact contact
  { page with friends := (page.friends.filter fun f => !strictEq f.id contact.id) ++ [contact] }

/-- `FriendRemoveReturn`. -/
def friendRemoved (page : Page) (raw : Object) : Page :=
  { page with friends := page.friends.filter fun f => !strictEq f.id (member raw "friendId") }

/-- `FriendListReturn`. -/
def friendsListed (page : Page) (raw : Object) : Page :=
  let friends := toContacts (member raw "friends")
  { page.mergeFriendsIntoContacts friends with friends := friends }

/-- `FriendOnline`. -/
def friendOnline (page : Page) (raw : Object) : Page :=
  let nextStatus := if Store.isOk raw then ContactStatus.online else .offline
  { page.updateContactStatus (member raw "friendId") nextStatus with
    friends := withStatus (member raw "friendId") nextStatus page.friends }

/-- The cases of `handleIncomingMessage` and `handleIncomingFriendEvent`, without
`OfflineMessages`. -/
def handleOne (js : Js) (page : Page) (raw : Object) : Page :=
  match typeField raw with
  | some .LoginSuccessReturn => loggedIn raw
  | some .UserOnline => page.updateContactStatus (some (orElse (member raw "id") (.int 0))) .online
  | some .UserOffline => page.updateContactStatus (some (orElse (member raw "id") (.int 0))) .offline
  | some .FriendAcceptReturn => if Store.isOk raw then page.friendAccepted js raw else page
  | some .FriendRemoveReturn =>
    if Store.isOk raw && truthy (member raw "friendId") then page.friendRemoved raw else page
  | some .FriendListReturn => page.friendsListed raw
  | some .FriendOnline => page.friendOnline raw
  | _ => page

/-- `handleIncomingMessage`. The server puts no batch into a batch. -/
def handleIncomingMessage (js : Js) (page : Page) (raw : Object) : Page :=
  match typeField raw with
  | some .OfflineMessages => (elements (member raw "messages")).foldl (handleOne js) page
  | _ => page.handleOne js raw

/-- `logout` of the three stores; no request is sent. -/
def logout (_ : Page) : Page := initial

/-! ## What a list shows -/

/-- The contact is the user. -/
def isOf (user : Int32) (c : Contact) : Bool := strictEq c.id (some (ofInt32 user))

/-- The list shows the user as online or not, and it has an entry for the user if
`known`. -/
structure Shows (list : List Contact) (user : Int32) (known online : Bool) : Prop where
  status : ∀ c ∈ list, isOf user c = true → (c.status = .online ↔ online = true)
  listed : known = true → ∃ c ∈ list, isOf user c = true

section Shows

variable {list : List Contact} {user other : Int32} {known online : Bool} {status : ContactStatus} {c : Contact}

theorem isOf_unique (h : isOf user c = true) (h' : isOf other c = true) : user = other := by
  obtain ⟨id, nickname, headId, status⟩ := c
  have hinj : user.toInt = other.toInt → user = other := Int32.toInt_inj.mp
  unfold isOf strictEq at h h'
  cases id with
  | none => cases h
  | some v => cases v <;> simp_all [ofInt32, micros, Int32.toInt_inj]

theorem isOf_withStatus (user : Int32) (v : Option Value) (status : ContactStatus) (c : Contact) :
    isOf user (if strictEq c.id v then { c with status := status } else c) = isOf user c := by
  split <;> rfl

/-- The entry of a user may be shown anew. -/
theorem Shows.renewed {before : Bool} (h : Shows list user known before) (honline : status = .online ↔ online = true) :
    Shows (Page.withStatus (some (ofInt32 user)) status list) user known online where
  status c hc huser := by
    obtain ⟨old, -, rfl⟩ := List.mem_map.mp hc
    rw [isOf_withStatus] at huser
    rw [if_pos (show strictEq old.id (some (ofInt32 user)) = true from huser)]
    exact honline
  listed hknown := by
    obtain ⟨c, hc, huser⟩ := h.listed hknown
    exact ⟨_, List.mem_map_of_mem hc, (isOf_withStatus ..).trans huser⟩

/-- Nothing is changed of the others. -/
theorem Shows.beside (h : Shows list user known online) (hother : other ≠ user) :
    Shows (Page.withStatus (some (ofInt32 other)) status list) user known online where
  status c hc huser := by
    obtain ⟨old, hold, rfl⟩ := List.mem_map.mp hc
    rw [isOf_withStatus] at huser
    have hno : ¬strictEq old.id (some (ofInt32 other)) = true := fun hsame => hother (isOf_unique hsame huser)
    rw [if_neg hno]
    exact h.status old hold huser
  listed hknown := by
    obtain ⟨c, hc, huser⟩ := h.listed hknown
    exact ⟨_, List.mem_map_of_mem hc, (isOf_withStatus ..).trans huser⟩

theorem withStatus_withStatus (v : Option Value) (status : ContactStatus) (list : List Contact) :
    withStatus v status (withStatus v status list) = withStatus v status list := by
  unfold withStatus
  rw [List.map_map]
  refine List.map_congr_left fun c _ => ?_
  simp only [Function.comp_apply]
  split <;> simp_all

end Shows

/-! ## What a frame does to the page -/

/-- Both lists show the user anew. -/
def announce (page : Page) (user : Int32) (status : ContactStatus) : Page :=
  { page with
    contacts := withStatus (some (ofInt32 user)) status page.contacts
    friends := withStatus (some (ofInt32 user)) status page.friends }

section Handle

variable {js : Js} {page : Page} {raw : Object}

theorem announce_announce (page : Page) (user : Int32) (status : ContactStatus) :
    (page.announce user status).announce user status = page.announce user status := by
  simp only [announce, withStatus_withStatus]

/-- The types of the frames that change the page. -/
def seen : List MsgType :=
  [.LoginSuccessReturn, .UserOnline, .UserOffline, .FriendAcceptReturn, .FriendRemoveReturn, .FriendListReturn,
    .FriendOnline, .OfflineMessages]

theorem handleOne_of_type {t : MsgType} (htype : typeField raw = some t) (ht : t ∉ seen) :
    page.handleOne js raw = page := by
  unfold handleOne
  rw [htype]
  split <;> first | rfl | simp_all [seen]

theorem handle_of_type {t : MsgType} (htype : typeField raw = some t) (ht : t ∉ seen) :
    page.handleIncomingMessage js raw = page := by
  unfold handleIncomingMessage
  rw [handleOne_of_type htype ht, htype]
  split
  · next h => simp_all [seen]
  · rfl

/-- A login does not depend on what the page has shown before. -/
theorem handle_login (htype : typeField raw = some .LoginSuccessReturn) :
    page.handleIncomingMessage js raw = loggedIn raw := by
  simp only [handleIncomingMessage, handleOne, htype]

theorem handle_userOffline {user : Int32} (htype : typeField raw = some .UserOffline)
    (hid : member raw "id" = some (ofInt32 user)) :
    page.handleIncomingMessage js raw = page.updateContactStatus (some (ofInt32 user)) .offline := by
  simp only [handleIncomingMessage, handleOne, htype, hid]
  rfl

theorem handle_friendOnline {user : Int32} (htype : typeField raw = some .FriendOnline)
    (hid : member raw "friendId" = some (ofInt32 user)) :
    page.handleIncomingMessage js raw = page.announce user (if Store.isOk raw then .online else .offline) := by
  simp only [handleIncomingMessage, handleOne, htype, friendOnline, hid]
  rfl

theorem currentUser_friendAccepted : (page.friendAccepted js raw).currentUser = page.currentUser := by
  simp only [friendAccepted]
  split <;> rfl

theorem currentUser_handleOne (h : typeField raw ≠ some .LoginSuccessReturn) :
    (page.handleOne js raw).currentUser = page.currentUser := by
  unfold handleOne
  split
  · next htype => exact absurd htype h
  · rfl
  · rfl
  · split
    · exact currentUser_friendAccepted
    · rfl
  · split <;> rfl
  · rfl
  · rfl
  · rfl

/-- Only a login brings a user onto the page, and then it does not matter what
the page has been before. -/
theorem foldl_handleOne_or (js : Js) (page other : Page) (raws : List Object) :
    raws.foldl (handleOne js) page = raws.foldl (handleOne js) other ∨
      (raws.foldl (handleOne js) page).currentUser = page.currentUser ∧
        (raws.foldl (handleOne js) other).currentUser = other.currentUser := by
  induction raws generalizing page other with
  | nil => exact .inr ⟨rfl, rfl⟩
  | cons raw raws ih =>
    rcases em (typeField raw = some .LoginSuccessReturn) with htype | htype
    · left
      simp only [List.foldl_cons, handleOne, htype]
    · rcases ih (page.handleOne js raw) (other.handleOne js raw) with hsame | ⟨hpage, hother⟩
      · exact .inl hsame
      · exact .inr ⟨hpage.trans (currentUser_handleOne htype), hother.trans (currentUser_handleOne htype)⟩

theorem foldl_handle_or (js : Js) (page other : Page) (raws : List Object) :
    raws.foldl (handleIncomingMessage js) page = raws.foldl (handleIncomingMessage js) other ∨
      (raws.foldl (handleIncomingMessage js) page).currentUser = page.currentUser ∧
        (raws.foldl (handleIncomingMessage js) other).currentUser = other.currentUser := by
  induction raws generalizing page other with
  | nil => exact .inr ⟨rfl, rfl⟩
  | cons raw raws ih =>
    have hone : page.handleIncomingMessage js raw = other.handleIncomingMessage js raw ∨
        (page.handleIncomingMessage js raw).currentUser = page.currentUser ∧
          (other.handleIncomingMessage js raw).currentUser = other.currentUser := by
      unfold handleIncomingMessage
      split
      · exact foldl_handleOne_or js page other _
      · exact foldl_handleOne_or js page other [raw]
    rcases hone with hsame | ⟨hpage, hother⟩
    · left
      rw [List.foldl_cons, List.foldl_cons, hsame]
    · rcases ih (page.handleIncomingMessage js raw) (other.handleIncomingMessage js raw) with hsame | ⟨hpage', hother'⟩
      · exact .inl hsame
      · exact .inr ⟨hpage'.trans hpage, hother'.trans hother⟩

end Handle

end Page

end Client

end LanChat
