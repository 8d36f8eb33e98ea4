import LanChat.Client.DirectPeers
import LanChat.Client.OnlineStatus
import LanChat.Client.Reading
import LanChat.Server.Acquaintance

/-!
# The friends that a page lists

What each frame does to the list of friends, and from it the runs in which every
page that has caught up lists the friends that the server has for its user
(`friend_lists_agree`).
-/

namespace LanChat

open Lib Json

namespace Client

open MessageRouter FriendRepository

namespace Page

/-! ## What a frame does to the list -/

/-- The user is in the list of friends. -/
def befriends (page : Page) (other : Int32) : Bool := page.friends.any (isOf other)

/-- Both pages have the same user and the same friends. -/
def Alike (page page' : Page) : Prop :=
  page'.currentUser = page.currentUser ∧ ∀ other, page'.befriends other = page.befriends other

/-- The types of the frames that may bring a user or change the list. -/
def relists : List MsgType :=
  [.LoginSuccessReturn, .FriendAcceptReturn, .FriendRemoveReturn, .FriendListReturn, .OfflineMessages]

section Frames

variable {js : Js} {page page' page'' : Page} {raw : Object} {user other : Int32} {c : Contact}

theorem Alike.refl (page : Page) : Alike page page := ⟨rfl, fun _ => rfl⟩

theorem Alike.trans (h : Alike page page') (h' : Alike page' page'') : Alike page page'' :=
  ⟨h'.1.trans h.1, fun other => (h'.2 other).trans (h.2 other)⟩

theorem isOf_iff : isOf user c = true ↔ c.id.bind micros = some (user.toInt * 10 ^ 6) := by
  obtain ⟨id, nickname, headId, status⟩ := c
  cases id with
  | none => simp [isOf, strictEq]
  | some v => cases v <;> simp [isOf, strictEq, ofInt32, micros]

/-- What equals a number is the same number. -/
theorem micros_of_strictEq {a b : Option Value} {m : Int} (h : strictEq a b = true) (ha : a.bind micros = some m) :
    b.bind micros = some m := by
  cases a with
  | none => cases ha
  | some v =>
    cases b with
    | none => cases v <;> cases h
    | some v' =>
      have hv : micros v = some m := ha
      have hsame : some m = micros v' := by
        cases v with
        | int i => simpa [strictEq, hv] using h
        | float d => simpa [strictEq, hv] using h
        | _ => cases hv
      exact hsame.symm

theorem any_withStatus (v : Option Value) (status : ContactStatus) (list : List Contact) :
    (withStatus v status list).any (isOf other) = list.any (isOf other) := by
  rw [withStatus, List.any_map]
  exact congrArg list.any (funext fun c => isOf_withStatus other v status c)

theorem alike_announce (page : Page) (user : Int32) (status : ContactStatus) : Alike page (page.announce user status) :=
  ⟨rfl, fun _ => any_withStatus ..⟩

/-- The other frames leave the list as it is. -/
theorem alike_handle {t : MsgType} (htype : typeField raw = some t) (ht : t ∉ relists) :
    Alike page (page.handleIncomingMessage js raw) := by
  have hone : page.handleIncomingMessage js raw = page.handleOne js raw := by
    unfold handleIncomingMessage
    rw [htype]
    split
    · next h =>
      cases h
      exact absurd (by decide) ht
    · rfl
  rw [hone]
  unfold handleOne
  rw [htype]
  split
  · next h =>
    cases h
    exact absurd (by decide) ht
  · exact ⟨rfl, fun _ => rfl⟩
  · exact ⟨rfl, fun _ => rfl⟩
  · next h =>
    cases h
    exact absurd (by decide) ht
  · next h =>
    cases h
    exact absurd (by decide) ht
  · next h =>
    cases h
    exact absurd (by decide) ht
  · exact ⟨rfl, fun _ => any_withStatus ..⟩
  · exact .refl page

/-- If `ok`, the user is in the list now, or is not, as `listed` says. -/
structure Sets (listed ok : Bool) (user : Int32) (page page' : Page) : Prop where
  currentUser : page'.currentUser = page.currentUser
  befriends : ∀ other, page'.befriends other = if ok = true ∧ other = user then listed else page.befriends other

theorem sets_of_not (h : page' = page) (listed : Bool) (user : Int32) : Sets listed false user page page' := by
  subst h
  exact ⟨rfl, fun other => by simp⟩

theorem handle_accept (htype : typeField raw = some .FriendAcceptReturn) (hid : member raw "friendId" = some (ofInt32 user)) :
    Sets true (Store.isOk raw) user page (page.handleIncomingMessage js raw) := by
  simp only [handleIncomingMessage, handleOne, htype]
  cases hok : Store.isOk raw with
  | false => exact sets_of_not rfl true user
  | true =>
    refine ⟨currentUser_friendAccepted, fun other => ?_⟩
    obtain ⟨contact, hcontact, hfriends⟩ : ∃ contact, isOf user contact = true ∧ (page.friendAccepted js raw).friends =
        (page.friends.filter fun f => !strictEq f.id contact.id) ++ [contact] := by
      simp only [friendAccepted, hid]
      cases hfind : page.contacts.find? fun c => strictEq c.id (some (ofInt32 user)) with
      | none =>
        refine ⟨_, ?_, rfl⟩
        exact (strictEq_ofInt32 user user).trans (decide_eq_true rfl)
      | some c => exact ⟨c, List.find?_some hfind, rfl⟩
    rw [if_pos rfl, befriends, hfriends, List.any_append, List.any_filter]
    rcases eq_or_ne other user with rfl | hother
    · simp [hcontact]
    · have hnew : isOf other contact = false :=
        Bool.eq_false_iff.mpr fun h => hother (isOf_unique h hcontact)
      have hold : ∀ f, isOf other f = true → strictEq f.id contact.id = false := fun f hf => by
        rw [Bool.eq_false_iff]
        intro heq
        exact hother (isOf_unique (isOf_iff.mpr (micros_of_strictEq heq (isOf_iff.mp hf))) hcontact)
      rw [if_neg fun h => hother h.2]
      simp only [List.any_cons, hnew, List.any_nil, Bool.or_false]
      refine congrArg page.friends.any (funext fun f => ?_)
      cases hf : isOf other f with
      | false => rw [Bool.and_false]
      | true =>
        rw [hold f hf]
        rfl

theorem handle_remove (htype : typeField raw = some .FriendRemoveReturn) (hid : member raw "friendId" = some (ofInt32 user))
    (hpos : Store.isOk raw = true → 0 < user) :
    Sets false (Store.isOk raw) user page (page.handleIncomingMessage js raw) := by
  simp only [handleIncomingMessage, handleOne, htype]
  cases hok : Store.isOk raw with
  | false => exact sets_of_not rfl false user
  | true =>
    have htruthy : truthy (some (ofInt32 user)) = true := by
      have hne : user.toInt64 ≠ 0 := fun h0 => by
        have huser := congrArg Int64.toInt32 h0
        rw [Int32.toInt32_toInt64] at huser
        exact absurd (hpos hok) (huser ▸ Int32.lt_irrefl)
      exact decide_eq_true hne
    rw [hid, htruthy, Bool.and_self, if_pos rfl]
    refine ⟨rfl, fun other => ?_⟩
    simp only [friendRemoved, befriends, hid, List.any_filter, true_and]
    rcases eq_or_ne other user with rfl | hother
    · have hnone : ∀ f : Contact, (!strictEq f.id (some (ofInt32 other)) && isOf other f) = false := fun f =>
        Bool.not_and_self _
      simp [hnone]
    · rw [if_neg hother]
      refine congrArg page.friends.any (funext fun f => ?_)
      cases hf : isOf other f with
      | false => rw [Bool.and_false]
      | true =>
        have hnot : strictEq f.id (some (ofInt32 user)) = false :=
          Bool.eq_false_iff.mpr fun h => hother (isOf_unique hf h)
        rw [hnot]
        rfl

theorem any_toContacts (friends : List UserInfo) (status : UserInfo → Bytes) (other : Int32) :
    (toContacts (some (.arr (friends.map fun u => .obj (friendToJson u (status u)))))).any (isOf other) =
      decide (other ∈ friends.map (·.id)) := by
  induction friends with
  | nil => rfl
  | cons u friends ih =>
    have hid : isOf other (toContact (friendToJson u (status u))) = decide (u.id = other) := by
      have hmember : (toContact (friendToJson u (status u))).id = some (ofInt32 u.id) := by
        simp [toContact, member, friendToJson, userToJson, find?_object]
      rw [isOf, hmember, strictEq_ofInt32]
    show (isOf other (toContact (friendToJson u (status u))) || _) = _
    refine (congrArg₂ or hid ih).trans ?_
    rw [List.map_cons]
    simp [List.mem_cons, eq_comm]

end Frames

end Page

/-! ## What a request does to the friends -/

section Friends

variable {rows rows' : List FriendshipRow} {uid fromUid toUid user other : Int32} {request : Object}

/-- The two users are these two, in either order. -/
def SamePair (uidA uidB user other : Int32) : Prop := user = uidA ∧ other = uidB ∨ user = uidB ∧ other = uidA

instance (uidA uidB user other : Int32) : Decidable (SamePair uidA uidB user other) :=
  inferInstanceAs (Decidable (_ ∨ _))

theorem SamePair.swap {uidA uidB : Int32} (h : SamePair uidA uidB user other) : SamePair user other uidA uidB := by
  rcases h with ⟨rfl, rfl⟩ | ⟨rfl, rfl⟩
  · exact .inl ⟨rfl, rfl⟩
  · exact .inr ⟨rfl, rfl⟩

theorem samePair_comm (uidA uidB : Int32) : SamePair uidA uidB user other ↔ SamePair uidB uidA user other := or_comm

theorem samePair_of_concerns {row : FriendshipRow} (h : concerns fromUid toUid row = true)
    (h' : concerns user other row = true) : SamePair fromUid toUid user other := by
  rw [concerns_iff] at h h'
  rcases h with ⟨rfl, rfl⟩ | ⟨rfl, rfl⟩ <;> rcases h' with ⟨rfl, rfl⟩ | ⟨rfl, rfl⟩
  · exact .inl ⟨rfl, rfl⟩
  · exact .inr ⟨rfl, rfl⟩
  · exact .inr ⟨rfl, rfl⟩
  · exact .inl ⟨rfl, rfl⟩

theorem concerns_of_samePair {row : FriendshipRow} (h : concerns fromUid toUid row = true)
    (h' : SamePair fromUid toUid user other) : concerns user other row = true := by
  rw [concerns_iff] at h ⊢
  rcases h' with ⟨rfl, rfl⟩ | ⟨rfl, rfl⟩
  · exact h
  · exact h.symm

theorem concerns_of_isPending {row : FriendshipRow} (h : isPending fromUid toUid row = true) :
    concerns fromUid toUid row = true := concerns_iff.mpr (.inl (isPending_iff.mp h).1)

/-- An accepted row is not pending. -/
theorem accepted_of_updated {u : FriendshipRow → FriendshipRow} {row : FriendshipRow}
    (hrow : row ∈ rows) (h : isAccepted user other row = true) : row ∈ updated (isPending fromUid toUid) u rows := by
  have hnot : isPending fromUid toUid row = false := by
    rw [Bool.eq_false_iff]
    intro hpending
    simp [isAccepted, (isPending_iff.mp hpending).2] at h
  exact List.mem_map.mpr ⟨row, hrow, by rw [hnot]; rfl⟩

theorem any_requested (h : Requested fromUid toUid rows rows') :
    rows'.any (isAccepted user other) = rows.any (isAccepted user other) := by
  rcases h with ⟨-, row, -, -, hstatus, rfl⟩ | ⟨requestMsg, at_, -, rfl⟩
  · simp [isAccepted, hstatus]
  · rw [Bool.eq_iff_iff, List.any_eq_true, List.any_eq_true]
    constructor
    · rintro ⟨row, hrow, haccepted⟩
      rcases mem_updated hrow with ⟨hold, -⟩ | ⟨old, hold, hpending, rfl⟩
      · exact ⟨row, hold, haccepted⟩
      · simp [isAccepted, (isPending_iff.mp hpending).2] at haccepted
    · exact fun ⟨row, hrow, haccepted⟩ => ⟨row, accepted_of_updated hrow haccepted, haccepted⟩

theorem any_accepted (h : Answered fromUid toUid .accepted rows rows') :
    rows'.any (isAccepted user other) =
      if SamePair fromUid toUid user other then true else rows.any (isAccepted user other) := by
  obtain ⟨at_, hany, rfl⟩ := h
  obtain ⟨row, hrow, hpending⟩ := List.any_eq_true.mp hany
  have hconcerns := concerns_of_isPending hpending
  split
  · next hpair =>
    refine List.any_eq_true.mpr ⟨_, List.mem_map.mpr ⟨row, hrow, if_pos hpending⟩, ?_⟩
    exact Bool.and_eq_true_iff.mpr ⟨rfl, concerns_of_samePair hconcerns hpair⟩
  · next hpair =>
    rw [Bool.eq_iff_iff, List.any_eq_true, List.any_eq_true]
    constructor
    · rintro ⟨row', hrow', haccepted⟩
      rcases mem_updated hrow' with ⟨hold, -⟩ | ⟨old, hold, hpending', rfl⟩
      · exact ⟨row', hold, haccepted⟩
      · exact absurd (samePair_of_concerns (concerns_of_isPending hpending') (Bool.and_eq_true_iff.mp haccepted).2) hpair
    · exact fun ⟨row', hrow', haccepted⟩ => ⟨row', accepted_of_updated hrow' haccepted, haccepted⟩

/-- Of two users no two rows are pending or accepted. -/
theorem eq_of_live (h : Proper rows) {row row' : FriendshipRow} (hrow : row ∈ rows) (hrow' : row' ∈ rows)
    (hconcerns : concerns user other row = true) (hconcerns' : concerns user other row' = true)
    (hlive : isLive row = true) (hlive' : isLive row' = true) : row = row' := by
  have hmem : row ∈ rows.filter fun r => concerns user other r && isLive r :=
    List.mem_filter.mpr ⟨hrow, by rw [hconcerns, hlive]; rfl⟩
  have hmem' : row' ∈ rows.filter fun r => concerns user other r && isLive r :=
    List.mem_filter.mpr ⟨hrow', by rw [hconcerns', hlive']; rfl⟩
  obtain ⟨only, honly⟩ := List.length_eq_one_iff.mp
    (Nat.le_antisymm (h.live_le_one user other) (List.length_pos_of_mem hmem))
  rw [honly, List.mem_singleton] at hmem hmem'
  rw [hmem, hmem']

/-- Whose request is pending is no friend. -/
theorem any_rejected (hproper : Proper rows) (h : Answered fromUid toUid .rejected rows rows') :
    rows'.any (isAccepted user other) =
      if SamePair fromUid toUid user other then false else rows.any (isAccepted user other) := by
  obtain ⟨at_, hany, rfl⟩ := h
  obtain ⟨row, hrow, hpending⟩ := List.any_eq_true.mp hany
  have hold : ∀ row' ∈ updated (isPending fromUid toUid) (fun r => { r with status := .rejected, updated_at := at_ }) rows,
      isAccepted user other row' = true → row' ∈ rows := by
    intro row' hrow' haccepted
    rcases mem_updated hrow' with ⟨hold, -⟩ | ⟨old, -, -, rfl⟩
    · exact hold
    · cases (Bool.and_eq_true_iff.mp haccepted).1
  split
  · next hpair =>
    refine List.any_eq_false.mpr fun row' hrow' haccepted => ?_
    obtain ⟨hstatus, hconcerns⟩ := Bool.and_eq_true_iff.mp haccepted
    have hsame := eq_of_live hproper hrow (hold row' hrow' haccepted)
      (concerns_of_samePair (concerns_of_isPending hpending) hpair) hconcerns (isLive_of_isPending row hpending)
      (by rw [isLive, of_decide_eq_true hstatus]; rfl)
    rw [← hsame, (isPending_iff.mp hpending).2] at hstatus
    cases hstatus
  · rw [Bool.eq_iff_iff, List.any_eq_true, List.any_eq_true]
    constructor
    · rintro ⟨row', hrow', haccepted⟩
      exact ⟨row', hold row' hrow' haccepted, haccepted⟩
    · rintro ⟨row', hrow', haccepted⟩
      exact ⟨row', accepted_of_updated hrow' haccepted, haccepted⟩

theorem any_removed (h : Removed fromUid toUid rows rows') :
    rows'.any (isAccepted user other) =
      if SamePair fromUid toUid user other then false else rows.any (isAccepted user other) := by
  rw [h, List.any_filter]
  split
  · next hpair =>
    refine List.any_eq_false.mpr fun row _ hrow => ?_
    obtain ⟨hnot, haccepted⟩ := Bool.and_eq_true_iff.mp hrow
    have hconcerns : concerns fromUid toUid row = true :=
      concerns_of_samePair (Bool.and_eq_true_iff.mp haccepted).2 hpair.swap
    rw [hconcerns] at hnot
    cases hnot
  · next hpair =>
    refine congrArg rows.any (funext fun row => ?_)
    cases haccepted : isAccepted user other row with
    | false => rw [Bool.and_false]
    | true =>
      have hnot : concerns fromUid toUid row = false := Bool.eq_false_iff.mpr fun hconcerns =>
        hpair (samePair_of_concerns hconcerns (Bool.and_eq_true_iff.mp haccepted).2)
      rw [hnot]
      rfl

end Friends

/-! ## Pages that list the friends -/

namespace Clients

variable (js : Js) (env : Env)

/-- One step, with any event of the server. -/
def proceeds (w : Clients) : ClientEvent → Option Clients
  | .server event => w.serverHandles env event
  | e => w.step js env e

/-- A page that has caught up lists the friends that the server has for the user
whom it finds on the session. -/
def ListsFriends (w : Clients) (session : SessionId) : Prop :=
  w.down session = [] → (w.page session).currentUser ≠ none →
    ∀ user, w.server.pool.findByUserId user = some session →
      ∀ other, (w.page session).befriends other = friends w.server user other

end Clients

/-- An acceptance or a removal comes from the session that the server finds for
its user, and nobody removes a friendship of two others. -/
def Attended (st : Server) : TcpServer.Event → Prop
  | .frame session json now _ => TcpServer.Handled st session now → ∀ request ∈ readObject json,
      let uid := st.userId session
      (typeField request = some .FriendAccept ∨ typeField request = some .FriendRemove →
        ∀ t ∈ st.pool.findByUserId uid, t = session) ∧
      (typeField request = some .FriendRemove → 0 < uid → 0 < intField request "fromId" 0 →
        0 < intField request "toId" 0 → uid = intField request "fromId" 0 ∨ uid = intField request "toId" 0)
  | _ => True

instance decidableAttended (st : Server) : ∀ event, Decidable (Attended st event)
  | .accept _ | .readError _ | .sweep _ => .isTrue trivial
  | .frame _ _ _ _ => inferInstanceAs (Decidable (_ → ∀ _ ∈ _, _))

/-- An event that the server handles is attended, and a frame that a page handles is shown. -/
def AttendedFor (w : Clients) : ClientEvent → Prop
  | .server event => Attended w.server event
  | .receive session => ∀ payload ∈ (w.down session).head?, (shown (serialize payload)).isSome
  | .logout _ => True

instance decidableAttendedFor (w : Clients) : ∀ e, Decidable (AttendedFor w e)
  | .server event => inferInstanceAs (Decidable (Attended w.server event))
  | .receive session =>
    inferInstanceAs (Decidable (∀ payload ∈ (w.down session).head?, (shown (serialize payload)).isSome = true))
  | .logout _ => .isTrue trivial

/-- The page lists the friends of the user whom the roster has on the session. -/
def Listed (session : SessionId) (ρ : Roster) (rows : List FriendshipRow) (page : Page) : Prop :=
  page.currentUser ≠ none → ∀ user, ρ.pool.findByUserId user = some session →
    ∀ other, page.befriends other = rows.any (isAccepted user other)

section Events

variable {js : Js} {env : Env} {session t : SessionId} {ρ ρ' : Roster} {F : Database → Prop} {known : Int32 → Bool}
  {rows rows' : List FriendshipRow} {before page : Page} {listed ok : Bool} {uid friend : Int32} {request : Object}

/-- No page lists more or fewer, and the server finds nobody on another session. -/
theorem Listed.alike (h : Listed session ρ rows before) (halike : Page.Alike before page)
    (hfound : ∀ user, ρ'.pool.findByUserId user = some session → ρ.pool.findByUserId user = some session)
    (hrows : ∀ user other, rows'.any (isAccepted user other) = rows.any (isAccepted user other)) :
    Listed session ρ' rows' page := fun hlogged user huser other => by
  rw [halike.2, hrows]
  exact h (halike.1 ▸ hlogged) user (hfound user huser) other

/-- The page has read that the friendship of the two users has been set: on the
session of the one, or as the other. -/
structure ReadsBoth (session t : SessionId) (ρ : Roster) (listed ok : Bool) (uid friend : Int32) (before page : Page) :
    Prop where
  currentUser : page.currentUser = before.currentUser
  befriends : ∀ other, page.befriends other =
    if ok = true ∧ (t = session ∧ other = friend ∨ ρ.pool.findByUserId friend = some session ∧ other = uid) then listed
    else before.befriends other

theorem Listed.readsBoth (hi : ρ.pool.Indexed) (h : Listed session ρ rows before) (huid : ρ.pool.userId t = uid)
    (hattended : ∀ s ∈ ρ.pool.findByUserId uid, s = t) (hread : ReadsBoth session t ρ listed ok uid friend before page)
    (hrows : ∀ user other, rows'.any (isAccepted user other) =
      if ok = true ∧ SamePair uid friend user other then listed else rows.any (isAccepted user other)) :
    Listed session ρ rows' page := fun hlogged user huser other => by
  have hcarried : ∀ {u}, ρ.pool.findByUserId u = some session → ρ.pool.userId session = u := fun hu =>
    (hi.sound _ _ ((SessionPool.findByUserId_eq_some ..).mp hu).1).2
  have hreads : (t = session ∧ other = friend ∨ ρ.pool.findByUserId friend = some session ∧ other = uid) ↔
      SamePair uid friend user other := by
    unfold SamePair
    have hself : t = session ↔ user = uid := by
      constructor
      · rintro rfl
        exact (hcarried huser).symm.trans huid
      · rintro rfl
        exact (hattended session huser).symm
    have hother : ρ.pool.findByUserId friend = some session ↔ user = friend := by
      constructor
      · exact fun hfriend => (hcarried huser).symm.trans (hcarried hfriend)
      · rintro rfl
        exact huser
    rw [hself, hother]
  rw [hread.befriends, hrows, h (hread.currentUser ▸ hlogged) user huser other]
  simp only [hreads]

/-- A reply on the session of the one user, and a notice to the other. -/
theorem shown_readsBoth {reply notice : Object}
    (hreply : ∀ page, Page.Sets listed ok friend page (page.handleIncomingMessage js reply))
    (hnotice : ∀ page, Page.Sets listed ok uid page (page.handleIncomingMessage js notice)) :
    Shown js session ρ F (fun page => page = before)
      (deliver t reply >>= fun _ => deliverToUser friend notice fun _ => []) ρ (fun _ => F)
      fun _ => ReadsBoth session t ρ listed ok uid friend before := by
  let answered := if t = session then before.handleIncomingMessage js reply else before
  refine (shown_deliverContent (J := fun page => page = answered) fun page hpage => ?_).bind fun _ =>
    shown_deliverToUser fun page hpage => ?_
  · subst hpage
    rfl
  · subst hpage
    have hanswered : answered.currentUser = before.currentUser ∧ ∀ other, answered.befriends other =
        if ok = true ∧ t = session ∧ other = friend then listed else before.befriends other := by
      simp only [answered]
      split
      · next ht => simpa [ht] using And.intro (hreply before).currentUser (hreply before).befriends
      · next ht => simp [ht]
    split
    · next hfound =>
      refine ⟨(hnotice answered).currentUser.trans hanswered.1, fun other => ?_⟩
      rw [(hnotice answered).befriends, hanswered.2]
      grind
    · next hfound =>
      refine ⟨hanswered.1, fun other => ?_⟩
      rw [hanswered.2]
      simp [hfound]

theorem sets_acceptReply (page : Page) (ok : Bool) (friend : Int32) (info : Option UserInfo) :
    Page.Sets true ok friend page (page.handleIncomingMessage js (acceptReply ok friend info)) := by
  have htype : typeField (acceptReply ok friend info) = some .FriendAcceptReturn :=
    typeField_of_find? (by cases info <;> cases ok <;> simp [acceptReply, find?_object])
  have hid : member (acceptReply ok friend info) "friendId" = some (ofInt32 friend) := by
    cases info <;> cases ok <;> simp [member, acceptReply, find?_object]
  have hok : Store.isOk (acceptReply ok friend info) = ok := by
    cases info <;> cases ok <;> simp [Store.isOk, stringField, acceptReply, find?_object, statusText, text, lit_inj]
  have hsets : Page.Sets true _ friend page (page.handleIncomingMessage js (acceptReply ok friend info)) :=
    Page.handle_accept htype hid
  rwa [hok] at hsets

theorem sets_removeReply (page : Page) {ok : Bool} {friend : Int32} (hpos : ok = true → 0 < friend) (rejected : Bool) :
    Page.Sets false ok friend page (page.handleIncomingMessage js (removeReply ok rejected friend)) := by
  have htype : typeField (removeReply ok rejected friend) = some .FriendRemoveReturn :=
    typeField_of_find? (by rw [removeReply, find?_object]; cases rejected <;> cases ok <;> simp)
  have hid : member (removeReply ok rejected friend) "friendId" = some (ofInt32 friend) := by
    rw [member, removeReply, find?_object]
    cases rejected <;> cases ok <;> simp
  have hok : Store.isOk (removeReply ok rejected friend) = ok := by
    cases rejected <;> cases ok <;>
      simp [Store.isOk, stringField, removeReply, find?_object, statusText, text, lit_inj]
  have hsets : Page.Sets false _ friend page (page.handleIncomingMessage js (removeReply ok rejected friend)) :=
    Page.handle_remove htype hid (hok.symm ▸ hpos)
  rwa [hok] at hsets

/-- What a session reads as its user. -/
theorem shown_auth {f : Int32 → RouterM Unit} {I : Page → Prop} {J : Page → Prop} {G : Unit → Database → Prop}
    (h : Shown js session ρ F I (f (ρ.pool.userId t)) ρ' G fun _ => J) :
    Shown js session ρ F I (authenticatedUserId t >>= f) ρ' G fun _ => J := by
  rintro st page ⟨hst, hpage⟩
  have huid : st.userId t = ρ.pool.userId t := congrArg (fun r : Roster => r.pool.userId t) hst.1
  rw [Cmd.bind_of_run _ (run_authenticatedUserId st t), huid]
  exact h st page ⟨hst, hpage⟩

theorem shown_handleFriendAccept {db : Database} (htype : typeField request = some .FriendAccept) :
    Shown js session ρ (fun d => d = db) (fun page => page = before) (handleFriendAccept env t request) ρ
      (fun _ _ => True) fun _ page => ∃ ok, (friendCall env (ρ.pool.userId t) request db).result = .ok ok ∧
        ReadsBoth session t ρ true ok (ρ.pool.userId t) (intField request "fromId" 0) before page := by
  refine shown_auth ?_
  dsimp only
  rw [andAlso_onDb]
  refine (shown_onDb_exact _ _).bind fun ok => Cmd.Observed.of_fact fun hok =>
    (shown_onDb (Cmd.sat_true _)).bind fun fromUser => (shown_onDb (Cmd.sat_true _)).bind fun toUser =>
    (shown_readsBoth (sets_acceptReply · ok _ fromUser) (sets_acceptReply · ok _ toUser)).post fun _ _ _ h =>
      ⟨⟨h.1.1, trivial⟩, ok, ?_, h.2⟩
  simp only [friendCall, htype]
  exact hok

theorem shown_handleFriendRemove {db : Database} (hidle : db.Idle) (htype : typeField request = some .FriendRemove) :
    Shown js session ρ (fun d => d = db) (fun page => page = before) (handleFriendRemove env t request) ρ
      (fun _ _ => True) fun _ page => ∃ ok, (friendCall env (ρ.pool.userId t) request db).result = .ok ok ∧
        ReadsBoth session t ρ false ok (ρ.pool.userId t)
          (if ρ.pool.userId t = intField request "fromId" 0 then intField request "toId" 0
            else intField request "fromId" 0) before page := by
  refine shown_auth ?_
  dsimp only
  refine (shown_onDb_exact _ _).bind fun answer => Cmd.Observed.of_fact fun hanswer => ?_
  obtain ⟨answer', db', hrun, -, -⟩ := @run_rejectOrRemove env (ρ.pool.userId t) _
    (intField request "fromId" 0) (intField request "toId" 0) hidle
  rw [hrun] at hanswer
  cases hanswer
  have hpos : answer.2 = true →
      0 < ρ.pool.userId t ∧ 0 < intField request "fromId" 0 ∧ 0 < intField request "toId" 0 := by
    intro hok
    by_contra hneg
    have hinvalid : ρ.pool.userId t ≤ 0 ∨ intField request "fromId" 0 ≤ 0 ∨ intField request "toId" 0 ≤ 0 := by
      simpa only [not_and_or, Int32.not_lt] using hneg
    rw [rejectOrRemove, if_pos hinvalid] at hrun
    cases hrun
    cases hok
  refine (shown_readsBoth (sets_removeReply · ?_ answer.1) (sets_removeReply · ?_ answer.1)).post fun _ _ _ h =>
      ⟨⟨h.1.1, trivial⟩, answer.2, ?_, h.2⟩
  · intro hok
    split
    · exact (hpos hok).2.2
    · exact (hpos hok).2.1
  · exact fun hok => (hpos hok).1
  · simp only [friendCall, htype]
    rw [Cmd.bind_of_run _ hrun]
    rfl

theorem befriends_friendListReply (page : Page) (friends : List UserInfo) (presence : PresenceManager) (other : Int32) :
    (page.handleIncomingMessage js (friendListReply friends presence)).befriends other =
      decide (other ∈ friends.map (·.id)) := by
  have htype : typeField (friendListReply friends presence) = some .FriendListReturn :=
    typeField_of_find? (by rw [friendListReply, find?_object]; simp)
  have hfriends : member (friendListReply friends presence) "friends" =
      some (.arr (friends.map fun u => .obj (friendToJson u (presence.status u.id)))) := by
    simp [member, friendListReply, find?_object]
  simp only [Page.handleIncomingMessage, Page.handleOne, htype, Page.friendsListed, hfriends]
  exact Page.any_toContacts friends (fun u => presence.status u.id) other

theorem befriends_loginReply (page : Page) (user : UserInfo) (uid : Int32) (friends : List UserInfo)
    (status : UserInfo → Bytes) (users groups : List Value) (other : Int32) :
    (page.handleIncomingMessage js (loginReply user uid (friends.map fun u => .obj (friendToJson u (status u))) users
      groups)).befriends other = decide (other ∈ friends.map (·.id)) := by
  rw [handle_loginReply]
  exact Page.any_toContacts friends status other

/-- The page of the session lists the friends of the user; the others are left alone. -/
def Relisted (session t : SessionId) (rows : List FriendshipRow) (uid : Int32) (before page : Page) : Prop :=
  if t = session then ∀ other, page.befriends other = rows.any (isAccepted uid other) else Page.Alike before page

theorem Relisted.trans {after : Page} (h : Relisted session t rows uid before page) (halike : Page.Alike page after) :
    Relisted session t rows uid before after := by
  unfold Relisted at h ⊢
  split
  · next ht =>
    rw [if_pos ht] at h
    exact fun other => (halike.2 other).trans (h other)
  · next ht =>
    rw [if_neg ht] at h
    exact h.trans halike

theorem shown_handleFriendList (henv : env.Serves)
    (hknown : ∀ other, rows.any (isAccepted (ρ.pool.userId t) other) = true → known other = true) :
    Shown js session ρ (Standing env known rows) (fun page => page = before) (handleFriendList env t) ρ
      (fun _ => Standing env known rows) fun _ => Relisted session t rows (ρ.pool.userId t) before := by
  have hasks : Shown js session ρ (Standing env known rows) (fun page => page = before)
      (Cmd.asks fun st => st.presence) ρ (fun _ => Standing env known rows) fun _ page => page = before :=
    Cmd.Observed.of_sat (Cmd.sat_asks (E := fun _ _ => True) (W := fun _ => False) fun _ h => h) fun _ _ h => h.elim
  refine shown_auth <| (shown_onDb (Database.sat_getFriends_listed henv hknown)).bind fun friends =>
    Shown.fact fun hfriends => hasks.bind fun presence => shown_deliverContent fun page hpage => ?_
  subst hpage
  unfold Relisted
  split
  · refine fun other => ?_
    rw [befriends_friendListReply, Bool.eq_iff_iff, decide_eq_true_eq]
    exact hfriends other
  · exact .refl page

theorem relisted_acceptLogin (henv : env.Serves) (uid : Int32) (user : UserInfo)
    (hknown : ∀ other, rows.any (isAccepted uid other) = true → known other = true) :
    Shown js session ρ (Standing env known rows) (fun page => page = before) (acceptLogin env t uid user)
      (ρ.login t uid) (fun _ => Standing env known rows) fun _ => Relisted session t rows uid before := by
  have hbind : ∀ st, At ρ (Standing env known rows) st → (st.pool.bindUser t uid).2.bare = (ρ.pool.bindUser t uid).2 := by
    intro st hst
    rw [SessionPool.bare_bindUser]
    exact congrArg (fun r : Roster => (r.pool.bindUser t uid).2) hst.1
  have hasks : Shown js session (ρ.login t uid) (Standing env known rows) (fun page => page = before)
      (Cmd.asks fun st => st.presence) (ρ.login t uid) (fun _ => Standing env known rows) fun _ page => page = before :=
    Cmd.Observed.of_sat (Cmd.sat_asks (E := fun _ _ => True) (W := fun _ => False) fun _ h => h) fun _ _ h => h.elim
  refine (shown_modifyPool _ hbind).bind fun _ => (shown_modifyPresence _).bind fun _ => ?_
  change Shown js session (ρ.login t uid) _ _ _ _ _ _
  refine (shown_onDb (sat_of_guarded (standing_setOnlineStatus uid true))).bind fun _ => hasks.bind fun presence =>
    (shown_onDb (sat_of_guarded (reads_standing.getAllUsers))).bind fun users =>
    (shown_onDb (Database.sat_getFriends_listed henv hknown)).bind fun friends => Shown.fact fun hfriends =>
    (shown_onDb (sat_of_guarded (reads_standing.groupsForUser uid))).bind fun groups => ?_
  let page := if t = session then before.handleIncomingMessage js (loginReply user uid
      (friends.map fun u => .obj (friendToJson u (presence.status u.id)))
      (users.map fun u => .obj (userToJson u (presence.status u.id))) (groups.map fun g => .obj (groupToJson g)))
    else before
  have hpage : Relisted session t rows uid before page := by
    unfold Relisted
    split
    · next ht =>
      intro other
      simp only [page, if_pos ht]
      rw [befriends_loginReply, Bool.eq_iff_iff, decide_eq_true_eq]
      exact hfriends other
    · next ht =>
      simp only [page, if_neg ht]
      exact .refl before
  refine Cmd.Observed.bind (shown_deliverContent (J := fun p => p = page) fun p hp => by rw [hp]) fun _ =>
    (shown_deliverOffline uid).bind fun _ => (shown_broadcastPresence henv .UserOnline uid page).post fun _ _ after h =>
      ⟨h.1, hpage.trans ?_⟩
  rcases h.2.either with rfl | rfl
  · exact .refl _
  · exact Page.alike_announce ..

variable (js session) in
/-- A login that is admitted relists the page of its session. -/
theorem relisted_handleLogin (henv : env.Serves) {db : Database} (hdb : db.Friendly) :
    Cmd.Observed (reads js session) (fun st page => At ρ (fun d => d = db) st ∧ page = before)
      (handleLogin env t request) fun _ _ page =>
        (∀ info, (admitted env request db).result ≠ .ok (some info)) ∧ Page.Alike before page ∨
          (∃ info, (admitted env request db).result = .ok (some info)) ∧
            Relisted session t db.friendRows (intField request "id" 0) before page := by
  let uid := intField request "id" 0
  have hstanding := Database.standing_of_stored henv hdb.stored
  have hrefused : ∀ {F : Database → Prop} (code : Int32) (msg : String),
      (admitted env request db).result = .ok none →
      Cmd.Observed (reads js session) (fun st page => At ρ F st ∧ page = before)
        (deliver t (errorReply .LoginFailedReturn code msg)) fun _ _ page =>
          (∀ info, (admitted env request db).result ≠ .ok (some info)) ∧ Page.Alike before page ∨
            (∃ info, (admitted env request db).result = .ok (some info)) ∧
              Relisted session t db.friendRows uid before page := by
    intro F code msg hnone
    refine (shown_reply (by decide) (ofType_errorReply (List.mem_singleton_self _) code msg :
      OfType [.LoginFailedReturn] _)).post fun _ _ page h => .inl ⟨fun info hinfo => ?_, ?_⟩
    · rw [hnone] at hinfo
      cases hinfo
    · exact h.2 ▸ Page.Alike.refl before
  refine Cmd.observed_ite (fun hneg => hrefused _ _ ?_) fun hneg => ?_
  · simp only [admitted]
    rw [if_pos hneg]
    rfl
  have hverify := (standing_verifyPassword uid (stringField request "password" []) db hstanding).2.1
  refine (shown_onDb_exact _ _).bind fun verified => Cmd.Observed.of_fact fun hverified => ?_
  refine Cmd.observed_ite (fun hv => hrefused _ _ ?_) fun hv => ?_
  · simp only [admitted]
    rw [if_neg hneg, Cmd.bind_ok _ hverified, if_pos hv]
    rfl
  have hfind := (sat_findById_known uid _ (hverify verified hverified)).2.1
  refine (shown_onDb_exact _ _).bind fun found => Cmd.Observed.of_fact fun hfound => ?_
  have hadmitted : (admitted env request db).result = .ok found := by
    simp only [admitted]
    rw [if_neg hneg, Cmd.bind_ok _ hverified, if_neg hv]
    exact hfound
  cases found with
  | none => exact hrefused _ _ hadmitted
  | some user =>
    refine ((relisted_acceptLogin henv uid user fun other hrow => (hdb.knows hrow).2).pre fun st page h =>
      ⟨⟨h.1.1, ?_⟩, h.2⟩).post fun _ _ page h => .inr ⟨⟨user, hadmitted⟩, h.2⟩
    rw [h.1.2]
    exact (hfind _ hfound).2

end Events

/-! ## Steps -/

section Steps

variable {js : Js} {env : Env} {session : SessionId} {st st' : Server} {event : TcpServer.Event} {page : Page}

/-- Frames of the other types change no list. -/
theorem alike_of_types {out : List Delivery} (page : Page)
    (h : ∀ d ∈ out, ∃ type ∉ Page.relists, typeField d.payload = some type) :
    Page.Alike page (out.foldl (reads js session) page) := by
  induction out generalizing page with
  | nil => exact .refl page
  | cons d out ih =>
    obtain ⟨type, hmem, htype⟩ := h d List.mem_cons_self
    refine Page.Alike.trans ?_ (ih _ fun d' hd' => h d' (List.mem_cons_of_mem _ hd'))
    unfold reads
    split
    · exact Page.alike_handle htype hmem
    · exact .refl page

/-- Which requests are answered by a frame that relists. -/
theorem not_mem_relists {requested : Option MsgType} {type : MsgType} (hlogin : requested ≠ some .Login)
    (haccept : requested ≠ some .FriendAccept) (hremove : requested ≠ some .FriendRemove)
    (hlist : requested ≠ some .FriendList) (htype : type ∈ answers requested) : type ∉ Page.relists := by
  have hall : ∀ t : MsgType, some t ≠ some .Login → some t ≠ some .FriendAccept → some t ≠ some .FriendRemove →
      some t ≠ some .FriendList → ∀ type ∈ answers (some t), type ∉ Page.relists := by
    intro t
    cases t <;> decide
  cases requested with
  | none => exact List.mem_singleton.mp htype ▸ by decide
  | some t => exact hall t hlogin haccept hremove hlist type htype

/-- Without a request, the server sends acknowledgements of heartbeats and tells who has gone. -/
theorem types_of_no_request
    (hno : ∀ uid request, TcpServer.Brings st event uid request → typeField request = some .Heartbeat) :
    ∀ d ∈ (TcpServer.handle env event st).out, OfType [.SystemBroadcast, .HeartbeatAck, .UserOffline] d.payload := by
  have hremove : ∀ t, Emits (OfType [.SystemBroadcast, .HeartbeatAck, .UserOffline]) (TcpServer.removeSession env t) :=
    TcpServer.emits_removeSession fun payload ⟨type, hmem, htype⟩ =>
      ⟨type, by rw [List.mem_singleton.mp hmem]; decide, htype⟩
  cases event with
  | accept now =>
    rw [show (TcpServer.handle env (.accept now) st).out = [] from TcpServer.out_accept now st]
    nofun
  | readError t =>
    exact (((emits_asks _).bind fun _ => Emits.ite ((emits_modify _).bind fun _ => hremove t) (emits_pure ())) st trivial).1
  | sweep now => exact (((emits_asks _).bind fun _ => emits_each hremove) st trivial).1
  | frame t json now later =>
    rcases em (st.reading t = true) with hreading | hreading
    · rw [TcpServer.handle_reading_frame hreading]
      refine (((emits_modify _).bind fun _ => ?_) st trivial).1
      rcases em (TcpServer.Exhausted st t now) with hout | hgranted
      · rw [if_pos hout]
        exact hremove t
      rw [if_neg hgranted]
      refine Cmd.sat_ite (fun _ => (emits_modify _).bind fun _ => emits_deliver t (ofType_okReply (by decide) _))
        fun hbeat => ?_
      refine route_rule env (emits_throw _) (emits_deliver t (ofType_errorReply (by decide) _ _))
        fun request hparse => ?_
      rw [TcpServer.exhausted_iff, Bool.not_eq_false] at hgranted
      have htype := hno _ request
        ⟨t, json, now, later, rfl, ⟨hreading, hgranted⟩, readObject_of_parseObject hparse, rfl⟩
      rw [hparse] at hbeat
      exact absurd htype hbeat
    · unfold TcpServer.handle
      dsimp only
      rw [Cmd.bind_of_run _ (Cmd.asks_apply ..), if_neg (show ¬(st.pool.object t).reading = true from hreading)]
      nofun

theorem index_of_remove {ρ : Roster} {t : SessionId} {user : Int32}
    (h : (ρ.remove t).pool.user_to_session user = some session) : ρ.pool.user_to_session user = some session := by
  rw [show (ρ.remove t).pool.user_to_session user = _ from SessionPool.user_to_session_remove ..] at h
  split at h
  · cases h
  · exact h

theorem index_of_removeAll {ρ : Roster} {sessions : List SessionId} {user : Int32}
    (h : (sessions.foldl Roster.remove ρ).pool.user_to_session user = some session) :
    ρ.pool.user_to_session user = some session := by
  induction sessions generalizing ρ with
  | nil => exact h
  | cons t sessions ih => exact index_of_remove (ih h)

theorem index_of_logout {ρ : Roster} {t : SessionId} {user : Int32}
    (h : (ρ.logout t).pool.user_to_session user = some session) : ρ.pool.user_to_session user = some session := by
  unfold Roster.logout at h
  dsimp only at h
  split at h
  · rw [SessionPool.user_to_session_unbindUser] at h
    split at h
    · cases h
    · exact h
  · exact h

/-- Nobody is found on a session without a login that was not found there before. -/
theorem found_of_step (hk : TcpServer.Kept st.roster) (hstep : TcpServer.step env st event = some st')
    (hno : ∀ uid request, TcpServer.Brings st event uid request → typeField request ≠ some .Login) (user : Int32)
    (h : st'.roster.pool.findByUserId user = some session) : st.roster.pool.findByUserId user = some session := by
  have hindex : st.roster.pool.user_to_session user = some session := by
    have hafter := ((SessionPool.findByUserId_eq_some ..).mp h).1
    rw [TcpServer.roster_step hstep] at hafter
    cases event with
    | accept now =>
      rwa [show (TcpServer.rosterOf env st (.accept now)).pool.user_to_session user = _ from
        congrFun (SessionPool.user_to_session_add ..) user] at hafter
    | sweep now => exact index_of_removeAll hafter
    | readError t =>
      simp only [TcpServer.rosterOf] at hafter
      split at hafter
      · exact index_of_remove hafter
      · exact hafter
    | frame t json now later =>
      simp only [TcpServer.rosterOf] at hafter
      split at hafter
      · exact hafter
      next hreading =>
      split at hafter
      · exact index_of_remove hafter
      next hgranted =>
      split at hafter
      · exact hafter
      next request hparse =>
      have hlogin := hno _ request ⟨t, json, now, later, rfl, ⟨by simpa using hreading, by simpa using hgranted⟩, hparse, rfl⟩
      unfold rosterAfter at hafter
      split at hafter
      · next htype => exact absurd htype hlogin
      · exact index_of_logout hafter
      · exact hafter
  exact (SessionPool.findByUserId_eq_some ..).mpr ⟨hindex, (hk.indexed.sound _ _ hindex).1⟩

/-- Only an acceptance or a removal changes who is a friend. -/
theorem friends_of_step (hidle : st.db.Idle) (hstep : TcpServer.step env st event = some st')
    (hno : ∀ uid request, TcpServer.Brings st event uid request →
      typeField request ≠ some .FriendAccept ∧ typeField request ≠ some .FriendRemove) (user other : Int32) :
    st'.db.friendRows.any (isAccepted user other) = st.db.friendRows.any (isAccepted user other) := by
  rcases TcpServer.friends_step hidle hstep with hsame | ⟨uid, request, hbrings, -, hchange⟩
  · rw [hsame]
  obtain ⟨haccept, hremove⟩ := hno uid request hbrings
  cases hchange with
  | requested _ _ hrequested => exact any_requested hrequested
  | accepted htype _ _ => exact absurd htype haccept
  | rejected htype _ _ _ => exact absurd htype hremove
  | removed htype _ _ _ _ => exact absurd htype hremove

/-- What a request about friends has changed if it has succeeded. -/
theorem change_of_brings {uid : Int32} {request : Object} {type : MsgType} (hidle : st.db.Idle)
    (hbrings : TcpServer.Brings st event uid request) (htype : typeField request = some type) (hfriend : type ∈ friendTypes)
    (hstep : TcpServer.step env st event = some st') {ok : Bool} (hok : (friendCall env uid request st.db).result = .ok ok) :
    ok = false ∧ st'.db.friendRows = st.db.friendRows ∨
      ok = true ∧ Change uid request st.db.friendRows st'.db.friendRows := by
  rw [TcpServer.friendRows_of_brings hidle hbrings htype hfriend hstep]
  obtain ⟨b, db', hrun, -, hrows⟩ := @alters_friendCall env uid request _ hidle
  rw [hrun] at hok ⊢
  cases hok
  exact hrows

section Requests

variable (henv : env.Serves) (hst : TcpServer.Sociable st) (hstep : TcpServer.step env st event = some st')
  (h : Listed session st.roster st.db.friendRows page)

include hst hstep h

/-- The pages list as many friends as before, unless somebody logs in, accepts or removes. -/
theorem Listed.routine (hno : ∀ uid request, TcpServer.Brings st event uid request →
    ∀ type ∈ [MsgType.Login, .FriendAccept, .FriendRemove], typeField request ≠ some type)
    {page' : Page} (halike : Page.Alike page page') : Listed session st'.roster st'.db.friendRows page' := by
  have hidle : st.db.Idle := hst.friendly.idle
  refine h.alike halike (found_of_step hst.kept hstep fun uid request hbrings => ?_)
    (friends_of_step hidle hstep fun uid request hbrings => ⟨?_, ?_⟩)
  · exact hno uid request hbrings _ (by decide)
  · exact hno uid request hbrings _ (by decide)
  · exact hno uid request hbrings _ (by decide)

end Requests

/-! ### The requests -/

section Frames

variable (henv : env.Serves) (hst : TcpServer.Sociable st) {t : SessionId} {json : Bytes} {now later : Int} {request : Object}
  (hhandled : TcpServer.Handled st t now) (hparse : readObject json = some request)
  (hstep : TcpServer.step env st (.frame t json now later) = some st') (h : Listed session st.roster st.db.friendRows page)

theorem eq_of_brings {uid : Int32} {other : Object} (hparse : readObject json = some request)
    (hbrings : TcpServer.Brings st (.frame t json now later) uid other) : other = request := by
  obtain ⟨t', json', now', later', hevent, -, hparse', -⟩ := hbrings
  cases hevent
  exact Option.some_inj.mp (hparse'.symm.trans hparse)

/-- A frame that is handled is dispatched, and that succeeds. -/
theorem handled_frame (hhandled : TcpServer.Handled st t now) (hparse : readObject json = some request)
    (hstep : TcpServer.step env st (.frame t json now later) = some st') (hbeat : typeField request ≠ some .Heartbeat) :
    ∃ s : Server, s.roster = st.roster ∧ s.db = st.db ∧ (dispatch env t request s).result = .ok () ∧
      (TcpServer.handle env (.frame t json now later) st).out = (dispatch env t request s).out := by
  obtain ⟨s, hroster, hdb, hrun⟩ := @TcpServer.handle_frame env t st json now later request hhandled
    ((TcpServer.parseObject_of_step hhandled hstep).trans hparse) hbeat
  have hresult := (TcpServer.of_step hstep).1
  rw [hrun] at hresult
  exact ⟨s, hroster, hdb, hresult, by rw [hrun]⟩

include hst hhandled hparse hstep h

/-- The two pages read what has become of a friendship. -/
theorem Listed.set {type : MsgType} {listed ok : Bool} {friend : Int32} {page' : Page} (htype : typeField request = some type)
    (hfriend : type ∈ friendTypes) (hattended : ∀ s ∈ st.roster.pool.findByUserId (st.userId t), s = t)
    (hok : (friendCall env (st.userId t) request st.db).result = .ok ok)
    (hread : ReadsBoth session t st.roster listed ok (st.userId t) friend page page')
    (hchange : ∀ user other, Change (st.userId t) request st.db.friendRows st'.db.friendRows →
      st'.db.friendRows.any (isAccepted user other) =
        if SamePair (st.userId t) friend user other then listed else st.db.friendRows.any (isAccepted user other)) :
    Listed session st'.roster st'.db.friendRows page' := by
  have hidle : st.db.Idle := hst.friendly.idle
  have hbrings : TcpServer.Brings st (.frame t json now later) (st.userId t) request :=
    ⟨t, json, now, later, rfl, hhandled, hparse, rfl⟩
  have hrows : ∀ user other, st'.db.friendRows.any (isAccepted user other) =
      if ok = true ∧ SamePair (st.userId t) friend user other then listed
      else st.db.friendRows.any (isAccepted user other) := fun user other => by
    rcases change_of_brings hidle hbrings htype hfriend hstep hok with ⟨rfl, hsame⟩ | ⟨rfl, hdone⟩
    · simp [hsame]
    · simpa using hchange user other hdone
  have hset : Listed session st.roster st'.db.friendRows page' :=
    h.readsBoth hst.kept.indexed rfl hattended hread hrows
  refine hset.alike (.refl page') (found_of_step hst.kept hstep fun uid other hother => ?_) fun _ _ => rfl
  rw [eq_of_brings hparse hother, htype]
  rintro ⟨⟩
  revert hfriend
  decide

theorem Listed.frame_accept (htype : typeField request = some .FriendAccept)
    (hattended : Attended st (.frame t json now later)) :
    Listed session st'.roster st'.db.friendRows
      ((TcpServer.handle env (.frame t json now later) st).out.foldl (reads js session) page) := by
  obtain ⟨s, hroster, hdb, hresult, hout⟩ := handled_frame hhandled hparse hstep (by rw [htype]; decide)
  rw [hout]
  simp only [dispatch, htype] at hresult ⊢
  obtain ⟨-, ok, hok, hread⟩ := shown_handleFriendAccept htype s page ⟨⟨hroster, hdb⟩, rfl⟩ () hresult
  refine h.set hst hhandled hparse hstep htype (by decide) ((hattended hhandled request hparse).1 (.inl htype)) hok hread
    fun user other hchange => ?_
  cases hchange with
  | accepted _ _ hanswered =>
    rw [any_accepted hanswered]
    simp only [samePair_comm (st.userId t)]
  | requested hother _ _ => simp [htype] at hother
  | rejected hother _ _ _ => simp [htype] at hother
  | removed hother _ _ _ _ => simp [htype] at hother

theorem Listed.frame_remove (htype : typeField request = some .FriendRemove)
    (hattended : Attended st (.frame t json now later)) :
    Listed session st'.roster st'.db.friendRows
      ((TcpServer.handle env (.frame t json now later) st).out.foldl (reads js session) page) := by
  have hidle : st.db.Idle := hst.friendly.idle
  obtain ⟨s, hroster, hdb, hresult, hout⟩ := handled_frame hhandled hparse hstep (by rw [htype]; decide)
  rw [hout]
  simp only [dispatch, htype] at hresult ⊢
  obtain ⟨-, ok, hok, hread⟩ := shown_handleFriendRemove hidle htype s page ⟨⟨hroster, hdb⟩, rfl⟩ () hresult
  obtain ⟨hsole, hown⟩ := hattended hhandled request hparse
  refine h.set hst hhandled hparse hstep htype (by decide) (hsole (.inr htype)) hok hread fun user other hchange => ?_
  have hpair : st.userId t = intField request "fromId" 0 ∨ st.userId t = intField request "toId" 0 →
      (SamePair (intField request "fromId" 0) (intField request "toId" 0) user other ↔
        SamePair (st.userId t) (if st.userId t = intField request "fromId" 0 then intField request "toId" 0
          else intField request "fromId" 0) user other) := by
    intro hown
    split
    · next hfrom => rw [hfrom]
    · next hfrom => rw [hown.resolve_left hfrom, samePair_comm]
  cases hchange with
  | rejected _ _ hto hanswered =>
    refine (any_rejected hst.friendly.proper hanswered).trans (if_congr ?_ rfl rfl)
    refine Iff.trans ?_ (hpair (.inr hto.symm))
    rw [hto]
  | removed _ hpos hfrom hto hremoved =>
    exact (any_removed hremoved).trans (if_congr (hpair (hown htype hpos hfrom hto)) rfl rfl)
  | requested hother _ _ => simp [htype] at hother
  | accepted hother _ _ => simp [htype] at hother

include henv

theorem Listed.frame_list (htype : typeField request = some .FriendList) :
    Listed session st'.roster st'.db.friendRows
      ((TcpServer.handle env (.frame t json now later) st).out.foldl (reads js session) page) := by
  obtain ⟨s, hroster, hdb, hresult, hout⟩ := handled_frame hhandled hparse hstep (by rw [htype]; decide)
  rw [hout]
  simp only [dispatch, htype] at hresult ⊢
  have hstanding := Database.standing_of_stored henv hst.friendly.stored
  have hread : Relisted session t st.db.friendRows (st.roster.pool.userId t) page
      ((handleFriendList env t s).out.foldl (reads js session) page) :=
    (shown_handleFriendList henv (fun other hrow => (hst.friendly.knows hrow).2) s page
      ⟨⟨hroster, hdb ▸ hstanding⟩, rfl⟩ () hresult).2
  have hno : ∀ uid other, TcpServer.Brings st (.frame t json now later) uid other →
      ∀ type ∈ [MsgType.Login, .FriendAccept, .FriendRemove], typeField other ≠ some type := fun uid other hother => by
    rw [eq_of_brings hparse hother, htype]
    decide
  unfold Relisted at hread
  split at hread
  · next ht =>
    subst ht
    have hidle : st.db.Idle := hst.friendly.idle
    intro _ user huser other
    have hfound := found_of_step hst.kept hstep (fun uid other hother => hno uid other hother _ (by decide)) user huser
    have hcarried : st.roster.pool.userId t = user :=
      (hst.kept.indexed.sound _ _ ((SessionPool.findByUserId_eq_some ..).mp hfound).1).2
    rw [hread other, hcarried, friends_of_step hidle hstep fun uid other hother =>
      ⟨hno uid other hother _ (by decide), hno uid other hother _ (by decide)⟩]
  · exact h.routine hst hstep hno hread

theorem Listed.frame_login (htype : typeField request = some .Login) :
    Listed session st'.roster st'.db.friendRows
      ((TcpServer.handle env (.frame t json now later) st).out.foldl (reads js session) page) := by
  obtain ⟨s, hroster, hdb, hresult, hout⟩ := handled_frame hhandled hparse hstep (by rw [htype]; decide)
  rw [hout]
  simp only [dispatch, htype] at hresult ⊢
  have hidle : st.db.Idle := hst.friendly.idle
  have hrows := friends_of_step hidle hstep fun uid other hother => by
    rw [eq_of_brings hparse hother, htype]
    exact ⟨by decide, by decide⟩
  have hafter : st'.roster = rosterAfter env st t request := by
    rw [TcpServer.roster_step hstep]
    simp only [TcpServer.rosterOf, show (st.pool.object t).reading = true from hhandled.1, hhandled.2, hparse,
      Bool.not_true, Bool.false_eq_true, if_false]
  have hread := relisted_handleLogin js session henv hst.friendly s page ⟨⟨hroster, hdb⟩, rfl⟩ () hresult
  simp only [rosterAfter, htype] at hafter
  rcases hread with ⟨hrefused, halike⟩ | ⟨⟨info, hadmitted⟩, hread⟩
  · have hsame : st'.roster = st.roster := by
      rw [hafter]
      split
      · next info hadmitted => exact absurd hadmitted (hrefused info)
      · rfl
    refine h.alike halike (fun user huser => ?_) hrows
    rwa [hsame] at huser
  have hlogin : st'.roster = st.roster.login t (intField request "id" 0) := by rw [hafter, hadmitted]
  have hpos : 0 < intField request "id" 0 := TcpServer.pos_of_admitted hadmitted
  have hi := (hst.kept.step hstep).indexed
  unfold Relisted at hread
  split at hread
  · next ht =>
    subst ht
    intro _ user huser other
    obtain ⟨hmem, hcarried⟩ := hi.sound _ _ ((SessionPool.findByUserId_eq_some ..).mp huser).1
    rw [hlogin, sessions_login] at hmem
    rw [hlogin, show (st.roster.login t _).pool.userId t = _ from SessionPool.userId_bindUser _ _ _ hmem hpos t,
      if_pos rfl] at hcarried
    rw [hread other, hcarried, hrows]
  · next ht =>
    refine h.alike hread (fun user huser => ?_) hrows
    obtain ⟨hindex, hmem⟩ := (SessionPool.findByUserId_eq_some ..).mp huser
    rw [hlogin] at hindex hmem
    rw [sessions_login] at hmem
    refine (SessionPool.findByUserId_eq_some ..).mpr ⟨?_, hmem⟩
    rcases em (t ∈ st.roster.pool.sessions) with hpooled | hpooled
    · rw [show (st.roster.login t _).pool.user_to_session user = _ from
        SessionPool.user_to_session_bindUser _ _ _ hpooled hpos user] at hindex
      split at hindex
      · exact absurd (Option.some_inj.mp hindex) ht
      split at hindex
      · cases hindex
      · exact hindex
    · rwa [show (st.roster.login t _).pool = st.roster.pool from SessionPool.bindUser_of_refused _ _ _ (.inl hpooled)] at hindex

end Frames

theorem Listed.step (henv : env.Serves) (hst : TcpServer.Sociable st) (hattended : Attended st event)
    (hstep : TcpServer.step env st event = some st') (h : Listed session st.roster st.db.friendRows page) :
    Listed session st'.roster st'.db.friendRows ((TcpServer.handle env event st).out.foldl (reads js session) page) := by
  rcases em (∃ uid request, TcpServer.Brings st event uid request ∧ typeField request ≠ some .Heartbeat) with
    ⟨uid, request, ⟨t, json, now, later, rfl, hhandled, hparse, -⟩, hbeat⟩ | hno
  · rcases em (typeField request = some .Login) with htype | hlogin
    · exact h.frame_login henv hst hhandled hparse hstep htype
    rcases em (typeField request = some .FriendAccept) with htype | haccept
    · exact h.frame_accept hst hhandled hparse hstep htype hattended
    rcases em (typeField request = some .FriendRemove) with htype | hremove
    · exact h.frame_remove hst hhandled hparse hstep htype hattended
    rcases em (typeField request = some .FriendList) with htype | hlist
    · exact h.frame_list henv hst hhandled hparse hstep htype
    refine h.routine hst hstep (fun uid other hother => ?_) (alike_of_types page fun d hd => ?_)
    · rw [eq_of_brings hparse hother]
      simp only [List.mem_cons, List.not_mem_nil, or_false]
      rintro type (rfl | rfl | rfl)
      · exact hlogin
      · exact haccept
      · exact hremove
    · obtain ⟨s, -, -, hrun⟩ := TcpServer.handle_frame hhandled
        ((TcpServer.parseObject_of_step hhandled hstep).trans hparse) hbeat
      rw [hrun] at hd
      obtain ⟨type, hmem, htype⟩ := (emits_dispatch s trivial).1 d hd
      exact ⟨type, not_mem_relists hlogin haccept hremove hlist hmem, htype⟩
  · refine h.routine hst hstep (fun uid request hbrings type hmem htype => hno ⟨uid, request, hbrings, ?_⟩)
      (alike_of_types page fun d hd => ?_)
    · rw [htype]
      rintro ⟨⟩
      revert hmem
      decide
    · obtain ⟨type, hmem, htype⟩ := types_of_no_request (fun uid request hbrings => by
        by_contra hbeat
        exact hno ⟨uid, request, hbrings, hbeat⟩) d hd
      have hall : ∀ type ∈ [MsgType.SystemBroadcast, .HeartbeatAck, .UserOffline], type ∉ Page.relists := by decide
      exact ⟨type, hall type hmem, htype⟩

/-- Every page lists the friends when it has caught up. -/
structure Caught (js : Js) (w : Clients) : Prop where
  sociable : TcpServer.Sociable w.server
  listed : ∀ session, Listed session w.server.roster w.server.db.friendRows (w.caughtUp js session)

theorem Caught.start {db : Database} (hdb : db.Friendly) (page : SessionId → Page) : Caught js (.start db page) where
  sociable := .start hdb
  listed session _ user huser := by cases ((SessionPool.findByUserId_eq_some ..).mp huser).1

theorem Caught.step (henv : env.Serves) {w w' : Clients} {e : ClientEvent} (h : Caught js w)
    (hattended : AttendedFor w e) (hstep : w.proceeds js env e = some w') : Caught js w' := by
  cases e with
  | server event =>
    have hhandles : w.serverHandles env event = some w' := hstep
    have hserved : TcpServer.step env w.server event = some w'.server := by
      obtain ⟨hok, hserver, -⟩ := caughtUp_serverHandles js 0 hhandles
      unfold TcpServer.step
      rw [hok, hserver]
    refine ⟨h.sociable.step henv hserved, fun session => ?_⟩
    rw [(caughtUp_serverHandles js session hhandles).2.2]
    exact (h.listed session).step henv h.sociable hattended hserved
  | receive s =>
    unfold Clients.proceeds Clients.step at hstep
    dsimp only at hstep
    cases hdown : w.down s with
    | nil =>
      rw [hdown] at hstep
      cases hstep
    | cons payload rest =>
      rw [hdown] at hstep
      cases hstep
      exact ⟨h.sociable, fun session => (caughtUp_receive hdown).symm ▸ h.listed session⟩
  | logout s =>
    cases hstep
    refine ⟨h.sociable, fun session => ?_⟩
    rcases eq_or_ne session s with rfl | hne
    · have hpage : Clients.caughtUp js { w with page := Function.update w.page session (w.page session).logout } session =
          (w.down session).foldl (Page.handleIncomingMessage js) Page.initial := by
        simp only [Clients.caughtUp, Function.update_self]
        rfl
      rw [hpage]
      rcases Page.foldl_handle_or js (w.page session) Page.initial (w.down session) with hsame | ⟨-, hnone⟩
      · exact hsame ▸ h.listed session
      · exact fun hlogged => (hlogged hnone).elim
    · have hpage : Clients.caughtUp js { w with page := Function.update w.page s (w.page s).logout } session =
          w.caughtUp js session := by
        simp only [Clients.caughtUp, Function.update_of_ne hne]
      exact hpage.symm ▸ h.listed session

theorem Caught.lists {w : Clients} (h : Caught js w) (session : SessionId) : w.ListsFriends session := by
  intro hdown hlogged user huser other
  have hpage : w.caughtUp js session = w.page session := by
    unfold Clients.caughtUp
    rw [hdown]
    rfl
  have hlisted := h.listed session
  rw [hpage] at hlisted
  exact hlisted hlogged user huser other

end Steps

/-! ## Runs -/

/-- In every state of a run whose acceptances and removals are attended, and whose
frames are all shown, every page that is logged in and has caught up lists exactly
the friends of its user. -/
theorem friend_lists_agree (js : Js) {env : Env} (henv : env.Serves) {db : Database} (hdb : db.Friendly)
    (page : SessionId → Page) {events : List ClientEvent}
    (h : Along (Clients.proceeds js env) AttendedFor (.start db page) events) :
    Throughout (Clients.proceeds js env) (fun w => ∀ session, w.ListsFriends session) (.start db page) events :=
  (throughout_of_along (J := fun _ => True) (I := Caught js) (fun _ _ _ _ _ => trivial)
    (fun _ _ _ _ h hstep hattended => h.step henv hattended hstep) trivial (.start hdb page) h).imp fun _ h => h.lists

/-- Two users become friends and read of it, one ends it, and they read of that. -/
def friendship : List ClientEvent :=
  (TcpServer.threeUsers ++ TcpServer.befriend).map ClientEvent.server ++ List.replicate 4 (ClientEvent.receive 1) ++
    List.replicate 4 (ClientEvent.receive 2) ++
    [ClientEvent.server (TcpServer.removal 1), .receive 1, .receive 2]

theorem friend_lists_agree_friendship :
    Throughout (Clients.proceeds .plain .ideal) (fun w => ∀ session, w.ListsFriends session)
      (.start (Server.boot .ideal .empty).db fun _ => .initial) friendship :=
  friend_lists_agree .plain TcpServer.serves_ideal TcpServer.friendly_boot _ (by decide +kernel)

end Client

end LanChat
