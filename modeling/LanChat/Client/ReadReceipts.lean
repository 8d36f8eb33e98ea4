import LanChat.Client.World

/-!
# Read receipts

An effect of the page sends a receipt for the last incoming message of the open
conversation, whenever the array of the conversation is another object. The server
sends each receipt back to the client that it comes from; the reducer rebuilds the
array, and the page sends the receipt again. Without user input a message is sent
no second receipt exactly as long as no array is rebuilt that has a receipt due in
it, and no message is shown again that has had one (`receipts_settle_iff`).
-/

namespace LanChat

open Lib Json

namespace Client

/-! ## The reducers and the references -/

namespace Store

/-- No array and no user has the number of one to come. -/
structure Fresh (s : Store) : Prop where
  user : ∀ u, s.currentUser = some u → u.1 < s.references
  conversation : ∀ kind key c, s.conversations kind key = some c → c.reference < s.references

/-- The arrays and the user of `s'` are those of `s`, or have numbers of their own. -/
structure Renews (s s' : Store) : Prop where
  references : s.references ≤ s'.references
  user : ∀ u, s'.currentUser = some u →
    s.currentUser = some u ∨ s.references ≤ u.1 ∧ u.1 < s'.references
  conversation : ∀ kind key c, s'.conversations kind key = some c →
    s.conversations kind key = some c ∨ s.references ≤ c.reference ∧ c.reference < s'.references

/-- What `s'` has of `s` where the arrays of these conversations are built anew,
with the same messages but for what the effect does not look at. -/
structure Rebuilds (keys : List (Kind × Bytes)) (s s' : Store) : Prop where
  user : s'.currentUser = s.currentUser
  status : s'.status = s.status
  active : s'.active = s.active
  references : s.references ≤ s'.references
  others : ∀ kind key, (kind, key) ∉ keys → s'.conversations kind key = s.conversations kind key
  rebuilt : ∀ kind key, (kind, key) ∈ keys →
    ∃ c, s'.conversations kind key = some c ∧ s.references ≤ c.reference
  incoming : ∀ kind key user, (latestIncoming user (s'.messages kind key)).map (·.id) =
    (latestIncoming user (s.messages kind key)).map (·.id)

section Stores

variable {js : Js} {s s' : Store} {kind : Kind} {key : Bytes}

theorem Renews.refl (s : Store) : Renews s s where
  references := le_rfl
  user _ h := .inl h
  conversation _ _ _ h := .inl h

theorem Renews.trans {s'' : Store} (h : Renews s s') (h' : Renews s' s'') : Renews s s'' where
  references := h.references.trans h'.references
  user u hu := by
    rcases h'.user u hu with hold | ⟨hle, hlt⟩
    · rcases h.user u hold with hold | ⟨hle, hlt⟩
      · exact .inl hold
      · exact .inr ⟨hle, hlt.trans_le h'.references⟩
    · exact .inr ⟨h.references.trans hle, hlt⟩
  conversation kind key c hc := by
    rcases h'.conversation kind key c hc with hold | ⟨hle, hlt⟩
    · rcases h.conversation kind key c hold with hold | ⟨hle, hlt⟩
      · exact .inl hold
      · exact .inr ⟨hle, hlt.trans_le h'.references⟩
    · exact .inr ⟨h.references.trans hle, hlt⟩

theorem Fresh.of_renews (h : s.Fresh) (hrenews : Renews s s') : s'.Fresh where
  user u hu := by
    rcases hrenews.user u hu with hold | ⟨-, hlt⟩
    · exact (h.user u hold).trans_le hrenews.references
    · exact hlt
  conversation kind key c hc := by
    rcases hrenews.conversation kind key c hc with hold | ⟨-, hlt⟩
    · exact (h.conversation kind key c hold).trans_le hrenews.references
    · exact hlt

theorem renews_put (s : Store) (kind : Kind) (key : Bytes) (messages : List ChatMessage) :
    Renews s (s.put kind key messages) where
  references := Nat.le_succ _
  user _ h := .inl h
  conversation kind' key' c hc := by
    simp only [Store.put] at hc ⊢
    split at hc
    · cases hc
      exact .inr ⟨le_rfl, Nat.lt_succ_self _⟩
    · exact .inl hc

theorem renews_calls (s : Store) (calls : Nat) : Renews s { s with calls := calls } where
  references := le_rfl
  user _ h := .inl h
  conversation _ _ _ h := .inl h

theorem renews_openGroup (s : Store) (raw : Object) : Renews s (s.openGroup raw) where
  references := le_rfl
  user _ h := .inl h
  conversation _ _ _ h := .inl h

theorem renews_ite {b : Prop} [Decidable b] {s₁ s₂ : Store} (h₁ : Renews s s₁) (h₂ : Renews s s₂) :
    Renews s (if b then s₁ else s₂) := by
  split
  · exact h₁
  · exact h₂

theorem renews_merge (s : Store) (kind : Kind) (key : Bytes) (message : ChatMessage) :
    Renews s (s.merge js kind key message) := by
  unfold Store.merge
  split
  · exact renews_put ..
  · exact .refl s

theorem renews_change (s : Store) (raw : Object) (updater : ChatMessage → ChatMessage) :
    Renews s (s.change js raw updater) := by
  unfold Store.change
  split
  · exact renews_put ..
  · exact .refl s

theorem renews_historyResponse (s : Store) (raw : Object) : Renews s (s.historyResponse js raw) := by
  unfold Store.historyResponse
  split
  · exact .refl s
  · extract_lets messages counted
    have hcounted : Renews s counted := renews_calls s _
    refine hcounted.trans ?_
    exact renews_ite (renews_put ..) (renews_ite (renews_put ..) (.refl _))

theorem renews_receiveFile (s : Store) (raw : Object) : Renews s (s.receiveFile js raw) := by
  unfold Store.receiveFile
  split
  · exact (renews_put ..).trans (renews_calls ..)
  · exact .refl s

theorem renews_loggedIn (s : Store) (raw : Object) : Renews s (s.loggedIn raw) where
  references := Nat.le_succ _
  user u hu := by
    cases hu
    exact .inr ⟨le_rfl, Nat.lt_succ_self _⟩
  conversation kind key c hc := by
    cases kind with
    | direct => exact .inl hc
    | group => cases hc

theorem renews_handleOne (s : Store) (raw : Object) : Renews s (s.handleOne js raw) := by
  unfold Store.handleOne
  split
  · exact renews_loggedIn s raw
  · exact (renews_merge ..).trans (renews_calls ..)
  · exact (renews_merge ..).trans (renews_calls ..)
  · exact renews_historyResponse s raw
  · exact renews_ite (renews_change ..) (.refl s)
  · exact renews_ite (renews_change ..) (.refl s)
  · exact renews_ite (renews_change ..) (.refl s)
  · exact renews_change ..
  · exact renews_receiveFile s raw
  · exact renews_ite (renews_openGroup s raw) (.refl s)
  · exact renews_ite (renews_openGroup s raw) (.refl s)
  · exact (renews_put ..).trans (renews_calls ..)
  · exact (renews_put ..).trans (renews_calls ..)
  · exact .refl s

theorem renews_handleIncomingMessage (s : Store) (raw : Object) :
    Renews s (s.handleIncomingMessage js raw) := by
  unfold Store.handleIncomingMessage
  split
  · generalize elements (member raw "messages") = items
    induction items generalizing s with
    | nil => exact .refl s
    | cons item items ih => exact (renews_handleOne s item).trans (ih _)
  · exact renews_handleOne s raw

theorem renews_groupLeft (s : Store) (groupId : Int64) : Renews s (s.groupLeft groupId) where
  references := le_rfl
  user _ h := .inl h
  conversation kind key c hc := by
    simp only [Store.groupLeft] at hc
    split at hc
    · cases hc
    · exact .inl hc

theorem renews_logout (s : Store) : Renews s s.logout where
  references := le_rfl
  user _ h := by cases h
  conversation _ _ _ h := by cases h

/-! What a change of one message leaves alone. -/

theorem Rebuilds.refl (s : Store) : Rebuilds [] s s where
  user := rfl
  status := rfl
  active := rfl
  references := le_rfl
  others _ _ _ := rfl
  rebuilt _ _ h := nomatch h
  incoming _ _ _ := rfl

theorem Rebuilds.trans {keys keys' : List (Kind × Bytes)} {s'' : Store} (h : Rebuilds keys s s')
    (h' : Rebuilds keys' s' s'') : Rebuilds (keys ++ keys') s s'' where
  user := h'.user.trans h.user
  status := h'.status.trans h.status
  active := h'.active.trans h.active
  references := h.references.trans h'.references
  others kind key hkey := by
    rw [List.mem_append, not_or] at hkey
    rw [h'.others kind key hkey.2, h.others kind key hkey.1]
  rebuilt kind key hkey := by
    by_cases hlast : (kind, key) ∈ keys'
    · obtain ⟨c, hc, hreference⟩ := h'.rebuilt kind key hlast
      exact ⟨c, hc, h.references.trans hreference⟩
    · rw [h'.others kind key hlast]
      exact h.rebuilt kind key ((List.mem_append.mp hkey).resolve_right hlast)
  incoming kind key user := (h'.incoming kind key user).trans (h.incoming kind key user)

theorem latestIncoming_map {user : CurrentUser} {f : ChatMessage → ChatMessage}
    (hid : ∀ m, (f m).id = m.id) (hfrom : ∀ m, (f m).fromId = m.fromId) (messages : List ChatMessage) :
    (latestIncoming user (messages.map f)).map (·.id) = (latestIncoming user messages).map (·.id) := by
  unfold latestIncoming
  rw [← List.map_reverse, List.find?_map, Option.map_map]
  have hsame : (fun message : ChatMessage => !same message.fromId user.id) ∘ f =
      fun message => !same message.fromId user.id := funext fun m => by simp only [Function.comp, hfrom]
  rw [hsame]
  exact congrArg (fun g => Option.map g _) (funext hid)

theorem rebuilds_updateMessageById (s : Store) (kind : Kind) (key id : Bytes)
    {f : ChatMessage → ChatMessage} (hid : ∀ m, (f m).id = m.id) (hfrom : ∀ m, (f m).fromId = m.fromId) :
    Rebuilds [(kind, key)] s (s.updateMessageById kind key id f) where
  user := rfl
  status := rfl
  active := rfl
  references := Nat.le_succ _
  others kind' key' h := by
    simp only [List.mem_singleton, Prod.mk.injEq] at h
    exact if_neg h
  rebuilt kind' key' h := by
    obtain ⟨rfl, rfl⟩ := Prod.mk.injEq .. ▸ List.mem_singleton.mp h
    exact ⟨_, if_pos ⟨rfl, rfl⟩, le_rfl⟩
  incoming kind' key' user := by
    unfold Store.updateMessageById Store.messages Store.put
    dsimp only
    by_cases h : kind' = kind ∧ key' = key
    · obtain ⟨rfl, rfl⟩ := h
      rw [if_pos ⟨rfl, rfl⟩]
      exact latestIncoming_map (fun m => by split <;> simp [hid]) (fun m => by split <;> simp [hfrom]) _
    · rw [if_neg h]

/-- The receipt that is due: its conversation and the number of its message. -/
def due (s : Store) (kind : Kind) : Option (Target × Int64) :=
  match s.readReceipt kind with
  | some (.markMessageRead _ target msgIdNum) => some (target, msgIdNum)
  | _ => none

theorem readReceipt_congr (huser : s'.currentUser = s.currentUser) (hstatus : s'.status = s.status)
    (hactive : s'.active kind = s.active kind)
    (hincoming : ∀ target user, s.active kind = some target →
      (latestIncoming user (s'.messages kind target.key)).map (·.id) =
        (latestIncoming user (s.messages kind target.key)).map (·.id)) :
    s'.readReceipt kind = s.readReceipt kind := by
  have hread : ∀ target id, s'.markMessageRead target id = s.markMessageRead target id := fun target id => by
    rw [Store.markMessageRead, Store.markMessageRead, huser, hstatus]
  have hbind : ∀ (o : Option ChatMessage) (t : Store) target,
      (o.bind fun m => t.markMessageRead target m.id) = (o.map (·.id)).bind (t.markMessageRead target) :=
    fun o t target => by cases o <;> rfl
  unfold Store.readReceipt
  rw [huser, hstatus, hactive]
  cases s.currentUser with
  | none => rfl
  | some user =>
    cases htarget : s.active kind with
    | none => rfl
    | some target =>
      dsimp only
      rw [hbind, hbind, hincoming target _ htarget, funext (hread target)]

theorem Rebuilds.due {keys : List (Kind × Bytes)} (h : Rebuilds keys s s') : s'.due kind = s.due kind := by
  unfold Store.due
  rw [readReceipt_congr h.user h.status (congrFun h.active kind) fun target user _ =>
    h.incoming kind target.key user]

theorem readReceipt_of_missing
    (h : ∀ target, s.active kind = some target → s.conversations kind target.key = none) :
    s.readReceipt kind = none := by
  unfold Store.readReceipt
  cases s.currentUser with
  | none => rfl
  | some user =>
    cases hactive : s.active kind with
    | none => rfl
    | some target =>
      simp only [Store.messages, h target hactive, latestIncoming, List.reverse_nil, List.find?_nil,
        Option.bind_none, ite_self]

theorem due_of_nobody (h : s.currentUser = none) : s.due kind = none := by
  simp [Store.due, Store.readReceipt, h]

theorem due_of_unconnected (h : s.status ≠ .connected) : s.due kind = none := by
  unfold Store.due Store.readReceipt
  cases s.currentUser with
  | none => rfl
  | some user =>
    cases s.active kind with
    | none => rfl
    | some target => simp [h]

theorem due_of_inactive (h : s.active kind = none) : s.due kind = none := by
  unfold Store.due
  rw [readReceipt_of_missing fun target htarget => by rw [h] at htarget; cases htarget]

theorem kind_of_due {target : Target} {msgIdNum : Int64} (h : s.due kind = some (target, msgIdNum)) :
    target.kind = kind := by
  have hactive : ∀ target, s.active kind = some target → target.kind = kind := by
    intro target htarget
    cases kind with
    | direct =>
      obtain ⟨_, -, rfl⟩ := Option.map_eq_some_iff.mp htarget
      rfl
    | group =>
      obtain ⟨_, -, rfl⟩ := Option.map_eq_some_iff.mp htarget
      rfl
  unfold Store.due Store.readReceipt at h
  cases huser : s.currentUser with
  | none => simp [huser] at h
  | some user =>
    cases htarget : s.active kind with
    | none => simp [huser, htarget] at h
    | some opened =>
      simp only [huser, htarget] at h
      by_cases hstatus : s.status = .connected
      · cases hlatest : latestIncoming user.2 (s.messages kind opened.key) with
        | none => simp [hlatest] at h
        | some message =>
          simp only [hstatus, hlatest, Option.bind_some, Store.markMessageRead, huser] at h
          by_cases hnumber : numericMessageId message.id ≤ 0
          · simp [hnumber] at h
          · simp only [hnumber, ne_eq, not_true_eq_false, or_self, if_false, Option.some.injEq,
              Prod.mk.injEq] at h
            exact h.1 ▸ hactive opened htarget
      · simp [hstatus] at h

end Stores

end Store

namespace World

variable (js : Js) (env : Env)

/-! ## Quiet steps -/

/-- The event is not what the user does on the page. -/
def quiet : Event → Bool
  | .sendMessage _ _ | .setActiveContact _ | .selectGroup _ | .logout => false
  | _ => true

def quietStep (w : World) (e : Event) : Option World := if quiet e then w.step js env e else none

/-! ## What wakes the effect -/

/-- The frame changes a message. -/
def changesMessage (raw : Object) : Bool :=
  match typeField raw with
  | some .MessageEditReturn | some .MessageDeleteReturn | some .MessageReactionReturn => Store.isOk raw
  | some .ReadReceipt => true
  | _ => false

/-- The next frame of the server, as the page reads it. -/
def next (w : World) (session : SessionId) : Option Object :=
  (w.down session).head?.bind fun payload => shown (serialize payload)

/-- The conversation that a queued message is in. -/
def conversationOf (item : QueuedMessage) : Kind × Bytes := (item.target.kind, item.target.key)

/-- The conversations whose arrays the event builds anew, with the messages that they have. -/
def rebuilt (w : World) : Event → List (Kind × Bytes)
  | .receive session =>
    match w.next session with
    | some raw => if changesMessage raw then (w.store.changedConversation js raw).toList else []
    | none => []
  | .settle position =>
    match w.calls[position]? with
    | some ⟨_, .message target _, some false⟩ => [(target.kind, target.key)]
    | some ⟨_, .flush item rest, some true⟩ => conversationOf item :: (rest.take 1).map conversationOf
    | _ => []
  | .flush => if w.store.status = .connected then (w.storage.take 1).map conversationOf else []
  | _ => []

/-- The store with the status that the event brings about, or with the user, the
open conversation and the messages of the frame that it brings. -/
def shows (w : World) : Event → Store
  | .connected => { w.store with status := .connected }
  | .receive session =>
    match w.next session with
    | some raw => if changesMessage raw then w.store else w.store.handleIncomingMessage js raw
    | none => w.store
  | _ => w.store

/-- The event builds the array of the open conversation anew. -/
def rebuildsOpen (w : World) (e : Event) (kind : Kind) : Bool :=
  (w.store.active kind).any fun target => (w.rebuilt js e).contains (kind, target.key)

/-- What the event shows has other dependencies. -/
def wakes (w : World) (e : Event) (kind : Kind) : Bool :=
  { w with store := w.shows js e }.deps kind ≠ w.deps kind

/-- An array is built anew only while no receipt is due in it, and what is shown
otherwise has had no receipt. -/
structure Settles (w : World) (e : Event) : Prop where
  rebuilt : ∀ kind, w.rebuildsOpen js e kind = true → w.store.due kind = none
  shown : ∀ kind receipt, w.wakes js e kind = true → (w.shows js e).due kind = some receipt →
    receipt ∉ w.receipts

/-- The receipt that the event makes the page send. -/
def sends (w : World) (e : Event) (kind : Kind) : Option (Target × Int64) :=
  if w.rebuildsOpen js e kind then w.store.due kind
  else if w.wakes js e kind then (w.shows js e).due kind
  else none

section Receipts

variable {js : Js} {env : Env} {w w' : World} {kind : Kind}

/-- The receipts that a rendering sends. -/
def sent (w : World) (kind : Kind) : List (Target × Int64) :=
  if w.changed kind then (w.store.due kind).toList else []

theorem receipts_sendReceipt (w : World) (kind : Kind) :
    (w.sendReceipt (w.store.readReceipt kind)).receipts = w.receipts ++ (w.store.due kind).toList := by
  unfold World.sendReceipt Store.due
  generalize w.store.readReceipt kind = request
  cases request with
  | none => simp
  | some request => cases request <;> simp

theorem receipts_runEffect (w : World) (kind : Kind) :
    (w.runEffect kind).receipts = w.receipts ++ w.sent kind := by
  unfold World.runEffect World.sent
  split
  · exact receipts_sendReceipt w kind
  · simp

theorem store_runEffect (w : World) (kind : Kind) : (w.runEffect kind).store = w.store := by
  obtain ⟨_, _, _, h⟩ := w.runEffect_spec kind
  rw [h]

theorem rendered_runEffect (w : World) (kind kind' : Kind) :
    (w.runEffect kind).rendered kind' = if kind' = kind then some (w.deps kind) else w.rendered kind' := rfl

theorem deps_congr (h : w'.store = w.store) : w'.deps kind = w.deps kind := by
  unfold World.deps
  rw [h]

theorem receipts_render (w : World) : w.render.receipts = w.receipts ++ w.sent .direct ++ w.sent .group := by
  have hstore := w.store_runEffect .direct
  have hrendered : (w.runEffect .direct).rendered .group = w.rendered .group := rfl
  have hsent : (w.runEffect .direct).sent .group = w.sent .group := by
    unfold World.sent World.changed
    rw [deps_congr hstore, hstore, hrendered]
  rw [World.render, receipts_runEffect, receipts_runEffect, hsent]

theorem store_render (w : World) : w.render.store = w.store :=
  (store_runEffect ..).trans (store_runEffect ..)

theorem rendered_render (w : World) (kind : Kind) : w.render.rendered kind = some (w.render.deps kind) := by
  rw [deps_congr w.store_render]
  have hstore := w.store_runEffect .direct
  unfold World.render
  cases kind with
  | direct => rfl
  | group => rw [rendered_runEffect, if_pos rfl, deps_congr hstore]

/-- Where two worlds have the same dependencies, the same receipt is due. -/
theorem due_of_deps (hfresh : w.store.Fresh) (hrenews : w.store.Renews w'.store)
    (h : w'.deps kind = w.deps kind) : w'.store.due kind = w.store.due kind := by
  have hactive : w'.store.active kind = w.store.active kind := congrArg Deps.active h
  have hstatus : w'.store.status = w.store.status := congrArg Deps.status h
  have hreference : w'.store.currentUser.map (·.1) = w.store.currentUser.map (·.1) :=
    congrArg Deps.user h
  have huser : w'.store.currentUser = w.store.currentUser := by
    cases hnew : w'.store.currentUser with
    | none =>
      rw [hnew] at hreference
      exact (Option.map_eq_none_iff.mp hreference.symm).symm
    | some user =>
      rw [hnew] at hreference
      obtain ⟨old, hold, heq⟩ := Option.map_eq_some_iff.mp hreference.symm
      rcases hrenews.user user hnew with hsame | ⟨hle, -⟩
      · exact hsame.symm
      · have hsame : old.1 = user.1 := heq
        exact absurd (hsame ▸ hfresh.user old hold) hle.not_gt
  have hconversation : ∀ target, w.store.active kind = some target →
      w'.store.conversations kind target.key = w.store.conversations kind target.key := by
    intro target htarget
    have hmessages := congrArg Deps.messages h
    simp only [World.deps, hactive, htarget, Option.bind_some] at hmessages
    cases hnew : w'.store.conversations kind target.key with
    | none =>
      rw [hnew] at hmessages
      exact (Option.map_eq_none_iff.mp hmessages.symm).symm
    | some c =>
      rw [hnew] at hmessages
      obtain ⟨old, hold, heq⟩ := Option.map_eq_some_iff.mp hmessages.symm
      rcases hrenews.conversation kind target.key c hnew with hsame | ⟨hle, -⟩
      · exact hsame.symm
      · have hsame : old.reference = c.reference := heq
        exact absurd (hsame ▸ hfresh.conversation kind target.key old hold) hle.not_gt
  unfold Store.due
  rw [Store.readReceipt_congr huser hstatus hactive fun target user htarget => by
    rw [Store.messages, Store.messages, hconversation target htarget]]

/-- The page remembers the dependencies of the last rendering, and has sent the
receipts that were due then. -/
structure Tidy (w : World) : Prop where
  fresh : w.store.Fresh
  rendered : ∀ kind, w.rendered kind = some (w.deps kind) ∨
    w.rendered kind = none ∧ w.store.currentUser = none
  acknowledged : ∀ kind receipt, w.store.due kind = some receipt → receipt ∈ w.receipts

/-- The effect runs when a dependency has changed; without messages it sends nothing. -/
theorem sent_eq (h : w.Tidy) (hrendered : w'.rendered = w.rendered) (kind : Kind) :
    w'.sent kind = if w'.deps kind = w.deps kind then [] else (w'.store.due kind).toList := by
  have hmissing : (w'.deps kind).messages.isNone = true → w'.store.due kind = none := by
    intro hnone
    have hread : w'.store.readReceipt kind = none := Store.readReceipt_of_missing fun target htarget => by
      simpa [World.deps, htarget] using hnone
    rw [Store.due, hread]
  unfold World.sent World.changed
  rw [hrendered]
  rcases h.rendered kind with hold | ⟨hnever, hnobody⟩
  · rw [hold]
    by_cases hdeps : w'.deps kind = w.deps kind
    · rw [if_pos hdeps]
      split
      · next hchanged =>
        rw [hmissing (by simpa [hdeps] using hchanged)]
        rfl
      · rfl
    · rw [if_neg hdeps, if_pos]
      simp [Ne.symm hdeps]
  · rw [hnever, if_pos (by simp)]
    split
    · next hdeps =>
      have huser : w'.store.currentUser.map (·.1) = w.store.currentUser.map (·.1) :=
        congrArg Deps.user hdeps
      rw [hnobody, Option.map_none, Option.map_eq_none_iff] at huser
      rw [Store.due_of_nobody huser]
      rfl
    · rfl

theorem change_of_changesMessage {raw : Object} (h : changesMessage raw = true) (s : Store) :
    ∃ f : ChatMessage → ChatMessage, (∀ m, (f m).id = m.id) ∧ (∀ m, (f m).fromId = m.fromId) ∧
      s.handleIncomingMessage js raw = s.change js raw f := by
  unfold Store.handleIncomingMessage Store.handleOne
  unfold changesMessage at h
  cases htype : typeField raw with
  | none =>
    rw [htype] at h
    cases h
  | some type =>
    rw [htype] at h
    cases type
    case MessageEditReturn => exact ⟨Store.applyEdit raw, fun _ => rfl, fun _ => rfl, if_pos h⟩
    case MessageDeleteReturn => exact ⟨Store.markDeleted, fun _ => rfl, fun _ => rfl, if_pos h⟩
    case MessageReactionReturn => exact ⟨Store.addReaction js raw, fun _ => rfl, fun _ => rfl, if_pos h⟩
    case ReadReceipt => exact ⟨Store.markRead, fun _ => rfl, fun _ => rfl, rfl⟩
    all_goals cases h

theorem rebuilds_change (s : Store) (raw : Object) {f : ChatMessage → ChatMessage}
    (hid : ∀ m, (f m).id = m.id) (hfrom : ∀ m, (f m).fromId = m.fromId) :
    Store.Rebuilds (s.changedConversation js raw).toList s (s.change js raw f) := by
  unfold Store.change
  cases s.changedConversation js raw with
  | none => exact .refl s
  | some conversation => exact Store.rebuilds_updateMessageById s _ _ _ hid hfrom

theorem rebuilds_updateMessageStatus (s : Store) (target : Target) (id : Bytes) (status : MessageStatus) :
    Store.Rebuilds [(target.kind, target.key)] s (s.updateMessageStatus target id status) :=
  Store.rebuilds_updateMessageById s target.kind target.key id (fun _ => rfl) fun _ => rfl

theorem rebuilds_flushLoop (w : World) (items : List QueuedMessage) :
    Store.Rebuilds ((items.take 1).map conversationOf) w.store (w.flushLoop items).store := by
  cases items with
  | nil => exact .refl _
  | cons item rest =>
    have hrebuilds := rebuilds_updateMessageStatus w.store item.target item.localMessageId .sending
    unfold World.flushLoop
    dsimp only
    split
    · exact hrebuilds
    · exact hrebuilds

/-- Without its messages, a group that has been left is sent no receipts. -/
theorem deps_groupLeft {groupId : Int64} (h : w'.store = w.store.groupLeft groupId) (kind : Kind) :
    w'.deps kind = w.deps kind ∨ w'.store.due kind = none := by
  have hdue : w'.store.readReceipt kind = none → w'.store.due kind = none := fun hnone => by
    rw [Store.due, hnone]
  by_cases hactive : w'.store.active kind = w.store.active kind
  · by_cases hmissing : ∃ target, w'.store.active kind = some target ∧ kind = .group ∧
      target.key = intText groupId
    · obtain ⟨target, htarget, hkind, hkey⟩ := hmissing
      refine .inr (hdue (Store.readReceipt_of_missing fun target' htarget' => ?_))
      cases htarget.symm.trans htarget'
      rw [h]
      exact if_pos ⟨hkind, hkey⟩
    · refine .inl ?_
      have hmessages : ∀ target, w'.store.active kind = some target →
          w'.store.conversations kind target.key = w.store.conversations kind target.key := by
        intro target htarget
        rw [h]
        exact if_neg fun hleft => hmissing ⟨target, htarget, hleft⟩
      have hstatus : w'.store.status = w.store.status := by rw [h]; rfl
      have huser : w'.store.currentUser = w.store.currentUser := by rw [h]; rfl
      unfold World.deps
      rw [hstatus, huser, ← hactive]
      cases htarget : w'.store.active kind with
      | none => rfl
      | some target => simp only [Option.bind_some, hmessages target htarget]
  · refine .inr (Store.due_of_inactive ?_)
    rw [h] at hactive ⊢
    cases kind with
    | direct => exact absurd rfl hactive
    | group =>
      simp only [Store.active, Store.groupLeft] at hactive ⊢
      split at hactive
      · simp [*]
      · exact absurd rfl hactive

/-! ## Events -/

theorem page_flushLoop (w : World) (items : List QueuedMessage) :
    (w.flushLoop items).receipts = w.receipts ∧ (w.flushLoop items).rendered = w.rendered ∧
      w.store.Renews (w.flushLoop items).store := by
  cases items with
  | nil => exact ⟨rfl, rfl, .refl _⟩
  | cons item rest =>
    unfold World.flushLoop
    dsimp only
    split
    · exact ⟨rfl, rfl, Store.renews_put ..⟩
    · exact ⟨rfl, rfl, Store.renews_put ..⟩

/-- Before the page is rendered no receipt is sent, and what is new has a number of its own. -/
theorem page_handle {e : Event} (h : w.handle js env e = some w') :
    w'.receipts = w.receipts ∧ w'.rendered = w.rendered ∧ w.store.Renews w'.store := by
  cases e with
  | sendMessage target content =>
    cases h
    unfold World.sendMessage
    split
    · exact ⟨rfl, rfl, .refl _⟩
    · dsimp only
      have hcompose : ∀ user, w.store.Renews (w.store.compose js user target content) := fun user =>
        (Store.renews_put ..).trans (Store.renews_calls ..)
      split
      · exact ⟨rfl, rfl, hcompose _⟩
      · exact ⟨rfl, rfl, hcompose _⟩
  | setActiveContact id =>
    cases h
    cases id with
    | none => exact ⟨rfl, rfl, ⟨le_rfl, fun _ => .inl, fun _ _ _ => .inl⟩⟩
    | some id => exact ⟨rfl, rfl, ⟨le_rfl, fun _ => .inl, fun _ _ _ => .inl⟩⟩
  | selectGroup id =>
    cases h
    exact ⟨rfl, rfl, ⟨le_rfl, fun _ => .inl, fun _ _ _ => .inl⟩⟩
  | logout =>
    cases h
    exact ⟨rfl, rfl, w.store.renews_logout⟩
  | unconnected status =>
    simp only [World.handle] at h
    split at h
    · cases h
    · cases h
      exact ⟨rfl, rfl, ⟨le_rfl, fun _ => .inl, fun _ _ _ => .inl⟩⟩
  | connected =>
    cases h
    exact ⟨rfl, rfl, ⟨le_rfl, fun _ => .inl, fun _ _ _ => .inl⟩⟩
  | flush =>
    cases h
    unfold World.flushOfflineQueue
    split
    · exact page_flushLoop w _
    · exact ⟨rfl, rfl, .refl _⟩
  | settle position =>
    simp only [World.handle] at h
    split at h
    · next json after ok hcall =>
      cases h
      cases after with
      | nothing => cases ok <;> exact ⟨rfl, rfl, .refl _⟩
      | message target id =>
        cases ok with
        | true => exact ⟨rfl, rfl, .refl _⟩
        | false => exact ⟨rfl, rfl, Store.renews_put ..⟩
      | leave groupId =>
        cases ok with
        | true => exact ⟨rfl, rfl, w.store.renews_groupLeft groupId⟩
        | false => exact ⟨rfl, rfl, .refl _⟩
      | flush item rest =>
        cases ok with
        | true =>
          obtain ⟨hreceipts, hrendered, hrenews⟩ := page_flushLoop
            { ({ w with calls := w.calls.eraseIdx position } : World).dequeue item.localMessageId with
              store := w.store.updateMessageStatus item.target item.localMessageId .sent } rest
          exact ⟨hreceipts, hrendered, (Store.renews_put ..).trans hrenews⟩
        | false => exact ⟨rfl, rfl, .refl _⟩
    · cases h
  | receive session =>
    simp only [World.handle] at h
    split at h
    · split at h
      · cases h
        refine ⟨rfl, rfl, ?_⟩
        simp only [Store.onMessageReceived]
        split
        · exact w.store.renews_handleIncomingMessage _
        · exact .refl _
      · cases h
    · cases h
  | _ =>
    obtain ⟨hstore, -, hreceipts, hrendered⟩ := handle_aside h rfl
    exact ⟨hreceipts, hrendered, hstore ▸ .refl _⟩

/-- A quiet event builds arrays anew, or shows another store; otherwise it changes
nothing that the effect looks at, or leaves no receipt due. -/
theorem quiet_handle {e : Event} (hquiet : quiet e = true) (h : w.handle js env e = some w') :
    (w.shows js e = w.store ∧ Store.Rebuilds (w.rebuilt js e) w.store w'.store) ∨
    (w.rebuilt js e = [] ∧ w'.store = w.shows js e) ∨
    (w.rebuilt js e = [] ∧ w.shows js e = w.store ∧
      ∀ kind, w'.deps kind = w.deps kind ∨ w'.store.due kind = none) := by
  cases e with
  | sendMessage target content => cases hquiet
  | setActiveContact id => cases hquiet
  | selectGroup id => cases hquiet
  | logout => cases hquiet
  | unconnected status =>
    simp only [World.handle] at h
    split at h
    · cases h
    · next hstatus =>
      cases h
      exact .inr (.inr ⟨rfl, rfl, fun _ => .inr (Store.due_of_unconnected hstatus)⟩)
  | connected =>
    cases h
    exact .inr (.inl ⟨rfl, rfl⟩)
  | flush =>
    cases h
    simp only [World.flushOfflineQueue, World.rebuilt]
    split
    · exact .inl ⟨rfl, rebuilds_flushLoop w w.storage⟩
    · exact .inl ⟨rfl, .refl _⟩
  | settle position =>
    simp only [World.handle] at h
    split at h
    · next json after ok hcall =>
      cases h
      simp only [World.rebuilt, hcall]
      cases after with
      | nothing => cases ok <;> exact .inl ⟨rfl, .refl _⟩
      | message target id =>
        cases ok with
        | true => exact .inl ⟨rfl, .refl _⟩
        | false => exact .inl ⟨rfl, rebuilds_updateMessageStatus ..⟩
      | leave groupId =>
        cases ok with
        | true => exact .inr (.inr ⟨rfl, rfl, deps_groupLeft rfl⟩)
        | false => exact .inl ⟨rfl, .refl _⟩
      | flush item rest =>
        cases ok with
        | true =>
          exact .inl ⟨rfl, (rebuilds_updateMessageStatus ..).trans (rebuilds_flushLoop
            { ({ w with calls := w.calls.eraseIdx position } : World).dequeue item.localMessageId with
              store := w.store.updateMessageStatus item.target item.localMessageId .sent } rest)⟩
        | false => exact .inl ⟨rfl, .refl _⟩
    · cases h
  | receive session =>
    simp only [World.handle] at h
    split at h
    · next payload rest hdown =>
      split at h
      · cases h
        have hnext : w.next session = shown (serialize payload) := by
          rw [World.next, hdown, List.head?_cons, Option.bind_some]
        simp only [World.rebuilt, World.shows, hnext, Store.onMessageReceived]
        cases shown (serialize payload) with
        | none => exact .inl ⟨rfl, .refl _⟩
        | some raw =>
          dsimp only
          by_cases hchanges : changesMessage raw = true
          · obtain ⟨f, hid, hfrom, hstore⟩ := @change_of_changesMessage js raw hchanges w.store
            rw [if_pos hchanges, if_pos hchanges, hstore]
            exact .inl ⟨rfl, rebuilds_change w.store raw hid hfrom⟩
          · rw [if_neg hchanges, if_neg hchanges]
            exact .inr (.inl ⟨rfl, rfl⟩)
      · cases h
    · cases h
  | _ =>
    obtain ⟨hstore, -⟩ := handle_aside h rfl
    exact .inl ⟨rfl, hstore ▸ .refl _⟩

/-- An event that builds arrays anew shows the store as it is. -/
theorem wakes_of_rebuildsOpen {e : Event} (h : w.rebuildsOpen js e kind = true) :
    w.wakes js e kind = false := by
  have hrebuilt : w.rebuilt js e ≠ [] := by
    rintro hnil
    simp [World.rebuildsOpen, hnil] at h
  have hshows : w.shows js e = w.store := by
    cases e with
    | receive session =>
      simp only [World.rebuilt, World.shows] at hrebuilt ⊢
      cases hnext : w.next session with
      | none => rfl
      | some raw =>
        simp only [hnext] at hrebuilt
        by_cases hchanges : changesMessage raw = true
        · exact if_pos hchanges
        · exact absurd (if_neg hchanges) hrebuilt
    | connected => exact absurd rfl hrebuilt
    | _ => rfl
  rw [World.wakes, hshows]
  simp

theorem deps_of_rebuilds {keys : List (Kind × Bytes)} (hfresh : w.store.Fresh)
    (h : Store.Rebuilds keys w.store w'.store) :
    w'.deps kind = w.deps kind ↔
      ((w.store.active kind).any fun target => keys.contains (kind, target.key)) = false := by
  unfold World.deps
  rw [h.active, h.status, h.user]
  cases w.store.active kind with
  | none => simp
  | some target =>
    simp only [Option.any_some, Option.bind_some, List.contains_eq_mem, decide_eq_false_iff_not, Deps.mk.injEq,
      true_and, and_true]
    constructor
    · intro hmessages hkey
      obtain ⟨c, hc, hreference⟩ := h.rebuilt kind target.key hkey
      rw [hc, Option.map_some] at hmessages
      obtain ⟨old, hold, heq⟩ := Option.map_eq_some_iff.mp hmessages.symm
      exact (heq ▸ hfresh.conversation kind target.key old hold).not_ge hreference
    · intro hkey
      rw [h.others kind target.key hkey]

/-- After a quiet event the page sends the receipt that is due in an array that
has been built anew, or in what the event shows. -/
theorem sent_quiet {e : Event} (htidy : w.Tidy) (hquiet : quiet e = true)
    (h : w.handle js env e = some w') (kind : Kind) : w'.sent kind = (w.sends js e kind).toList := by
  rw [sent_eq htidy (page_handle h).2.1]
  unfold World.sends
  rcases quiet_handle hquiet h with ⟨hshows, hrebuilds⟩ | ⟨hrebuilt, hstore⟩ | ⟨hrebuilt, hshows, hnone⟩
  · have hwakes : w.wakes js e kind = false := by simp [World.wakes, hshows]
    have hdeps := @deps_of_rebuilds w w' kind _ htidy.fresh hrebuilds
    rw [hwakes, hrebuilds.due]
    unfold World.rebuildsOpen
    by_cases hopen : ((w.store.active kind).any fun target =>
        (w.rebuilt js e).contains (kind, target.key)) = true
    · rw [if_pos hopen, if_neg]
      rw [hdeps, hopen]
      decide
    · rw [if_neg hopen, if_pos (hdeps.mpr (Bool.eq_false_iff.mpr hopen))]
      rfl
  · have hopen : w.rebuildsOpen js e kind = false := by simp [World.rebuildsOpen, hrebuilt]
    have hdeps : { w with store := w.shows js e }.deps kind = w'.deps kind := deps_congr hstore.symm
    rw [hopen, World.wakes, hdeps, ← hstore]
    by_cases hsame : w'.deps kind = w.deps kind
    · simp [hsame]
    · simp [hsame]
  · have hopen : w.rebuildsOpen js e kind = false := by simp [World.rebuildsOpen, hrebuilt]
    have hwakes : w.wakes js e kind = false := by simp [World.wakes, hshows]
    rw [hopen, hwakes]
    rcases hnone kind with hdeps | hdue
    · rw [if_pos hdeps]
      rfl
    · rw [hdue]
      simp

/-! ## Steps -/

theorem tidy_step {e : Event} (htidy : w.Tidy) (h : w.step js env e = some w') : w'.Tidy := by
  obtain ⟨w₁, hhandle, rfl⟩ := Option.map_eq_some_iff.mp h
  obtain ⟨hreceipts, hrendered, hrenews⟩ := page_handle hhandle
  refine ⟨?_, fun kind => .inl (w₁.rendered_render kind), fun kind receipt hdue => ?_⟩
  · rw [store_render]
    exact htidy.fresh.of_renews hrenews
  rw [store_render] at hdue
  rw [receipts_render, hreceipts]
  have hsent := sent_eq htidy hrendered kind
  by_cases hdeps : w₁.deps kind = w.deps kind
  · rw [due_of_deps htidy.fresh hrenews hdeps] at hdue
    exact List.mem_append_left _ (List.mem_append_left _ (htidy.acknowledged kind receipt hdue))
  · rw [if_neg hdeps, hdue] at hsent
    have hmem : receipt ∈ w₁.sent kind := hsent ▸ List.mem_singleton_self receipt
    cases kind with
    | direct => exact List.mem_append_left _ (List.mem_append_right _ hmem)
    | group => exact List.mem_append_right _ hmem

theorem tidy_start (st : Server) : (World.start st).Tidy where
  fresh.user _ h := by cases h
  fresh.conversation _ _ _ h := by cases h
  rendered _ := .inr ⟨rfl, rfl⟩
  acknowledged kind receipt h := by
    rw [Store.due_of_nobody rfl] at h
    cases h

theorem tidy_of_run {st : Server} {es : List Event} (h : run (World.step js env) (.start st) es = some w) :
    w.Tidy :=
  invariant_run (I := Tidy) (fun _ _ _ => tidy_step) (tidy_start st) h

/-- A quiet step sends the receipts of its event. -/
theorem receipts_quiet {e : Event} (htidy : w.Tidy) (h : w.quietStep js env e = some w') :
    w'.receipts = w.receipts ++ (w.sends js e .direct).toList ++ (w.sends js e .group).toList := by
  unfold World.quietStep at h
  split at h
  · next hquiet =>
    obtain ⟨w₁, hhandle, rfl⟩ := Option.map_eq_some_iff.mp h
    rw [receipts_render, (page_handle hhandle).1, sent_quiet htidy hquiet hhandle,
      sent_quiet htidy hquiet hhandle]
  · cases h

theorem kind_of_sends {e : Event} {receipt : Target × Int64} (h : w.sends js e kind = some receipt) :
    receipt.1.kind = kind := by
  unfold World.sends at h
  split at h
  · exact Store.kind_of_due h
  · split at h
    · exact Store.kind_of_due h
    · cases h

/-- The receipts that are due have been sent, so an array with one must not be built anew. -/
theorem settles_iff {e : Event} (htidy : w.Tidy) :
    w.Settles js e ↔ ∀ kind receipt, w.sends js e kind = some receipt → receipt ∉ w.receipts := by
  unfold World.sends
  constructor
  · intro h kind receipt hsends
    split at hsends
    · next hopen =>
      rw [h.rebuilt kind hopen] at hsends
      cases hsends
    · split at hsends
      · next hwakes => exact h.shown kind receipt hwakes hsends
      · cases hsends
  · intro h
    refine ⟨fun kind hopen => ?_, fun kind receipt hwakes hdue => ?_⟩
    · cases hdue : w.store.due kind with
      | none => rfl
      | some receipt =>
        have hnew := h kind receipt ((if_pos hopen).trans hdue)
        exact absurd (htidy.acknowledged kind receipt hdue) hnew
    · have hclosed : ¬w.rebuildsOpen js e kind = true := fun hopen => by
        rw [wakes_of_rebuildsOpen hopen] at hwakes
        cases hwakes
      exact h kind receipt (by rw [if_neg hclosed, if_pos hwakes, hdue])

/-- Each message has at most one receipt, or those that it had in `w`. -/
def AtMostOnce (w w' : World) : Prop :=
  ∀ receipt, w'.receipts.count receipt ≤ max 1 (w.receipts.count receipt)

/-- A quiet step sends a second receipt exactly when an array with a receipt due in
it is built anew, or a message is shown again. -/
theorem atMostOnce_step_iff {w₀ : World} {e : Event} (htidy : w.Tidy)
    (hmore : ∀ receipt, w₀.receipts.count receipt ≤ w.receipts.count receipt) (honce : w₀.AtMostOnce w)
    (h : w.quietStep js env e = some w') : w₀.AtMostOnce w' ↔ w.Settles js e := by
  rw [settles_iff htidy]
  have hcount : ∀ receipt, w'.receipts.count receipt = w.receipts.count receipt +
      (w.sends js e .direct).toList.count receipt + (w.sends js e .group).toList.count receipt := by
    intro receipt
    rw [receipts_quiet htidy h, List.count_append, List.count_append]
  have hone : ∀ kind receipt, (w.sends js e kind).toList.count receipt ≤ 1 := by
    intro kind receipt
    cases w.sends js e kind with
    | none => exact Nat.zero_le _
    | some sent => exact List.count_le_length
  constructor
  · intro hle kind receipt hsends hmem
    have hmemSent : receipt ∈ (w.sends js e kind).toList := by simp [hsends]
    have hpos := List.count_pos_iff.mpr hmemSent
    have hold := List.count_pos_iff.mpr hmem
    have hle := hle receipt
    rw [hcount] at hle
    have hmore := hmore receipt
    cases kind with
    | direct => omega
    | group => omega
  · intro hnew receipt
    rw [hcount]
    by_cases hsent : ∃ kind, w.sends js e kind = some receipt
    · obtain ⟨kind, hsends⟩ := hsent
      have hzero := List.count_eq_zero.mpr (hnew kind receipt hsends)
      have hone := hone kind receipt
      have hother : ∀ other, other ≠ kind → (w.sends js e other).toList.count receipt = 0 := by
        intro other hother
        refine List.count_eq_zero.mpr fun hin => hother ?_
        have hsendsOther : w.sends js e other = some receipt := by simpa using hin
        exact (kind_of_sends hsendsOther).symm.trans (kind_of_sends hsends)
      cases kind with
      | direct =>
        rw [hother .group (by decide)]
        omega
      | group =>
        rw [hother .direct (by decide)]
        omega
    · have hnone : ∀ kind, (w.sends js e kind).toList.count receipt = 0 := fun kind =>
        List.count_eq_zero.mpr fun hin => hsent ⟨kind, by simpa using hin⟩
      rw [hnone, hnone]
      exact honce receipt

end Receipts

/-! ### A receipt that comes back -/

/-- User 1001 logs in from elsewhere and writes to user 1000, who opens the conversation. -/
def reading : List Event :=
  firstLogin ++ [Event.server (.accept 0), .server (.frame 2 (Request.register (lit "b") (lit "p")).json 0 0),
    .server (.frame 2 (Request.login 1001 (lit "p")).json 0 0),
    .server (.frame 2 (messageRequest ⟨1001, [], 0⟩ (.direct 1000) (lit "hi")).json 0 0),
    .receive 1, .setActiveContact (some 1001)]

/-- The receipt goes to the server, and comes back. -/
def echo : List Event := [.send 0 true, .settle 0, .serve 1 0 0, .receive 1]

end World

end Client

end LanChat
