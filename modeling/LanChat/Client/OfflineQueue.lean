import LanChat.Client.World
import LanChat.Server.Saving

/-!
# When an offline message is dropped

`flushOfflineQueue` takes a message out of the queue when `sendRawJson` has
resolved, that is when `TcpManager` has written the frame, whatever the server
makes of it; and it runs when the client has connected, before a login. A message
that is dropped is stored by the server if the server has by then handled its frame
on a session of the user who wrote it (`dropped_once_stored`).
-/

namespace LanChat

open Lib Json

namespace Client

open World MessageRepository

/-! ## What changes the queue -/

/-- What identifies a queued message. -/
def QueuedMessage.letter (item : QueuedMessage) : Target × Bytes × Bytes :=
  (item.target, item.localMessageId, item.json)

def letters (w : World) : List (Target × Bytes × Bytes) := w.storage.map QueuedMessage.letter

section Queue

variable {js : Js} {env : Env} {w w' : World}

@[simp] theorem storage_invoke (json : Bytes) (after : Continuation) : (w.invoke json after).storage = w.storage :=
  rfl

theorem letters_flushFailed (item : QueuedMessage) : letters (w.flushFailed item) = letters w := by
  show (w.storage.map _).map QueuedMessage.letter = _
  rw [List.map_map]
  refine List.map_congr_left fun queued _ => ?_
  show QueuedMessage.letter (if _ then _ else _) = _
  split <;> rfl

theorem letters_flushLoop (rest : List QueuedMessage) : letters (w.flushLoop rest) = letters w := by
  cases rest with
  | nil => rfl
  | cons item rest =>
    unfold flushLoop
    dsimp only
    split
    · rfl
    · exact letters_flushFailed item

theorem letters_dequeue (localMessageId : Bytes) :
    letters (w.dequeue localMessageId) = (letters w).filter fun l => l.2.1 ≠ localMessageId := by
  show (w.storage.filter _).map _ = (w.storage.map _).filter _
  rw [List.filter_map]
  rfl

/-! ## Messages in the queue -/

/-- A message gets into the queue when the user writes it, and out of it when a call
of `flushOfflineQueue` has resolved. -/
theorem letters_handle {e : Event} (h : w.handle js env e = some w') :
    letters w' = letters w ∨
    (∃ target content user, e = .sendMessage target content ∧ w.store.currentUser.map (·.2) = some user ∧
      w.store.status ≠ .connected ∧ letters w' = letters w ++
        [(target, js.msgId w.store.calls, (messageRequest user target content).json)]) ∨
    ∃ position json item rest, e = .settle position ∧
      w.calls[position]? = some ⟨json, .flush item rest, some true⟩ ∧
      letters w' = (letters w).filter fun l => l.2.1 ≠ item.localMessageId := by
  cases e with
  | sendMessage target content =>
    cases h
    unfold sendMessage
    split
    · exact .inl rfl
    · next reference user huser =>
      dsimp only
      split
      · exact .inl rfl
      · next hstatus =>
        refine .inr (.inl ⟨target, content, user, rfl, by rw [huser]; rfl, hstatus, ?_⟩)
        exact List.map_append
  | flush =>
    cases h
    unfold flushOfflineQueue
    split
    · exact .inl (letters_flushLoop _)
    · exact .inl rfl
  | settle position =>
    simp only [World.handle] at h
    split at h
    · next json after ok hcall =>
      cases h
      cases after with
      | flush item rest =>
        cases ok with
        | true =>
          refine .inr (.inr ⟨position, json, item, rest, rfl, hcall, ?_⟩)
          exact (letters_flushLoop rest).trans (letters_dequeue item.localMessageId)
        | false => exact .inl (letters_flushFailed item)
      | _ => cases ok <;> exact .inl rfl
    · cases h
  | receive session =>
    simp only [World.handle] at h
    split at h
    · split at h
      · cases h
        exact .inl rfl
      · cases h
    · cases h
  | unconnected status =>
    simp only [World.handle] at h
    split at h
    · cases h
    · cases h
      exact .inl rfl
  | setActiveContact _ | selectGroup _ | logout | connected =>
    cases h
    exact .inl rfl
  | _ => exact .inl (by rw [letters, letters, (handle_aside h rfl).2.1])

theorem letters_step {e : Event} (h : World.step js env w e = some w') :
    letters w' = letters w ∨
    (∃ target content user, e = .sendMessage target content ∧ w.store.currentUser.map (·.2) = some user ∧
      w.store.status ≠ .connected ∧ letters w' = letters w ++
        [(target, js.msgId w.store.calls, (messageRequest user target content).json)]) ∨
    ∃ position json item rest, e = .settle position ∧
      w.calls[position]? = some ⟨json, .flush item rest, some true⟩ ∧
      letters w' = (letters w).filter fun l => l.2.1 ≠ item.localMessageId := by
  obtain ⟨u, hu, rfl⟩ := Option.map_eq_some_iff.mp h
  obtain ⟨_, _, _, hrender⟩ := u.render_spec
  have hsame : letters u.render = letters u := by
    rw [hrender]
    rfl
  exact hsame ▸ letters_handle hu

end Queue

/-! ## Runs -/

section Runs

variable (js : Js) (env : Env) (st : Server)

/-- The user wrote this message, while the client was not connected. -/
def ComposedBy (es : List Event) (user : CurrentUser) (item : QueuedMessage) (content : Bytes) : Prop :=
  ∃ ds rest t, es = ds ++ Event.sendMessage item.target content :: rest ∧
    run (World.step js env) (.start st) ds = some t ∧ t.store.currentUser.map (·.2) = some user ∧
    t.store.status ≠ .connected ∧
    item.letter = (item.target, js.msgId t.store.calls, (messageRequest user item.target content).json)

/-- The server has stored a message of this user to the target with this content. -/
def HasStored (es : List Event) (user : CurrentUser) (target : Target) (content : Bytes) : Prop :=
  ∃ ds rest t, es = ds ++ rest ∧ run (World.step js env) (.start st) ds = some t ∧
    ∃ row ∈ t.server.cached .messages, (fromRow row).from_id.toInt64 = user.id ∧
      (fromRow row).content = content ∧
      match target with
      | .direct id => (fromRow row).to_id.toInt64 = id ∧ (fromRow row).group_id = 0
      | .group id => (fromRow row).to_id = 0 ∧ (fromRow row).group_id.toInt64 = id

/-- Whatever the step drops from the queue, the server has stored. -/
def DroppedOnceStored (es : List Event) (w : World) (_ : Event) (w' : World) : Prop :=
  ∀ item ∈ w.storage, (∀ queued ∈ w'.storage, queued.localMessageId ≠ item.localMessageId) →
    ∀ user content, ComposedBy js env st es user item content → HasStored js env st es user item.target content

/-- The server has handled the frame of the message on a session of its author. -/
def Accepted (es : List Event) (user : CurrentUser) (json : Bytes) : Prop :=
  ∃ ds session now later rest t, es = ds ++ Event.serve session now later :: rest ∧
    run (World.step js env) (.start st) ds = some t ∧ (t.up session).head? = some json ∧
    TcpServer.Handled t.server session now ∧ 0 < t.server.userId session ∧
    (t.server.userId session).toInt64 = user.id

/-- A message that the server can store as it is: the id of the target is one of the
server's, and the text is not empty and is read as it was written. -/
def Storable (target : Target) (content : Bytes) : Prop :=
  content ≠ [] ∧ content.flatMap heard = content ∧
    match target with
    | .direct id => 0 < id.toInt32 ∧ id.toInt32.toInt64 = id
    | .group id => 0 < id.toInt32 ∧ id.toInt32.toInt64 = id

/-- When a call of `flushOfflineQueue` has resolved, the server has accepted the
messages that are taken out of the queue. -/
def DropsAccepted (es : List Event) (w : World) (e : Event) : Prop :=
  ∀ position json item rest, e = .settle position →
    w.calls[position]? = some ⟨json, .flush item rest, some true⟩ →
    ∀ queued ∈ w.storage, queued.localMessageId = item.localMessageId →
      ∀ user content, ComposedBy js env st es user queued content →
        Storable queued.target content ∧ Accepted js env st es user queued.json

section Receive

variable {user : CurrentUser} {target : Target} {content : Bytes}

theorem stringField_messageRequest :
    stringField (messageRequest user target content).received "msg" [] = content.flatMap heard := by
  cases target <;>
    simp [messageRequest, Request.received, Request.members, stringField, find?_object, heardMember, heardValue]

/-- The server reads the target of a message. -/
theorem target_messageRequest :
    match target with
    | .direct id => typeField (messageRequest user target content).received = some .SendMsg ∧
        intField (messageRequest user target content).received "toId" 0 = id.toInt32
    | .group id => typeField (messageRequest user target content).received = some .SendGroupMsg ∧
        intField (messageRequest user target content).received "groupId" 0 = id.toInt32 := by
  cases target with
  | direct id =>
    refine ⟨Request.typeField_received _, ?_⟩
    simp [messageRequest, Request.received, Request.members, intField, find?_object, heardMember, heardValue,
      Value.isNumber]
  | group id =>
    refine ⟨Request.typeField_received _, ?_⟩
    simp [messageRequest, Request.received, Request.members, intField, find?_object, heardMember, heardValue,
      Value.isNumber]

/-- The text of a message tells who wrote it. -/
theorem id_of_messageRequest {user' : CurrentUser} {target' : Target} {content' : Bytes}
    (h : (messageRequest user target content).json = (messageRequest user' target' content').json) :
    user.id = user'.id := by
  have hid : ∀ user target content, int64Field (messageRequest user target content).received "fromId" 0 = user.id := by
    intro user target content
    cases target <;>
      simp [messageRequest, Request.received, Request.members, int64Field, find?_object, heardMember, heardValue,
        Value.isNumber]
  have hreceived := congrArg readObject h
  rw [Request.readObject_json, Request.readObject_json, Option.some.injEq] at hreceived
  rw [← hid user target content, hreceived, hid]

end Receive

section Accepted

variable {js env st} {user : CurrentUser} {target : Target} {content : Bytes} {es : List Event} {w : World}

/-- An accepted message is stored. -/
theorem hasStored_of_accepted (hrun : run (World.step js env) (.start st) es = some w)
    (hstorable : Storable target content)
    (h : Accepted js env st es user (messageRequest user target content).json) :
    HasStored js env st es user target content := by
  obtain ⟨ds, session, now, later, rest, t, rfl, hds, hup, hhandled, hpos, huser⟩ := h
  rw [run_append, hds, Option.bind_some] at hrun
  obtain ⟨t', ht', -⟩ := run_cons_eq_some.mp hrun
  refine ⟨ds ++ [Event.serve session now later], rest, t', by simp, ?_, ?_⟩
  · rw [run_append, hds, Option.bind_some]
    exact run_cons_eq_some.mpr ⟨t', ht', rfl⟩
  have hserver : TcpServer.step env t.server
      (.frame session (messageRequest user target content).json now later) = some t'.server := by
    obtain ⟨u, hu, rfl⟩ := Option.map_eq_some_iff.mp ht'
    obtain ⟨_, _, _, hrender⟩ := u.render_spec
    simp only [World.handle] at hu
    split at hu
    · next json frames hframes =>
      rw [hframes, List.head?_cons, Option.some.injEq] at hup
      subst hup
      rw [hrender]
      exact (of_serverHandles hu).1
    · cases hu
  obtain ⟨hne, hheard, hid⟩ := hstorable
  have hmsg : stringField (messageRequest user target content).received "msg" [] = content :=
    stringField_messageRequest.trans hheard
  obtain ⟨hprivate, hgroup⟩ := TcpServer.stored_of_frame hhandled (Request.readObject_json _) hpos
    (hmsg.symm ▸ hne) hserver
  have hcached : ∀ {fromId toId groupId : Int32}, Stored fromId toId groupId content t'.server.db →
      ∃ row ∈ t'.server.cached .messages, (fromRow row).from_id = fromId ∧ (fromRow row).to_id = toId ∧
        (fromRow row).group_id = groupId ∧ (fromRow row).content = content := by
    rintro fromId toId groupId ⟨rows, hrows, hrow⟩
    rw [Server.cached, hrows]
    exact hrow
  have htarget := @target_messageRequest user target content
  rw [hmsg] at hprivate hgroup
  cases target with
  | direct id =>
    obtain ⟨htype, hto⟩ := htarget
    rw [hto] at hprivate
    obtain ⟨row, hrow, hfrom, hto, hgroup, hcontent⟩ := hcached (hprivate htype hid.1)
    exact ⟨row, hrow, hfrom ▸ huser, hcontent, hto ▸ hid.2, hgroup⟩
  | group id =>
    obtain ⟨htype, hto⟩ := htarget
    rw [hto] at hgroup
    obtain ⟨row, hrow, hfrom, hto, hgroup, hcontent⟩ := hcached (hgroup htype hid.1)
    exact ⟨row, hrow, hfrom ▸ huser, hcontent, hto, hgroup ▸ hid.2⟩

end Accepted

/-- In every run in which only accepted messages are taken out of the queue, every
message that is dropped has been stored. -/
theorem dropped_once_stored (events : List Event)
    (h : AlongAfter (World.step js env) (DropsAccepted js env st) (.start st) events) :
    EachStepAfter (World.step js env) (DroppedOnceStored js env st) (.start st) events := by
  refine eachStepAfter_of_alongAfter (fun es w e w' hrun hstep hdrops => ?_) h
  intro item hitem hgone user content hcomposed
  have hmem : item.letter ∈ letters w := List.mem_map_of_mem hitem
  have hnot : item.letter ∉ letters w' := by
    intro hin
    obtain ⟨queued, hqueued, hletter⟩ := List.mem_map.mp hin
    exact hgone queued hqueued (congrArg (·.2.1) hletter)
  rcases letters_step hstep with hsame | ⟨_, _, _, -, -, -, hadded⟩ | ⟨position, json, done, rest, he, hcall, hfilter⟩
  · exact absurd (hsame ▸ hmem) hnot
  · exact absurd (hadded ▸ List.mem_append_left _ hmem) hnot
  · have hid : item.localMessageId = done.localMessageId := by
      by_contra hne
      exact hnot (hfilter ▸ List.mem_filter.mpr ⟨hmem, decide_eq_true hne⟩)
    obtain ⟨hstorable, haccepted⟩ := hdrops position json done rest he hcall item hitem hid user content hcomposed
    obtain ⟨_, _, _, -, -, -, -, hletter⟩ := hcomposed
    have hjson : item.json = (messageRequest user item.target content).json := congrArg (·.2.2) hletter
    exact hasStored_of_accepted hrun hstorable (hjson ▸ haccepted)

/-! ## Every message in the queue has an author -/

variable {js env st} in
theorem ComposedBy.mono {es : List Event} {user : CurrentUser} {item item' : QueuedMessage} {content : Bytes}
    (h : ComposedBy js env st es user item content) (hletter : item'.letter = item.letter) (e : Event) :
    ComposedBy js env st (es ++ [e]) user item' content := by
  obtain ⟨ds, rest, t, rfl, hds, huser, hstatus, hitem⟩ := h
  have htarget : item'.target = item.target := congrArg (·.1) hletter
  rw [← htarget] at hitem
  exact ⟨ds, rest ++ [e], t, by simp [htarget], hds, huser, hstatus, hletter.trans hitem⟩

/-- Every message in the queue was written by some user who was logged in on the page. -/
theorem composed_of_run {es : List Event} {w : World} (hrun : run (World.step js env) (.start st) es = some w) :
    ∀ item ∈ w.storage, ∃ user content, ComposedBy js env st es user item content := by
  refine history_run (I := fun _ => True)
    (P := fun es w => ∀ item ∈ w.storage, ∃ user content, ComposedBy js env st es user item content)
    (fun item hitem => absurd hitem List.not_mem_nil) ?_ (throughout_of_step (fun _ _ _ _ _ => trivial) trivial es) hrun
  intro es w e w' hrun _ hcomposed hstep item hitem
  have hold : item.letter ∈ letters w → ∃ user content, ComposedBy js env st (es ++ [e]) user item content := by
    intro hmem
    obtain ⟨item', hitem', hletter⟩ := List.mem_map.mp hmem
    obtain ⟨user, content, h⟩ := hcomposed item' hitem'
    exact ⟨user, content, h.mono hletter.symm e⟩
  have hmem : item.letter ∈ letters w' := List.mem_map_of_mem hitem
  rcases letters_step hstep with hsame | ⟨target, content, user, he, huser, hstatus, hadded⟩ |
    ⟨_, _, _, _, -, -, hfilter⟩
  · exact hold (hsame ▸ hmem)
  · rcases List.mem_append.mp (hadded ▸ hmem) with hmem | hmem
    · exact hold hmem
    · have hletter := List.mem_singleton.mp hmem
      have htarget : item.target = target := congrArg (·.1) hletter
      subst htarget
      exact ⟨user, content, es, [], w, by rw [he], hrun, huser, hstatus, hletter⟩
  · exact hold (List.mem_filter.mp (hfilter ▸ hmem)).1

end Runs

/-! ### A message that is kept until its author has logged in again -/

/-- The same, but the user logs in before the queue is flushed. -/
def patience : List Event :=
  [.unconnected .disconnected, .dropped, .server (.readError 1), .sendMessage (.direct 1000) (lit "hi"),
    .unconnected .connecting, .opened 0, .connected]
    ++ exchange 2 (.login 1000 (lit "p")) ++ [Event.flush, .send 0 true]

/-- No call of `flushOfflineQueue` resolves. -/
def NoFlushResolves (w : World) (e : Event) : Bool :=
  match e with
  | .settle position =>
    match w.calls[position]? with
    | some ⟨_, .flush _ _, some true⟩ => false
    | _ => true
  | _ => true

theorem dropsAccepted_of_noFlushResolves {js : Js} {env : Env} {st : Server} {es : List Event} {w : World}
    {e : Event} (h : NoFlushResolves w e = true) : DropsAccepted js env st es w e := by
  rintro position json item rest rfl hcall
  simp only [NoFlushResolves, hcall] at h
  cases h

theorem alongAfter_patience :
    AlongAfter (World.step .plain .ideal) (DropsAccepted .plain .ideal (.boot .ideal .empty))
      (.start (.boot .ideal .empty)) (firstLogin ++ patience ++ [Event.serve 2 0 0] ++ [Event.settle 0]) := by
  have hquiet : Along (World.step .plain .ideal) (fun w e => NoFlushResolves w e = true)
      (.start (.boot .ideal .empty)) (firstLogin ++ patience ++ [Event.serve 2 0 0]) := by
    decide +kernel
  have hrun : ((run (World.step .plain .ideal) (.start (.boot .ideal .empty)) (firstLogin ++ patience)).bind
      fun t => (World.step .plain .ideal t (.serve 2 0 0)).map fun w =>
        ((t.up 2).head?, t.server.userId 2, (t.server.pool.object 2).reading,
          ((t.server.pool.object 2).consumeRateLimitToken 0).1, w.storage.map (·.json))) =
      some (some (messageRequest ⟨1000, [], 0⟩ (.direct 1000) (lit "hi")).json, 1000, true, true,
        [(messageRequest ⟨1000, [], 0⟩ (.direct 1000) (lit "hi")).json]) := by
    decide +kernel
  obtain ⟨t, ht, hserve⟩ := Option.bind_eq_some_iff.mp hrun
  obtain ⟨w, hw, heq⟩ := Option.map_eq_some_iff.mp hserve
  simp only [Prod.mk.injEq] at heq
  obtain ⟨hup, huser, hreading, htoken, hqueue⟩ := heq
  have hw' : run (World.step .plain .ideal) (.start (.boot .ideal .empty))
      (firstLogin ++ patience ++ [Event.serve 2 0 0]) = some w := by
    rw [run_append, ht, Option.bind_some]
    exact run_cons_eq_some.mpr ⟨w, hw, rfl⟩
  have hbefore : AlongAfter (World.step .plain .ideal) (DropsAccepted .plain .ideal (.boot .ideal .empty))
      (.start (.boot .ideal .empty)) (firstLogin ++ patience ++ [Event.serve 2 0 0]) :=
    alongAfter_of_along (D := fun w e => NoFlushResolves w e = true)
      (fun _ _ _ => dropsAccepted_of_noFlushResolves) hquiet
  refine hbefore.concat hw' ?_
  intro position json item rest _ _ queued hqueued _ user content hcomposed
  obtain ⟨ds, rest', t', hes, -, -, -, hletter⟩ := hcomposed
  have hjson : queued.json = (messageRequest ⟨1000, [], 0⟩ (.direct 1000) (lit "hi")).json :=
    List.mem_singleton.mp (hqueue ▸ List.mem_map_of_mem hqueued)
  have hid : user.id = 1000 := id_of_messageRequest ((congrArg (·.2.2) hletter).symm.trans hjson)
  have hsent : Event.sendMessage queued.target content ∈ firstLogin ++ patience ++ [Event.serve 2 0 0] :=
    hes ▸ List.mem_append_right _ List.mem_cons_self
  simp [firstLogin, patience, exchange] at hsent
  rw [hsent.1, hsent.2, hjson]
  exact ⟨⟨by decide, by decide, by decide, by decide⟩, firstLogin ++ patience, 2, 0, 0, [], t, rfl, ht, hup,
    ⟨hreading, htoken⟩, by rw [huser]; decide, by rw [huser, hid]; rfl⟩

theorem dropped_once_stored_patience :
    EachStepAfter (World.step .plain .ideal) (DroppedOnceStored .plain .ideal (.boot .ideal .empty))
      (.start (.boot .ideal .empty)) (firstLogin ++ patience ++ [Event.serve 2 0 0] ++ [Event.settle 0]) :=
  dropped_once_stored .plain .ideal _ _ alongAfter_patience

/-! ### A message that is lost -/

/-- The user loses the connection, writes to itself, and is connected again. The
server refuses the message, as nobody has logged in on the new connection. -/
def reconnection : List Event :=
  [.unconnected .disconnected, .dropped, .server (.readError 1), .sendMessage (.direct 1000) (lit "hi"),
    .unconnected .connecting, .opened 0, .connected, .flush, .send 0 true, .serve 2 0 0]

theorem offline_message_lost :
    ¬∀ js env st events, EachStepAfter (World.step js env) (DroppedOnceStored js env st) (.start st) events := by
  intro hall
  have hempty : Throughout (World.step .plain .ideal) (fun w => (w.server.cached .messages).isEmpty = true)
      (.start (.boot .ideal .empty)) (firstLogin ++ reconnection) := by
    decide +kernel
  have hrun : ((run (World.step .plain .ideal) (.start (.boot .ideal .empty)) (firstLogin ++ reconnection)).bind
      fun w => (World.step .plain .ideal w (.settle 0)).map fun w' => (w.storage.length, w'.storage.length)) =
      some (1, 0) := by
    decide +kernel
  obtain ⟨w, hw, hstep⟩ := Option.bind_eq_some_iff.mp hrun
  obtain ⟨w', hw', heq⟩ := Option.map_eq_some_iff.mp hstep
  simp only [Prod.mk.injEq, List.length_eq_zero_iff] at heq
  obtain ⟨hone, hnone⟩ := heq
  obtain ⟨item, hitem⟩ := List.length_eq_one_iff.mp hone
  have hmem : item ∈ w.storage := hitem ▸ List.mem_singleton_self item
  obtain ⟨user, content, hcomposed⟩ := composed_of_run .plain .ideal _ hw item hmem
  obtain ⟨ds, rest, t, hes, ht, row, hrow, -⟩ :=
    hall .plain .ideal _ (firstLogin ++ reconnection ++ [Event.settle 0]) (firstLogin ++ reconnection) _ [] w w' rfl hw hw'
      item hmem (by rw [hnone]; exact nofun) user content hcomposed
  have hlast := (hes ▸ hempty).left.last ht
  rw [List.isEmpty_iff.mp hlast] at hrow
  cases hrow

end Client

end LanChat
