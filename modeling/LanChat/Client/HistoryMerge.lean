import LanChat.Client.World
import LanChat.Db.Records
import LanChat.Json.RoundTrip
import LanChat.Lib.KeyedMerge
import LanChat.Server.FrameTypes

/-!
# The merge of a history

`HistoryResponse` puts its messages into a `Map` that is keyed by the id and
sorts the values by their time. No message gets lost, and each one is there in
the version of the response. The `Map` keeps a message that is already there in
its place, and the times are those of whole seconds: a message that came live is
shown in front of an earlier one of the same second that comes with the history
(`loaded_iff`).
-/

namespace LanChat

open Lib Json

namespace Client

namespace Store

variable (js : Js)

/-- `peerId` of a history. -/
def historyPeer (s : Store) (first : Object) : Option Value :=
  if (member first "fromId").any fun fromId => same fromId s.userId then member first "toId"
  else member first "fromId"

/-- The conversation of a history is that of its first item. -/
def historyConversation (s : Store) (first : Object) : Option (Kind × Bytes) :=
  if truthy (member first "groupId") then some (.group, js.string (member first "groupId"))
  else if truthy (s.historyPeer first) then some (.direct, js.string (s.historyPeer first))
  else none

/-- The messages of a history; each one brings its id. -/
def historyMessages (raw : Object) : List ChatMessage :=
  (elements (member raw "messages")).map (toChatMessage js [])

end Store

/-- The items of a history carry the ids of different messages, and times that do not go back. -/
structure InServerOrder (items : List Object) : Prop where
  carries : ∀ item ∈ items, ∃ id time : Int64,
    member item "msg_id" = some (.int id) ∧ member item "timestamp" = some (.int time)
  distinct : (items.map fun item => member item "msg_id").Nodup
  chronological : items.Pairwise fun item later => ∀ time time' : Int64,
    member item "timestamp" = some (.int time) → member later "timestamp" = some (.int time') → time ≤ time'

/-- Times are shown in the order of the server. -/
def Js.KeepsTime (js : Js) : Prop :=
  ∀ time time' : Int64, time ≤ time' →
    js.normalizeTimestamp (some (.int time)) ≤ js.normalizeTimestamp (some (.int time'))

/-- The history has been merged into what was stored. -/
structure Loaded (stored messages result : List ChatMessage) : Prop where
  distinct : (result.map (·.id)).Nodup
  received : ∀ m ∈ messages, m ∈ result
  kept : ∀ m ∈ stored, m.id ∉ messages.map (·.id) → m ∈ result
  ordered : messages.Sublist result

/-- Of two messages of one time, the later one is not stored yet, or the earlier one
is stored in front of it. -/
def TiesInOrder (stored messages : List ChatMessage) : Prop :=
  messages.Pairwise fun m later => m.timestamp = later.timestamp → later.id ∈ stored.map (·.id) →
    [m.id, later.id].Sublist (stored.map (·.id))

instance (stored messages : List ChatMessage) : Decidable (TiesInOrder stored messages) :=
  inferInstanceAs (Decidable (List.Pairwise _ _))

namespace Store

variable {js : Js} {s : Store} {raw item : Object} {kind : Kind} {key : Bytes} {stored messages : List ChatMessage}

/-! ## `mergeById` as a merge by key -/

theorem setById_eq (m : ChatMessage) (messages : List ChatMessage) :
    setById m messages = setBy ChatMessage.id m messages := by
  induction messages with
  | nil => rfl
  | cons m' messages ih => rw [setById, setBy, ih]

theorem mergeById_eq (h : (stored.map ChatMessage.id).Nodup) (messages : List ChatMessage) :
    mergeById stored messages = Lib.merge ChatMessage.id ChatMessage.timestamp messages stored := by
  have hmap : stored.foldl (fun byId m => setById m byId) [] = stored := by
    simp only [setById_eq]
    exact setAll_nil h
  rw [mergeById, List.foldl_append, hmap]
  simp only [setById_eq]
  rfl

/-- Nothing gets lost. -/
theorem loaded_of_ordered (h : (stored.map ChatMessage.id).Nodup) (hids : (messages.map ChatMessage.id).Nodup)
    (hordered : messages.Sublist (mergeById stored messages)) :
    Loaded stored messages (mergeById stored messages) := by
  rw [mergeById_eq h] at hordered ⊢
  exact ⟨nodup_merge h, fun m hm => (mem_merge hids h).mpr (.inl hm),
    fun m hm hnew => (mem_merge hids h).mpr (.inr ⟨hm, hnew⟩), hordered⟩

theorem loaded_mergeById_iff (h : (stored.map ChatMessage.id).Nodup) (hids : (messages.map ChatMessage.id).Nodup)
    (htimes : messages.Pairwise fun m later => m.timestamp ≤ later.timestamp) :
    Loaded stored messages (mergeById stored messages) ↔ TiesInOrder stored messages := by
  rw [TiesInOrder, ← sublist_merge_iff hids h htimes, ← mergeById_eq h]
  exact ⟨Loaded.ordered, loaded_of_ordered h hids⟩

/-! ## The messages of the response -/

theorem intText_injective : Function.Injective intText := fun i j h =>
  Value.int.inj (serialize_inj (.int i) (.int j) h)

/-- An item with an id draws none. -/
theorem toChatMessage_of_id {id : Value} (h : member item "msg_id" = some id) (localId : Bytes) :
    toChatMessage js localId item = toChatMessage js [] item := by
  simp only [toChatMessage, h]

theorem zipIdx_toChatMessage {items : List Object} (h : ∀ item ∈ items, ∃ id, member item "msg_id" = some id)
    (localId : Nat → Bytes) (n : Nat) :
    (items.zipIdx n).map (fun (item, i) => toChatMessage js (localId i) item) = items.map (toChatMessage js []) := by
  induction items generalizing n with
  | nil => rfl
  | cons item items ih =>
    obtain ⟨id, hid⟩ := h item List.mem_cons_self
    rw [List.zipIdx_cons, List.map_cons, List.map_cons, ih fun item hitem => h item (List.mem_cons_of_mem _ hitem)]
    exact congrArg (· :: _) (toChatMessage_of_id hid _)

theorem messages_put (s : Store) (kind : Kind) (key : Bytes) (messages : List ChatMessage) :
    (s.put kind key messages).messages kind key = messages := by
  simp only [Store.messages, put, and_self, if_true]

theorem historyMessages_ids (h : InServerOrder (elements (member raw "messages"))) :
    ((historyMessages js raw).map ChatMessage.id).Nodup := by
  obtain ⟨items, hitems⟩ : ∃ items, items = elements (member raw "messages") := ⟨_, rfl⟩
  rw [← hitems] at h
  rw [historyMessages, ← hitems, List.map_map]
  refine List.Nodup.of_map (fun id => some id) ?_
  have htexts := h.distinct.map_on (f := fun v : Option Value => some (js.string v)) ?_
  · rw [List.map_map] at htexts ⊢
    convert htexts using 1
    refine List.map_congr_left fun item hitem => ?_
    obtain ⟨id, -, hid, -⟩ := h.carries item hitem
    simp only [Function.comp_apply, toChatMessage, hid]
  · intro v hv w hw heq
    obtain ⟨item, hitem, rfl⟩ := List.mem_map.mp hv
    obtain ⟨item', hitem', rfl⟩ := List.mem_map.mp hw
    obtain ⟨id, -, hid, -⟩ := h.carries item hitem
    obtain ⟨id', -, hid', -⟩ := h.carries item' hitem'
    rw [hid, hid'] at heq ⊢
    rw [intText_injective (Option.some.inj heq)]

theorem historyMessages_times (htime : js.KeepsTime) (h : InServerOrder (elements (member raw "messages"))) :
    (historyMessages js raw).Pairwise fun m later => m.timestamp ≤ later.timestamp := by
  rw [historyMessages, List.pairwise_map]
  refine h.chronological.imp_of_mem fun {item later} hitem hlater hle => ?_
  obtain ⟨-, time, -, hfirst⟩ := h.carries item hitem
  obtain ⟨-, time', -, hsecond⟩ := h.carries later hlater
  have := htime time time' (hle time time' hfirst hsecond)
  simp only [toChatMessage, hfirst, hsecond]
  exact this

/-- The response is merged into the conversation of its first item. -/
theorem messages_historyResponse {first : Object} {rest : List Object}
    (hitems : elements (member raw "messages") = first :: rest)
    (horder : InServerOrder (elements (member raw "messages")))
    (hof : historyConversation js s first = some (kind, key)) :
    (s.historyResponse js raw).messages kind key = mergeById (s.messages kind key) (historyMessages js raw) := by
  have hcarries : ∀ item ∈ first :: rest, ∃ id, member item "msg_id" = some id := by
    rw [← hitems]
    intro item hitem
    obtain ⟨id, -, hid, -⟩ := horder.carries item hitem
    exact ⟨.int id, hid⟩
  have hmessages : ((first :: rest).zipIdx.map fun (item, i) => toChatMessage js (js.msgId (s.calls + i)) item) =
      historyMessages js raw := by
    rw [historyMessages, hitems]
    exact zipIdx_toChatMessage hcarries (fun i => js.msgId (s.calls + i)) 0
  rw [historyResponse, hitems]
  simp only [hmessages]
  unfold historyConversation at hof
  split at hof
  · next hgroup =>
    cases hof
    rw [if_pos hgroup]
    exact messages_put ..
  · next hgroup =>
    rw [if_neg hgroup]
    split at hof
    · next hpeer =>
      cases hof
      exact (congrArg (fun s' : Store => s'.messages .direct (js.string (s.historyPeer first))) (if_pos hpeer)).trans
        (messages_put ..)
    · cases hof

theorem handle_historyResponse (htype : typeField raw = some .HistoryResponse) :
    s.handleIncomingMessage js raw = s.historyResponse js raw := by
  simp only [handleIncomingMessage, handleOne, htype]

theorem loaded_nil (hdistinct : (stored.map ChatMessage.id).Nodup) : Loaded stored [] stored :=
  ⟨hdistinct, nofun, fun _ hm _ => hm, List.nil_sublist _⟩

/-- A history is merged as it should be exactly if the ties are in order. -/
theorem loaded_iff (js : Js) (htime : js.KeepsTime) (s : Store) (raw : Object) (kind : Kind) (key : Bytes)
    (htype : typeField raw = some .HistoryResponse)
    (horder : InServerOrder (elements (member raw "messages")))
    (hof : ∀ first ∈ (elements (member raw "messages")).head?, historyConversation js s first = some (kind, key))
    (hdistinct : ((s.messages kind key).map (·.id)).Nodup) :
    Loaded (s.messages kind key) (historyMessages js raw) ((s.handleIncomingMessage js raw).messages kind key) ↔
      TiesInOrder (s.messages kind key) (historyMessages js raw) := by
  rw [handle_historyResponse htype]
  cases hitems : elements (member raw "messages") with
  | nil =>
    have hsame : s.historyResponse js raw = s := by rw [historyResponse, hitems]
    have hnone : historyMessages js raw = [] := by rw [historyMessages, hitems, List.map_nil]
    rw [hsame, hnone]
    exact ⟨fun _ => .nil, fun _ => loaded_nil hdistinct⟩
  | cons first rest =>
    rw [messages_historyResponse hitems horder (hof first (by rw [hitems]; rfl))]
    exact loaded_mergeById_iff hdistinct (historyMessages_ids horder) (historyMessages_times htime horder)

end Store

/-! ## The histories of the server -/

open MessageRouter

section Server

variable {env : Env} {messages : List StoredMessage} {limit : Int32}

theorem elements_historyReply (history : List StoredMessage) :
    elements (member (historyReply history) "messages") =
      history.map fun m => messageToJson (if 0 < m.group_id then .ReceiveGroupMsg else .ReceiveMsg) m := by
  have hmember : member (historyReply history) "messages" = some (.arr (messagesToArray history)) := by
    rw [member, historyReply, find?_object]
    simp
  rw [hmember, elements, messagesToArray, List.filterMap_map]
  exact congrFun List.filterMap_eq_map' history

/-- The items of a sorted history are in the order of the server. -/
theorem inServerOrder_historyReply (hids : (messages.map (·.msg_id)).Nodup)
    (hsorted : messages.Pairwise fun m later => m.timestamp ≤ later.timestamp) :
    InServerOrder (elements (member (historyReply messages) "messages")) := by
  have hid : ∀ type m, member (messageToJson type m) "msg_id" = some (.int m.msg_id) := fun type m => by
    rw [member, messageToJson, find?_object]
    split <;> split <;> split <;> simp
  have htime : ∀ type m, member (messageToJson type m) "timestamp" = some (.int m.timestamp) := fun type m => by
    rw [member, messageToJson, find?_object]
    split <;> split <;> split <;> simp
  rw [elements_historyReply]
  refine ⟨fun item hitem => ?_, ?_, ?_⟩
  · obtain ⟨m, -, rfl⟩ := List.mem_map.mp hitem
    exact ⟨m.msg_id, m.timestamp, hid _ m, htime _ m⟩
  · rw [List.map_map]
    have hkeys := hids.map (f := fun id => some (Value.int id)) fun id id' h => Value.int.inj (Option.some.inj h)
    rw [List.map_map] at hkeys
    convert hkeys using 1
    exact List.map_congr_left fun m _ => hid _ m
  · rw [List.pairwise_map]
    refine hsorted.imp fun {m later} hle time time' hm hlater => ?_
    rw [htime] at hm hlater
    cases hm
    cases hlater
    exact hle

/-- `trimToLimit` brings messages into that order. -/
theorem inServerOrder_trimToLimit (hids : (messages.map (·.msg_id)).Nodup) :
    InServerOrder (elements (member (historyReply (MessageRepository.trimToLimit env messages limit)) "messages")) := by
  have hsort : ((env.sort messages).map (·.msg_id)).Nodup :=
    (((env.sort_perm messages).map _).nodup_iff).mpr hids
  have hsuffix : (MessageRepository.trimToLimit env messages limit).Sublist (env.sort messages) := by
    unfold MessageRepository.trimToLimit
    simp only
    split
    · exact List.drop_sublist _ _
    · exact .refl _
  exact inServerOrder_historyReply (hsort.sublist (hsuffix.map _)) ((env.sort_sorted messages).sublist hsuffix)

end Server

/-! ## Two messages of one second -/

/-- A page that shows times in milliseconds. -/
def Js.millis : Js :=
  { Js.plain with
    normalizeTimestamp := fun time =>
      match time with
      | some (.int time) => time.toInt * 1000
      | _ => 0 }

theorem Js.keepsTime_millis : Js.millis.KeepsTime := fun time time' h => by
  have := Int64.le_iff_toInt_le.mp h
  show time.toInt * 1000 ≤ time'.toInt * 1000
  omega

/-- A message of group 1. -/
def groupMessage (id time : Int64) : StoredMessage :=
  ⟨id, 2000, 0, 1, lit "m", lit "text", time, true, false, false, false, 0, 0, []⟩

/-- The page when the message with id 2, of the second 100, has come live. -/
def liveStore : Store := Store.initial.handleIncomingMessage Js.millis (messageToJson .ReceiveGroupMsg (groupMessage 2 100))

/-- The messages of group 1 on that page. -/
def liveMessages : List ChatMessage := liveStore.messages .group (lit "1")

namespace Store

/-- The earlier message is of an earlier second. -/
theorem loaded_iff_earlier :
    Loaded liveMessages (historyMessages .millis (historyReply [groupMessage 1 99, groupMessage 2 100]))
      ((liveStore.handleIncomingMessage .millis (historyReply [groupMessage 1 99, groupMessage 2 100])).messages
        .group (lit "1")) :=
  (loaded_iff .millis Js.keepsTime_millis liveStore (historyReply [groupMessage 1 99, groupMessage 2 100]) .group
    (lit "1") (by decide +kernel) (inServerOrder_historyReply (by decide) (by decide)) (by decide +kernel)
    (by decide +kernel)).mpr (by decide +kernel)

/-- The earlier message is of the same second: it is shown behind the one that came live. -/
theorem live_message_in_front :
    Js.millis.KeepsTime ∧
      typeField (historyReply [groupMessage 1 100, groupMessage 2 100]) = some .HistoryResponse ∧
      InServerOrder (elements (member (historyReply [groupMessage 1 100, groupMessage 2 100]) "messages")) ∧
      (∀ first ∈ (elements (member (historyReply [groupMessage 1 100, groupMessage 2 100]) "messages")).head?,
        historyConversation .millis liveStore first = some (.group, lit "1")) ∧
      (liveMessages.map (·.id)).Nodup ∧
      ¬Loaded liveMessages (historyMessages .millis (historyReply [groupMessage 1 100, groupMessage 2 100]))
        ((liveStore.handleIncomingMessage .millis (historyReply [groupMessage 1 100, groupMessage 2 100])).messages
          .group (lit "1")) := by
  have horder := @inServerOrder_historyReply [groupMessage 1 100, groupMessage 2 100] (by decide) (by decide)
  refine ⟨Js.keepsTime_millis, by decide +kernel, horder, by decide +kernel, by decide +kernel, fun h => ?_⟩
  rw [handle_historyResponse (by decide +kernel), messages_historyResponse (elements_historyReply _) horder
    (by decide +kernel), show liveStore.messages _ _ = liveMessages from rfl] at h
  exact absurd ((loaded_mergeById_iff (by decide +kernel) (by decide +kernel) (by decide +kernel)).mp h)
    (by decide +kernel)

end Store

end Client

end LanChat
