import LanChat.Client.Stringify
import LanChat.Protocol

/-!
# The requests of the client

Every message that the stores of the client hand to `sendRawJson`. The numbers
in them are integers.
-/

namespace LanChat

open Lib Json

namespace Client

/-- `CurrentUser`. -/
structure CurrentUser where
  id : Int64
  nickname : Bytes
  headId : Int64
deriving DecidableEq

/-- `target`: the conversation that an action is about. -/
inductive Target where
  | direct (id : Int64)
  | group (id : Int64)
deriving DecidableEq

/-- `...(target.type === 'direct' ? { toId: target.id } : { groupId: target.id })`. -/
def Target.members : Target → List (String × Value)
  | direct id => [("toId", .int id)]
  | group id => [("groupId", .int id)]

/-- `scope` of a search. -/
inductive Scope where
  | all
  | direct
  | group

def Scope.text : Scope → Bytes
  | all => lit "all"
  | direct => lit "direct"
  | group => lit "group"

/-- `direct:${id}` and `group:${id}`. -/
def Target.text : Target → Bytes
  | direct id => lit "direct:" ++ intText id
  | group id => lit "group:" ++ intText id

/-- What the client sends, by the action that sends it. -/
inductive Request where
  | login (id : Int64) (password : Bytes)
  | register (nickname password : Bytes)
  | sendPrivateMessage (user : CurrentUser) (toId : Int64) (content : Bytes)
  | sendGroupMessage (user : CurrentUser) (groupId : Int64) (content : Bytes)
  | editMessage (user : CurrentUser) (target : Target) (msgIdNum : Int64) (content : Bytes)
  | deleteMessage (user : CurrentUser) (target : Target) (msgIdNum : Int64)
  | reactToMessage (user : CurrentUser) (target : Target) (msgIdNum : Int64) (reaction : Bytes)
  | markMessageRead (user : CurrentUser) (target : Target) (msgIdNum : Int64)
  | sendFileMetadata (user : CurrentUser) (target : Target) (name : Bytes) (size : Int64) (hash : Bytes)
      (note : Option Bytes)
  | negotiateProtocol
  | createGroup (user : CurrentUser) (trimmed : Bytes)
  | joinGroup (user : CurrentUser) (groupId : Int64)
  | leaveGroup (user : CurrentUser) (groupId : Int64)
  | sendTypingIndicator (user : CurrentUser) (target : Target)
  | requestHistory (user : CurrentUser) (target : Target) (limit : Int64)
  | searchMessages (requestId trimmed : Bytes) (scope : Scope)
  | summarizeConversation (requestId : Bytes) (target : Target) (provider model : Option Bytes)
  | sendFriendRequest (user : CurrentUser) (toId : Int64) (msg : Bytes)
  | respondToRequest (user : CurrentUser) (fromId : Int64) (accept : Bool)
  | removeFriend (user : CurrentUser) (friendId : Int64)

namespace Request

def type : Request → MsgType
  | login .. => .Login
  | register .. => .RegisterUser
  | sendPrivateMessage .. => .SendMsg
  | sendGroupMessage .. => .SendGroupMsg
  | editMessage .. => .MessageEdit
  | deleteMessage .. => .MessageDelete
  | reactToMessage .. => .MessageReaction
  | markMessageRead .. => .ReadReceipt
  | sendFileMetadata .. => .SendFile
  | negotiateProtocol => .ProtocolHello
  | createGroup .. => .CreateGroup
  | joinGroup .. => .JoinGroup
  | leaveGroup .. => .LeaveGroup
  | sendTypingIndicator .. => .SystemBroadcast
  | requestHistory .. => .RequestHistory
  | searchMessages .. => .AIRequest
  | summarizeConversation .. => .AIRequest
  | sendFriendRequest .. => .FriendRequest
  | respondToRequest _ _ accept => if accept then .FriendAccept else .FriendRemove
  | removeFriend .. => .FriendRemove

/-- A member that is left out when it is `undefined`. -/
def optional (key : String) (s : Option Bytes) : List (String × Value) :=
  (s.map fun s => (key, Value.str s)).toList

/-- The members behind `type`, in the order of the object literal. -/
def members : Request → List (String × Value)
  | login id password => [("id", .int id), ("password", .str password)]
  | register nickname password => [("password", .str password), ("nickname", .str nickname)]
  | sendPrivateMessage user toId content =>
    [("fromId", .int user.id), ("toId", .int toId), ("msg", .str content)]
  | sendGroupMessage user groupId content =>
    [("fromId", .int user.id), ("groupId", .int groupId), ("msg", .str content)]
  | editMessage user target msgIdNum content =>
    [("fromId", .int user.id), ("msg_id", .int msgIdNum), ("msg", .str content)] ++ target.members
  | deleteMessage user target msgIdNum =>
    [("fromId", .int user.id), ("msg_id", .int msgIdNum)] ++ target.members
  | reactToMessage user target msgIdNum reaction =>
    [("fromId", .int user.id), ("msg_id", .int msgIdNum), ("reaction", .str reaction)] ++ target.members
  | markMessageRead user target msgIdNum =>
    [("fromId", .int user.id), ("msg_id", .int msgIdNum)] ++ target.members
  | sendFileMetadata user target name size hash note =>
    [("fromId", .int user.id), ("file_name", .str name), ("file_size", .int size), ("file_hash", .str hash)]
      ++ optional "msg" note ++ target.members
  | negotiateProtocol =>
    [("version", .int 2), ("min_version", .int 1),
      ("features", .arr (["message_edit", "message_delete", "message_reaction", "read_receipt",
        "file_metadata"].map Json.text))]
  | createGroup user trimmed =>
    [("hostId", .int user.id), ("name", .str trimmed), ("hostNickname", .str user.nickname),
      ("hostHeadId", .int user.headId)]
  | joinGroup user groupId => [("id", .int user.id), ("groupId", .int groupId)]
  | leaveGroup user groupId => [("id", .int user.id), ("groupId", .int groupId)]
  | sendTypingIndicator user target =>
    [("msg", Json.text "typing"), ("event", Json.text "typing"), ("fromId", .int user.id),
      ("nickname", .str user.nickname), ("isTyping", .bool true)] ++ target.members
  | requestHistory user target limit => [("id", .int user.id), ("limit", .int limit)] ++ target.members
  | searchMessages requestId trimmed scope =>
    [("request_id", .str requestId), ("ai_type", Json.text "search"), ("msg", .str trimmed),
      ("scope", .str scope.text), ("limit", .int 50)]
  | summarizeConversation requestId target provider model =>
    [("request_id", .str requestId), ("ai_type", Json.text "summarize"), ("msg", .str target.text)]
      ++ optional "provider" provider ++ optional "model" model
  | sendFriendRequest user toId msg =>
    [("fromId", .int user.id), ("toId", .int toId), ("msg", .str msg)]
  | respondToRequest user fromId _ => [("fromId", .int fromId), ("toId", .int user.id)]
  | removeFriend user friendId => [("fromId", .int user.id), ("toId", .int friendId)]

/-- The text that is sent. -/
def json (r : Request) : Bytes := stringify (("type", ofInt32 r.type.toInt) :: r.members)

/-- What the server reads. -/
def received (r : Request) : Object :=
  object ((("type", ofInt32 r.type.toInt) :: r.members).map heardMember)

theorem forall_target {P : String × Value → Prop} {t : Target} (hto : ∀ id, P ("toId", .int id))
    (hgroup : ∀ id, P ("groupId", .int id)) : ∀ m ∈ t.members, P m := by
  rintro m hm
  cases t with
  | direct id => exact List.mem_singleton.mp hm ▸ hto id
  | group id => exact List.mem_singleton.mp hm ▸ hgroup id

theorem forall_optional {P : String × Value → Prop} {key : String} {s : Option Bytes}
    (h : ∀ s, P (key, .str s)) : ∀ m ∈ optional key s, P m := by
  rintro m hm
  cases s with
  | none => cases hm
  | some s => exact List.mem_singleton.mp hm ▸ h s

/-- A property of all members, whatever they hold. -/
theorem forall_members {P : String × Value → Prop} (hint : ∀ k i, k ≠ "type" → P (k, .int i))
    (hstr : ∀ k s, k ≠ "type" → P (k, .str s)) (hbool : ∀ k b, k ≠ "type" → P (k, .bool b))
    (hnames : ∀ (k : String) (names : List String), k ≠ "type" → P (k, .arr (names.map Json.text)))
    (r : Request) : ∀ m ∈ r.members, P m := by
  have htarget : ∀ t : Target, (∀ m ∈ t.members, P m) ↔ True := fun t => iff_true_intro <|
    forall_target (fun id => hint _ id (by decide)) fun id => hint _ id (by decide)
  have hoptional : ∀ key s, key ≠ "type" → ((∀ m ∈ optional key s, P m) ↔ True) := fun key s hkey =>
    iff_true_intro (forall_optional fun s => hstr key s hkey)
  have hfeatures := hnames "features" ["message_edit", "message_delete", "message_reaction",
    "read_receipt", "file_metadata"] (by decide)
  cases r <;> simp (disch := decide) only [members, Json.text, List.forall_mem_append,
    List.forall_mem_cons, List.not_mem_nil, false_implies, implies_true, and_true, true_and, hint, hstr, hbool,
    htarget, hoptional]
  exact hfeatures

/-- Every member is one that the server can read. -/
theorem members_plain (r : Request) : ∀ m ∈ r.members, m.2.Plain := by
  refine r.forall_members (fun _ i _ => .int i) (fun _ s _ => .str s) (fun _ b _ => .bool b)
    fun _ names _ => .arr fun v hv => ?_
  obtain ⟨name, -, rfl⟩ := List.mem_map.mp hv
  exact .str _

/-- No member is a second type. -/
theorem members_type (r : Request) : ∀ m ∈ r.members, m.1 ≠ "type" :=
  r.forall_members (fun _ _ h => h) (fun _ _ h => h) (fun _ _ h => h) fun _ _ h => h

theorem readObject_json (r : Request) : readObject r.json = some r.received :=
  readObject_stringify fun m hm => by
    rcases List.mem_cons.mp hm with rfl | hm
    · exact .int _
    · exact r.members_plain m hm

/-- The server takes a request for what it is. -/
theorem typeField_received (r : Request) : typeField r.received = some r.type := by
  have hnone : (r.members.map heardMember).reverse.find? (fun field => lit field.1 = lit "type") = none := by
    rw [List.find?_eq_none]
    intro m hm
    obtain ⟨m', hm', rfl⟩ := List.mem_map.mp (List.mem_reverse.mp hm)
    simpa [heardMember] using r.members_type m' hm'
  refine typeField_of_find? ?_
  rw [received, find?_object, List.map_cons, List.reverse_cons, List.find?_append, hnone]
  simp [heardMember, heardValue, ofInt32]

end Request

end Client

end LanChat
