import LanChat.Json.Parse

/-!
# The wire protocol

The message types of `protocol/message_types.h`, the field readers and stock
replies of `ProtocolJson.h`, and the frame codec.
-/

namespace LanChat

open Lib Json

/-! ## Message types -/

/-- `lanchat::protocol::MsgType`, in the order of its values 0 to 50. -/
inductive MsgType where
  | RegisterUser | RegisterUserReturn | Login | LoginSuccessReturn | LoginFailedReturn
  | SendMsg | ReceiveMsg
  | UserOnline | UserOffline
  | CreateGroup | CreateGroupReturn | SearchGroup | SearchGroupReturn | JoinGroup
  | JoinGroupReturn | LeaveGroup
  | SendGroupMsg | ReceiveGroupMsg | UserJoinGroup | UserLeaveGroup
  | Heartbeat | HeartbeatAck
  | OfflineMessages | Logout | RequestHistory | HistoryResponse
  | SendFile | ReceiveFile | FileTransferDone
  | AIRequest | AIResponse | AIStreamChunk
  | UserProfileUpdate | SystemBroadcast
  | FriendRequest | FriendRequestAck | FriendAccept | FriendAcceptReturn | FriendRemove
  | FriendRemoveReturn | FriendList | FriendListReturn | FriendOnline
  | MessageEdit | MessageEditReturn | MessageDelete | MessageDeleteReturn | MessageReaction
  | MessageReactionReturn | ReadReceipt
  | ProtocolHello
deriving DecidableEq, Repr

namespace MsgType

/-- Every message type; the position is the value. -/
def all : List MsgType :=
  [RegisterUser, RegisterUserReturn, Login, LoginSuccessReturn, LoginFailedReturn, SendMsg,
    ReceiveMsg, UserOnline, UserOffline, CreateGroup, CreateGroupReturn, SearchGroup,
    SearchGroupReturn, JoinGroup, JoinGroupReturn, LeaveGroup, SendGroupMsg, ReceiveGroupMsg,
    UserJoinGroup, UserLeaveGroup, Heartbeat, HeartbeatAck, OfflineMessages, Logout,
    RequestHistory, HistoryResponse, SendFile, ReceiveFile, FileTransferDone, AIRequest,
    AIResponse, AIStreamChunk, UserProfileUpdate, SystemBroadcast, FriendRequest,
    FriendRequestAck, FriendAccept, FriendAcceptReturn, FriendRemove, FriendRemoveReturn,
    FriendList, FriendListReturn, FriendOnline, MessageEdit, MessageEditReturn, MessageDelete,
    MessageDeleteReturn, MessageReaction, MessageReactionReturn, ReadReceipt, ProtocolHello]

def toInt (t : MsgType) : Int32 := Int32.ofNat (all.idxOf t)

/-- `none` is the invalid value `MsgType(-1)`. -/
def fromInt (v : Int32) : Option MsgType :=
  if 0 ≤ v ∧ v ≤ 50 then all[v.toInt.toNat]? else none

theorem fromInt_toInt (t : MsgType) : fromInt (toInt t) = some t := by
  cases t <;> decide

end MsgType

/-! ## Field readers -/

def intField (obj : Object) (key : String) (fallback : Int32) : Int32 :=
  match obj.find? (lit key) with
  | some v => if v.isNumber then v.asInt.toInt32 else fallback
  | none => fallback

def int64Field (obj : Object) (key : String) (fallback : Int64) : Int64 :=
  match obj.find? (lit key) with
  | some v => if v.isNumber then v.asInt else fallback
  | none => fallback

def stringField (obj : Object) (key : String) (fallback : Bytes) : Bytes :=
  match obj.find? (lit key) with
  | some (.str s) => s
  | _ => fallback

def typeField (obj : Object) : Option MsgType := MsgType.fromInt (intField obj "type" (-1))

theorem typeField_of_find? {obj : Object} {type : MsgType}
    (h : obj.find? (lit "type") = some (ofInt32 type.toInt)) : typeField obj = some type := by
  rw [typeField, intField, h]
  simp [ofInt32, Value.isNumber, MsgType.fromInt_toInt]

/-! ## Stock replies -/

/-- `protocol_json::ok`. -/
def okReply (type : MsgType) (msg : String) : Object :=
  object [("type", ofInt32 type.toInt), ("status", text "ok"), ("msg", text msg)]

/-- `protocol_json::error`. -/
def errorReply (type : MsgType) (code : Int32) (msg : String) : Object :=
  object [("type", ofInt32 type.toInt), ("status", text "error"), ("code", ofInt32 code),
    ("msg", text msg)]

/-- The text of a request with these fields. -/
def requestText (type : MsgType) (fields : List (String × Value)) : Bytes :=
  serialize (object (("type", ofInt32 type.toInt) :: fields))

/-! ## Frames -/

namespace FrameCodec

def MaxFrameBytes : Nat := 256 * 1024

/-- The big-endian length in four bytes. -/
def header (len : Nat) : Bytes :=
  [UInt8.ofNat (len / 2 ^ 24), UInt8.ofNat (len / 2 ^ 16), UInt8.ofNat (len / 2 ^ 8),
    UInt8.ofNat len]

/-- `none` is the exception `"frame too large"`. -/
def encode (json : Bytes) : Option Bytes :=
  if json.length > MaxFrameBytes then none else some (header json.length ++ json)

@[simp] theorem encode_isSome {json : Bytes} :
    (encode json).isSome ↔ json.length ≤ MaxFrameBytes := by
  simp [encode]

end FrameCodec

end LanChat
