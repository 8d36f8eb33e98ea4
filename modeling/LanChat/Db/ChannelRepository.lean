import LanChat.Db.MessageRepository

/-!
# The group repository
-/

namespace LanChat

open Lib Json

namespace ChannelRepository

open Database

variable (env : Env)

def fromRow (row : Row) : ChannelInfo where
  group_id := rowInt row "group_id"
  host_id := rowInt row "host_id"
  name := rowString row "name" []

/-- The largest `group_id` of the rows, at least 2000. -/
def maxGroupId (rows : RowList) : Int32 :=
  rows.foldl (fun maxId row => max maxId (rowInt row "group_id")) 2000

def nextGroupId : DbM Int32 := do
  let rows ← queryAll env .groups
  pure (maxGroupId rows + 1)

def isGroup (groupId : Int32) (row : Row) : Bool := rowInt row "group_id" = groupId

def isMembership (userId groupId : Int32) (row : Row) : Bool :=
  rowInt row "user_id" = userId && rowInt row "group_id" = groupId

def «exists» (groupId : Int32) : DbM Bool := do
  let rows ← query env .groups fun row => .ok (isGroup groupId row)
  pure !rows.isEmpty

def memberRow (userId groupId : Int32) (now : Int64) : Row :=
  object [("user_id", ofInt32 userId), ("group_id", ofInt32 groupId), ("joined_at", .int now)]

def join (userId groupId : Int32) : DbM Bool := do
  let known ← «exists» env groupId
  if !known then pure false
  else do
    let duplicate ← query env .group_members fun row => .ok (isMembership userId groupId row)
    if !duplicate.isEmpty then pure true
    else do
      let now ← time env
      insert env .group_members (memberRow userId groupId now)
      pure true

def leave (userId groupId : Int32) : DbM Bool :=
  remove env .group_members (isMembership userId groupId)

def members (groupId : Int32) : DbM (List Int32) := do
  let rows ← query env .group_members fun row => .ok (isGroup groupId row)
  pure (rows.map fun row => rowInt row "user_id")

def groupRow (group : ChannelInfo) (now : Int64) : Row :=
  object [("group_id", ofInt32 group.group_id), ("host_id", ofInt32 group.host_id),
    ("name", .str group.name), ("created_at", .int now)]

def createGroup (hostId : Int32) (name : Bytes) : DbM ChannelInfo := do
  let id ← nextGroupId env
  let group : ChannelInfo := ⟨id, hostId, name⟩
  let now ← time env
  insert env .groups (groupRow group now)
  let _ ← join env hostId group.group_id
  pure group

/-- The first `limit` of the groups, all of them if the limit is not positive. -/
def takeLimit (limit : Int32) (groups : List ChannelInfo) : List ChannelInfo :=
  if 0 < limit then groups.take limit.toInt.toNat else groups

def matchesName (keyword : Bytes) (row : Row) : Bool :=
  keyword = [] || contains keyword (rowString row "name" [])

def searchGroups (keyword : Bytes) (limit : Int32) : DbM (List ChannelInfo) := do
  let rows ← query env .groups fun row => .ok (matchesName keyword row)
  pure (takeLimit limit (rows.map fromRow))

def isUser (userId : Int32) (row : Row) : Bool := rowInt row "user_id" = userId

/-- The loop of `groupsForUser` over the membership rows. -/
def groupsOf : RowList → DbM (List ChannelInfo)
  | [] => pure []
  | membership :: rest => do
    let rows ← query env .groups fun row => .ok (isGroup (rowInt membership "group_id") row)
    let groups ← groupsOf rest
    pure ((rows.head?.map fromRow).toList ++ groups)

def groupsForUser (userId : Int32) : DbM (List ChannelInfo) := do
  let memberships ← query env .group_members fun row => .ok (isUser userId row)
  groupsOf env memberships

variable {env} in
/-- The members of a group are the users of its rows. -/
theorem sat_members {P : Database → Prop} {W : Empty → Prop} (groupId : Int32) :
    Cmd.Sat P (members env groupId)
      (fun ids db => ∀ id ∈ ids,
        ∃ row ∈ db.content .group_members, isMembership id groupId row = true)
      (fun _ _ => True) W := by
  refine (sat_query (isGroup groupId)).bind fun rows => Cmd.sat_pure fun db hrows id hid => ?_
  obtain ⟨row, hrow, rfl⟩ := List.mem_map.mp hid
  rw [hrows] at hrow
  obtain ⟨hmem, hgroup⟩ := List.mem_filter.mp hrow
  refine ⟨row, mem_content hmem, ?_⟩
  simpa [isMembership, isGroup] using hgroup

/-! ## Tables other than `groups` and `group_members` -/

section Frames

variable {env} {other : TableName}

theorem spares_leave (h : other ≠ .group_members) (userId groupId : Int32) :
    Spares other (leave env userId groupId) :=
  spares_remove h _

variable (hg : other ≠ .groups) (h : other ≠ .group_members)

include hg h

theorem spares_join (userId groupId : Int32) : Spares other (join env userId groupId) :=
  ((spares_query hg _).bind fun _ => spares_pure _).bind fun _ => (spares_pure false).ite <|
    (spares_query h _).bind fun _ => (spares_pure true).ite <| spares_time.bind fun _ =>
      (spares_insert h _).bind fun _ => spares_pure true

theorem spares_createGroup (hostId : Int32) (name : Bytes) : Spares other (createGroup env hostId name) :=
  (((spares_loadTable hg).bind fun _ => spares_asks _).bind fun _ => spares_pure _).bind fun _ =>
    spares_time.bind fun _ => (spares_insert hg _).bind fun _ => (spares_join hg h _ _).bind fun _ =>
      spares_pure _

end Frames

end ChannelRepository

end LanChat
