import LanChat.Db.Access
import LanChat.Db.ChannelRepository
import LanChat.Db.MessageRepository
import LanChat.Db.Store

/-!
# Operations that change nothing

`Unchanged` compares the file and the tables in memory. Reading leaves both as
they are; a write makes no difference exactly if the rows are the same after it.
-/

namespace LanChat

open Lib Json

namespace Database

/-- The file is the same, and so is every table that was in memory. -/
structure Unchanged (db db' : Database) : Prop where
  sqlite : db'.sqlite = db.sqlite
  tables : ∀ name rows, db.tables name = some rows → db'.tables name = some rows

/-- The database is unchanged exactly if `P` holds, and the file shows it. -/
structure UnchangedIff (P : Prop) (db db' : Database) : Prop where
  same : P → Unchanged db db'
  shown : db'.sqlite = db.sqlite → P

variable {env : Env} {P Q : Prop} {db db₁ db₂ : Database} {name : TableName}
  {rows : TableName → RowList}

namespace Unchanged

theorem refl (db : Database) : Unchanged db db := ⟨rfl, fun _ _ h => h⟩

theorem trans (h : Unchanged db db₁) (h' : Unchanged db₁ db₂) : Unchanged db db₂ :=
  ⟨h'.sqlite.trans h.sqlite, fun name rows hr => h'.tables name rows (h.tables name rows hr)⟩

end Unchanged

namespace UnchangedIff

theorem iff (h : UnchangedIff P db db₁) : Unchanged db db₁ ↔ P := ⟨fun hu => h.shown hu.sqlite, h.same⟩

theorem congr (h : UnchangedIff P db db₁) (hPQ : P ↔ Q) : UnchangedIff Q db db₁ :=
  ⟨fun hq => h.same (hPQ.mpr hq), fun hs => hPQ.mp (h.shown hs)⟩

theorem before (h : UnchangedIff P db₁ db₂) (hu : Unchanged db db₁) : UnchangedIff P db db₂ :=
  ⟨fun hp => hu.trans (h.same hp), fun hs => h.shown (hs.trans hu.sqlite.symm)⟩

theorem after (h : UnchangedIff P db db₁) (hu : Unchanged db₁ db₂) : UnchangedIff P db db₂ :=
  ⟨fun hp => (h.same hp).trans hu, fun hs => h.shown (hu.sqlite.symm.trans hs)⟩

theorem of_true (hP : P) (hu : Unchanged db db₁) : UnchangedIff P db db₁ := ⟨fun _ => hu, fun _ => hP⟩

end UnchangedIff

/-! ## Reading changes nothing -/

theorem unchanged_loadTable (name : TableName) (db : Database) :
    Unchanged db (loadTable env name db).state := by
  refine ⟨leaves_sqlite_loadTable name db, fun other rows hrows => ?_⟩
  by_cases hname : other = name
  · subst hname
    rw [loadTable_of_cached hrows]
    exact hrows
  · rw [← hrows]
    exact (spares_loadTable hname).tables db

/-- Whatever fails, an operation that only reads leaves the database unchanged. -/
theorem reads_unchanged (env : Env) (db₀ : Database) :
    Reads env (fun _ _ => True) (Unchanged db₀) (Unchanged db₀) where
  counters _ _ _ _ h := ⟨h.sqlite, h.tables⟩
  load name db h :=
    have hload := h.trans (unchanged_loadTable name db)
    ⟨nofun, fun _ _ => ⟨hload, fun _ _ => trivial⟩, fun _ _ => hload⟩
  users := .inr fun _ h => h
  thrown _ h := h

theorem Guarded.unchanged {α : Type} {c : DbM α} (h : Guarded (Unchanged db) (Unchanged db) c) :
    Unchanged db (c db).state := by
  obtain ⟨-, hok, herr⟩ := h db (.refl db)
  cases hr : (c db).result with
  | ok a => exact hok a hr
  | error e => exact herr e hr

theorem UnchangedIff.bind {α β : Type} {c : DbM α} {f : α → DbM β} (h : UnchangedIff P db (c db).state)
    (hf : ∀ a db₀, Guarded (Unchanged db₀) (Unchanged db₀) (f a)) :
    UnchangedIff P db ((c >>= f) db).state := by
  cases hr : (c db).result with
  | error e =>
    rw [Cmd.bind_error f hr]
    exact h
  | ok a =>
    rw [Cmd.bind_ok f hr]
    exact h.after (hf a _).unchanged

/-! ## Writing -/

theorem Holds.unchanged_withTable (h : db.Holds rows) (name : TableName) (calls : Nat) :
    Unchanged db (db.withTable name (rows name) calls) := by
  refine ⟨rfl, fun other loaded hloaded => ?_⟩
  by_cases hname : other = name
  · subst hname
    simp only [withTable, Function.update_self, h.cached other loaded hloaded]
  · simpa only [withTable, Function.update_of_ne hname] using hloaded

/-- A table is replaced by other rows exactly if the file changes. -/
theorem Holds.unchangedIff_store (h : db.Holds rows) {list : RowList}
    (hlist : ∀ row ∈ list, (Value.obj row).Plain) (calls : Nat) :
    UnchangedIff (list = rows name) db
      ((db.withDocs name (list.map serialize)).withTable name list calls) where
  same heq :=
    ⟨(h.withDocs_eq_iff hlist).mpr heq, by
      subst heq
      exact (h.unchanged_withTable name calls).tables⟩
  shown hs := (h.withDocs_eq_iff hlist).mp hs

end Database

open Database

section Repositories

variable {env : Env} {db : Database} {rows : TableName → RowList} (henv : env.Serves)
  (h : db.Holds rows)

include henv h

/-- A new member is a change. -/
theorem ChannelRepository.unchangedIff_newMember (userId groupId : Int32) :
    UnchangedIff False db ((do
      let now ← time env
      Database.insert env .group_members (memberRow userId groupId now)
      pure true : DbM Bool) db).state := by
  have hread : ({ db with readings := db.readings + 1 } : Database).Holds rows := h.of_eq rfl rfl
  have hnew := memberRow_shape userId groupId (env.time db.readings)
  obtain ⟨calls, hinsert⟩ := run_insert henv hread .group_members
    (memberRow userId groupId (env.time db.readings))
  rw [Cmd.bind_of_run _ (run_time db), Cmd.bind_of_run _ hinsert, Cmd.pure_apply]
  have htime : Unchanged db { db with readings := db.readings + 1 } := ⟨rfl, fun _ _ h => h⟩
  refine ((hread.unchangedIff_store (fun row hrow => ?_) calls).congr ?_).before htime
  · rcases List.mem_append.mp hrow with hrow | hrow
    · exact (h.shape .group_members row hrow).plain
    · exact List.mem_singleton.mp hrow ▸ hnew.plain
  · simp

/-- Joining a group writes unless there is no such group or the user is a member. -/
theorem ChannelRepository.unchangedIff_join (userId groupId : Int32) :
    UnchangedIff ((∃ row ∈ rows .groups, isGroup groupId row) →
        ∃ row ∈ rows .group_members, isMembership userId groupId row)
      db (join env userId groupId db).state := by
  obtain ⟨calls, hgroups⟩ := run_queryOk henv h .groups (isGroup groupId)
  have hload := h.unchanged_withTable .groups calls
  have h₁ := h.load .groups calls
  obtain ⟨calls', hmembers⟩ := run_queryOk henv h₁ .group_members (isMembership userId groupId)
  have hload' := hload.trans (h₁.unchanged_withTable .group_members calls')
  have h₂ := h₁.load .group_members calls'
  unfold join «exists»
  simp only [bind_assoc, pure_bind]
  rw [Cmd.bind_of_run _ hgroups]
  by_cases hgroup : ∃ row ∈ rows .groups, isGroup groupId row
  · have hknown : ((rows .groups).filter (isGroup groupId)).isEmpty = false := by simpa using hgroup
    simp only [hknown, Bool.not_false, Bool.not_true, Bool.false_eq_true, if_false]
    rw [Cmd.bind_of_run _ hmembers]
    by_cases hmember : ∃ row ∈ rows .group_members, isMembership userId groupId row
    · have hdup : ((rows .group_members).filter (isMembership userId groupId)).isEmpty = false := by
        simpa using hmember
      simp only [hdup, Bool.not_false, if_true, Cmd.pure_apply]
      exact .of_true (fun _ => hmember) hload'
    · have hdup : ((rows .group_members).filter (isMembership userId groupId)).isEmpty = true := by
        simpa using hmember
      simp only [hdup, Bool.not_true, Bool.false_eq_true, if_false]
      exact ((unchangedIff_newMember henv h₂ userId groupId).before hload').congr
        (iff_of_false id fun hp => hmember (hp hgroup))
  · have hunknown : ((rows .groups).filter (isGroup groupId)).isEmpty = true := by simpa using hgroup
    simp only [hunknown, Bool.not_true, Bool.not_false, if_true, Cmd.pure_apply]
    exact .of_true (fun hg => absurd hg hgroup) hload

theorem ChannelRepository.unchangedIff_leave (userId groupId : Int32) :
    UnchangedIff (∀ row ∈ rows .group_members, ¬isMembership userId groupId row)
      db (leave env userId groupId db).state := by
  obtain ⟨calls, hrun⟩ := run_remove henv h .group_members (isMembership userId groupId)
  rw [leave, hrun]
  refine (h.unchangedIff_store (fun row hrow => ?_) calls).congr ?_
  · exact (h.shape .group_members row (List.mem_filter.mp hrow).1).plain
  · simp [List.filter_eq_self]

omit henv h in
theorem MessageRepository.readBy_eq_self {row : Row} (hplain : (Value.obj row).Plain) {readerId : Int32} :
    readBy readerId row = row ↔
      row.find? (lit "read") = some (.bool true) ∧ row.find? (lit "read_by") = some (ofInt32 readerId) := by
  have hne : lit "read" ≠ lit "read_by" := by decide
  constructor
  · intro heq
    rw [← heq]
    simp [readBy, hne]
  · rintro ⟨hread, hby⟩
    cases hplain with
    | obj hsorted _ =>
      rw [readBy, OrdMap.put_of_find? hsorted hread, OrdMap.put_of_find? hsorted hby]

/-- Marking a message as read writes unless it is marked already. -/
theorem MessageRepository.unchangedIff_markRead (msgId : Int64) (readerId : Int32) :
    UnchangedIff (∀ row ∈ rows .messages, hasMsgId msgId row →
        row.find? (lit "read") = some (.bool true) ∧
          row.find? (lit "read_by") = some (ofInt32 readerId))
      db (markRead env msgId readerId db).state := by
  have hplain : ∀ row ∈ rows .messages, (Value.obj row).Plain := fun row hrow =>
    (h.shape .messages row hrow).plain
  obtain ⟨calls, hrun⟩ := @run_update env .messages db rows henv h _ (hasMsgId msgId) (fun _ _ => rfl)
    (readBy readerId)
  rw [markRead, hrun]
  refine (h.unchangedIff_store (fun row hrow => ?_) calls).congr ?_
  · obtain ⟨old, hold, rfl⟩ := List.mem_map.mp hrow
    split
    · exact plain_put (plain_put (hplain old hold) (.bool _)) (.int _)
    · exact hplain old hold
  · have hself : ∀ u : Row → Row, (rows .messages).map u = rows .messages ↔
        ∀ row ∈ rows .messages, u row = row := fun u => by
      simpa using List.map_inj_left (l := rows .messages) (f := u) (g := id)
    rw [hself]
    refine forall₂_congr fun row hrow => ?_
    by_cases hid : hasMsgId msgId row
    · simp only [hid, if_true, true_imp_iff, readBy_eq_self (hplain row hrow)]
    · simp only [hid, Bool.false_eq_true, if_false, false_imp_iff]

end Repositories

end LanChat
