import LanChat.Db.MessageHistory
import LanChat.Server.Access

/-!
# A message that is handled is stored

A private or group message of a session with a user, which has a recipient and a
content, is among the messages of the server when its frame has been handled
(`stored_of_frame`), also when SQLite fails.
-/

namespace LanChat

open Lib Json

namespace MessageRepository

open Database

/-- Some message of the database has this sender, recipient and content. -/
def Stored (fromId toId groupId : Int32) (content : Bytes) (db : Database) : Prop :=
  ∃ rows, db.tables .messages = some rows ∧ ∃ row ∈ rows, (fromRow row).from_id = fromId ∧
    (fromRow row).to_id = toId ∧ (fromRow row).group_id = groupId ∧ (fromRow row).content = content

section Save

variable {env : Env} {fromId toId groupId : Int32} {content : Bytes}

/-- What only reads keeps the stored messages. -/
theorem reads_stored :
    Reads env (fun _ _ => True) (Stored fromId toId groupId content) (Stored fromId toId groupId content) where
  counters _ _ _ _ h := h
  load name := by
    rintro db ⟨rows, hrows, hrow⟩
    rcases eq_or_ne .messages name with rfl | hname
    · rw [loadTable_of_cached hrows]
      exact ⟨nofun, fun _ _ => ⟨⟨rows, hrows, hrow⟩, fun _ _ => trivial⟩, nofun⟩
    · have hsame : (loadTable env name db).state.tables .messages = some rows :=
        ((spares_loadTable hname).tables db).trans hrows
      exact ⟨nofun, fun _ _ => ⟨⟨rows, hsame, hrow⟩, fun _ _ => trivial⟩, fun _ _ => ⟨rows, hsame, hrow⟩⟩
  users := .inr fun _ h => h
  thrown _ h := h

/-- An inserted row is in memory, whatever SQLite does. -/
theorem sat_insert_stored {m : StoredMessage} :
    Cmd.Sat (fun _ => True) (insert env .messages (toRow m))
      (fun _ => Stored m.from_id m.to_id m.group_id m.content) (fun _ _ => True) fun _ => True := by
  refine Cmd.Sat.bind (Cmd.sat_true _) fun _ => (Cmd.sat_true (P := fun _ => True) _).bind fun rows => ?_
  refine Cmd.Sat.bind (R := fun _ => Stored m.from_id m.to_id m.group_id m.content)
    (Cmd.sat_modify fun db _ => ?_) fun _ => fun db hdb => ?_
  · refine ⟨rows ++ [toRow m], by simp, toRow m, List.mem_append_right _ (List.mem_singleton_self _), ?_⟩
    rw [fromRow_toRow]
    exact ⟨rfl, rfl, rfl, rfl⟩
  · have hsame : (saveTable env .messages db).state.tables = db.tables := leaves_tables_saveTable db
    refine ⟨nofun, fun _ _ => ?_, fun _ _ => trivial⟩
    unfold Stored
    rw [hsame]
    exact hdb

theorem sat_savePrivate_stored {contentType : Bytes} {delivered : Bool} :
    Cmd.Sat (fun _ => True) (savePrivate env fromId toId content contentType delivered)
      (fun _ => Stored fromId toId 0 content) (fun _ _ => True) fun _ => True :=
  (Cmd.sat_true _).bind fun _ => (Cmd.sat_true (P := fun _ => True) _).bind fun _ =>
    sat_insert_stored.bind fun _ => Cmd.sat_pure fun _ h => h

theorem sat_saveGroup_stored {contentType : Bytes} :
    Cmd.Sat (fun _ => True) (saveGroup env fromId groupId content contentType)
      (fun _ => Stored fromId 0 groupId content) (fun _ _ => True) fun _ => True :=
  (Cmd.sat_true _).bind fun _ => (Cmd.sat_true (P := fun _ => True) _).bind fun _ =>
    sat_insert_stored.bind fun _ => Cmd.sat_pure fun _ h => h

end Save

end MessageRepository

namespace MessageRouter

open MessageRepository

section Handlers

variable {env : Env} {session : SessionId} {request : Object} {uid : Int32}

/-- A handler goes on with the user of the session. -/
theorem sat_authenticated {f : Int32 → RouterM Unit} {Q : Unit → Server → Prop}
    (h : Cmd.Sat (fun _ => True) (f uid) Q (fun _ _ => True) fun _ => True) :
    Cmd.Sat (fun st => st.userId session = uid) (authenticatedUserId session >>= f) Q (fun _ _ => True)
      fun _ => True := by
  rintro st rfl
  rw [Cmd.bind_of_run _ (run_authenticatedUserId st session)]
  exact h st trivial

theorem sat_onDb_stored {α : Type} {c : DbM α} {F : Database → Prop}
    (h : Cmd.Sat (fun _ => True) c (fun _ => F) (fun _ _ => True) fun _ => True) :
    Cmd.Sat (fun _ => True) (onDb c) (fun _ st => F st.db) (fun _ _ => True) fun _ => True :=
  fun st _ => ⟨nofun, (h st.db trivial).2.1, fun _ _ => trivial⟩

/-- What reads and delivers after the message has been saved keeps it. -/
theorem Guards.afterSaving {F : Database → Prop} {c : RouterM Unit} (h : Guards F F c) :
    Cmd.Sat (fun st => F st.db) c (fun _ st => F st.db) (fun _ _ => True) fun _ => True :=
  h.weaken (fun _ h => h) (fun _ _ h => h) (fun _ _ _ => trivial) fun _ _ => trivial

theorem sat_handlePrivateMessage_stored (huid : 0 < uid) (hto : 0 < intField request "toId" 0)
    (hmsg : stringField request "msg" [] ≠ []) :
    Cmd.Sat (fun st => st.userId session = uid) (handlePrivateMessage env session request)
      (fun _ st => Stored uid (intField request "toId" 0) 0 (stringField request "msg" []) st.db)
      (fun _ _ => True) fun _ => True := by
  refine sat_authenticated (Cmd.sat_ite (fun hbad => ?_) fun _ => ?_)
  · rcases hbad with h | h | h
    · exact absurd huid (Int32.not_lt.mpr h)
    · exact absurd hto (Int32.not_lt.mpr h)
    · exact absurd h hmsg
  · refine Cmd.Sat.bind (R := fun _ _ => True) (Cmd.sat_asks fun _ h => h) fun target =>
      (sat_onDb_stored sat_savePrivate_stored).bind fun message => ?_
    exact ((guards_deliverIfFound target _ _).bind fun _ => guards_deliverContent session _ _).afterSaving

theorem sat_handleGroupMessage_stored (huid : 0 < uid) (hgroup : 0 < intField request "groupId" 0)
    (hmsg : stringField request "msg" [] ≠ []) :
    Cmd.Sat (fun st => st.userId session = uid) (handleGroupMessage env session request)
      (fun _ st => Stored uid 0 (intField request "groupId" 0) (stringField request "msg" []) st.db)
      (fun _ _ => True) fun _ => True := by
  refine sat_authenticated (Cmd.sat_ite (fun hbad => ?_) fun _ => ?_)
  · rcases hbad with h | h | h
    · exact absurd huid (Int32.not_lt.mpr h)
    · exact absurd hgroup (Int32.not_lt.mpr h)
    · exact absurd h hmsg
  · refine (sat_onDb_stored sat_saveGroup_stored).bind fun message => ?_
    exact ((guards_onDb (reads_stored.members _)).bind fun _ => guards_each fun _ =>
      guards_deliverToUser _ _ _).afterSaving

end Handlers

end MessageRouter

namespace TcpServer

open MessageRouter MessageRepository

section Frames

variable {env : Env} {st st' : Server} {session : SessionId} {json : Bytes} {now later : Int} {request : Object}

/-- The message of a frame that the server has handled is stored. -/
theorem stored_of_frame (h : Handled st session now) (hparse : readObject json = some request)
    (huid : 0 < st.userId session) (hmsg : stringField request "msg" [] ≠ [])
    (hstep : step env st (.frame session json now later) = some st') :
    (typeField request = some .SendMsg → 0 < intField request "toId" 0 →
      Stored (st.userId session) (intField request "toId" 0) 0 (stringField request "msg" []) st'.db) ∧
    (typeField request = some .SendGroupMsg → 0 < intField request "groupId" 0 →
      Stored (st.userId session) 0 (intField request "groupId" 0) (stringField request "msg" []) st'.db) := by
  obtain ⟨hok, hstate⟩ := of_step hstep
  have hafter : ∀ {c : RouterM Unit} {F : Database → Prop},
      Cmd.Sat (fun s => s.userId session = st.userId session) c (fun _ s => F s.db) (fun _ _ => True)
        (fun _ => True) → typeField request ≠ some .Heartbeat → dispatch env session request = c →
      F st'.db := by
    intro c F hsat htype hc
    obtain ⟨s, hroster, -, hrun⟩ := @handle_frame env session st json now later request h
      ((parseObject_of_step h hstep).trans hparse) htype
    rw [hrun, hc] at hok hstate
    rw [hstate]
    exact (hsat s (Server.userId_of_roster hroster session)).2.1 () hok
  constructor
  · intro htype hto
    exact hafter (sat_handlePrivateMessage_stored huid hto hmsg) (by simp [htype]) (by unfold dispatch; rw [htype])
  · intro htype hgroup
    exact hafter (sat_handleGroupMessage_stored huid hgroup hmsg) (by simp [htype]) (by unfold dispatch; rw [htype])

end Frames

end TcpServer

end LanChat
