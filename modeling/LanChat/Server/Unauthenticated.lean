import LanChat.Db.Unchanged
import LanChat.Server.Restart

/-!
# Sessions that never logged in

A session without a user has the user 0. Most handlers stop there before they
write; `JoinGroup`, `LeaveGroup` and `RequestHistory` go on with it.
`unchanged_iff_ineffective` says when their writes make no difference.
-/

namespace LanChat

open Lib Json

open Database

section History

variable {env : Env} {db : Database} {rows : TableName → RowList} (henv : env.Serves)
  (h : db.Holds rows)

include henv h

/-- The history that the user 0 asks for; the message it names is marked as read. -/
theorem MessageRouter.unchangedIff_requestedHistory (request : Object) :
    UnchangedIff (0 < int64Field request "msg_id" 0 → ∀ row ∈ rows .messages,
        MessageRepository.hasMsgId (int64Field request "msg_id" 0) row →
          row.find? (lit "read") = some (.bool true) ∧ row.find? (lit "read_by") = some (.int 0))
      db (requestedHistory env 0 request db).state := by
  refine UnchangedIff.bind ?_ fun _ db₀ => ?_
  · by_cases hpos : 0 < int64Field request "msg_id" 0
    · rw [Cmd.when, if_pos hpos]
      refine UnchangedIff.bind ?_ fun _ _ => guarded_pure ()
      exact (MessageRepository.unchangedIff_markRead henv h _ 0).congr ⟨fun hp _ => hp, fun hp => hp hpos⟩
    · rw [Cmd.when, if_neg hpos]
      exact .of_true (fun hp => absurd hp hpos) (.refl db)
  · exact ((reads_unchanged env db₀).select _ _).ite
      (((reads_unchanged env db₀).select _ _).ite (guarded_pure []))

end History

/-! ## Requests -/

namespace MessageRouter

/-- What the request of the user 0 would change is so already. -/
def Ineffective (rows : TableName → RowList) (request : Object) : Prop :=
  let groupId := intField request "groupId" 0
  let msgId := int64Field request "msg_id" 0
  match typeField request with
  | some .JoinGroup =>
    (∃ row ∈ rows .groups, ChannelRepository.isGroup groupId row) →
      ∃ row ∈ rows .group_members, ChannelRepository.isMembership 0 groupId row
  | some .LeaveGroup => ∀ row ∈ rows .group_members, ¬ChannelRepository.isMembership 0 groupId row
  | some .RequestHistory =>
    0 < msgId → ∀ row ∈ rows .messages, MessageRepository.hasMsgId msgId row →
      row.find? (lit "read") = some (.bool true) ∧ row.find? (lit "read_by") = some (.int 0)
  | _ => True

variable {env : Env} {P : Prop} {db : Database} {rows : TableName → RowList} {st : Server}
  {session : SessionId} {request : Object}

theorem Guards.unchanged (st : Server) {c : RouterM Unit} (h : Guards (Unchanged st.db) (Unchanged st.db) c) :
    Unchanged st.db (c st).state.db := by
  obtain ⟨-, hok, herr⟩ := h st (.refl st.db)
  cases hr : (c st).result with
  | ok a => exact hok a hr
  | error e => exact (herr e hr).elim id fun h => h.2

/-- After the repository call the handler only reads. -/
theorem unchangedIff_onDb {α : Type} {c : DbM α} {f : α → RouterM Unit}
    (h : UnchangedIff P st.db (c st.db).state)
    (hf : ∀ a db₀, Guards (Unchanged db₀) (Unchanged db₀) (f a)) :
    UnchangedIff P st.db ((onDb c >>= f) st).state.db := by
  cases hr : (c st.db).result with
  | error e =>
    rw [Cmd.bind_error f (by exact hr)]
    exact h
  | ok a =>
    rw [Cmd.bind_ok f (by exact hr)]
    exact h.after (Guards.unchanged (onDb c st).state (hf a _))

section Anonymous

variable (henv : env.Serves) (h : st.db.Holds rows) (hanon : st.userId session = 0)

include henv h hanon

theorem unchangedIff_handleJoinGroup :
    UnchangedIff ((∃ row ∈ rows .groups, ChannelRepository.isGroup (intField request "groupId" 0) row) →
        ∃ row ∈ rows .group_members,
          ChannelRepository.isMembership 0 (intField request "groupId" 0) row)
      st.db (handleJoinGroup env session request st).state.db := by
  unfold handleJoinGroup
  rw [Cmd.bind_of_run _ (run_authenticatedUserId st session), hanon]
  refine unchangedIff_onDb (ChannelRepository.unchangedIff_join henv h 0 _) fun joined db₀ => ?_
  have hreads := reads_unchanged env db₀
  exact Guards.ite (fun _ => guards_deliver _ _) fun _ => (guards_onDb (hreads.members _)).bind fun _ =>
    (guards_onDb (guards_memberUsers hreads _)).bind fun _ => (guards_asks _).bind fun _ =>
      guards_deliver _ _

theorem unchangedIff_handleLeaveGroup :
    UnchangedIff (∀ row ∈ rows .group_members,
        ¬ChannelRepository.isMembership 0 (intField request "groupId" 0) row)
      st.db (handleLeaveGroup env session request st).state.db := by
  unfold handleLeaveGroup
  rw [Cmd.bind_of_run _ (run_authenticatedUserId st session), hanon]
  exact unchangedIff_onDb (ChannelRepository.unchangedIff_leave henv h 0 _) fun _ _ => guards_deliver _ _

theorem unchangedIff_handleHistory :
    UnchangedIff (0 < int64Field request "msg_id" 0 → ∀ row ∈ rows .messages,
        MessageRepository.hasMsgId (int64Field request "msg_id" 0) row →
          row.find? (lit "read") = some (.bool true) ∧ row.find? (lit "read_by") = some (.int 0))
      st.db (handleHistory env session request st).state.db := by
  unfold handleHistory
  rw [Cmd.bind_of_run _ (run_authenticatedUserId st session), hanon]
  exact unchangedIff_onDb (unchangedIff_requestedHistory henv h request) fun _ _ =>
    guards_deliverContent _ _ _

end Anonymous

/-- The request types that write for the user 0. -/
def unguardedWrites : List MsgType := [.JoinGroup, .LeaveGroup, .RequestHistory]

/-- The other requests of a session without a user only read, whatever fails. -/
theorem unchanged_dispatch (hanon : st.userId session = 0)
    (htype : ∀ type ∈ anonymousWrites, typeField request ≠ some type) :
    Unchanged st.db (dispatch env session request st).state.db := by
  have hguards : GuardsAs (Unchanged st.db) (Unchanged st.db) session 0 (dispatch env session request) :=
    guards_dispatch (reads_unchanged env st.db) (fun h => absurd h (by decide)) fun type hmem heq =>
      absurd heq (htype type hmem)
  obtain ⟨-, hok, herr⟩ := hguards st ⟨hanon, .refl st.db⟩
  cases hr : (dispatch env session request st).result with
  | ok a => exact hok a hr
  | error e => exact (herr e hr).elim id fun h => h.2

/-- In every state that the server reaches, a request of a session without a
user, other than a registration or a login, leaves the stored data unchanged
exactly if what it would change is so already. Only for the requests that write
does this need SQLite to serve. -/
theorem unchanged_iff_ineffective {json : Bytes} (hreach : TcpServer.Reachable env db st)
    (hanon : st.userId session = 0) (htype : (parseObject env.stack json).bind typeField ≠ some .RegisterUser)
    (htype' : (parseObject env.stack json).bind typeField ≠ some .Login)
    (hserves : ∀ type ∈ unguardedWrites, (parseObject env.stack json).bind typeField = some type →
      env.Serves ∧ db.Stored) :
    Unchanged st.db (route env session json st).state.db ↔
      ∀ request, parseObject env.stack json = some request → Ineffective st.db.content request := by
  obtain ⟨-, hparse, hroute⟩ | ⟨-, hparse, -, hroute⟩ | ⟨request, -, hparse, -, hroute⟩ :=
    route_cases env session json
  · rw [hroute, hparse]
    exact iff_of_true (Unchanged.refl _) nofun
  · rw [hroute, hparse]
    exact iff_of_true (Guards.unchanged st (guards_deliver session _)) nofun
  · rw [hroute]
    simp only [hparse, Option.bind_some, ne_eq] at htype htype' hserves
    simp only [hparse, Option.some.injEq, forall_eq']
    by_cases hwrites : ∃ type ∈ unguardedWrites, typeField request = some type
    · obtain ⟨type, hmem, hwrite⟩ := hwrites
      obtain ⟨henv, hstored⟩ := hserves type hmem hwrite
      obtain ⟨rows, h⟩ := TcpServer.invariant_of_reachable (writes_stored henv) hstored hreach
      have hrows : st.db.content = rows := funext h.content_eq
      unfold dispatch Ineffective
      rw [hrows, hwrite]
      simp only [unguardedWrites, List.mem_cons, List.not_mem_nil, or_false] at hmem
      rcases hmem with rfl | rfl | rfl
      · exact (unchangedIff_handleJoinGroup henv h hanon).iff
      · exact (unchangedIff_handleLeaveGroup henv h hanon).iff
      · exact (unchangedIff_handleHistory henv h hanon).iff
    · have hreads : ∀ type ∈ anonymousWrites, typeField request ≠ some type := by
        intro type hmem heq
        simp only [anonymousWrites, List.mem_cons, List.not_mem_nil, or_false] at hmem
        rcases hmem with rfl | rfl | rfl | rfl | rfl
        · exact htype heq
        · exact htype' heq
        all_goals exact hwrites ⟨_, by decide, heq⟩
      refine iff_of_true (unchanged_dispatch hanon hreads) ?_
      unfold Ineffective
      split
      · next h => exact absurd ⟨_, by decide, h⟩ hwrites
      · next h => exact absurd ⟨_, by decide, h⟩ hwrites
      · next h => exact absurd ⟨_, by decide, h⟩ hwrites
      · trivial

/-- A user creates the group 2001; the second session never logs in. -/
def groupOfOne : List TcpServer.Event :=
  [.accept 0, .accept 0,
    TcpServer.request 1 .RegisterUser [("nickname", text "a"), ("password", text "p")],
    TcpServer.request 1 .Login [("id", .int 1000), ("password", text "p")],
    TcpServer.request 1 .CreateGroup [("name", text "g")]]

/-- A session that never logged in joins the group. -/
def joinRequest : Bytes := requestText .JoinGroup [("groupId", .int 2001)]

theorem stranger_joins_group :
    ¬∀ env db st, TcpServer.Reachable env db st → ∀ session, st.userId session = 0 → ∀ json,
      (parseObject env.stack json).bind typeField ≠ some .RegisterUser →
      (parseObject env.stack json).bind typeField ≠ some .Login →
        Unchanged st.db (route env session json st).state.db := by
  intro hall
  have hrun : ((run (TcpServer.step .ideal) (.boot .ideal .empty) groupOfOne).map fun st =>
      (st.userId 2, (st.db.sqlite.file.docs .group_members).map List.length,
        ((route .ideal 2 joinRequest st).state.db.sqlite.file.docs .group_members).map List.length)) =
      some (0, some 1, some 2) := by
    decide +kernel
  have htype : (parseObject Env.ideal.stack joinRequest).bind typeField = some .JoinGroup := by decide +kernel
  obtain ⟨st, hst, heq⟩ := Option.map_eq_some_iff.mp hrun
  simp only [Prod.mk.injEq] at heq
  obtain ⟨hanon, hbefore, hafter⟩ := heq
  have hsame := hall .ideal _ st ⟨_, hst⟩ 2 hanon joinRequest (by rw [htype]; decide)
    (by rw [htype]; decide)
  rw [hsame.sqlite, hbefore] at hafter
  cases hafter

theorem unchanged_iff_ineffective_join :
    ∃ st, run (TcpServer.step .ideal) (.boot .ideal .empty) groupOfOne = some st ∧
      (Unchanged st.db (route .ideal 2 joinRequest st).state.db ↔
        ∀ request, parseObject Env.ideal.stack joinRequest = some request → Ineffective st.db.content request) := by
  have hrun : ((run (TcpServer.step .ideal) (.boot .ideal .empty) groupOfOne).map fun st =>
      st.userId 2) = some 0 := by decide +kernel
  have htype : (parseObject Env.ideal.stack joinRequest).bind typeField = some .JoinGroup := by decide +kernel
  obtain ⟨st, hst, hanon⟩ := Option.map_eq_some_iff.mp hrun
  exact ⟨st, hst, unchanged_iff_ineffective ⟨_, hst⟩ hanon (by rw [htype]; decide)
    (by rw [htype]; decide) fun _ _ _ => ⟨TcpServer.serves_ideal, stored_startUp TcpServer.serves_ideal⟩⟩

end MessageRouter

end LanChat
