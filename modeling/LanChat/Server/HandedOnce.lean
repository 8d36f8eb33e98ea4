import LanChat.Server.Handout
import LanChat.Server.RosterSteps
import LanChat.Server.Refusals

/-!
# Each sent message is handed over once

A private message goes to the session of its recipient and back to the
requester, a group message to the session of each member. These sessions are
looked up one by one, and nothing asks whether two of the lookups have found the
same session. `handed_once_iff` says when that does not matter.
-/

namespace LanChat

open Lib Json

namespace MessageRouter

open MessageRepository

variable (env : Env)

/-- A message that a request has saved: the users whose sessions are to have it,
and the session that is to have it whoever its user is. -/
structure Sent where
  type : MsgType
  message : StoredMessage
  users : List Int32
  requester : List SessionId

namespace Sent

def payload (sent : Sent) : Object := messageToJson sent.type sent.message

/-- The sessions that are to have the message. -/
def sessions (pool : SessionPool) (sent : Sent) : List SessionId :=
  sent.users.filterMap pool.findByUserId ++ sent.requester

end Sent

/-- What an accepted `SendMsg` saves; `none` if the request is refused. -/
def sentPrivate (st : Server) (session : SessionId) (request : Object) : DbM (Option Sent) :=
  let fromId := st.userId session
  let toId := intField request "toId" 0
  let content := stringField request "msg" []
  if fromId ≤ 0 ∨ toId ≤ 0 ∨ content = [] then pure none
  else do
    let message ← savePrivate env fromId toId content
      (stringField request "content_type" (lit "text")) (st.pool.findByUserId toId).isSome
    pure (some ⟨.ReceiveMsg, message, [toId], [session]⟩)

/-- What an accepted `SendGroupMsg` saves, with the members as they are read. -/
def sentGroup (st : Server) (session : SessionId) (request : Object) : DbM (Option Sent) :=
  let fromId := st.userId session
  let groupId := intField request "groupId" 0
  let content := stringField request "msg" []
  if fromId ≤ 0 ∨ groupId ≤ 0 ∨ content = [] then pure none
  else do
    let message ← saveGroup env fromId groupId content (stringField request "content_type" (lit "text"))
    let members ← ChannelRepository.members env groupId
    pure (some ⟨.ReceiveGroupMsg, message, members, []⟩)

/-- What a request to send a message saves. -/
def sending (st : Server) (session : SessionId) (request : Object) : DbM (Option Sent) :=
  match typeField request with
  | some .SendMsg => sentPrivate env st session request
  | some .SendGroupMsg => sentGroup env st session request
  | _ => pure none

/-- The server accepts the request and saves this message. -/
def Accepts (st : Server) (session : SessionId) (request : Object) (sent : Sent) : Prop :=
  (sending env st session request st.db).result = .ok (some sent)

/-- `deliver` has put the payload into the queue of the session. -/
def isQueued (session : SessionId) (d : Delivery) : Bool :=
  d.target = session && (FrameCodec.encode (serialize d.payload)).isSome

/-- How often the session is handed a payload. -/
def times (session : SessionId) (out : List Delivery) : Nat := out.countP (isQueued session)

/-- The new row is stored, and only its payload is handed out: once to each of
its sessions, to no other session. A private message is stored as delivered
exactly if the recipient has a session. -/
structure HandedOnce (st : Server) (request : Object) (sent : Sent) (r : Outcome Server Delivery Exn Unit) : Prop where
  only : ∀ d ∈ r.out, d.payload = sent.payload
  once : ∀ session, times session r.out = if session ∈ sent.sessions st.pool then 1 else 0
  stored : ∃ rows, r.state.db.tables .messages = some (rows ++ [toRow sent.message])
  delivered : typeField request = some .SendMsg →
    (sent.message.delivered = true ↔ (st.pool.findByUserId (intField request "toId" 0)).isSome)

/-- No two lookups find the same session, and the payload fits a frame if it is
to be handed to anyone. -/
structure Separate (pool : SessionPool) (sent : Sent) : Prop where
  /-- nobody with a session is listed twice -/
  users : (sent.users.filter fun user => (pool.findByUserId user).isSome).Nodup
  /-- nobody is found at the requester's own session -/
  requester : ∀ user ∈ sent.users, ∀ session ∈ sent.requester, pool.findByUserId user ≠ some session
  fits : sent.sessions pool ≠ [] → (serialize sent.payload).length ≤ FrameCodec.MaxFrameBytes

variable {env}

section Sessions

variable {pool : SessionPool} {sent : Sent}

/-- Two users are not found at one session. -/
theorem nodup_filterMap_findByUserId (h : pool.Indexed) (users : List Int32) :
    (users.filterMap pool.findByUserId).Nodup ↔
      (users.filter fun user => (pool.findByUserId user).isSome).Nodup := by
  induction users with
  | nil => simp
  | cons user users ih =>
    cases hfind : pool.findByUserId user with
    | none => simpa [hfind] using ih
    | some session =>
      have hsame : session ∈ users.filterMap pool.findByUserId ↔
          user ∈ users.filter fun user => (pool.findByUserId user).isSome := by
        rw [List.mem_filterMap, List.mem_filter]
        constructor
        · rintro ⟨other, hmem, hother⟩
          have hother' := h.sound other session ((pool.findByUserId_eq_some other).mp hother).1
          have huser := h.sound user session ((pool.findByUserId_eq_some user).mp hfind).1
          rw [show user = other from huser.2.symm.trans hother'.2]
          exact ⟨hmem, by rw [hother]; rfl⟩
        · exact fun hmem => ⟨user, hmem.1, hfind⟩
      simp only [List.filterMap_cons, hfind, List.filter_cons, Option.isSome_some, if_true, List.nodup_cons,
        hsame, ih]

theorem nodup_sessions_iff (h : pool.Indexed) (hreq : sent.requester.Nodup) :
    (sent.sessions pool).Nodup ↔
      (sent.users.filter fun user => (pool.findByUserId user).isSome).Nodup ∧
        ∀ user ∈ sent.users, ∀ session ∈ sent.requester, pool.findByUserId user ≠ some session := by
  unfold Sent.sessions
  rw [List.nodup_append, nodup_filterMap_findByUserId h]
  refine and_congr_right fun _ => (and_iff_right hreq).trans ⟨fun hne user huser session hs hfind => ?_, ?_⟩
  · exact hne session (List.mem_filterMap.mpr ⟨user, huser, hfind⟩) session hs rfl
  · rintro hne session hfound _ hs rfl
    obtain ⟨user, huser, hfind⟩ := List.mem_filterMap.mp hfound
    exact hne user huser session hs hfind

/-- Deliveries of one payload: what fits is counted, what does not is not. -/
theorem times_of_only {payload : Object} {out : List Delivery} (h : ∀ d ∈ out, d.payload = payload)
    (session : SessionId) :
    times session out =
      if (serialize payload).length ≤ FrameCodec.MaxFrameBytes then (out.map Delivery.target).count session else 0 := by
  split
  · next hfits =>
    rw [times, List.count, List.countP_map]
    refine List.countP_congr fun d hd => ?_
    rw [isQueued, h d hd, FrameCodec.encode_isSome.mpr hfits, Bool.and_true, decide_eq_true_eq]
    exact beq_iff_eq.symm
  · next hlong =>
    refine List.countP_eq_zero.mpr fun d hd hqueued => hlong ?_
    rw [isQueued, h d hd, Bool.and_eq_true] at hqueued
    exact FrameCodec.encode_isSome.mp hqueued.2

/-- Every element of the list is counted once iff the list has no duplicates. -/
theorem count_once_iff {sessions : List SessionId} :
    (∀ session, sessions.count session = if session ∈ sessions then 1 else 0) ↔ sessions.Nodup := by
  rw [List.nodup_iff_count_le_one]
  refine forall_congr' fun session => ?_
  split
  · next hmem =>
    have := List.count_pos_iff.mpr hmem
    omega
  · next hmem =>
    have := List.count_eq_zero.mpr hmem
    omega

end Sessions

section Runs

variable {st : Server} {session : SessionId} {request : Object} {sent : Sent}

/-- What a run that only hands `payload` out leaves alone, and what it hands out
if the payload fits a frame. -/
structure HandsTo (payload : Object) (sessions : List SessionId) (st : Server)
    (r : Outcome Server Delivery Exn Unit) : Prop where
  only : ∀ d ∈ r.out, d.payload = payload
  targets : (serialize payload).length ≤ FrameCodec.MaxFrameBytes → r.out.map Delivery.target = sessions
  db : r.state.db = st.db

theorem handsTo_deliverContent (session : SessionId) (payload : Object) (carries : Server → List StoredMessage)
    (st : Server) : HandsTo payload [session] st (deliverContent session payload carries st) where
  only d hd := by
    rw [out_deliverContent, List.mem_singleton] at hd
    rw [hd]
  targets _ := by rw [out_deliverContent]; rfl
  db := db_deliverContent session payload carries st

theorem HandsTo.bind {payload : Object} {first rest : List SessionId} {c d : RouterM Unit}
    (hc : HandsTo payload first st (c st)) (hfits : (serialize payload).length ≤ FrameCodec.MaxFrameBytes →
      (c st).result = .ok ()) (hd : ∀ st', HandsTo payload rest st' (d st')) :
    HandsTo payload (first ++ rest) st ((c >>= fun _ => d) st) := by
  cases hr : (c st).result with
  | error e =>
    rw [Cmd.bind_error _ hr]
    refine ⟨hc.only, fun h => ?_, hc.db⟩
    rw [hfits h] at hr
    cases hr
  | ok a =>
    rw [Cmd.bind_ok _ hr]
    have hrest := hd (c st).state
    refine ⟨fun d hmem => ?_, fun h => ?_, hrest.db.trans hc.db⟩
    · exact (List.mem_append.mp hmem).elim (hc.only d) (hrest.only d)
    · rw [List.map_append, hc.targets h, hrest.targets h]

theorem handsTo_deliverIfFound (target : Option SessionId) (payload : Object)
    (carries : Server → List StoredMessage) (st : Server) :
    HandsTo payload target.toList st (deliverIfFound target payload carries st) := by
  cases target with
  | none => exact ⟨nofun, fun _ => rfl, rfl⟩
  | some target => exact handsTo_deliverContent target payload carries st

theorem handsTo_deliverToUsers (users : List Int32) (payload : Object) (carries : Server → List StoredMessage)
    (st : Server) :
    HandsTo payload (users.filterMap st.pool.findByUserId) st (deliverToUsers users payload carries st) where
  only d hd := by rw [((out_deliverToUsers users payload carries st).2 d hd).1]
  targets hfits := by rw [(out_deliverToUsers users payload carries st).1, handed, if_pos hfits]
  db := Cmd.leaves_each (fun user => Cmd.leaves_bind (Cmd.leaves_asks _) fun target =>
    (fun st => (handsTo_deliverIfFound target payload carries st).db)) st

/-! ### What is saved -/

/-- An inserted row is the last one in memory, whatever SQLite does. -/
theorem sat_insert_last {name : TableName} (row : Row) {W : Empty → Prop} :
    Cmd.Sat (fun _ => True) (Database.insert env name row)
      (fun _ db => ∃ rows, db.tables name = some (rows ++ [row])) (fun _ _ => True) W := by
  refine (Cmd.sat_true _).bind fun _ => (Cmd.sat_true (P := fun _ => True) _).bind fun rows => ?_
  refine Cmd.Sat.bind (R := fun _ db => ∃ rows, db.tables name = some (rows ++ [row]))
    (Cmd.sat_modify fun db _ => ⟨rows, by simp⟩) fun _ db hdb => ⟨fun w => w.elim, fun _ _ => ?_, fun _ _ => trivial⟩
  rw [show (Database.saveTable env name db).state.tables = db.tables from Database.leaves_tables_saveTable db]
  exact hdb

/-- The message is the last row, and has been given the flag. -/
def SavedLast (delivered : Bool) (m : StoredMessage) (db : Database) : Prop :=
  m.delivered = delivered ∧ ∃ rows, db.tables .messages = some (rows ++ [toRow m])

theorem sat_savePrivate_last (fromId toId : Int32) (content contentType : Bytes) (delivered : Bool)
    {W : Empty → Prop} :
    Cmd.Sat (fun _ => True) (savePrivate env fromId toId content contentType delivered) (SavedLast delivered)
      (fun _ _ => True) W :=
  (Cmd.sat_true _).bind fun _ => (Cmd.sat_true (P := fun _ => True) _).bind fun _ =>
    (sat_insert_last _).bind fun _ => Cmd.sat_pure fun _ h => ⟨rfl, h⟩

theorem sat_saveGroup_last (fromId groupId : Int32) (content contentType : Bytes) {W : Empty → Prop} :
    Cmd.Sat (fun _ => True) (saveGroup env fromId groupId content contentType) (SavedLast true)
      (fun _ _ => True) W :=
  (Cmd.sat_true _).bind fun _ => (Cmd.sat_true (P := fun _ => True) _).bind fun _ =>
    (sat_insert_last _).bind fun _ => Cmd.sat_pure fun _ h => ⟨rfl, h⟩

/-! ### The two handlers -/

/-- What an accepted private message saves, and how the handler goes on. -/
theorem run_handlePrivateMessage (h : (sentPrivate env st session request st.db).result = .ok (some sent)) :
    ∃ message db, sent = ⟨.ReceiveMsg, message, [intField request "toId" 0], [session]⟩ ∧
      SavedLast (st.pool.findByUserId (intField request "toId" 0)).isSome message db ∧
      handlePrivateMessage env session request st =
        (deliverIfFound (st.pool.findByUserId (intField request "toId" 0)) sent.payload (fun _ => [message]) >>=
          fun _ => deliverContent session sent.payload fun _ => [message]) { st with db := db } := by
  unfold sentPrivate at h
  unfold handlePrivateMessage
  rw [Cmd.bind_of_run _ (run_authenticatedUserId st session)]
  by_cases hbad : st.userId session ≤ 0 ∨ intField request "toId" 0 ≤ 0 ∨ stringField request "msg" [] = []
  · rw [if_pos hbad] at h
    cases h
  · rw [if_neg hbad] at h ⊢
    obtain ⟨message, hsave, hsent⟩ := Cmd.result_bind_eq_ok.mp h
    cases hsent
    refine ⟨message, _, rfl, (sat_savePrivate_last _ _ _ _ _ (W := fun _ => True) st.db trivial).2.1 message hsave, ?_⟩
    rw [Cmd.bind_of_run _ (show findByUserId (intField request "toId" 0) st =
      ⟨.ok (st.pool.findByUserId (intField request "toId" 0)), st, []⟩ from rfl)]
    exact Cmd.bind_of_run _ (run_onDb hsave)

/-- What an accepted group message saves, and how the handler goes on. -/
theorem run_handleGroupMessage (h : (sentGroup env st session request st.db).result = .ok (some sent)) :
    ∃ message members db, sent = ⟨.ReceiveGroupMsg, message, members, []⟩ ∧ SavedLast true message db ∧
      handleGroupMessage env session request st =
        deliverToUsers members sent.payload (fun _ => [message]) { st with db := db } := by
  unfold sentGroup at h
  unfold handleGroupMessage
  rw [Cmd.bind_of_run _ (run_authenticatedUserId st session)]
  by_cases hbad : st.userId session ≤ 0 ∨ intField request "groupId" 0 ≤ 0 ∨ stringField request "msg" [] = []
  · rw [if_pos hbad] at h
    cases h
  · rw [if_neg hbad] at h ⊢
    obtain ⟨message, hsave, hrest⟩ := Cmd.result_bind_eq_ok.mp h
    obtain ⟨members, hmembers, hsent⟩ := Cmd.result_bind_eq_ok.mp hrest
    cases hsent
    obtain ⟨hdelivered, rows, hrows⟩ := (sat_saveGroup_last _ _ _ _ (W := fun _ => True) st.db trivial).2.1 message hsave
    have hspares : Database.Spares .messages (ChannelRepository.members env (intField request "groupId" 0)) :=
      .bind (Database.spares_query (by decide) _) fun _ => Database.spares_pure _
    refine ⟨message, members, _, rfl, ⟨hdelivered, rows, (hspares.tables _).trans hrows⟩, ?_⟩
    rw [Cmd.bind_of_run _ (run_onDb hsave)]
    exact Cmd.bind_of_run _ (run_onDb hmembers)

/-- What an accepted request leaves: the message is the last row, and handed to
its sessions as far as it fits a frame. -/
theorem handsTo_of_accepts (h : Accepts env st session request sent) :
    (∃ rows, (dispatch env session request st).state.db.tables .messages = some (rows ++ [toRow sent.message])) ∧
      (typeField request = some .SendMsg →
        sent.message.delivered = (st.pool.findByUserId (intField request "toId" 0)).isSome) ∧
      (∀ d ∈ (dispatch env session request st).out, d.payload = sent.payload) ∧
      ((serialize sent.payload).length ≤ FrameCodec.MaxFrameBytes →
        (dispatch env session request st).out.map Delivery.target = sent.sessions st.pool) ∧ sent.requester.Nodup := by
  unfold Accepts sending at h
  generalize htype : typeField request = type at h
  unfold dispatch
  rw [htype]
  split at h
  · obtain ⟨message, db, rfl, ⟨hdelivered, rows, hrows⟩, hrun⟩ := run_handlePrivateMessage h
    simp only [hrun]
    have hhands := HandsTo.bind (handsTo_deliverIfFound (st.pool.findByUserId (intField request "toId" 0))
      (Sent.payload ⟨.ReceiveMsg, message, [intField request "toId" 0], [session]⟩) (fun _ => [message])
        { st with db := db }) (fun hfits => ?_)
      (handsTo_deliverContent session _ fun _ => [message])
    · refine ⟨⟨rows, by rw [hhands.db]; exact hrows⟩, fun _ => hdelivered, hhands.only, fun hfits => ?_, List.nodup_singleton _⟩
      rw [hhands.targets hfits]
      cases hfind : st.pool.findByUserId (intField request "toId" 0) <;> simp [Sent.sessions, hfind]
    · cases st.pool.findByUserId (intField request "toId" 0) with
      | none => rfl
      | some target => exact result_deliverContent hfits target _ _
  · obtain ⟨message, members, db, rfl, ⟨hdelivered, rows, hrows⟩, hrun⟩ := run_handleGroupMessage h
    simp only [hrun]
    have hhands := handsTo_deliverToUsers members
      (Sent.payload ⟨.ReceiveGroupMsg, message, members, []⟩) (fun _ => [message]) { st with db := db }
    refine ⟨⟨rows, by rw [hhands.db]; exact hrows⟩, nofun, hhands.only, fun hfits => ?_, List.nodup_nil⟩
    rw [hhands.targets hfits, Sent.sessions, List.append_nil]
  · cases h

end Runs

/-- In every state that the server reaches, an accepted message is handed over
once exactly if its lookups find separate sessions. -/
theorem handed_once_iff {env : Env} {db : Database} {st : Server} {session : SessionId} {json : Bytes}
    {request : Object} {sent : Sent} (hreach : TcpServer.Reachable env db st)
    (hparse : parseObject env.stack json = some request) (haccepts : Accepts env st session request sent) :
    HandedOnce st request sent (route env session json st) ↔ Separate st.pool sent := by
  have hindexed : st.pool.Indexed := by
    obtain ⟨events, hrun⟩ := hreach
    exact SessionPool.indexed_bare.mp (TcpServer.kept_of_run hrun).indexed
  have hroute : route env session json st = dispatch env session request st := by
    rw [route_of_some env hparse]
  rw [hroute]
  obtain ⟨hstored, hdelivered, honly, htargets, hreq⟩ := handsTo_of_accepts haccepts
  have hcounts := times_of_only honly
  constructor
  · intro honce
    have hfits : sent.sessions st.pool ≠ [] → (serialize sent.payload).length ≤ FrameCodec.MaxFrameBytes := by
      intro hne
      obtain ⟨target, htarget⟩ := List.exists_mem_of_ne_nil _ hne
      have hcount := hcounts target
      rw [honce.once target, if_pos htarget] at hcount
      by_contra hlong
      rw [if_neg hlong] at hcount
      cases hcount
    have hnodup : (sent.sessions st.pool).Nodup := by
      rcases eq_or_ne (sent.sessions st.pool) [] with hnil | hne
      · rw [hnil]
        exact List.nodup_nil
      · refine count_once_iff.mp fun target => ?_
        rw [← honce.once target, hcounts target, if_pos (hfits hne), htargets (hfits hne)]
    obtain ⟨husers, hrequester⟩ := (nodup_sessions_iff hindexed hreq).mp hnodup
    exact ⟨husers, hrequester, hfits⟩
  · intro hsep
    have hnodup := (nodup_sessions_iff hindexed hreq).mpr ⟨hsep.users, hsep.requester⟩
    refine ⟨honly, fun target => ?_, hstored, fun htype => by rw [hdelivered htype]⟩
    rw [hcounts target]
    split
    · next hfits => rw [htargets hfits, count_once_iff.mpr hnodup target]
    · next hlong =>
      have hnil : sent.sessions st.pool = [] := not_not.mp fun hne => hlong (hsep.fits hne)
      rw [hnil, if_neg List.not_mem_nil]

/-- A private message to the user. -/
def messageTo (user : Int32) : Bytes := requestText .SendMsg [("toId", ofInt32 user), ("msg", text "hi")]

/-- What the text, as a request of session 1, saves. -/
def savedBy (st : Server) (json : Bytes) : Option Sent :=
  (parseObject Env.ideal.stack json).bind fun request => (sending .ideal st 1 request st.db).result.toOption.join

theorem accepts_of_savedBy {st : Server} {json : Bytes} (h : (savedBy st json).isSome = true) :
    ∃ request sent, parseObject Env.ideal.stack json = some request ∧ Accepts .ideal st 1 request sent := by
  obtain ⟨sent, hsent⟩ := Option.isSome_iff_exists.mp h
  obtain ⟨request, hparse, hjoin⟩ := Option.bind_eq_some_iff.mp hsent
  have hok : ∀ r : Except Exn (Option Sent), r.toOption = some (some sent) → r = .ok (some sent) := by
    rintro (e | saved) h
    · cases h
    · exact congrArg Except.ok (Option.some.inj h)
  exact ⟨request, sent, hparse, hok _ (Option.join_eq_some_iff.mp hjoin)⟩

theorem handed_once_iff_friend :
    ∃ st request sent, TcpServer.Reachable .ideal (Server.boot .ideal .empty).db st ∧
      parseObject Env.ideal.stack (messageTo 1001) = some request ∧
      (HandedOnce st request sent (route .ideal 1 (messageTo 1001) st) ↔ Separate st.pool sent) := by
  have hrun : ((run (TcpServer.step .ideal) (.boot .ideal .empty) TcpServer.threeUsers).map fun st =>
      (savedBy st (messageTo 1001)).isSome) = some true := by
    decide +kernel
  obtain ⟨st, hst, haccepted⟩ := Option.map_eq_some_iff.mp hrun
  obtain ⟨request, sent, hparse, haccepts⟩ := accepts_of_savedBy haccepted
  exact ⟨st, request, sent, ⟨_, hst⟩, hparse, handed_once_iff ⟨_, hst⟩ hparse haccepts⟩

/-- User 1000 is handed its message to itself twice. -/
theorem self_message_handed_twice :
    ¬∀ env db st, TcpServer.Reachable env db st → ∀ session json request sent, parseObject env.stack json = some request →
      Accepts env st session request sent → HandedOnce st request sent (route env session json st) := by
  intro hall
  have hrun : ((run (TcpServer.step .ideal) (.boot .ideal .empty) TcpServer.threeUsers).map fun st =>
      ((savedBy st (messageTo 1000)).isSome, times 1 (route .ideal 1 (messageTo 1000) st).out)) = some (true, 2) := by
    decide +kernel
  obtain ⟨st, hst, heq⟩ := Option.map_eq_some_iff.mp hrun
  obtain ⟨haccepted, htimes⟩ := Prod.mk.injEq .. ▸ heq
  obtain ⟨request, sent, hparse, haccepts⟩ := accepts_of_savedBy haccepted
  have honce := (hall .ideal _ st ⟨_, hst⟩ 1 _ request sent hparse haccepts).once 1
  rw [htimes] at honce
  split at honce <;> cases honce

end MessageRouter

end LanChat
