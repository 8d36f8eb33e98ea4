import LanChat.Server.Accesses
import LanChat.Server.LoginState

/-!
# Sessions that have been removed

A session that has been removed from the pool can still be reading: the loop
over the frames of a read goes on after the frame that exceeded the rate limit,
and a read that was complete before a sweep is handled after it. The rate limit
is then all that keeps its frames from the router.
-/

namespace LanChat

open Lib Json

/-- Whether the reads of a session go on. -/
def Server.reading (st : Server) (session : SessionId) : Bool := (st.pool.object session).reading

namespace TcpServer

open MessageRouter

variable (env : Env)

/-- The session of a frame that `AsyncSession::onMessage` hands to `MessageRouter::route`.
A text that is nested too deeply ends the process before. -/
def routed (st : Server) : Event → Option SessionId
  | .frame session json now _ =>
    if st.reading session ∧ ((st.pool.object session).consumeRateLimitToken now).1 = true ∧
        overflows env.stack json = false ∧ (parseObject env.stack json).bind typeField ≠ some .Heartbeat
    then some session
    else none
  | _ => none

/-- The sessions for which the handler of an event calls `SessionPool::remove`. -/
def removes (st : Server) : Event → List SessionId
  | .accept _ => []
  | .frame session _ now _ =>
    if st.reading session ∧ ((st.pool.object session).consumeRateLimitToken now).1 = false then [session]
    else []
  | .readError session => if st.reading session then [session] else []
  | .sweep now => st.pool.timedOut env now

/-- `SessionPool::remove` has run for the session. -/
def Removed (db : Database) (events : List Event) (session : SessionId) : Prop :=
  ∃ es event fs st, events = es ++ event :: fs ∧ run (step env) (.start db) es = some st ∧
    session ∈ removes env st event

/-- The rate limit refuses a frame that comes now. -/
def Exhausted (st : Server) (session : SessionId) (now : Int) : Prop :=
  now - (st.pool.object session).rate_window_start < AsyncSession.second ∧
    20 ≤ (st.pool.object session).messages_this_window

/-- A frame of a session that reads and is not in the pool is refused, or a heartbeat,
or nested too deeply. -/
def Harmless (st : Server) : Event → Prop
  | .frame session json now _ =>
    st.reading session → session ∉ st.pool.sessions →
      Exhausted st session now ∨ (parseObject env.stack json).bind typeField = some .Heartbeat ∨
        Nested .element env.stack json
  | _ => True

instance (st : Server) (session : SessionId) (now : Int) : Decidable (Exhausted st session now) :=
  inferInstanceAs (Decidable (_ ∧ _))

section Frame

variable {env} {st : Server} {session t : SessionId} {json : Bytes} {now later : Int}

theorem exhausted_iff :
    Exhausted st session now ↔ ((st.pool.object session).consumeRateLimitToken now).1 = false := by
  simp only [AsyncSession.consumeRateLimitToken, Exhausted]
  split
  · next hle => simp [Int.not_lt.mpr hle]
  · next hlt => simp [Int.lt_of_not_ge hlt, Nat.succ_le_iff]

theorem routed_frame :
    routed env st (.frame session json now later) = some t ↔
      session = t ∧ st.reading session ∧ ¬Exhausted st session now ∧ ¬Nested .element env.stack json ∧
        (parseObject env.stack json).bind typeField ≠ some .Heartbeat := by
  rw [exhausted_iff, Bool.not_eq_false, ← overflows_iff, Bool.not_eq_true]
  show (if _ then some session else none) = some t ↔ _
  rw [Option.ite_none_right_eq_some, Option.some_inj, and_comm]

/-- What a frame does until it is routed, or else. -/
theorem handle_reading_frame (hreading : st.reading session) :
    handle env (.frame session json now later) st =
      (modifySession session (fun s => (s.consumeRateLimitToken now).2) >>= fun _ =>
        if Exhausted st session now then removeSession env session
        else if (parseObject env.stack json).bind typeField = some .Heartbeat then do
          modifySession session (AsyncSession.heartbeatReceived later)
          deliver session (okReply .HeartbeatAck "ok")
        else route env session json) st := by
  change (st.pool.object session).reading = true at hreading
  simp only [handle, onMessage]
  rw [Cmd.bind_of_run _ (Cmd.asks_apply _ _), hreading, if_pos rfl, Cmd.bind_of_run _ (Cmd.asks_apply _ _)]
  simp only [Bool.not_eq_true', exhausted_iff]

end Frame

/-! ## What a step does to the reads -/

/-- The sessions that read, and the next id. -/
def reads (st : Server) : (SessionId → Bool) × SessionId := (st.reading, st.next_id)

theorem reads_setObject {st : Server} {session : SessionId} {s : AsyncSession}
    (h : s.reading = (st.pool.object session).reading) :
    reads { st with pool := st.pool.setObject session s } = reads st := by
  refine congrArg (fun f => (f, st.next_id)) (funext fun t => ?_)
  simp only [Server.reading, SessionPool.setObject, Function.update_apply]
  split
  · next ht => rw [h, ht]
  · rfl

theorem untouched_reads : Accesses.Untouched reads where
  db _ _ := rfl
  presence _ _ := rfl
  bindUser st session uid := by
    unfold SessionPool.bindUser
    split
    · rfl
    · split <;> exact @reads_setObject st session _ rfl
  unbindUser st uid := by
    unfold SessionPool.unbindUser
    split
    · rfl
    · split
      · rfl
      · exact @reads_setObject st _ _ rfl
  deliver st session json s h := by
    refine reads_setObject ?_
    unfold AsyncSession.deliver at h
    split at h
    · cases h
    · cases h
      rfl

section Reads

variable {env} {st st' : Server} {event : Event} {session : SessionId}

theorem leaves_reads_removeSession (session : SessionId) : Cmd.Leaves reads (removeSession env session) := by
  refine leaves_removeSession untouched_reads (fun st session => ?_) session
  unfold SessionPool.remove
  split <;> rfl

theorem leaves_reads_modifySession {f : AsyncSession → AsyncSession} (h : ∀ s, (f s).reading = s.reading)
    (session : SessionId) : Cmd.Leaves reads (modifySession session f) :=
  fun _ => reads_setObject (h _)

theorem leaves_reads_frame (session : SessionId) (json : Bytes) (now later : Int) :
    Cmd.Leaves reads (handle env (.frame session json now later)) := by
  refine Cmd.leaves_bind (Cmd.leaves_asks _) fun _ => Cmd.leaves_ite ?_ (Cmd.leaves_pure ())
  refine Cmd.leaves_bind (Cmd.leaves_asks _) fun _ =>
    Cmd.leaves_bind (leaves_reads_modifySession (fun s => ?_) session) fun _ => ?_
  · unfold AsyncSession.consumeRateLimitToken
    split <;> rfl
  · refine Cmd.leaves_ite (leaves_reads_removeSession session) (Cmd.leaves_ite ?_ ?_)
    · refine Cmd.leaves_bind ?_ fun _ => (@Accesses.deliver env session _).leaves untouched_reads
      exact leaves_reads_modifySession (f := AsyncSession.heartbeatReceived later) (fun _ => rfl) session
    · exact route_rule env (Cmd.leaves_throw _)
        ((@Accesses.deliver env session _).leaves untouched_reads)
        fun request _ => leaves_dispatch untouched_reads session request

/-- The pool and the session objects once the next connection has been accepted. -/
def accepted (st : Server) (now : Int) : SessionPool :=
  let pool := st.pool.setObject st.next_id (.construct now)
  if (pool.add st.next_id).1 then
    (pool.add st.next_id).2.setObject st.next_id (((pool.add st.next_id).2.object st.next_id).start now)
  else (pool.add st.next_id).2

theorem state_accept (now : Int) :
    (accept now st).state = { st with next_id := st.next_id + 1, pool := accepted st now } := by
  unfold accept accepted
  cases hadded : ((st.pool.setObject st.next_id (.construct now)).add st.next_id).1 <;>
    simp [modifySession, modifyPool, Cmd.bind_apply, Cmd.andThen, hadded]

theorem out_accept (now : Int) (st : Server) : (accept now st).out = [] := by
  unfold accept
  cases hadded : ((st.pool.setObject st.next_id (.construct now)).add st.next_id).1 <;>
    simp [modifySession, modifyPool, Cmd.bind_apply, Cmd.andThen, hadded]

theorem object_add (pool : SessionPool) (session : SessionId) : (pool.add session).2.object = pool.object := by
  unfold SessionPool.add
  split
  · rfl
  · split <;> rfl

theorem object_accepted {now : Int} (hread : ((accepted st now).object session).reading = true) :
    st.reading session ∨ session = st.next_id ∧ session ∈ (accepted st now).sessions := by
  rcases eq_or_ne session st.next_id with rfl | hne
  · refine .inr ⟨rfl, ?_⟩
    rcases em (st.pool.max_connections ≤ st.pool.sessions.length) with hfull | hfull
    · simp [accepted, SessionPool.add, SessionPool.setObject, hfull, AsyncSession.construct] at hread
    · rcases em (st.next_id ∈ st.pool.sessions) with hmem | hmem <;>
        simp [accepted, SessionPool.add, SessionPool.setObject, hfull, hmem]
  · left
    have hobject : (accepted st now).object session = st.pool.object session := by
      simp only [accepted]
      split <;> simp [SessionPool.setObject, object_add, hne]
    rwa [hobject] at hread

/-- A session reads after a step because it has read before, or because it has
been accepted. -/
theorem reading_of_step (h : step env st event = some st') (hread : st'.reading session) :
    st.reading session ∨ session = st.next_id ∧ session ∈ st'.pool.sessions := by
  obtain ⟨-, rfl⟩ := of_step h
  cases event with
  | accept now =>
    change ((accept now st).state.pool.object session).reading = true at hread
    show _ ∨ _ ∧ session ∈ (accept now st).state.pool.sessions
    rw [state_accept] at hread ⊢
    exact object_accepted hread
  | frame s json now later =>
    have hreads := congrArg Prod.fst (@leaves_reads_frame env s json now later st)
    exact .inl ((congrFun hreads session).symm.trans hread)
  | readError s =>
    have hreads : ∀ t, (handle env (.readError s) st).state.reading t = true → st.reading t = true := by
      intro t ht
      simp only [handle] at ht
      rw [Cmd.bind_of_run _ (Cmd.asks_apply _ _)] at ht
      split at ht
      · have hstop : modifySession s AsyncSession.stopReading st =
            ⟨.ok (), { st with pool := st.pool.setObject s (st.pool.object s).stopReading }, []⟩ := rfl
        rw [Cmd.bind_of_run _ hstop] at ht
        have hremove := congrArg Prod.fst (@leaves_reads_removeSession env s
          { st with pool := st.pool.setObject s (st.pool.object s).stopReading })
        have hread := (congrFun hremove t).symm.trans ht
        simp only [reads, Server.reading, SessionPool.setObject, Function.update_apply] at hread
        split at hread
        · cases hread
        · exact hread
      · exact ht
    exact .inl (hreads session hread)
  | sweep now =>
    have hreads : Cmd.Leaves reads (handle env (.sweep now)) :=
      Cmd.leaves_bind (Cmd.leaves_asks _) fun _ => Cmd.leaves_each leaves_reads_removeSession
    exact .inl ((congrFun (congrArg Prod.fst (hreads st)) session).symm.trans hread)

theorem sessions_rosterAfter (env : Env) (st : Server) (session : SessionId) (request : Object) :
    (rosterAfter env st session request).pool.sessions = st.pool.sessions ∧
      (rosterAfter env st session request).next_id = st.next_id := by
  unfold rosterAfter
  split
  · split
    · exact ⟨SessionPool.sessions_bindUser _ _ _, rfl⟩
    · exact ⟨rfl, rfl⟩
  · unfold Roster.logout
    dsimp only
    split
    · exact ⟨SessionPool.sessions_unbindUser _ _, rfl⟩
    · exact ⟨rfl, rfl⟩
  · exact ⟨rfl, rfl⟩

theorem next_id_removeAll (r : Roster) (sessions : List SessionId) :
    (sessions.foldl Roster.remove r).next_id = r.next_id := by
  induction sessions generalizing r with
  | nil => rfl
  | cons s sessions ih => exact ih _

theorem next_id_of_step (h : step env st event = some st') : st.next_id ≤ st'.next_id := by
  have hroster : st'.next_id = (rosterOf env st event).next_id := congrArg Roster.next_id (roster_step h)
  rw [hroster]
  cases event with
  | accept now => exact Nat.le_succ _
  | frame s json now later =>
    simp only [rosterOf]
    split
    · exact Nat.le_refl _
    · split
      · exact Nat.le_refl _
      · split
        · exact Nat.le_refl _
        · exact (sessions_rosterAfter env st s _).2.ge
  | readError s =>
    simp only [rosterOf]
    split <;> exact Nat.le_refl _
  | sweep now => exact (next_id_removeAll st.roster _).ge

theorem nodup_sessions (hk : Kept st.roster) : st.roster.pool.sessions.Nodup := hk.indexed.nodup

/-- Of the sessions that have been accepted, those stay in the pool that the step
does not remove. -/
theorem mem_sessions_of_step (hk : Kept st.roster) (h : step env st event = some st')
    (hold : session ≠ st.next_id) :
    session ∈ st'.pool.sessions ↔ session ∈ st.pool.sessions ∧ session ∉ removes env st event := by
  have hroster : st'.pool.sessions = (rosterOf env st event).pool.sessions :=
    congrArg (fun r : Roster => r.pool.sessions) (roster_step h)
  have hremove : ∀ s, session ∈ (st.roster.remove s).pool.sessions ↔ session ∈ st.pool.sessions ∧ session ≠ s := by
    intro s
    simp only [Roster.remove, SessionPool.sessions_remove, (nodup_sessions hk).mem_erase_iff]
    exact and_comm
  rw [hroster]
  cases event with
  | accept now =>
    simp only [rosterOf, Roster.accept, removes, List.not_mem_nil, not_false_eq_true, and_true,
      SessionPool.sessions_add]
    split
    · rfl
    · exact List.mem_cons.trans (or_iff_right hold)
  | frame s json now later =>
    simp only [rosterOf, removes]
    change session ∈ (if (!st.reading s) = true then _ else _ : Roster).pool.sessions ↔ _
    cases hreading : st.reading s with
    | false => simp [Server.roster]
    | true =>
      cases hgranted : ((st.pool.object s).consumeRateLimitToken now).1 with
      | false => simp [hremove]
      | true =>
        simp only [Bool.not_true, Bool.false_eq_true, if_false]
        split
        · simp [Server.roster]
        · simp [(sessions_rosterAfter env st s _).1]
  | readError s =>
    simp only [rosterOf, removes]
    change session ∈ (if st.reading s = true then _ else _ : Roster).pool.sessions ↔ _
    cases hreading : st.reading s with
    | false => simp [Server.roster]
    | true => simp [hremove]
  | sweep now => exact Roster.mem_removeAll _ (nodup_sessions hk) session

end Reads

/-! ## Runs -/

/-- A session that reads and is not in the pool is one that has been removed,
and a session that has been removed is not in the pool. -/
structure Tracked (db : Database) (events : List Event) (st : Server) : Prop where
  gone : ∀ session, Removed env db events session → session ∉ st.pool.sessions ∧ session < st.next_id
  removed : ∀ session, st.reading session → session ∉ st.pool.sessions → Removed env db events session
  fresh : ∀ session, st.reading session → session < st.next_id

section Runs

variable {env} {db : Database} {events : List Event} {st st' : Server} {event : Event} {session : SessionId}

theorem Removed.concat (h : Removed env db events session) : Removed env db (events ++ [event]) session := by
  obtain ⟨es, e, fs, t, rfl, hrun, hmem⟩ := h
  exact ⟨es, e, fs ++ [event], t, by simp, hrun, hmem⟩

theorem removed_concat (hrun : run (step env) (.start db) events = some st) :
    Removed env db (events ++ [event]) session ↔
      Removed env db events session ∨ session ∈ removes env st event := by
  refine ⟨?_, fun h => h.elim Removed.concat fun hmem => ⟨events, event, [], st, rfl, hrun, hmem⟩⟩
  rintro ⟨es, e, fs, t, hes, hds, hmem⟩
  rcases List.eq_nil_or_concat fs with rfl | ⟨gs, g, rfl⟩
  · obtain ⟨rfl, hlast⟩ := List.append_inj' hes rfl
    cases hlast
    cases hrun.symm.trans hds
    exact .inr hmem
  · rw [List.concat_eq_append, ← List.cons_append, ← List.append_assoc] at hes
    exact .inl ⟨es, e, gs, t, (List.append_inj' hes rfl).1, hds, hmem⟩

theorem tracked_start : Tracked env db [] (.start db) where
  gone session := by
    rintro ⟨es, e, fs, t, hes, -⟩
    simp at hes
  removed session hread := by
    simp [Server.reading, Server.start, SessionPool.create, AsyncSession.construct] at hread
  fresh session hread := by
    simp [Server.reading, Server.start, SessionPool.create, AsyncSession.construct] at hread

/-- A session that a step removes has an id that has been handed out. -/
theorem lt_next_id_of_removes (hk : Kept st.roster) (hfresh : ∀ s, st.reading s → s < st.next_id)
    (h : session ∈ removes env st event) : session < st.next_id := by
  cases event with
  | accept now => cases h
  | frame s json now later =>
    simp only [removes] at h
    split at h
    · next hall =>
      rw [List.mem_singleton.mp h]
      exact hfresh s hall.1
    · cases h
  | readError s =>
    simp only [removes] at h
    split at h
    · next hread =>
      rw [List.mem_singleton.mp h]
      exact hfresh s hread
    · cases h
  | sweep now => exact hk.fresh session ((env.order_perm _).mem_iff.mp (List.mem_filter.mp h).1)

theorem Tracked.step (hk : Kept st.roster) (h : Tracked env db events st)
    (hrun : run (step env) (.start db) events = some st) (hs : TcpServer.step env st event = some st') :
    Tracked env db (events ++ [event]) st' := by
  have hnext := next_id_of_step hs
  refine ⟨fun session hremoved => ?_, fun session hread hout => ?_, fun session hread => ?_⟩
  · rcases (removed_concat hrun).mp hremoved with hbefore | hnow
    · obtain ⟨hout, hlt⟩ := h.gone session hbefore
      exact ⟨fun hmem => hout ((mem_sessions_of_step hk hs hlt.ne).mp hmem).1, hlt.trans_le hnext⟩
    · have hlt := lt_next_id_of_removes hk h.fresh hnow
      exact ⟨fun hmem => ((mem_sessions_of_step hk hs hlt.ne).mp hmem).2 hnow, hlt.trans_le hnext⟩
  · rcases reading_of_step hs hread with hbefore | ⟨-, hmem⟩
    · refine (removed_concat hrun).mpr ?_
      rw [mem_sessions_of_step hk hs (h.fresh session hbefore).ne, not_and_or, not_not] at hout
      exact hout.imp_left (h.removed session hbefore)
    · exact absurd hmem hout
  · rcases reading_of_step hs hread with hbefore | ⟨rfl, hmem⟩
    · exact (h.fresh session hbefore).trans_le hnext
    · exact (hk.step hs).fresh _ hmem

theorem tracked_of_run (hrun : run (step env) (.start db) events = some st) : Tracked env db events st := by
  refine history_run (P := fun events st => Tracked env db events st) (I := fun st => Kept st.roster)
    tracked_start ?_ (throughout_of_step (fun _ _ _ hk hs => Kept.step hk hs) (kept_start db) events) hrun
  exact fun es t e t' hes hk ht hs => ht.step hk hes hs

/-- A frame of a removed session reaches the router exactly when the rate limit
grants it a token and it is no heartbeat. -/
theorem silent_iff_harmless (env : Env) (db : Database) (events : List Event) :
    (∀ es event fs st, events = es ++ event :: fs → run (step env) (.start db) es = some st →
        ∀ session ∈ routed env st event, ¬Removed env db es session) ↔
      ∀ es event fs st, events = es ++ event :: fs → run (step env) (.start db) es = some st →
        Harmless env st event := by
  refine forall₄_congr fun es event fs st => forall₂_congr fun _ hrun => ?_
  have ht := tracked_of_run hrun
  cases event with
  | accept now => simp [routed, Harmless]
  | readError s => simp [routed, Harmless]
  | sweep now => simp [routed, Harmless]
  | frame s json now later =>
    constructor
    · intro hsilent hread hout
      rcases em (Exhausted st s now) with hex | hex
      · exact .inl hex
      rcases em ((parseObject env.stack json).bind typeField = some .Heartbeat) with htype | htype
      · exact .inr (.inl htype)
      rcases em (Nested .element env.stack json) with hnested | hflat
      · exact .inr (.inr hnested)
      exact absurd (ht.removed s hread hout) (hsilent s (routed_frame.mpr ⟨rfl, hread, hex, hflat, htype⟩))
    · rintro hharmless session hrouted hremoved
      obtain ⟨rfl, hread, hex, hflat, htype⟩ := routed_frame.mp hrouted
      exact (hharmless hread (ht.gone s hremoved).1).elim hex fun h => h.elim htype hflat

/-- Twenty-one heartbeats a nanosecond before the end of the first rate window. -/
def flood : List Event :=
  .accept 0 :: .replicate 21 (.frame 1 (requestText .Heartbeat []) 999999999 999999999)

/-- A registration that comes with the heartbeats in one read, and is decoded in
the next window. -/
theorem removed_session_routed :
    ¬∀ env db events es event fs st, events = es ++ event :: fs → run (step env) (.start db) es = some st →
      ∀ session ∈ routed env st event, ¬Removed env db es session := by
  intro hall
  let late : Event := .frame 1 (requestText .RegisterUser [("nickname", text "a"), ("password", text "p")])
    1000000000 1000000000
  have hlast : ∃ st, run (step .ideal) (.boot .ideal .empty) flood = some st ∧ routed .ideal st late = some 1 := by
    have hrun : ((run (step .ideal) (.boot .ideal .empty) flood).map fun st => routed .ideal st late) =
        some (some 1) := by
      decide +kernel
    exact Option.map_eq_some_iff.mp hrun
  have hremoved : ∃ st, run (step .ideal) (.boot .ideal .empty) (flood.take 21) = some st ∧
      removes .ideal st (.frame 1 (requestText .Heartbeat []) 999999999 999999999) = [1] := by
    have hrun : ((run (step .ideal) (.boot .ideal .empty) (flood.take 21)).map fun st =>
        removes .ideal st (.frame 1 (requestText .Heartbeat []) 999999999 999999999)) = some [1] := by
      decide +kernel
    exact Option.map_eq_some_iff.mp hrun
  obtain ⟨st, hst, hrouted⟩ := hlast
  obtain ⟨t, ht, hmem⟩ := hremoved
  exact hall .ideal _ (flood ++ [late]) flood late [] st rfl hst 1 hrouted
    ⟨flood.take 21, _, [], t, rfl, ht, by rw [hmem]; exact List.mem_cons_self⟩

end Runs

end TcpServer

end LanChat
