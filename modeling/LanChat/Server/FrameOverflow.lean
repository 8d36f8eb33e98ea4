import LanChat.Json.Depth
import LanChat.Server.Access
import LanChat.Server.Handout
import LanChat.Server.PayloadSizes
import LanChat.Server.Restart

/-!
# Requests whose answers do not fit

`FrameCodec::encode` throws when a payload is longer than a frame may be, and
nothing on the way out of the read handler catches the exception. `Roomy` says
of a request and a state how long the data are that the request would hand out;
`route_returns_iff`: that is exactly what decides whether routing it returns.
-/

namespace LanChat

open Lib Json Database

open FrameCodec (MaxFrameBytes)

namespace MessageRouter

/-! ## Commands that return -/

/-- The command returns exactly if `P`, and then all it hands out fits. -/
structure Settles (P : Prop) (c : RouterM Unit) (st : Server) : Prop where
  returns : P → (c st).result = .ok () ∧ ∀ d ∈ (c st).out, Fits d.payload
  needs : (c st).result = .ok () → P

/-- `Q` holds of what the repository call returns and of the database behind it. -/
@[irreducible] def After {α : Type} (c : DbM α) (db : Database) (Q : α → Database → Prop) : Prop :=
  ∀ a, (c db).result = .ok a → Q a (c db).state

theorem after_of_forall {α : Type} {c : DbM α} {db : Database} {Q : α → Database → Prop} (h : ∀ a db, Q a db) :
    After c db Q := by
  unfold After
  exact fun a _ => h a _

/-- One of the users has a session. -/
def Heard (pool : SessionPool) (users : List Int32) : Prop := ∃ user ∈ users, (pool.findByUserId user).isSome

section Settles

variable {P Q : Prop} {α β : Type} {session : SessionId} {st : Server} {payload : Object}

theorem Settles.congr {c : RouterM Unit} (h : Settles P c st) (hiff : P ↔ Q) : Settles Q c st :=
  ⟨fun hQ => h.returns (hiff.mpr hQ), fun hr => hiff.mp (h.needs hr)⟩

theorem settles_pure : Settles True (pure ()) st := ⟨fun _ => ⟨rfl, nofun⟩, fun _ => trivial⟩

/-- Handing a payload over is no matter of the session. -/
theorem settles_deliverContent (carries : Server → List StoredMessage) :
    Settles (Fits payload) (deliverContent session payload carries) st := by
  cases hsent : (st.pool.object session).deliver (serialize payload) with
  | ok s =>
    have hrun : deliverContent session payload carries st = ⟨.ok (), { st with pool := st.pool.setObject session s },
        [⟨session, payload, carries st, st⟩]⟩ := by simp only [deliverContent, hsent]
    refine ⟨fun h => ?_, fun _ => (AsyncSession.deliver_ok hsent).1⟩
    rw [hrun]
    exact ⟨rfl, fun d hd => List.mem_singleton.mp hd ▸ h⟩
  | error e =>
    have hrun : (deliverContent session payload carries st).result = .error e := by simp only [deliverContent, hsent]
    refine ⟨fun h => absurd h (Nat.not_le.mpr (AsyncSession.deliver_error hsent)), fun hr => ?_⟩
    rw [hrun] at hr
    cases hr

theorem settles_throw (e : Exn) : Settles False (Cmd.throw e) st :=
  ⟨False.elim, fun h => by cases h⟩

theorem settles_answer (h : Fits payload) : Settles True (deliver session payload) st :=
  (settles_deliverContent _).congr (iff_true_intro h)

theorem Settles.bind {c : RouterM Unit} {f : Unit → RouterM Unit} (hc : Settles P c st)
    (hf : Settles Q (f ()) (c st).state) : Settles (P ∧ Q) (c >>= f) st := by
  refine ⟨fun ⟨hP, hQ⟩ => ?_, fun hr => ?_⟩
  · obtain ⟨hok, hout⟩ := hc.returns hP
    obtain ⟨hok', hout'⟩ := hf.returns hQ
    rw [Cmd.bind_ok f hok]
    exact ⟨hok', fun d hd => (List.mem_append.mp hd).elim (hout d) (hout' d)⟩
  · obtain ⟨a, hok, hok'⟩ := Cmd.result_bind_eq_ok.mp hr
    exact ⟨hc.needs hok, hf.needs hok'⟩

/-- A first command that returns without output. -/
theorem settles_of_run {c : RouterM α} {f : α → RouterM Unit} {a : α} {st' : Server} (hrun : c st = ⟨.ok a, st', []⟩)
    (h : Settles P (f a) st') : Settles P (c >>= f) st := by
  have heq := Cmd.bind_of_run f hrun
  exact ⟨fun hP => heq ▸ h.returns hP, fun hr => h.needs (heq ▸ hr)⟩

theorem settles_auth {f : Int32 → RouterM Unit} (h : Settles P (f (st.userId session)) st) :
    Settles P (authenticatedUserId session >>= f) st :=
  settles_of_run (run_authenticatedUserId st session) h

theorem settles_asks {g : Server → α} {f : α → RouterM Unit} (h : Settles P (f (g st)) st) :
    Settles P (Cmd.asks g >>= f) st :=
  settles_of_run (Cmd.asks_apply ..) h

/-- A repository call that does not throw. -/
theorem settles_onDb {c : DbM α} {f : α → RouterM Unit} {P : α → Database → Prop} {db : Database} (hdb : st.db = db)
    (hc : Guarded Stored (fun _ => False) c) (hstored : db.Stored)
    (h : ∀ a db, db.Stored → Settles (P a db) (f a) { st with db := db }) :
    Settles (After c db P) (onDb c >>= f) st := by
  subst hdb
  obtain ⟨-, hok, herror⟩ := hc st.db hstored
  cases hr : (c st.db).result with
  | error e => exact (herror e hr).elim
  | ok a =>
    refine (settles_of_run (run_onDb hr) (h a _ (hok a hr))).congr ?_
    unfold After
    refine ⟨fun hP b hb => ?_, fun hP => hP a hr⟩
    rw [hr] at hb
    cases hb
    exact hP

theorem settles_ite {b : Prop} [Decidable b] {c d : RouterM Unit} (hc : b → Settles P c st)
    (hd : ¬b → Settles Q d st) : Settles ((b → P) ∧ (¬b → Q)) (if b then c else d) st := by
  by_cases hb : b
  · rw [if_pos hb]
    exact (hc hb).congr ⟨fun h => ⟨fun _ => h, fun hn => absurd hb hn⟩, fun h => h.1 hb⟩
  · rw [if_neg hb]
    exact (hd hb).congr ⟨fun h => ⟨fun hy => absurd hy hb, fun _ => h⟩, fun h => h.2 hb⟩

/-- A refusal is short. -/
theorem settles_unless {b q : Prop} [Decidable b] {d : RouterM Unit} (hq : ¬b ↔ q) (h : Fits payload)
    (hd : q → Settles Q d st) : Settles (q → Q) (if b then deliver session payload else d) st := by
  refine (settles_ite (fun _ => settles_answer h) fun hb => hd (hq.mp hb)).congr ?_
  rw [hq]
  exact and_iff_right fun _ => trivial

theorem settles_when {b : Prop} [Decidable b] {c : RouterM Unit} (h : b → Settles P c st) :
    Settles (b → P) (Cmd.when b c) st :=
  (settles_ite h fun _ => settles_pure).congr (and_iff_left fun _ => trivial)

/-- A short answer comes first. -/
theorem settles_afterAnswer {f : Unit → RouterM Unit} (h : Fits payload)
    (hf : Settles P (f ()) (deliver session payload st).state) : Settles P (deliver session payload >>= f) st :=
  ((settles_answer h).bind hf).congr (and_iff_right trivial)

/-- A short answer follows. -/
theorem Settles.thenAnswer {c : RouterM Unit} (hc : Settles P c st) (h : Fits payload) :
    Settles P (c >>= fun _ => deliver session payload) st :=
  (hc.bind (settles_answer h)).congr (and_iff_left trivial)

end Settles

/-! ## Delivering to users -/

section Users

variable {st st' : Server} {payload : Object} {carries : Server → List StoredMessage}

/-- Handing a payload over changes neither the roster nor the database. -/
theorem leaves_deliverContent (session : SessionId) :
    Cmd.Leaves (fun st : Server => (st.roster, st.db)) (deliverContent session payload carries) := by
  intro st
  unfold deliverContent
  cases hsent : (st.pool.object session).deliver (serialize payload) with
  | ok s => exact Prod.ext (roster_setObject st (AsyncSession.deliver_ok hsent).2) rfl
  | error e => rfl

theorem leaves_deliverToUser (user : Int32) :
    Cmd.Leaves (fun st : Server => (st.roster, st.db)) (deliverToUser user payload carries) := by
  refine Cmd.leaves_bind (Cmd.leaves_asks _) fun target => ?_
  cases target with
  | none => exact Cmd.leaves_pure ()
  | some target => exact leaves_deliverContent target

theorem settles_deliverToUser (user : Int32) :
    Settles ((st.pool.findByUserId user).isSome → Fits payload) (deliverToUser user payload carries) st := by
  refine settles_of_run (Cmd.asks_apply ..) ?_
  cases hfind : st.pool.findByUserId user with
  | none => exact settles_pure.congr (by simp)
  | some target => exact (settles_deliverContent carries).congr (by simp)

theorem heard_of_roster (h : st'.roster = st.roster) (users : List Int32) : Heard st'.pool users ↔ Heard st.pool users := by
  unfold Heard
  simp only [findByUserId_of_roster h]

theorem settles_deliverToUsers (users : List Int32) :
    Settles (Heard st.pool users → Fits payload) (deliverToUsers users payload carries) st := by
  induction users generalizing st with
  | nil => exact settles_pure.congr (by simp [Heard])
  | cons user rest ih =>
    have hroster := congrArg Prod.fst (@leaves_deliverToUser payload carries user st)
    refine ((settles_deliverToUser user).bind ih).congr ?_
    rw [heard_of_roster hroster]
    simp only [Heard, List.mem_cons, exists_eq_or_imp, or_imp]

end Users

/-! ## What has to fit -/

section Conditions

variable (env : Env) (st : Server) (session : SessionId) (request : Object)

/-- A payload of this length is passed on to whoever of the conversation is there. -/
def RelayFits (pool : SessionPool) (uid toId groupId : Int32) (length : Nat) (db : Database) : Prop :=
  After (addressees env uid toId groupId) db fun users _ => Heard pool users → length ≤ MaxFrameBytes

/-- The friends of the user who are there are told the user's nickname. -/
def PresenceFits (online : Bool) (uid : Int32) (pool : SessionPool) (db : Database) : Prop :=
  After (UserRepository.findById env uid) db fun user db => ∀ u ∈ user,
    After (FriendRepository.getFriends env uid) db fun friends _ =>
      Heard pool (friends.map (·.id)) → presenceBytes online u uid ≤ MaxFrameBytes

/-- An accepted login is answered with all users, and with all messages that wait. -/
def WelcomeFits (uid : Int32) (user : UserInfo) (db : Database) : Prop :=
  After (UserRepository.setOnlineStatus env uid true) db fun _ db =>
    After (UserRepository.getAllUsers env) db fun users db =>
      After (FriendRepository.getFriends env uid) db fun friends db =>
        After (ChannelRepository.groupsForUser env uid) db fun groups db =>
          loginBytes (st.presence.setOnline uid) user uid friends users groups ≤ MaxFrameBytes ∧
            After (MessageRepository.offlineForUser env uid 100) db fun offline db =>
              offlineBytes offline ≤ MaxFrameBytes ∧
                PresenceFits env true uid (st.pool.bindUser session uid).2 db

def LoginFits : Prop :=
  let uid := intField request "id" 0
  0 < uid → After (UserRepository.verifyPassword env uid (stringField request "password" [])) st.db fun verified db =>
    verified = true → After (UserRepository.findById env uid) db fun user db =>
      ∀ u ∈ user, WelcomeFits env st session uid u db

def LogoutFits : Prop :=
  let uid := st.userId session
  0 < uid → After (UserRepository.setOnlineStatus env uid false) st.db fun _ db =>
    PresenceFits env false uid (st.pool.unbindUser uid) db

def PrivateMessageFits : Prop :=
  let fromId := st.userId session
  let toId := intField request "toId" 0
  let content := stringField request "msg" []
  let contentType := stringField request "content_type" (lit "text")
  0 < fromId ∧ 0 < toId ∧ content ≠ [] →
    After (MessageRepository.savePrivate env fromId toId content contentType (st.pool.findByUserId toId).isSome) st.db
      fun message _ => messageBytes .ReceiveMsg message ≤ MaxFrameBytes

def GroupMessageFits : Prop :=
  let fromId := st.userId session
  let groupId := intField request "groupId" 0
  let content := stringField request "msg" []
  let contentType := stringField request "content_type" (lit "text")
  0 < fromId ∧ 0 < groupId ∧ content ≠ [] →
    After (MessageRepository.saveGroup env fromId groupId content contentType) st.db fun message db =>
      After (ChannelRepository.members env groupId) db fun members _ =>
        Heard st.pool members → messageBytes .ReceiveGroupMsg message ≤ MaxFrameBytes

/-- The request is passed on with another type. -/
def FileFits : Prop :=
  let fromId := st.userId session
  let toId := intField request "toId" 0
  let groupId := intField request "groupId" 0
  let fileHash := stringField request "file_hash" []
  0 < fromId ∧ stringField request "file_name" [] ≠ [] ∧ fileHash ≠ [] ∧ (0 < toId ∨ 0 < groupId) →
    RelayFits env st.pool fromId toId groupId (fileCopyBytes request) st.db ∧
      fileDoneBytes fileHash ≤ MaxFrameBytes

def CreateGroupFits : Prop :=
  let hostId := st.userId session
  let name := stringField request "name" []
  0 < hostId ∧ name ≠ [] → After (ChannelRepository.createGroup env hostId name) st.db fun group _ =>
    createdBytes group ≤ MaxFrameBytes

def SearchGroupFits : Prop :=
  After (ChannelRepository.searchGroups env (stringField request "name" []) (intField request "limit" 20)) st.db
    fun groups _ => foundGroupsBytes groups ≤ MaxFrameBytes

def JoinGroupFits : Prop :=
  let groupId := intField request "groupId" 0
  After (ChannelRepository.join env (st.userId session) groupId) st.db fun joined db => joined = true →
    After (ChannelRepository.members env groupId) db fun memberIds db =>
      After (memberUsers env memberIds) db fun members _ => joinedBytes st.presence groupId members ≤ MaxFrameBytes

def HistoryFits : Prop :=
  After (requestedHistory env (st.userId session) request) st.db fun history _ => historyBytes history ≤ MaxFrameBytes

/-- Every part of a summary repeats the id of the request. -/
def SummaryFits (requestId summary : Bytes) : Prop :=
  startBytes requestId ≤ MaxFrameBytes ∧
    ∀ chunkIndex ∈ List.range (chunkCount summary), chunkBytes requestId summary chunkIndex ≤ MaxFrameBytes

def AIRequestFits : Prop :=
  let requestId := stringField request "request_id" (lit "search")
  let aiType := stringField request "ai_type" []
  let query := stringField request "msg" []
  (aiType = lit "summarize" → After (summaryHistory env (st.userId session) query) st.db fun history _ =>
    ∀ messages ∈ history, SummaryFits requestId (summarizeMessages messages)) ∧
  (aiType = lit "search" → After (MessageRepository.search env query (intField request "limit" 50)) st.db
    fun messages _ => searchBytes requestId query messages ≤ MaxFrameBytes)

def FriendRequestFits : Prop :=
  let fromId := st.userId session
  let toId := intField request "toId" 0
  let msg := stringField request "msg" []
  After (Cmd.andAlso (0 < fromId ∧ 0 < toId) (FriendRepository.sendRequest env fromId toId msg)) st.db fun sent _ =>
    sent = true → Heard st.pool [toId] → noticeBytes fromId toId msg ≤ MaxFrameBytes

def FriendAcceptFits : Prop :=
  let toId := st.userId session
  let fromId := intField request "fromId" 0
  After (Cmd.andAlso (0 < fromId ∧ 0 < toId) (FriendRepository.acceptRequest env fromId toId)) st.db fun ok db =>
    After (UserRepository.findById env fromId) db fun fromUser db =>
      After (UserRepository.findById env toId) db fun toUser _ =>
        acceptBytes ok fromId fromUser ≤ MaxFrameBytes ∧
          (Heard st.pool [fromId] → acceptBytes ok toId toUser ≤ MaxFrameBytes)

def FriendListFits : Prop :=
  After (FriendRepository.getFriends env (st.userId session)) st.db fun friends _ =>
    friendListBytes st.presence friends ≤ MaxFrameBytes

/-- A typing notice is the request, printed again. -/
def TypingFits : Prop :=
  let fromId := st.userId session
  let toId := intField request "toId" 0
  let groupId := intField request "groupId" 0
  stringField request "event" [] = lit "typing" → 0 < fromId →
    (0 < toId → Heard st.pool [toId] → (serialize request).length ≤ MaxFrameBytes) ∧
    (¬0 < toId → 0 < groupId → After (ChannelRepository.members env groupId) st.db fun members _ =>
      Heard st.pool (members.filter fun memberId => memberId ≠ fromId) → (serialize request).length ≤ MaxFrameBytes)

def EditFits : Prop :=
  let fromId := st.userId session
  let msgId := int64Field request "msg_id" 0
  let content := stringField request "msg" []
  let toId := intField request "toId" 0
  let groupId := intField request "groupId" 0
  After (Cmd.andAlso (0 < fromId ∧ 0 < msgId) (MessageRepository.edit env msgId fromId content)) st.db fun ok db =>
    After (Database.time env) db fun now db => ok = true →
      RelayFits env st.pool fromId toId groupId (editBytes msgId fromId content now toId groupId) db

def ReactionFits : Prop :=
  let fromId := st.userId session
  let msgId := int64Field request "msg_id" 0
  let reaction := stringField request "reaction" []
  let toId := intField request "toId" 0
  let groupId := intField request "groupId" 0
  After (Cmd.andAlso (0 < fromId ∧ 0 < msgId) (MessageRepository.addReaction env msgId fromId reaction)) st.db
    fun ok db =>
      (ok = true → RelayFits env st.pool fromId toId groupId (reactionBytes true msgId fromId reaction toId groupId) db) ∧
      (ok = false → reactionBytes false msgId fromId reaction toId groupId ≤ MaxFrameBytes)

/-- A read receipt is the request with three fields assigned. -/
def ReceiptFits : Prop :=
  let fromId := st.userId session
  let msgId := int64Field request "msg_id" 0
  let toId := intField request "toId" 0
  let groupId := intField request "groupId" 0
  After (Cmd.andAlso (0 < fromId ∧ 0 < msgId) (MessageRepository.markRead env msgId fromId)) st.db fun marked db =>
    marked = true → After (Database.time env) db fun now db =>
      RelayFits env st.pool fromId toId groupId (receiptBytes request fromId now) db

/-- What the request would hand out is short enough. The other requests have
short answers only. -/
def Roomy : Prop :=
  match typeField request with
  | some .Login => LoginFits env st session request
  | some .Logout => LogoutFits env st session
  | some .SendMsg => PrivateMessageFits env st session request
  | some .SendGroupMsg => GroupMessageFits env st session request
  | some .SendFile => FileFits env st session request
  | some .CreateGroup => CreateGroupFits env st session request
  | some .SearchGroup => SearchGroupFits env st request
  | some .JoinGroup => JoinGroupFits env st session request
  | some .RequestHistory => HistoryFits env st session request
  | some .AIRequest => AIRequestFits env st session request
  | some .FriendRequest => FriendRequestFits env st session request
  | some .FriendAccept => FriendAcceptFits env st session request
  | some .FriendList => FriendListFits env st session
  | some .SystemBroadcast => TypingFits env st session request
  | some .MessageEdit => EditFits env st session request
  | some .MessageReaction => ReactionFits env st session request
  | some .ReadReceipt => ReceiptFits env st session request
  | _ => True

end Conditions

/-! ## The handlers -/

section Handlers

variable {env : Env} {st : Server} {session : SessionId} {request : Object}

/-- A payload of known length. -/
theorem settles_deliverOf {payload : Object} {n : Nat} {carries : Server → List StoredMessage}
    (h : (serialize payload).length = n) : Settles (n ≤ MaxFrameBytes) (deliverContent session payload carries) st :=
  (settles_deliverContent carries).congr (by rw [Fits, h])

/-- The users are looked up in a pool with the same sessions for users. -/
theorem settles_deliverToUsersOf {payload : Object} {n : Nat} {carries : Server → List StoredMessage} {pool : SessionPool}
    {users : List Int32} (hfind : st.pool.findByUserId = pool.findByUserId) (h : (serialize payload).length = n) :
    Settles (Heard pool users → n ≤ MaxFrameBytes) (deliverToUsers users payload carries) st :=
  (settles_deliverToUsers users).congr (by rw [Fits, h, Heard, hfind, Heard])

theorem settles_deliverToUserOf {payload : Object} {n : Nat} {carries : Server → List StoredMessage} {pool : SessionPool}
    {user : Int32} (hfind : st.pool.findByUserId = pool.findByUserId) (h : (serialize payload).length = n) :
    Settles (Heard pool [user] → n ≤ MaxFrameBytes) (deliverToUser user payload carries) st := by
  rw [← deliverToUsers_singleton]
  exact settles_deliverToUsersOf hfind h

theorem findByUserId_of_leaves {c : RouterM Unit} (h : Cmd.Leaves (fun st : Server => (st.roster, st.db)) c) (st : Server) :
    (c st).state.pool.findByUserId = st.pool.findByUserId :=
  funext (findByUserId_of_roster (congrArg Prod.fst (h st)))

theorem findByUserId_deliverContent {payload : Object} {carries : Server → List StoredMessage} {pool : SessionPool}
    (h : st.pool = pool) : (deliverContent session payload carries st).state.pool.findByUserId = pool.findByUserId :=
  h ▸ findByUserId_of_leaves (leaves_deliverContent session) st

/-- The first frame of a summary, and its chunks. -/
theorem settles_summarize (requestId : Bytes) (history : List StoredMessage) :
    Settles (SummaryFits requestId (summarizeMessages history)) (summarize session requestId history) st := by
  have hchunks : ∀ (indices : List Nat) (st' : Server),
      Settles (∀ chunkIndex ∈ indices, chunkBytes requestId (summarizeMessages history) chunkIndex ≤ MaxFrameBytes)
        (Cmd.each indices fun chunkIndex => deliverContent session
          (summaryChunk requestId (summarizeMessages history) chunkIndex) fun _ => quoted history) st' := by
    intro indices
    induction indices with
    | nil => exact fun _ => settles_pure.congr (by simp)
    | cons chunkIndex rest ih =>
      intro st'
      rw [List.forall_mem_cons]
      exact (settles_deliverOf (length_summaryChunk requestId _ chunkIndex)).bind (ih _)
  exact (settles_deliverOf (length_summaryStart requestId)).bind (hchunks _ _)

variable (hw : Writes env RowShape Stored fun _ => False)

include hw

theorem guarded_addressees (senderId toId groupId : Int32) :
    Guarded Stored (fun _ => False) (addressees env senderId toId groupId) :=
  Guarded.ite (hw.toReads.members groupId) (guarded_pure _)

theorem guarded_requestedHistory (userId : Int32) :
    Guarded Stored (fun _ => False) (requestedHistory env userId request) :=
  (Guarded.when (((hw.to .messages).markRead _ _).bind fun _ => guarded_pure _)).bind fun _ =>
    (hw.toReads.select _ _).ite ((hw.toReads.select _ _).ite (guarded_pure _))

variable (hst : st.db.Stored)

include hst

omit hst in
theorem settles_deliverToConversation {payload : Object} {n : Nat} {carries : Server → List StoredMessage}
    {pool : SessionPool} {db : Database} {senderId toId groupId : Int32} (hdb : st.db = db) (hstored : db.Stored)
    (hfind : st.pool.findByUserId = pool.findByUserId) (h : (serialize payload).length = n) :
    Settles (RelayFits env pool senderId toId groupId n db)
      (deliverToConversation env payload senderId toId groupId carries) st := by
  rw [deliverToConversation_eq]
  exact settles_onDb hdb (guarded_addressees hw senderId toId groupId) hstored fun users _ _ =>
    settles_deliverToUsersOf hfind h

omit hst in
theorem settles_broadcastPresence {pool : SessionPool} {db : Database} {type : MsgType} {online : Bool} {uid : Int32}
    (honline : decide (type = .UserOnline) = online) (hdb : st.db = db) (hstored : db.Stored)
    (hfind : st.pool.findByUserId = pool.findByUserId) :
    Settles (PresenceFits env online uid pool db) (broadcastPresence env type uid) st := by
  subst honline
  refine settles_onDb hdb (hw.toReads.findById uid) hstored fun user db hdb => ?_
  cases user with
  | none => exact settles_pure.congr (by simp)
  | some user =>
    refine Settles.congr (settles_onDb rfl (hw.toReads.getFriends uid) hdb fun friends db _ => ?_) (by simp; rfl)
    rw [← Cmd.each_map (·.id) friends fun id =>
      deliverToUser id (presencePayload (type = .UserOnline) user uid) fun _ => []]
    show Settles _ (deliverToUsers (friends.map (·.id)) (presencePayload (type = .UserOnline) user uid) fun _ => []) _
    exact settles_deliverToUsersOf hfind (length_presencePayload ..)

theorem settles_handleRegister : Settles True (handleRegister env session request) st := by
  refine (settles_unless Iff.rfl (fits_errorReply _ _ (by decide)) fun _ => settles_onDb rfl
    ((hw.to .users).create hw.toReads _ _ _) hst fun id db _ => settles_unless Iff.rfl
      (fits_errorReply _ _ (by decide)) fun _ => settles_answer (fits_registeredReply id)).congr ?_
  exact iff_true_intro fun _ => after_of_forall fun _ _ _ => trivial

theorem settles_handleCreateGroup :
    Settles (CreateGroupFits env st session request) (handleCreateGroup env session request) st := by
  refine settles_auth <| settles_unless (by rw [not_or, Int32.not_le]) (fits_errorReply _ _ (by decide)) fun _ => ?_
  exact settles_onDb rfl (WritesTo.createGroup hw.toReads (hw.to .groups) (hw.to .group_members) _ _) hst
    fun group _ _ => settles_deliverOf (length_createdReply group)

theorem settles_handleSearchGroup :
    Settles (SearchGroupFits env st request) (handleSearchGroup env session request) st :=
  settles_onDb rfl (hw.toReads.searchGroups _ _) hst fun groups _ _ => settles_deliverOf (length_groupsReply groups)

theorem settles_handleJoinGroup :
    Settles (JoinGroupFits env st session request) (handleJoinGroup env session request) st := by
  refine settles_auth <| settles_onDb rfl ((hw.to .group_members).join hw.toReads _ _) hst fun joined db hdb =>
    settles_unless (by simp) (fits_errorReply _ _ (by decide)) fun _ => ?_
  exact settles_onDb rfl (hw.toReads.members _) hdb fun memberIds db hdb =>
    settles_onDb rfl (guards_memberUsers hw.toReads memberIds) hdb fun members _ _ =>
      settles_asks <| settles_deliverOf (length_joinedReply ..)

theorem settles_handleLeaveGroup : Settles True (handleLeaveGroup env session request) st := by
  refine (settles_auth <| settles_onDb rfl ((hw.to .group_members).leave _ _) hst fun _ _ _ =>
    settles_answer (fits_okReply _ (by decide))).congr ?_
  exact iff_true_intro (after_of_forall fun _ _ => trivial)

theorem settles_handleFriendList : Settles (FriendListFits env st session) (handleFriendList env session) st :=
  settles_auth <| settles_onDb rfl (hw.toReads.getFriends _) hst fun friends _ _ =>
    settles_asks <| settles_deliverOf (length_friendListReply _ friends)

theorem settles_handleProfileUpdate : Settles True (handleProfileUpdate env session request) st := by
  refine (settles_auth <| settles_unless Iff.rfl (fits_errorReply _ _ (by decide)) fun _ => settles_onDb rfl
    ((hw.to .users).updateProfile hw.toReads _ _ _) hst fun found _ _ => settles_unless Iff.rfl
      (fits_errorReply _ _ (by decide)) fun _ => settles_answer (fits_okReply _ (by decide))).congr ?_
  exact iff_true_intro fun _ => after_of_forall fun _ _ _ => trivial

omit hw hst in
theorem settles_handleProtocolHello : Settles True (handleProtocolHello session request) st :=
  settles_answer (fits_helloReply _)

theorem settles_handleHistory : Settles (HistoryFits env st session request) (handleHistory env session request) st :=
  settles_auth <| settles_onDb rfl (guarded_requestedHistory hw _) hst fun history _ _ =>
    settles_deliverOf (length_historyReply history)

theorem settles_handlePrivateMessage :
    Settles (PrivateMessageFits env st session request) (handlePrivateMessage env session request) st := by
  refine settles_auth <| settles_unless (by simp only [not_or, Int32.not_le, ne_eq]) (fits_errorReply _ _ (by decide))
    fun _ => settles_asks ?_
  refine settles_onDb rfl ((hw.to .messages).savePrivate hw.toReads _ _ _ _ _) hst fun message db _ => ?_
  have hsent : ∀ (session : SessionId) (st' : Server), Settles (messageBytes .ReceiveMsg message ≤ MaxFrameBytes)
      (deliverContent session (messageToJson .ReceiveMsg message) fun _ => [message]) st' :=
    fun _ _ => settles_deliverOf (length_messageToJson .ReceiveMsg message)
  cases st.pool.findByUserId (intField request "toId" 0) with
  | none => exact settles_of_run rfl (hsent session _)
  | some target => exact Settles.congr ((hsent target _).bind (hsent session _)) (and_self_iff)

theorem settles_handleGroupMessage :
    Settles (GroupMessageFits env st session request) (handleGroupMessage env session request) st := by
  refine settles_auth <| settles_unless (by simp only [not_or, Int32.not_le, ne_eq]) (fits_errorReply _ _ (by decide))
    fun _ => ?_
  refine settles_onDb rfl ((hw.to .messages).saveGroup hw.toReads _ _ _ _) hst fun message db hdb => ?_
  exact settles_onDb rfl (hw.toReads.members _) hdb fun members _ _ =>
    settles_deliverToUsersOf rfl (length_messageToJson _ message)

theorem settles_handleFileTransfer (hsorted : OrdMap.Sorted request) (hne : request ≠ []) :
    Settles (FileFits env st session request) (handleFileTransfer env session request) st := by
  refine settles_auth <| settles_unless (by
    simp only [not_or, not_and_or, Int32.not_le, ne_eq]) (fits_errorReply _ _ (by decide)) fun _ => ?_
  exact (settles_deliverToConversation hw rfl hst rfl (length_incomingFile hsorted hne)).bind
    (settles_deliverOf (length_fileDoneReply _))

theorem settles_handleSummarize (requestId query : Bytes) :
    Settles (After (summaryHistory env (st.userId session) query) st.db fun history _ =>
      ∀ messages ∈ history, SummaryFits requestId (summarizeMessages messages))
      (handleSummarize env session requestId query) st := by
  refine settles_auth <| settles_onDb rfl (guarded_summaryHistory hw.toReads query) hst fun history db _ => ?_
  cases history with
  | none => exact (settles_answer (fits_errorReply _ _ (by decide))).congr (by simp)
  | some history => exact (settles_summarize requestId history).congr (by simp)

theorem settles_handleAIRequest :
    Settles (AIRequestFits env st session request) (handleAIRequest env session request) st := by
  have hsearch : ∀ requestId query : Bytes, Settles
      (After (MessageRepository.search env query (intField request "limit" 50)) st.db fun messages _ =>
        searchBytes requestId query messages ≤ MaxFrameBytes)
      (onDb (MessageRepository.search env query (intField request "limit" 50)) >>= fun messages =>
        deliverContent session (searchReply requestId query messages) fun _ => messages) st :=
    fun requestId query => settles_onDb rfl (hw.toReads.search _ _) hst fun messages _ _ =>
      settles_deliverOf (length_searchReply requestId query messages)
  refine (settles_ite (fun _ => settles_handleSummarize hw hst _ _) fun _ =>
    settles_unless not_not (fits_errorReply _ _ (by decide)) fun _ => hsearch _ _).congr ?_
  have hapart : stringField request "ai_type" [] = lit "search" → ¬stringField request "ai_type" [] = lit "summarize" := by
    intro h
    rw [h]
    decide
  unfold AIRequestFits
  exact and_congr_right fun _ => ⟨fun h hs => h (hapart hs) hs, fun h _ hs => h hs⟩

theorem settles_handleFriendRequest :
    Settles (FriendRequestFits env st session request) (handleFriendRequest env session request) st := by
  refine settles_auth ?_
  dsimp only
  rw [andAlso_onDb]
  refine settles_onDb rfl (Guarded.andAlso fun _ => guarded_sendRequest hw.toReads hw.friendships _ _ _) hst
    fun sent db _ => settles_unless (by simp) (fits_friendAck ..) fun _ => ?_
  exact settles_afterAnswer (fits_friendAck ..)
    (settles_deliverToUserOf (findByUserId_deliverContent rfl) (length_friendNotice ..))

theorem settles_handleFriendAccept :
    Settles (FriendAcceptFits env st session request) (handleFriendAccept env session request) st := by
  refine settles_auth ?_
  dsimp only
  rw [andAlso_onDb]
  refine settles_onDb rfl (Guarded.andAlso fun _ => guarded_setStatus hw.toReads hw.friendships _ _ _) hst
    fun ok db hdb => settles_onDb rfl (hw.toReads.findById _) hdb fun fromUser db hdb =>
      settles_onDb rfl (hw.toReads.findById _) hdb fun toUser db _ => ?_
  exact (settles_deliverOf (length_acceptReply ok _ fromUser)).bind
    (settles_deliverToUserOf (findByUserId_deliverContent rfl) (length_acceptReply ok _ toUser))

theorem settles_handleFriendRemove : Settles True (handleFriendRemove env session request) st := by
  refine (settles_auth <| settles_onDb rfl (guarded_rejectOrRemove hw.toReads hw.friendships _ _ _) hst
    fun answer db _ => settles_afterAnswer (fits_removeReply ..) (settles_deliverToUserOf
      (findByUserId_deliverContent rfl) rfl)).congr ?_
  exact iff_true_intro (after_of_forall fun answer _ _ => fits_removeReply ..)

theorem settles_handleSystemBroadcast :
    Settles (TypingFits env st session request) (handleSystemBroadcast env session request) st := by
  unfold TypingFits handleSystemBroadcast
  dsimp only
  refine settles_unless (by simp) (fits_okReply _ (by decide)) fun _ => settles_auth <|
    settles_unless Int32.not_le (fits_errorReply _ _ (by decide)) fun _ => settles_ite
      (fun _ => settles_deliverToUserOf rfl rfl) fun _ => ?_
  exact Settles.congr (settles_ite (fun _ => settles_onDb rfl (hw.toReads.members _) hst fun members _ _ =>
    settles_deliverToUsersOf rfl rfl) fun _ => settles_pure) (and_iff_left fun _ => trivial)

omit hst in
/-- The announcement of a change, or the refusal. -/
theorem settles_answerChange {ok : Bool} {payload : Object} {fromId toId groupId : Int32} {n : Nat} {pool : SessionPool}
    {db : Database} {carries : Server → List StoredMessage} (hdb : st.db = db) (hstored : db.Stored)
    (hfind : st.pool.findByUserId = pool.findByUserId) (h : (serialize payload).length = n) :
    Settles ((ok = true → RelayFits env pool fromId toId groupId n db) ∧ (ok = false → n ≤ MaxFrameBytes))
      (answerChange env session ok payload fromId toId groupId carries) st := by
  cases ok with
  | true => exact (settles_deliverToConversation hw hdb hstored hfind h).congr (by simp)
  | false => exact (settles_deliverOf h).congr (by simp)

theorem settles_handleMessageEdit : Settles (EditFits env st session request) (handleMessageEdit env session request) st := by
  refine settles_auth ?_
  dsimp only
  rw [andAlso_onDb]
  refine settles_onDb rfl (Guarded.andAlso fun _ => (hw.to .messages).edit hw.toReads _ _ _) hst fun ok db hdb =>
    settles_onDb rfl hw.toReads.time hdb fun now db hdb => ?_
  cases ok with
  | true => exact (settles_answerChange hw rfl hdb rfl (length_editReply ..)).congr (by simp)
  | false => exact (settles_answerChange hw rfl hdb rfl rfl).congr (by simpa [Fits] using fits_editFailed ..)

theorem settles_handleMessageDelete : Settles True (handleMessageDelete env session request) st := by
  refine settles_auth ?_
  dsimp only
  rw [andAlso_onDb]
  refine Settles.congr (settles_onDb rfl (Guarded.andAlso fun _ => (hw.to .messages).softDelete hw.toReads _ _) hst
    fun ok db hdb => settles_onDb rfl hw.toReads.time hdb fun now db hdb => settles_answerChange hw rfl hdb rfl rfl) ?_
  refine iff_true_intro (after_of_forall fun ok _ => after_of_forall fun now db => ⟨fun _ => ?_, fun _ => ?_⟩)
  · exact after_of_forall fun _ _ _ => fits_deleteReply ..
  · exact fits_deleteReply ..

theorem settles_handleMessageReaction :
    Settles (ReactionFits env st session request) (handleMessageReaction env session request) st := by
  refine settles_auth ?_
  dsimp only
  rw [andAlso_onDb]
  refine settles_onDb rfl (Guarded.andAlso fun _ => (hw.to .messages).addReaction _ _ _) hst fun ok db hdb => ?_
  cases ok with
  | true => exact (settles_answerChange hw rfl hdb rfl (length_reactionReply ..)).congr (by simp)
  | false => exact (settles_answerChange hw rfl hdb rfl (length_reactionReply ..)).congr (by simp)

theorem settles_handleReadReceipt (hsorted : OrdMap.Sorted request) (hne : request ≠ []) :
    Settles (ReceiptFits env st session request) (handleReadReceipt env session request) st := by
  refine settles_auth ?_
  dsimp only
  rw [andAlso_onDb]
  refine settles_onDb rfl (Guarded.andAlso fun _ => (hw.to .messages).markRead _ _) hst fun marked db hdb =>
    settles_unless (by simp) (fits_errorReply _ _ (by decide)) fun _ => ?_
  exact settles_onDb rfl hw.toReads.time hdb fun now db hdb =>
    settles_deliverToConversation hw rfl hdb rfl (length_receiptPayload hsorted hne _ now)

theorem settles_handleLogout : Settles (LogoutFits env st session) (handleLogout env session) st := by
  refine settles_auth <| Settles.thenAnswer (settles_when fun _ => ?_) (fits_okReply _ (by decide))
  refine settles_of_run rfl <| settles_onDb rfl ((hw.to .users).setOnlineStatus hw.toReads _ _) hst fun _ db hdb =>
    settles_of_run rfl ?_
  exact settles_broadcastPresence hw rfl rfl hdb rfl

theorem settles_acceptLogin (uid : Int32) (user : UserInfo) :
    Settles (WelcomeFits env st session uid user st.db) (acceptLogin env session uid user) st := by
  refine settles_of_run rfl <| settles_of_run rfl <| settles_onDb rfl ((hw.to .users).setOnlineStatus hw.toReads _ _) hst
    fun _ db hdb => settles_asks <| settles_onDb rfl hw.toReads.getAllUsers hdb fun users db hdb =>
      settles_onDb rfl (hw.toReads.getFriends _) hdb fun friends db hdb =>
        settles_onDb rfl (hw.toReads.groupsForUser _) hdb fun groups db hdb =>
          (settles_deliverOf (length_loginReply _ user uid friends users groups)).bind ?_
  unfold deliverOffline
  rw [bind_assoc]
  refine settles_onDb (congrArg Prod.snd (leaves_deliverContent session _)) ((hw.to .messages).offlineForUser hw.toReads _ _)
    hdb fun offline db hdb => ?_
  have hleaves : Cmd.Leaves (fun st : Server => (st.roster, st.db)) (if offline = [] then pure () else
      deliverContent session (offlineReply offline) fun _ => offline) :=
    Cmd.leaves_ite (Cmd.leaves_pure ()) (leaves_deliverContent session)
  refine Settles.bind ?_ (settles_broadcastPresence hw rfl ?_ hdb ?_)
  · by_cases hnone : offline = []
    · rw [if_pos hnone, hnone]
      exact settles_pure.congr (iff_of_true trivial (by decide))
    · rw [if_neg hnone]
      exact settles_deliverOf (length_offlineReply offline)
  · exact congrArg Prod.snd (hleaves _)
  · exact (findByUserId_of_leaves hleaves _).trans (findByUserId_deliverContent rfl)

theorem settles_handleLogin : Settles (LoginFits env st session request) (handleLogin env session request) st := by
  unfold LoginFits handleLogin
  dsimp only
  refine settles_unless Int32.not_le (fits_errorReply _ _ (by decide)) fun _ => ?_
  refine settles_onDb rfl ((hw.to .users).verifyPassword hw.toReads _ _) hst fun verified db hdb =>
    settles_unless (by simp) (fits_errorReply _ _ (by decide)) fun _ =>
      settles_onDb rfl (hw.toReads.findById _) hdb fun user db hdb => ?_
  cases user with
  | none => exact (settles_answer (fits_errorReply _ _ (by decide))).congr (by simp)
  | some user => exact Settles.congr (settles_acceptLogin hw hdb _ user) (by simp; rfl)

theorem settles_dispatch (hsorted : OrdMap.Sorted request) : Settles (Roomy env st session request) (dispatch env session request) st := by
  unfold dispatch
  split
  case h_24 =>
    refine (settles_answer (fits_okReply _ (by decide))).congr (iff_of_true trivial ?_)
    unfold Roomy
    split <;> trivial
  all_goals rename_i htype
  all_goals
    have hne : request ≠ [] := by
      rintro rfl
      exact absurd htype (by decide)
    unfold Roomy
    rw [htype]
  · exact settles_handleRegister hw hst
  · exact settles_handleLogin hw hst
  · exact settles_handleLogout hw hst
  · exact settles_handlePrivateMessage hw hst
  · exact settles_handleGroupMessage hw hst
  · exact settles_handleFileTransfer hw hst hsorted hne
  · exact settles_handleCreateGroup hw hst
  · exact settles_handleSearchGroup hw hst
  · exact settles_handleJoinGroup hw hst
  · exact settles_handleLeaveGroup hw hst
  · exact settles_handleHistory hw hst
  · exact settles_handleAIRequest hw hst
  · exact settles_handleProfileUpdate hw hst
  · exact settles_handleFriendRequest hw hst
  · exact settles_handleFriendAccept hw hst
  · exact settles_handleFriendRemove hw hst
  · exact settles_handleFriendList hw hst
  · exact settles_handleSystemBroadcast hw hst
  · exact settles_handleMessageEdit hw hst
  · exact settles_handleMessageDelete hw hst
  · exact settles_handleMessageReaction hw hst
  · exact settles_handleReadReceipt hw hst hsorted hne
  · exact settles_handleProtocolHello

end Handlers

/-! ## Routing -/

/-- Routing the text returns, and whatever it hands to a session fits a frame. -/
def Survives (env : Env) (session : SessionId) (json : Bytes) (st : Server) : Prop :=
  (route env session json st).result = .ok () ∧
    ∀ d ∈ (route env session json st).out, (serialize d.payload).length ≤ MaxFrameBytes

theorem settles_route {env : Env} {db : Database} {st : Server} (henv : env.Serves) (hdb : db.Stored)
    (hreach : TcpServer.Reachable env db st) (session : SessionId) (json : Bytes) :
    Settles (¬Nested .element env.stack json ∧
        ∀ request, parseObject env.stack json = some request → Roomy env st session request)
      (route env session json) st := by
  have hw := writes_stored henv
  have hst := TcpServer.invariant_of_reachable hw hdb hreach
  obtain ⟨hnested, -, hroute⟩ | ⟨hflat, hparse, -, hroute⟩ | ⟨request, hflat, hparse, -, hroute⟩ :=
    route_cases env session json
  · rw [hroute]
    exact (settles_throw _).congr (by simp [hnested])
  · rw [hroute]
    have hfits : Fits (errorReply .SystemBroadcast 400 "invalid json") := fits_errorReply _ _ (by decide)
    exact (settles_answer hfits).congr (by simp [hflat, hparse])
  · rw [hroute]
    exact (settles_dispatch hw hst (sorted_parseObject hparse)).congr (by simp [hflat, hparse])

/-- In every state that the server reaches, routing a text returns exactly if it is
not nested too deeply and what the request would hand out is short enough. -/
theorem route_returns_iff {env : Env} {db : Database} {st : Server} (henv : env.Serves) (hdb : db.Stored)
    (hreach : TcpServer.Reachable env db st) (session : SessionId) (json : Bytes) :
    Survives env session json st ↔ ¬Nested .element env.stack json ∧
      ∀ request, parseObject env.stack json = some request → Roomy env st session request := by
  have hsettles := settles_route henv hdb hreach session json
  exact ⟨fun h => hsettles.needs h.1, hsettles.returns⟩

/-- A search whose answer repeats an id of this length. -/
def longSearch (n : Nat) : Object :=
  object [("type", ofInt32 MsgType.AIRequest.toInt), ("ai_type", text "search"), ("request_id", .str (List.replicate n 97))]

theorem quotedLength_replicate (n : Nat) : quotedLength (List.replicate n 97) = n + 2 := by
  have hcount : (List.replicate n (97 : UInt8)).countP isEscaped = 0 := by
    rw [List.countP_replicate]
    rfl
  rw [quotedLength, List.length_replicate, hcount]

theorem length_longSearch (n : Nat) : (serialize (longSearch n)).length = 46 + n := by
  have htype : digits MsgType.AIRequest.toInt.toInt64 = 2 := by decide
  have hsearch : quotedLength (lit "search") = 8 := by decide
  refine Eq.trans (length_serialize_object 33 ["type", "ai_type", "request_id"] rfl (by decide)) ?_
  simp only [valuesLength_cons, valuesLength_nil, length_serialize_ofInt32, length_serialize_str, length_serialize_text,
    htype, hsearch, quotedLength_replicate]
  omega

theorem parseObject_longSearch (n : Nat) :
    parseObject Env.ideal.stack (serialize (longSearch n)) = some (longSearch n) := by
  have hplain : (Value.obj (longSearch n)).Plain := by
    refine plain_object ?_
    simp only [List.mem_cons, List.not_mem_nil, or_false, forall_eq_or_imp, forall_eq]
    exact ⟨.int _, .str _, .str _⟩
  have hdepth : (Value.obj (longSearch n)).depth ≤ 2 := by
    refine depth_object ?_
    simp only [List.mem_cons, List.not_mem_nil, or_false, forall_eq_or_imp, forall_eq]
    exact ⟨Nat.le_refl 1, Nat.le_refl 1, Nat.le_refl 1⟩
  exact parseObject_eq_some.mpr (parse_serialize hplain (hdepth.trans (by decide)))

/-- Anybody may search for nothing; nothing is found. -/
theorem roomy_longSearch {env : Env} {st : Server} {session : SessionId} {n : Nat} (h : Roomy env st session (longSearch n)) :
    n + 84 ≤ MaxFrameBytes := by
  have htype : typeField (longSearch n) = some .AIRequest := typeField_of_find? (by simp [longSearch, find?_object])
  have hai : stringField (longSearch n) "ai_type" [] = lit "search" := by simp [stringField, longSearch, find?_object, text]
  have hquery : stringField (longSearch n) "msg" [] = [] := by simp [stringField, longSearch, find?_object]
  have hid : stringField (longSearch n) "request_id" (lit "search") = List.replicate n 97 := by
    simp [stringField, longSearch, find?_object]
  have hfound : quotedLength (foundText [] []) = 34 := by decide
  unfold Roomy at h
  rw [htype] at h
  have hsearch := h.2 hai
  unfold After at hsearch
  rw [hid, hquery] at hsearch
  have hbytes : searchBytes (List.replicate n 97) [] [] ≤ MaxFrameBytes := hsearch [] rfl
  rw [searchBytes, quotedLength_replicate, hfound] at hbytes
  omega

/-- One connection, without a login. -/
theorem run_accept : ∃ st, run (TcpServer.step .ideal) (.boot .ideal .empty) [.accept 0] = some st :=
  Option.isSome_iff_exists.mp (by decide +kernel)

theorem route_returns_iff_longSearch :
    ∃ st, run (TcpServer.step .ideal) (.boot .ideal .empty) [.accept 0] = some st ∧
      (Survives .ideal 1 (serialize (longSearch 8)) st ↔
        ¬Nested .element Env.ideal.stack (serialize (longSearch 8)) ∧
          ∀ request, parseObject Env.ideal.stack (serialize (longSearch 8)) = some request →
            Roomy .ideal st 1 request) := by
  obtain ⟨st, hst⟩ := run_accept
  exact ⟨st, hst, route_returns_iff TcpServer.serves_ideal (stored_startUp TcpServer.serves_ideal) ⟨_, hst⟩ 1 _⟩

/-- An id of 262090 characters fits the request, and does not fit the answer. -/
theorem long_search_escapes :
    ¬∀ env db st, Env.Serves env → db.Stored → TcpServer.Reachable env db st → ∀ session json,
      1 ≤ json.length → json.length ≤ MaxFrameBytes → Survives env session json st := by
  intro hall
  obtain ⟨st, hst⟩ := run_accept
  have hmax : MaxFrameBytes = 262144 := rfl
  obtain ⟨n, hn⟩ : ∃ n, n = 262090 := ⟨_, rfl⟩
  have hlength := length_longSearch n
  have hstored := stored_startUp TcpServer.serves_ideal
  have hsurvives := hall .ideal _ st TcpServer.serves_ideal hstored ⟨_, hst⟩ 1 (serialize (longSearch n)) (by omega) (by omega)
  have hroomy := roomy_longSearch <|
    ((settles_route TcpServer.serves_ideal hstored ⟨_, hst⟩ 1 _).needs hsurvives.1).2 _ (parseObject_longSearch n)
  omega

end MessageRouter

end LanChat
