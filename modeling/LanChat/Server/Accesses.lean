import LanChat.Server.TcpServer

/-!
# What the router leaves alone

The handlers of the router reach the server's state through a few accesses
(`Accesses`). What none of them changes, no request changes (`leaves_dispatch`).
-/

namespace LanChat

open Lib Json

namespace MessageRouter

/-- A command that is put together from the router's accesses to the state. -/
inductive Accesses (env : Env) : {α : Type} → RouterM α → Prop
  | pure {α : Type} (a : α) : Accesses env (pure a : RouterM α)
  | asks {α : Type} (f : Server → α) : Accesses env (Cmd.asks f : RouterM α)
  | onDb {α : Type} (c : DbM α) : Accesses env (onDb c)
  | presence (f : PresenceManager → PresenceManager) : Accesses env (modifyPresence f)
  | bindUser (session : SessionId) (uid : Int32) :
      Accesses env (modifyPool fun pool => (pool.bindUser session uid).2)
  | unbindUser (uid : Int32) : Accesses env (modifyPool fun pool => pool.unbindUser uid)
  | deliverContent (session : SessionId) (payload : Object) (carries : Server → List StoredMessage) :
      Accesses env (deliverContent session payload carries)
  | bind {α β : Type} {c : RouterM α} {f : α → RouterM β} :
      Accesses env c → (∀ a, Accesses env (f a)) → Accesses env (c >>= f)

namespace Accesses

variable {env : Env} {α β : Type} {session : SessionId} {request : Object}

theorem ite {b : Prop} [Decidable b] {c d : RouterM α} (hc : Accesses env c) (hd : Accesses env d) :
    Accesses env (if b then c else d) := by
  split
  · exact hc
  · exact hd

theorem when {b : Prop} [Decidable b] {c : RouterM Unit} (hc : Accesses env c) :
    Accesses env (Cmd.when b c) :=
  hc.ite (.pure ())

theorem andAlso {b : Prop} [Decidable b] (c : DbM Bool) : Accesses env (Cmd.andAlso b (MessageRouter.onDb c)) :=
  (Accesses.onDb c).ite (.pure false)

theorem each {xs : List β} {body : β → RouterM Unit} (h : ∀ x, Accesses env (body x)) :
    Accesses env (Cmd.each xs body) := by
  induction xs with
  | nil => exact .pure ()
  | cons x xs ih => exact (h x).bind fun _ => ih

theorem deliver (session : SessionId) (payload : Object) :
    Accesses env (MessageRouter.deliver session payload) :=
  .deliverContent session payload _

theorem deliverToUser (user : Int32) (payload : Object) (carries : Server → List StoredMessage) :
    Accesses env (MessageRouter.deliverToUser user payload carries) :=
  (Accesses.asks _).bind fun target => by
    cases target with
    | none => exact .pure ()
    | some target => exact .deliverContent target payload carries

theorem deliverToConversation (payload : Object) (senderId toId groupId : Int32)
    (carries : Server → List StoredMessage) :
    Accesses env (MessageRouter.deliverToConversation env payload senderId toId groupId carries) :=
  ((Accesses.onDb _).bind fun _ => each fun _ => deliverToUser _ _ _).ite
    ((deliverToUser _ _ _).bind fun _ => (deliverToUser _ _ _).when)

theorem broadcastPresence (type : MsgType) (userId : Int32) :
    Accesses env (MessageRouter.broadcastPresence env type userId) :=
  (Accesses.onDb _).bind fun user => by
    cases user with
    | none => exact .pure ()
    | some user => exact (Accesses.onDb _).bind fun _ => each fun _ => deliverToUser _ _ _

theorem acceptLogin (id : Int32) (user : UserInfo) :
    Accesses env (MessageRouter.acceptLogin env session id user) :=
  (Accesses.bindUser _ _).bind fun _ => (Accesses.presence _).bind fun _ => (Accesses.onDb _).bind fun _ =>
    (Accesses.asks _).bind fun _ => (Accesses.onDb _).bind fun _ => (Accesses.onDb _).bind fun _ =>
      (Accesses.onDb _).bind fun _ => (deliver _ _).bind fun _ =>
        (show Accesses env (deliverOffline env session id) from (Accesses.onDb _).bind fun _ =>
          (Accesses.pure ()).ite (.deliverContent _ _ _)).bind fun _ => broadcastPresence _ _

theorem answerChange (ok : Bool) (payload : Object) (fromId toId groupId : Int32)
    (carries : Server → List StoredMessage) :
    Accesses env (MessageRouter.answerChange env session ok payload fromId toId groupId carries) :=
  (deliverToConversation _ _ _ _ _).ite (deliver _ _)

theorem summarize (requestId : Bytes) (history : List StoredMessage) :
    Accesses env (MessageRouter.summarize session requestId history) :=
  (deliver _ _).bind fun _ => each fun _ => .deliverContent _ _ _

/-! ### Handlers -/

theorem handleRegister : Accesses env (MessageRouter.handleRegister env session request) :=
  (deliver _ _).ite <| (Accesses.onDb _).bind fun _ => (deliver _ _).ite (deliver _ _)

theorem handleLogin : Accesses env (MessageRouter.handleLogin env session request) :=
  (deliver _ _).ite <| (Accesses.onDb _).bind fun _ => (deliver _ _).ite <|
    (Accesses.onDb _).bind fun user => by
      cases user with
      | none => exact deliver _ _
      | some user => exact acceptLogin _ _

theorem handleLogout : Accesses env (MessageRouter.handleLogout env session) :=
  (Accesses.asks _).bind fun _ => (when <| (Accesses.presence _).bind fun _ => (Accesses.onDb _).bind fun _ =>
    (Accesses.unbindUser _).bind fun _ => broadcastPresence _ _).bind fun _ => deliver _ _

theorem handlePrivateMessage : Accesses env (MessageRouter.handlePrivateMessage env session request) :=
  (Accesses.asks _).bind fun _ => (deliver _ _).ite <| (Accesses.asks _).bind fun target =>
    (Accesses.onDb _).bind fun _ => by
      refine Accesses.bind ?_ fun _ => .deliverContent _ _ _
      cases target with
      | none => exact .pure ()
      | some target => exact .deliverContent _ _ _

theorem handleGroupMessage : Accesses env (MessageRouter.handleGroupMessage env session request) :=
  (Accesses.asks _).bind fun _ => (deliver _ _).ite <| (Accesses.onDb _).bind fun _ =>
    (Accesses.onDb _).bind fun _ => each fun _ => deliverToUser _ _ _

theorem handleFileTransfer : Accesses env (MessageRouter.handleFileTransfer env session request) :=
  (Accesses.asks _).bind fun _ => (deliver _ _).ite <|
    (deliverToConversation _ _ _ _ _).bind fun _ => deliver _ _

theorem handleCreateGroup : Accesses env (MessageRouter.handleCreateGroup env session request) :=
  (Accesses.asks _).bind fun _ => (deliver _ _).ite <| (Accesses.onDb _).bind fun _ => deliver _ _

theorem handleJoinGroup : Accesses env (MessageRouter.handleJoinGroup env session request) :=
  (Accesses.asks _).bind fun _ => (Accesses.onDb _).bind fun _ => (deliver _ _).ite <|
    (Accesses.onDb _).bind fun _ => (Accesses.onDb _).bind fun _ => (Accesses.asks _).bind fun _ => deliver _ _

theorem handleSummarize (requestId query : Bytes) :
    Accesses env (MessageRouter.handleSummarize env session requestId query) :=
  (Accesses.asks _).bind fun _ => (Accesses.onDb _).bind fun history => by
    cases history with
    | none => exact deliver _ _
    | some history => exact summarize _ _

theorem handleAIRequest : Accesses env (MessageRouter.handleAIRequest env session request) :=
  (handleSummarize _ _).ite <| (deliver _ _).ite <| (Accesses.onDb _).bind fun _ => .deliverContent _ _ _

theorem handleProfileUpdate : Accesses env (MessageRouter.handleProfileUpdate env session request) :=
  (Accesses.asks _).bind fun _ => (deliver _ _).ite <| (Accesses.onDb _).bind fun _ =>
    (deliver _ _).ite (deliver _ _)

theorem handleFriendRequest : Accesses env (MessageRouter.handleFriendRequest env session request) :=
  (Accesses.asks _).bind fun _ => (andAlso _).bind fun _ => (deliver _ _).ite <|
    (deliver _ _).bind fun _ => deliverToUser _ _ _

theorem handleFriendAccept : Accesses env (MessageRouter.handleFriendAccept env session request) :=
  (Accesses.asks _).bind fun _ => (andAlso _).bind fun _ => (Accesses.onDb _).bind fun _ =>
    (Accesses.onDb _).bind fun _ => (deliver _ _).bind fun _ => deliverToUser _ _ _

theorem handleFriendRemove : Accesses env (MessageRouter.handleFriendRemove env session request) :=
  (Accesses.asks _).bind fun _ => (Accesses.onDb _).bind fun _ => (deliver _ _).bind fun _ =>
    deliverToUser _ _ _

theorem handleSystemBroadcast : Accesses env (MessageRouter.handleSystemBroadcast env session request) :=
  (deliver _ _).ite <| (Accesses.asks _).bind fun _ => (deliver _ _).ite <| (deliverToUser _ _ _).ite <|
    ((Accesses.onDb _).bind fun _ => each fun _ => deliverToUser _ _ _).ite (.pure ())

theorem handleChange {b : Int32 → Prop} [∀ uid, Decidable (b uid)] (c : Int32 → DbM Bool)
    {answer : Int32 → Bool → RouterM Unit} (h : ∀ uid ok, Accesses env (answer uid ok)) :
    Accesses env (authenticatedUserId session >>= fun uid =>
      Cmd.andAlso (b uid) (MessageRouter.onDb (c uid)) >>= answer uid) :=
  (Accesses.asks _).bind fun _ => (andAlso _).bind fun _ => h _ _

theorem dispatch : Accesses env (MessageRouter.dispatch env session request) := by
  unfold MessageRouter.dispatch
  split
  · exact handleRegister
  · exact handleLogin
  · exact handleLogout
  · exact handlePrivateMessage
  · exact handleGroupMessage
  · exact handleFileTransfer
  · exact handleCreateGroup
  · exact (Accesses.onDb _).bind fun _ => deliver _ _
  · exact handleJoinGroup
  · exact (Accesses.asks _).bind fun _ => (Accesses.onDb _).bind fun _ => deliver _ _
  · exact (Accesses.asks _).bind fun _ => (Accesses.onDb _).bind fun _ => .deliverContent _ _ _
  · exact handleAIRequest
  · exact handleProfileUpdate
  · exact handleFriendRequest
  · exact handleFriendAccept
  · exact handleFriendRemove
  · exact (Accesses.asks _).bind fun _ => (Accesses.onDb _).bind fun _ => (Accesses.asks _).bind fun _ =>
      deliver _ _
  · exact handleSystemBroadcast
  · exact handleChange _ fun _ _ => (Accesses.onDb _).bind fun _ => answerChange _ _ _ _ _ _
  · exact handleChange _ fun _ _ => (Accesses.onDb _).bind fun _ => answerChange _ _ _ _ _ _
  · exact handleChange _ fun _ _ => answerChange _ _ _ _ _ _
  · exact handleChange _ fun _ _ => (deliver _ _).ite <| (Accesses.onDb _).bind fun _ =>
      deliverToConversation _ _ _ _ _
  · exact deliver _ _
  · exact deliver _ _

/-! ### Views -/

variable {f : Server → β}

/-- A view of the server that no access of the router changes. -/
structure Untouched (f : Server → β) : Prop where
  db : ∀ st db, f { st with db := db } = f st
  presence : ∀ st presence, f { st with presence := presence } = f st
  bindUser : ∀ st session uid, f { st with pool := (st.pool.bindUser session uid).2 } = f st
  unbindUser : ∀ st uid, f { st with pool := st.pool.unbindUser uid } = f st
  deliver : ∀ st session json s, (st.pool.object session).deliver json = .ok s →
    f { st with pool := st.pool.setObject session s } = f st

theorem leaves (hf : Untouched f) {c : RouterM α} (h : Accesses env c) : Cmd.Leaves f c := by
  induction h with
  | pure a => exact Cmd.leaves_pure a
  | asks g => exact Cmd.leaves_asks g
  | onDb c => exact fun st => hf.db st _
  | presence g => exact fun st => hf.presence st _
  | bindUser session uid => exact fun st => hf.bindUser st session uid
  | unbindUser uid => exact fun st => hf.unbindUser st uid
  | deliverContent session payload carries =>
    intro st
    unfold MessageRouter.deliverContent
    split
    · next s hs => exact hf.deliver st session _ s hs
    · rfl
  | bind _ _ ihc ihf => exact Cmd.leaves_bind ihc ihf

end Accesses

theorem leaves_dispatch {env : Env} {β : Type} {f : Server → β} (hf : Accesses.Untouched f)
    (session : SessionId) (request : Object) : Cmd.Leaves f (dispatch env session request) :=
  Accesses.dispatch.leaves hf

end MessageRouter

namespace TcpServer

open MessageRouter

variable {env : Env} {β : Type} {f : Server → β}

theorem leaves_markOfflineAndBroadcast (hf : Accesses.Untouched f) (userId : Int32) :
    Cmd.Leaves f (markOfflineAndBroadcast env userId) := by
  refine Accesses.leaves hf (?_ : Accesses env _)
  refine (Accesses.presence _).bind fun _ => (Accesses.onDb _).bind fun _ =>
    (Accesses.onDb _).bind fun user => ?_
  cases user with
  | none => exact .pure ()
  | some user => exact (Accesses.asks _).bind fun _ => Accesses.each fun _ => Accesses.deliver _ _

theorem leaves_removeSession (hf : Accesses.Untouched f)
    (hremove : ∀ st session, f { st with pool := st.pool.remove session } = f st) (session : SessionId) :
    Cmd.Leaves f (removeSession env session) :=
  Cmd.leaves_bind (Cmd.leaves_asks _) fun _ => Cmd.leaves_bind (fun st => hremove st session) fun _ =>
    Cmd.leaves_ite (leaves_markOfflineAndBroadcast hf _) (Cmd.leaves_pure ())

end TcpServer

end LanChat
