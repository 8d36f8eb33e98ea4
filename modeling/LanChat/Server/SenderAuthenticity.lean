import LanChat.Server.LoginState

/-!
# Whose name a delivery carries

A payload for another session names the requester as its sender, except where
a handler passes on a copy of the request: the copy keeps the sender that the
client wrote. `sender_authentic_iff` says for which requests that matters.
-/

namespace LanChat

open Lib Json

namespace MessageRouter

/-- Every payload that routing the text hands to another session names no
sender or the requester, who is logged in. -/
def SenderAuthentic (env : Env) (st : Server) (session : SessionId) (json : Bytes) : Prop :=
  ∀ d ∈ (route env session json st).out, d.target ≠ session →
    ∀ v, sender d.payload = some v → v = ofInt32 (st.userId session) ∧ 0 < st.userId session

/-- The requester does not lend another name: a request whose copy is handed to
another session names no sender or the requester. -/
def NamesItself (env : Env) (st : Server) (session : SessionId) (request : Object) : Prop :=
  ∀ users copy, (relayed env (st.userId session) request st.db).result = .ok (users, copy) →
    (∃ target ∈ handed st.pool users copy, target ≠ session) →
      ∀ v, sender request = some v → v = ofInt32 (st.userId session)

/-! ## The copy of a request -/

section Relayed

variable {env : Env} {uid : Int32} {request copy : Object} {users : List Int32} {db : Database}

theorem sender_put {payload : Object} {key : String} (h : key ≠ "fromId") (v : Value) :
    sender (payload.put (lit key) v) = sender payload := by
  have hne : lit "fromId" ≠ lit key := fun heq => h (lit_inj.mp heq).symm
  simp [sender, hne]

theorem sender_incomingFile (request : Object) : sender (incomingFile request) = sender request :=
  sender_put (by decide) _

theorem sender_receiptPayload (request : Object) (uid : Int32) (now : Int64) :
    sender (receiptPayload request uid now) = sender request := by
  rw [receiptPayload, sender_put (by decide), sender_put (by decide), sender_put (by decide)]

/-- What holds of a copy and the users it is for: the copy keeps the sender of
the request, and only a logged-in user's request is copied for somebody. -/
def CopyOf (uid : Int32) (request : Object) (r : List Int32 × Object) : Prop :=
  sender r.2 = sender request ∧ (r.1 ≠ [] → 0 < uid)

theorem copyOf_nobody (uid : Int32) (request : Object) : CopyOf uid request ([], request) :=
  ⟨rfl, fun h => absurd rfl h⟩

theorem copyOf_relayedFile {r : List Int32 × Object}
    (h : (relayedFile env uid request db).result = .ok r) : CopyOf uid request r := by
  simp only [relayedFile] at h
  by_cases hvalid : uid ≤ 0 ∨ stringField request "file_name" [] = [] ∨
      stringField request "file_hash" [] = [] ∨
      (intField request "toId" 0 ≤ 0 ∧ intField request "groupId" 0 ≤ 0)
  · rw [if_pos hvalid] at h
    cases h
    exact copyOf_nobody uid request
  · rw [if_neg hvalid] at h
    obtain ⟨users, -, hpair⟩ := Cmd.result_bind_eq_ok.mp h
    cases hpair
    exact ⟨sender_incomingFile request, fun _ => Int32.not_le.mp fun h => hvalid (.inl h)⟩

theorem copyOf_relayedReceipt {r : List Int32 × Object}
    (h : (relayedReceipt env uid request db).result = .ok r) : CopyOf uid request r := by
  simp only [relayedReceipt] at h
  obtain ⟨marked, hmarked, h⟩ := Cmd.result_bind_eq_ok.mp h
  cases marked with
  | false =>
    cases h
    exact copyOf_nobody uid request
  | true =>
    obtain ⟨now, -, h⟩ := Cmd.result_bind_eq_ok.mp h
    obtain ⟨users, -, hpair⟩ := Cmd.result_bind_eq_ok.mp h
    cases hpair
    refine ⟨sender_receiptPayload request uid now, fun _ => ?_⟩
    by_contra hpos
    simp [Cmd.andAlso, hpos] at hmarked

theorem copyOf_relayedTyping {r : List Int32 × Object}
    (h : (relayedTyping env uid request db).result = .ok r) : CopyOf uid request r := by
  simp only [relayedTyping] at h
  by_cases hvalid : stringField request "event" [] ≠ lit "typing" ∨ uid ≤ 0
  · rw [if_pos hvalid] at h
    cases h
    exact copyOf_nobody uid request
  rw [if_neg hvalid] at h
  have hpos : 0 < uid := Int32.not_le.mp fun h => hvalid (.inr h)
  by_cases hto : 0 < intField request "toId" 0
  · rw [if_pos hto] at h
    cases h
    exact ⟨rfl, fun _ => hpos⟩
  rw [if_neg hto] at h
  by_cases hgroup : 0 < intField request "groupId" 0
  · rw [if_pos hgroup] at h
    obtain ⟨members, -, hpair⟩ := Cmd.result_bind_eq_ok.mp h
    cases hpair
    exact ⟨rfl, fun _ => hpos⟩
  · rw [if_neg hgroup] at h
    cases h
    exact copyOf_nobody uid request

theorem relayed_of_other (hfile : typeField request ≠ some .SendFile)
    (hreceipt : typeField request ≠ some .ReadReceipt)
    (htyping : typeField request ≠ some .SystemBroadcast) :
    relayed env uid request = pure ([], request) := by
  unfold relayed
  split
  · next h => exact absurd h hfile
  · next h => exact absurd h hreceipt
  · next h => exact absurd h htyping
  · rfl

theorem copyOf_relayed {r : List Int32 × Object}
    (h : (relayed env uid request db).result = .ok r) : CopyOf uid request r := by
  by_cases hfile : typeField request = some .SendFile
  · simp only [relayed, hfile] at h
    exact copyOf_relayedFile h
  by_cases hreceipt : typeField request = some .ReadReceipt
  · simp only [relayed, hreceipt] at h
    exact copyOf_relayedReceipt h
  by_cases htyping : typeField request = some .SystemBroadcast
  · simp only [relayed, htyping] at h
    exact copyOf_relayedTyping h
  rw [relayed_of_other hfile hreceipt htyping] at h
  cases h
  exact copyOf_nobody uid request

/-! ## The copies are handed out -/

/-- Delivering to users after repository calls. -/
theorem mem_out_deliverToConversation {payload : Object} {senderId toId groupId : Int32}
    {users : List Int32} {target : SessionId} (carries : Server → List StoredMessage) (st : Server)
    (husers : (addressees env senderId toId groupId st.db).result = .ok users)
    (htarget : target ∈ handed st.pool users payload) :
    ∃ at_, at_.roster = st.roster ∧
      at_.db = (addressees env senderId toId groupId st.db).state ∧
      ⟨target, payload, carries at_, at_⟩ ∈
        (deliverToConversation env payload senderId toId groupId carries st).out := by
  obtain ⟨at_, hroster, hdb, hmem⟩ := mem_out_deliverToUsers carries
    { st with db := (addressees env senderId toId groupId st.db).state } htarget
  refine ⟨at_, hroster, hdb, ?_⟩
  rw [deliverToConversation_eq]
  exact Cmd.mem_out_right (a := users) husers hmem

section Copies

variable {st : Server} {session target : SessionId}

theorem ne_nil_of_mem_handed {pool : SessionPool} (h : target ∈ handed pool users copy) :
    users ≠ [] := by
  rintro rfl
  simp [handed] at h

theorem mem_out_handleFileTransfer
    (hrel : (relayedFile env (st.userId session) request st.db).result = .ok (users, copy))
    (htarget : target ∈ handed st.pool users copy) :
    ∃ at_, ⟨target, copy, [], at_⟩ ∈ (handleFileTransfer env session request st).out := by
  simp only [relayedFile] at hrel
  by_cases hvalid : st.userId session ≤ 0 ∨ stringField request "file_name" [] = [] ∨
      stringField request "file_hash" [] = [] ∨
      (intField request "toId" 0 ≤ 0 ∧ intField request "groupId" 0 ≤ 0)
  · rw [if_pos hvalid] at hrel
    cases hrel
    exact absurd rfl (ne_nil_of_mem_handed htarget)
  rw [if_neg hvalid] at hrel
  obtain ⟨users', husers, hpair⟩ := Cmd.result_bind_eq_ok.mp hrel
  cases hpair
  obtain ⟨at_, -, -, hmem⟩ := mem_out_deliverToConversation (fun _ => []) st husers htarget
  refine ⟨at_, Cmd.mem_out_right (a := st.userId session) (by rw [run_authenticatedUserId]) ?_⟩
  rw [run_authenticatedUserId]
  dsimp only
  rw [if_neg hvalid]
  exact Cmd.mem_out_left hmem

theorem mem_out_handleReadReceipt
    (hrel : (relayedReceipt env (st.userId session) request st.db).result = .ok (users, copy))
    (htarget : target ∈ handed st.pool users copy) :
    ∃ at_, ⟨target, copy, [], at_⟩ ∈ (handleReadReceipt env session request st).out := by
  simp only [relayedReceipt] at hrel
  obtain ⟨marked, hmarked, hrel⟩ := Cmd.result_bind_eq_ok.mp hrel
  cases marked with
  | false =>
    cases hrel
    exact absurd rfl (ne_nil_of_mem_handed htarget)
  | true =>
    obtain ⟨now, hnow, hrel⟩ := Cmd.result_bind_eq_ok.mp hrel
    obtain ⟨users', husers, hpair⟩ := Cmd.result_bind_eq_ok.mp hrel
    cases hpair
    obtain ⟨at_, -, -, hmem⟩ := mem_out_deliverToConversation (fun _ => []) { st with db := _ }
      husers htarget
    refine ⟨at_, Cmd.mem_out_right (a := st.userId session) (by rw [run_authenticatedUserId]) ?_⟩
    rw [run_authenticatedUserId]
    dsimp only
    rw [andAlso_onDb]
    exact Cmd.mem_out_right (a := true) hmarked (Cmd.mem_out_right (a := now) hnow hmem)

theorem mem_out_handleSystemBroadcast
    (hrel : (relayedTyping env (st.userId session) request st.db).result = .ok (users, copy))
    (htarget : target ∈ handed st.pool users copy) :
    ∃ at_, ⟨target, copy, [], at_⟩ ∈ (handleSystemBroadcast env session request st).out := by
  simp only [relayedTyping] at hrel
  simp only [handleSystemBroadcast]
  by_cases hvalid : stringField request "event" [] ≠ lit "typing" ∨ st.userId session ≤ 0
  · rw [if_pos hvalid] at hrel
    cases hrel
    exact absurd rfl (ne_nil_of_mem_handed htarget)
  rw [if_neg hvalid] at hrel
  obtain ⟨hevent, hpos⟩ := not_or.mp hvalid
  have hauth : (authenticatedUserId session st).result = .ok (st.userId session) := by
    rw [run_authenticatedUserId]
  rw [if_neg hevent]
  by_cases hto : 0 < intField request "toId" 0
  · rw [if_pos hto] at hrel
    cases hrel
    obtain ⟨at_, -, -, hmem⟩ := mem_out_deliverToUsers (fun _ => []) st htarget
    refine ⟨at_, Cmd.mem_out_right hauth ?_⟩
    rw [run_authenticatedUserId, if_neg hpos, if_pos hto, ← deliverToUsers_singleton]
    exact hmem
  rw [if_neg hto] at hrel
  by_cases hgroup : 0 < intField request "groupId" 0
  · rw [if_pos hgroup] at hrel
    obtain ⟨members, hmembers, hpair⟩ := Cmd.result_bind_eq_ok.mp hrel
    cases hpair
    obtain ⟨at_, -, -, hmem⟩ := mem_out_deliverToUsers (fun _ => []) { st with db :=
      (ChannelRepository.members env (intField request "groupId" 0) st.db).state } htarget
    refine ⟨at_, Cmd.mem_out_right hauth ?_⟩
    rw [run_authenticatedUserId, if_neg hpos, if_neg hto, if_pos hgroup]
    exact Cmd.mem_out_right (a := members) hmembers hmem
  · rw [if_neg hgroup] at hrel
    cases hrel
    exact absurd rfl (ne_nil_of_mem_handed htarget)

/-- Every session to which the copy is addressed is handed the copy. -/
theorem mem_out_relayed
    (hrel : (relayed env (st.userId session) request st.db).result = .ok (users, copy))
    (htarget : target ∈ handed st.pool users copy) :
    ∃ at_, ⟨target, copy, [], at_⟩ ∈ (dispatch env session request st).out := by
  by_cases hfile : typeField request = some .SendFile
  · simp only [relayed, hfile] at hrel
    simp only [dispatch, hfile]
    exact mem_out_handleFileTransfer hrel htarget
  by_cases hreceipt : typeField request = some .ReadReceipt
  · simp only [relayed, hreceipt] at hrel
    simp only [dispatch, hreceipt]
    exact mem_out_handleReadReceipt hrel htarget
  by_cases htyping : typeField request = some .SystemBroadcast
  · simp only [relayed, htyping] at hrel
    simp only [dispatch, htyping]
    exact mem_out_handleSystemBroadcast hrel htarget
  rw [relayed_of_other hfile hreceipt htyping] at hrel
  cases hrel
  exact absurd rfl (ne_nil_of_mem_handed htarget)

end Copies

end Relayed

/-! ## Senders are authentic -/

/-- The payloads for other sessions name the requester exactly when the request
does, or its copy reaches nobody else. -/
theorem sender_authentic_iff (env : Env) (st : Server) (session : SessionId) (json : Bytes) :
    SenderAuthentic env st session json ↔
      ∀ request, parseObject env.stack json = some request → NamesItself env st session request := by
  constructor
  · intro h request hparse users copy hrel ⟨target, htarget, hne⟩ v hv
    obtain ⟨at_, hmem⟩ := mem_out_relayed hrel htarget
    rw [← route_of_some env hparse] at hmem
    exact (h _ hmem hne v ((copyOf_relayed hrel).1.trans hv)).1
  · intro h d hd hne v hv
    rcases hands_of_mem_route hd with ⟨htarget, -⟩ | ⟨request, hparse, hands⟩
    · exact absurd htarget hne
    cases hands with
    | answer payload at_ => exact absurd rfl hne
    | selected payload messages at_ => exact absurd rfl hne
    | offline user reply messages at_ => exact absurd rfl hne
    | notice target payload at_ hsender => exact absurd (hsender.symm.trans hv) nofun
    | signed target payload at_ hpos hsender =>
      exact ⟨(Option.some.inj (hsender.symm.trans hv)).symm, hpos⟩
    | savedPrivate target message at_ hpos hfrom =>
      rw [sender_messageToJson, hfrom] at hv
      exact ⟨(Option.some.inj hv).symm, hpos⟩
    | savedGroup target message memberId at_ hpos hfrom =>
      rw [sender_messageToJson, hfrom] at hv
      exact ⟨(Option.some.inj hv).symm, hpos⟩
    | edited target users payload at_ _ hpos _ _ _ _ hsender =>
      exact ⟨(Option.some.inj (hsender.symm.trans hv)).symm, hpos⟩
    | relayed target users copy at_ hrel htarget =>
      obtain ⟨hcopy, hpos⟩ := copyOf_relayed hrel
      refine ⟨?_, hpos (ne_nil_of_mem_handed htarget)⟩
      exact h request hparse users copy hrel ⟨target, htarget, hne⟩ v (hcopy.symm.trans hv)

/-- Users 1000 and 1001 register and log in, on sessions 1 and 2; session 3 does
not log in. -/
def twoUsers : List TcpServer.Event :=
  [.accept 0, .accept 0, .accept 0,
    TcpServer.request 1 .RegisterUser [("nickname", text "a"), ("password", text "p")],
    TcpServer.request 2 .RegisterUser [("nickname", text "b"), ("password", text "p")],
    TcpServer.request 1 .Login [("id", .int 1000), ("password", text "p")],
    TcpServer.request 2 .Login [("id", .int 1001), ("password", text "p")]]

/-- User 1000 types to user 1001 in the name of user 7. -/
theorem sender_forged_by_typing :
    ¬∀ env db events st, run (TcpServer.step env) (.start db) events = some st →
      ∀ session json, SenderAuthentic env st session json := by
  intro hall
  have hrun : ((run (TcpServer.step .ideal) (.boot .ideal .empty) twoUsers).map fun st =>
      (st.userId 1, (route .ideal 1 (requestText .SystemBroadcast
        [("event", text "typing"), ("fromId", .int 7), ("toId", .int 1001)]) st).out.map fun d => (d.target, (sender d.payload).map Value.asInt))) =
      some (1000, [(2, some 7)]) := by
    decide +kernel
  obtain ⟨st, hst, heq⟩ := Option.map_eq_some_iff.mp hrun
  simp only [Prod.mk.injEq] at heq
  obtain ⟨huser, hout⟩ := heq
  obtain ⟨d, hd, hpair⟩ := List.mem_map.mp (hout ▸ List.mem_cons_self)
  simp only [Prod.mk.injEq, Option.map_eq_some_iff] at hpair
  obtain ⟨htarget, v, hv, hseven⟩ := hpair
  obtain ⟨hauthentic, -⟩ := hall _ _ _ st hst 1 _ d hd (by rw [htarget]; decide) v hv
  rw [hauthentic, huser] at hseven
  exact absurd hseven (by decide)

end MessageRouter

end LanChat
