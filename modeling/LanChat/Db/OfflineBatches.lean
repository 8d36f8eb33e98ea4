import LanChat.Db.Histories

/-!
# Batches of offline messages

`offlineForUser` hands out at most `limit` messages. `trimToLimit` keeps the
newest ones, so that of more messages than the limit the last come first: over
several calls they are in the order in which they were saved only if one call is
enough for all of them (`batches_in_order_iff`).
-/

namespace LanChat

open Lib Json

namespace MessageRepository

open Database

/-- The ids that `offlineForUser` has returned for the user, in order. -/
def Ledger.handedTo (userId : Int32) (log : List (Call × List StoredMessage)) : List Int64 :=
  log.flatMap fun entry =>
    match entry.1 with
    | .offlineForUser user _ => if user = userId then entry.2.map (·.msg_id) else []
    | _ => []

/-- The messages that are still to be delivered to the user. -/
def waiting (userId : Int32) (rows : RowList) : List StoredMessage :=
  (rows.filter (isOffline userId)).map fromRow

/-- Each message has been saved after the one before, at a later second. -/
def Spaced (messages : List StoredMessage) : Prop :=
  messages.Pairwise fun a b => a.timestamp < b.timestamp

/-- The call collects for this user with this limit, if it collects for the user. -/
def Call.Uses (userId limit : Int32) : Call → Prop
  | .offlineForUser user limit' => user = userId → limit' = limit
  | _ => True

section Batches

variable {env : Env} {rows rows' : RowList} {now : Int64} {call : Call} {messages : List StoredMessage}
  {userId limit : Int32}

/-- The ids stay distinct, as long as a vector can hold the rows. -/
theorem Turn.numbered (h : Turn env now rows call messages rows') :
    rows.length ≤ rows'.length ∧ (rows'.length < 2 ^ 63 → Numbered rows → Numbered rows') := by
  cases h with
  | @save _ m _ hid _ hto =>
    refine ⟨by simp, fun hfits hrows => ?_⟩
    rw [List.length_append, List.length_singleton] at hfits
    have haddressee : ∀ u, (m.to_id = u ∧ m.group_id = 0 ∧ m.delivered = false) ↔
        (if m.group_id = 0 ∧ m.delivered = false then some m.to_id else none) = some u := by
      intro u
      split
      · next h => simp [h]
      · next h => simp [h]
    exact (hrows.post hfits hid haddressee).1
  | change _ _ hsame =>
    exact ⟨by simp, fun _ hrows => numbered_map hrows fun row => congrArg Prod.fst (hsame row)⟩
  | collect =>
    exact ⟨by simp, fun _ hrows => numbered_map hrows fun row => by rw [fromRow_delivered]⟩

/-- What waits for a user is changed only by a message for this user and by
collecting for this user. -/
theorem waiting_append {m : StoredMessage} (h : isOffline userId (toRow m) = false) :
    waiting userId (rows ++ [toRow m]) = waiting userId rows := by
  simp [waiting, h]

theorem waiting_map {f : Row → Row} (hsame : ∀ row, identity (fromRow (f row)) = identity (fromRow row))
    (hdelivered : ∀ row, (fromRow (f row)).delivered = (fromRow row).delivered) :
    (waiting userId (rows.map f)).map identity = (waiting userId rows).map identity := by
  have hoffline : ∀ row, isOffline userId (f row) = isOffline userId row := fun row =>
    isOffline_of_address (by
      obtain ⟨hid, -, hto, hgroup, -⟩ : _ ∧ _ ∧ _ ∧ _ ∧ _ := by
        simpa only [identity, Prod.mk.injEq] using hsame row
      rw [address, hid, hto, hgroup, hdelivered]
      rfl) userId
  simp only [waiting, List.filter_map, List.map_map, Function.comp_def, hoffline, hsame]

/-- Marking messages takes them away from those that wait. -/
theorem waiting_marked (messages : List StoredMessage) :
    (waiting userId (rows.map (delivered messages))).map identity =
      ((waiting userId rows).map identity).filter fun i => i.1 ∉ messages.map (·.msg_id) := by
  have hid : ∀ row, identity (fromRow (delivered messages row)) = identity (fromRow row) :=
    fun row => by rw [fromRow_delivered]; rfl
  simp only [waiting, List.filter_map, List.map_map, List.filter_filter, Function.comp_def, hid,
    isOffline_delivered]
  rfl

/-- The messages that are handed out are the last ones that wait. -/
theorem trimToLimit_spaced (hlimit : 1 ≤ limit) {xs : List StoredMessage} (h : Spaced xs) :
    trimToLimit env xs limit = xs.rtake limit.toInt.toNat := by
  rw [trimToLimit_eq _ hlimit]
  have hstrict : xs.Pairwise fun a b => a.timestamp.toInt < b.timestamp.toInt :=
    h.imp Int64.lt_iff_toInt_lt.mp
  exact rtake_eq_of_strict (hstrict.imp Int.le_of_lt)
    ((env.sort_sorted xs).imp Int64.le_iff_toInt_le.mp) (env.sort_perm xs)
    (hstrict.sublist (List.drop_sublist _ _))

theorem Numbered.nodup_waiting (h : Numbered rows) : ((waiting userId rows).map (·.msg_id)).Nodup := by
  rw [waiting, List.map_map]
  exact h.nodup.sublist (List.filter_sublist.map _)

/-- A call for this user takes the end of what waits. -/
theorem waiting_collect (hrows : Numbered rows) (hlimit : 1 ≤ limit) (hspaced : Spaced (waiting userId rows))
    (hmessages : messages = trimToLimit env ((rows.filter (isOffline userId)).map fromRow) limit) :
    messages = (waiting userId rows).rtake limit.toInt.toNat ∧
      (waiting userId (rows.map (delivered messages))).map identity =
        ((waiting userId rows).rdrop limit.toInt.toNat).map identity := by
  have hend : messages = (waiting userId rows).rtake limit.toInt.toNat :=
    hmessages.trans (trimToLimit_spaced hlimit hspaced)
  refine ⟨hend, ?_⟩
  rw [waiting_marked, List.filter_map]
  congr 1
  have hnodup : (waiting userId rows).Nodup := .of_map _ hrows.nodup_waiting
  rw [← filter_not_mem_rtake hnodup, ← hend]
  refine List.filter_congr fun m hm => ?_
  have hmem : m.msg_id ∈ messages.map (·.msg_id) ↔ m ∈ messages := by
    refine ⟨fun h => ?_, List.mem_map_of_mem⟩
    obtain ⟨m', hm', hid⟩ := List.mem_map.mp h
    rw [hend] at hm'
    rw [← List.inj_on_of_nodup_map hrows.nodup_waiting (List.mem_of_mem_drop hm') hm hid, hend]
    exact hm'
  exact decide_eq_decide.mpr (not_congr hmem)

/-- A call for another user takes nothing of what waits. -/
theorem waiting_collect_other {user limit' : Int32} (hrows : Numbered rows) (huser : user ≠ userId)
    (hmessages : messages = trimToLimit env ((rows.filter (isOffline user)).map fromRow) limit') :
    (waiting userId (rows.map (delivered messages))).map identity = (waiting userId rows).map identity := by
  rw [waiting_marked, List.filter_eq_self]
  refine fun i hi => decide_eq_true fun hmem => huser ?_
  obtain ⟨m, hm, rfl⟩ := List.mem_map.mp hi
  obtain ⟨m', hm', hid⟩ := List.mem_map.mp hmem
  have hsorted : m' ∈ env.sort ((rows.filter (isOffline user)).map fromRow) := by
    rw [hmessages] at hm'
    unfold trimToLimit at hm'
    dsimp only at hm'
    split at hm'
    · exact List.mem_of_mem_drop hm'
    · exact hm'
  obtain ⟨row, hrow, rfl⟩ := List.mem_map.mp hm
  obtain ⟨row', hrow', rfl⟩ := List.mem_map.mp ((env.sort_perm _).mem_iff.mp hsorted)
  obtain ⟨hmem, hoff⟩ := List.mem_filter.mp hrow
  obtain ⟨hmem', hoff'⟩ := List.mem_filter.mp hrow'
  have hsame : row' = row := List.inj_on_of_nodup_map hrows.nodup hmem' hmem hid
  rw [isOffline_eq, decide_eq_true_eq] at hoff hoff'
  rw [← hoff'.1, ← hoff.1, hsame]

/-- What a turn hands to the user, and what waits for the user afterwards. -/
theorem Turn.waiting (h : Turn env now rows call messages rows') (hrows : Numbered rows) (hlimit : 1 ≤ limit)
    (haddressee : call.addressee ≠ some userId) (huses : call.Uses userId limit)
    (hspaced : Spaced (MessageRepository.waiting userId rows)) :
    (call = .offlineForUser userId limit ∧
        messages = (MessageRepository.waiting userId rows).rtake limit.toInt.toNat ∧
        (MessageRepository.waiting userId rows').map identity =
          ((MessageRepository.waiting userId rows).rdrop limit.toInt.toNat).map identity) ∨
      (call ≠ .offlineForUser userId limit ∧ Ledger.handedTo userId [(call, messages)] = [] ∧
        (MessageRepository.waiting userId rows').map identity =
          (MessageRepository.waiting userId rows).map identity) := by
  cases h with
  | save hsaves _ _ hto =>
    refine .inr ⟨fun hcall => ?_, ?_, ?_⟩
    · rw [hcall] at hsaves
      cases hsaves
    · cases call with
      | offlineForUser => cases hsaves
      | _ => rfl
    · rw [waiting_append (by_contra fun hoffline => haddressee (hto userId (Bool.of_not_eq_false hoffline)))]
  | change _ hcollects hsame hdelivered =>
    refine .inr ⟨hcollects userId limit, ?_, waiting_map hsame hdelivered⟩
    cases call with
    | offlineForUser user limit' => exact absurd rfl (hcollects user limit')
    | _ => rfl
  | collect user limit' hmessages =>
    rcases eq_or_ne user userId with rfl | huser
    · have hsame : limit' = limit := huses rfl
      subst hsame
      exact .inl ⟨rfl, waiting_collect hrows hlimit hspaced hmessages⟩
    · refine .inr ⟨fun hcall => ?_, ?_, waiting_collect_other hrows huser hmessages⟩
      · cases hcall
        exact huser rfl
      · simp [Ledger.handedTo, huser]

/-! ## Runs -/

theorem handedTo_cons (entry : Call × List StoredMessage) (log : List (Call × List StoredMessage)) :
    Ledger.handedTo userId (entry :: log) = Ledger.handedTo userId [entry] ++ Ledger.handedTo userId log := by
  simp [Ledger.handedTo]

/-- The calls of a run all return; what they hand to a user for whom nothing is
added comes in batches from the end. -/
theorem run_batches {ledger : Ledger} (h : ledger.db.Lists .messages rows) (calls : List Call) :
    ∃ ledger' rows' log, run (Ledger.step env) ledger calls = some ledger' ∧ ledger'.db.Lists .messages rows' ∧
      ledger'.log = ledger.log ++ log ∧ rows.length ≤ rows'.length ∧ (rows'.length < 2 ^ 63 → Numbered rows →
        Numbered rows' ∧ ∀ userId limit : Int32, 1 ≤ limit → Spaced (waiting userId rows) →
          (∀ call ∈ calls, call.addressee ≠ some userId ∧ call.Uses userId limit) →
          Ledger.handedTo userId log = batches limit.toInt.toNat (calls.count (.offlineForUser userId limit))
            ((waiting userId rows).map (·.msg_id))) := by
  induction calls generalizing ledger rows with
  | nil =>
    exact ⟨ledger, rows, [], rfl, h, (List.append_nil _).symm, Nat.le_refl _, fun _ hrows =>
      ⟨hrows, fun _ _ _ _ _ => rfl⟩⟩
  | cons call calls ih =>
    obtain ⟨-, hok, hthrow⟩ := @yields_turn env rows ledger.db.readings call ledger.db ⟨h, rfl⟩
    cases hresult : (call.execute env ledger.db).result with
    | error e => exact (hthrow e hresult).elim
    | ok messages =>
      obtain ⟨-, rows₁, hlists, hturn⟩ := hok messages hresult
      have hnext : Ledger.step env ledger call =
          some ⟨(call.execute env ledger.db).state, ledger.log ++ [(call, messages)]⟩ := by
        rw [Ledger.step, hresult]
      obtain ⟨ledger', rows', log, hrun, hlists', hlog, hlength, hrest⟩ :=
        @ih rows₁ ⟨(call.execute env ledger.db).state, ledger.log ++ [(call, messages)]⟩ hlists
      refine ⟨ledger', rows', (call, messages) :: log, run_cons_eq_some.mpr ⟨_, hnext, hrun⟩, hlists', ?_,
        hturn.numbered.1.trans hlength, fun hfits hrows => ?_⟩
      · rw [hlog, List.append_assoc]
        rfl
      obtain ⟨hrows', hbatches⟩ := hrest hfits (hturn.numbered.2 (hlength.trans_lt hfits) hrows)
      refine ⟨hrows', fun userId limit hlimit hspaced hcalls => ?_⟩
      obtain ⟨hcall, hcalls⟩ := List.forall_mem_cons.mp hcalls
      have hkeeps : ∀ xs : List StoredMessage, (waiting userId rows₁).map identity = xs.map identity →
          xs.Sublist (waiting userId rows) → Ledger.handedTo userId log =
            batches limit.toInt.toNat (calls.count (.offlineForUser userId limit)) (xs.map (·.msg_id)) := by
        intro xs hxs hsublist
        have hids : (waiting userId rows₁).map (·.msg_id) = xs.map (·.msg_id) := by
          have hfirst := congrArg (List.map Prod.fst) hxs
          rwa [List.map_map, List.map_map] at hfirst
        rw [← hids]
        exact hbatches userId limit hlimit
          (pairwise_of_identity (R := fun i j => i.2.2.2.2.2 < j.2.2.2.2.2) hxs.symm (hspaced.sublist hsublist)) hcalls
      rw [handedTo_cons]
      obtain ⟨rfl, hmessages, hwaits⟩ | ⟨hother, hnothing, hwaits⟩ :=
        hturn.waiting hrows hlimit hcall.1 hcall.2 hspaced
      · rw [hkeeps _ hwaits (List.take_sublist _ _), List.count_cons_self, batches, ← map_rtake, ← hmessages]
        congr 1
        · simp [Ledger.handedTo]
        · rw [List.rdrop, List.rdrop, List.map_take, List.length_map]
      · rw [hkeeps _ hwaits (List.Sublist.refl _), hnothing, List.nil_append, List.count_cons_of_ne hother]

theorem pending_eq {ledger : Ledger} (h : ledger.db.Lists .messages rows) :
    ledger.pending userId = (waiting userId rows).map (·.msg_id) := by
  rw [Ledger.pending, Ledger.rows, lists_getD h, waiting, List.map_map]
  rfl

/-- Calls on a table that is empty at first, and then calls that add nothing
for the user and collect often enough for all that waits, whatever else they do.
If the waiting messages were saved at increasing times, then the batches list
them in the order in which they were saved exactly if one batch holds them all. -/
theorem batches_in_order_iff (env : Env) {db : Database} (h : db.Lists .messages []) (before after : List Call) :
    ∃ ledger ledger' log, run (Ledger.step env) ⟨db, []⟩ before = some ledger ∧
      run (Ledger.step env) ledger after = some ledger' ∧ ledger'.log = ledger.log ++ log ∧
      (ledger'.rows.length < 2 ^ 63 → ∀ userId limit : Int32, 1 ≤ limit →
        Spaced (waiting userId ledger.rows) →
        (∀ call ∈ after, call.addressee ≠ some userId ∧ call.Uses userId limit) →
        (ledger.pending userId).length ≤ after.count (.offlineForUser userId limit) * limit.toInt.toNat →
        (Ledger.handedTo userId log = ledger.pending userId ↔
          (ledger.pending userId).length ≤ limit.toInt.toNat)) := by
  obtain ⟨ledger, rows, log₀, hrun, hlists, -, -, hnumbered⟩ := @run_batches env [] ⟨db, []⟩ h before
  obtain ⟨ledger', rows', log, hrun', hlists', hlog, hlength, hbatches⟩ := @run_batches env rows ledger hlists after
  refine ⟨ledger, ledger', log, hrun, hrun', hlog, fun hfits userId limit hlimit hspaced hcalls henough => ?_⟩
  rw [show ledger'.rows = rows' from lists_getD hlists'] at hfits
  rw [show ledger.rows = rows from lists_getD hlists] at hspaced
  have hrows : Numbered rows := (hnumbered (hlength.trans_lt hfits) numbered_nil).1
  rw [pending_eq hlists] at henough ⊢
  rw [(hbatches hfits hrows).2 userId limit hlimit hspaced hcalls]
  exact batches_eq_iff hrows.nodup_waiting henough

theorem spaced_of_times {xs : List StoredMessage} {times : List Int64} (h : xs.map (·.timestamp) = times)
    (htimes : times.Pairwise (· < ·)) : Spaced xs := by
  rw [← h, List.pairwise_map] at htimes
  exact htimes

/-- Two messages for user `2`, at different seconds. -/
def twoMessages : List Call := [.savePrivate 1 2 (lit "a") [] false, .savePrivate 1 2 (lit "b") [] false]

theorem batches_in_order_iff_twoMessages :
    ∃ ledger ledger' log, run (Ledger.step .ideal) ⟨connect .empty, []⟩ twoMessages = some ledger ∧
      run (Ledger.step .ideal) ledger [.offlineForUser 2 2, .markRead 1 2, .offlineForUser 2 2] = some ledger' ∧
      ledger'.log = ledger.log ++ log ∧ (ledger'.rows.length < 2 ^ 63 → Ledger.handedTo 2 log = [1, 2]) := by
  obtain ⟨ledger, ledger', log, hrun, hrun', hlog, h⟩ := @batches_in_order_iff .ideal
    (connect .empty) (.inr ⟨rfl, rfl, rfl⟩) twoMessages [.offlineForUser 2 2, .markRead 1 2, .offlineForUser 2 2]
  refine ⟨ledger, ledger', log, hrun, hrun', hlog, fun hfits => ?_⟩
  have hfacts : (run (Ledger.step .ideal) ⟨connect .empty, []⟩ twoMessages).map (fun ledger =>
      (ledger.pending 2, (waiting 2 ledger.rows).map (·.timestamp))) = some ([1, 2], [0, 1]) := by decide +kernel
  rw [hrun, Option.map_some, Option.some.injEq, Prod.mk.injEq] at hfacts
  obtain ⟨hpending, htimes⟩ := hfacts
  rw [← hpending]
  refine (h hfits 2 2 (by decide) (spaced_of_times htimes (by decide)) ?_ ?_).mpr ?_
  · simp [Call.addressee, Call.Uses]
  · rw [hpending]
    decide
  · rw [hpending]
    decide

/-- Two batches of one message: the second message comes first. -/
theorem newest_batch_first :
    ¬∀ (env : Env) (db : Database), db.Lists .messages [] → ∀ (before : List Call) (ledger : Ledger),
      run (Ledger.step env) ⟨db, []⟩ before = some ledger → ∀ userId limit : Int32, 1 ≤ limit →
        Spaced (waiting userId ledger.rows) → ∀ (k : Nat) (ledger' : Ledger),
          (ledger.pending userId).length ≤ k * limit.toInt.toNat →
          run (Ledger.step env) ledger (List.replicate k (.offlineForUser userId limit)) = some ledger' →
            Ledger.handedTo userId (ledger'.log.drop ledger.log.length) = ledger.pending userId := by
  intro h
  have hfacts : (run (Ledger.step .ideal) ⟨connect .empty, []⟩ twoMessages).bind (fun ledger =>
      (run (Ledger.step .ideal) ledger (List.replicate 2 (.offlineForUser 2 1))).map fun ledger' =>
        (ledger.pending 2, (waiting 2 ledger.rows).map (·.timestamp),
          Ledger.handedTo 2 (ledger'.log.drop ledger.log.length))) = some ([1, 2], [0, 1], [2, 1]) := by
    decide +kernel
  obtain ⟨ledger, hrun, hfacts⟩ := Option.bind_eq_some_iff.mp hfacts
  obtain ⟨ledger', hrun', hfacts⟩ := Option.map_eq_some_iff.mp hfacts
  obtain ⟨hpending, htimes, hhanded⟩ : _ ∧ _ ∧ _ := by simpa only [Prod.mk.injEq] using hfacts
  have hclaim := h .ideal (connect .empty) (.inr ⟨rfl, rfl, rfl⟩) twoMessages ledger hrun 2 1 (by decide)
    (spaced_of_times htimes (by decide)) 2 ledger' (by rw [hpending]; decide) hrun'
  rw [hhanded, hpending] at hclaim
  exact absurd hclaim (by decide)

end Batches

end MessageRepository

end LanChat
