import LanChat.Lib.Evolution
import LanChat.Server.Authentication

/-!
# Accounts

What becomes of the rows of the users. A row keeps its place, and of its fields
only those of `mutableFields` change: the profile by a profile update of a session
that carries the user, the password by a login that shows the password of the
SHA-256 hash stored so far (`accounts_kept`). Rows are added by registrations
only, and none is removed.
-/

namespace LanChat

open Lib Json

namespace UserRepository

open Database FriendRepository

/-- The fields of a user that the repository assigns. -/
def mutableFields : List String :=
  ["nickname", "avatar_id", "password_hash", "password_version", "is_online", "last_seen_at"]

def profile (row : Row) : Option Value × Option Value := (row.find? (lit "nickname"), row.find? (lit "avatar_id"))

def credentials (row : Row) : Option Value × Option Value :=
  (row.find? (lit "password_hash"), row.find? (lit "password_version"))

/-- What a request may change of the accounts. -/
inductive AccountChange where
  | nothing
  | register
  | profile (userId : Int32) (nickname : Bytes) (avatarId : Int32)
  | login (userId : Int32) (password : Bytes)

/-- The first row of the user has a SHA-256 hash, and it is that of the password. -/
def Upgradable (userId : Int32) (password : Bytes) (rows : RowList) : Prop :=
  ∃ row hash, rows.find? (isRowOf userId) = some row ∧ passwordVersion row < 1 ∧
    row.find? (lit "password_hash") = some hash ∧ Sha256.verifyHash password hash.asString = true

/-- What stays of an account: its fields that the repository does not assign, and a
password that has been hashed by bcrypt. -/
structure Endures (row row' : Row) : Prop where
  kept : ∀ key, key ∉ mutableFields.map lit → row'.find? key = row.find? key
  password : 1 ≤ passwordVersion row → credentials row' = credentials row

/-- What a row of the table `start` may become by a request. -/
structure Amends (start : RowList) (change : AccountChange) (row row' : Row) : Prop where
  kept : ∀ key, key ∉ mutableFields.map lit → row'.find? key = row.find? key
  profile : profile row' ≠ profile row → ∃ userId nickname avatarId, change = .profile userId nickname avatarId ∧
    isRowOf userId row = true ∧ profile row' = (some (.str nickname), some (ofInt32 avatarId))
  password : credentials row' ≠ credentials row → ∃ userId password, change = .login userId password ∧
    isRowOf userId row = true ∧ passwordVersion row' = 1 ∧ Upgradable userId password start

section Rows

variable {start : RowList} {change : AccountChange} {row row₁ row₂ : Row} {userId : Int32}

theorem isRowOf_of_hasId (h : hasId userId row = .ok true) : isRowOf userId row = true := by
  cases hv : row.find? (lit "id") with
  | none => simp [hasId, atField, hv, Except.map] at h
  | some v => simpa [hasId, isRowOf, atField, hv, Except.map] using h

theorem isRowOf_congr (h : row₁.find? (lit "id") = row.find? (lit "id")) : isRowOf userId row₁ = isRowOf userId row := by
  rw [isRowOf, isRowOf, h]

theorem passwordVersion_congr (h : credentials row₁ = credentials row) : passwordVersion row₁ = passwordVersion row := by
  have hversion : row₁.find? (lit "password_version") = row.find? (lit "password_version") := congrArg Prod.snd h
  rw [passwordVersion, passwordVersion, hversion]

theorem find?_of_atField {key : String} {v : Value} (h : atField row key = .ok v) : row.find? (lit key) = some v := by
  unfold atField at h
  split at h
  · next w hw =>
    cases h
    exact hw
  · cases h

theorem Endures.refl (row : Row) : Endures row row := ⟨fun _ _ => rfl, fun _ => rfl⟩

theorem Endures.trans (h : Endures row row₁) (h' : Endures row₁ row₂) : Endures row row₂ where
  kept key hkey := (h'.kept key hkey).trans (h.kept key hkey)
  password hversion := by
    have hsame := h.password hversion
    exact (h'.password (passwordVersion_congr hsame ▸ hversion)).trans hsame

theorem Amends.refl (start : RowList) (change : AccountChange) (row : Row) : Amends start change row row :=
  ⟨fun _ _ => rfl, (absurd rfl ·), (absurd rfl ·)⟩

theorem Amends.id (h : Amends start change row row₁) : row₁.find? (lit "id") = row.find? (lit "id") :=
  h.kept _ (by decide)

theorem Amends.trans (h : Amends start change row row₁) (h' : Amends start change row₁ row₂) :
    Amends start change row row₂ where
  kept key hkey := (h'.kept key hkey).trans (h.kept key hkey)
  profile hne := by
    rcases eq_or_ne (UserRepository.profile row₂) (UserRepository.profile row₁) with heq | hne'
    · obtain ⟨userId, nickname, avatarId, hchange, hrow, hnew⟩ := h.profile (heq ▸ hne)
      exact ⟨userId, nickname, avatarId, hchange, hrow, heq.trans hnew⟩
    · obtain ⟨userId, nickname, avatarId, hchange, hrow, hnew⟩ := h'.profile hne'
      exact ⟨userId, nickname, avatarId, hchange, (isRowOf_congr h.id) ▸ hrow, hnew⟩
  password hne := by
    rcases eq_or_ne (credentials row₂) (credentials row₁) with heq | hne'
    · obtain ⟨userId, password, hchange, hrow, hversion, hold⟩ := h.password (heq ▸ hne)
      exact ⟨userId, password, hchange, hrow, (passwordVersion_congr heq).trans hversion, hold⟩
    · obtain ⟨userId, password, hchange, hrow, hversion, hold⟩ := h'.password hne'
      exact ⟨userId, password, hchange, (isRowOf_congr h.id) ▸ hrow, hversion, hold⟩

end Rows

/-! ## Operations -/

section Operations

variable {env : Env} {whole : Prop} {start rows : RowList} {change : AccountChange} {userId : Int32}

/-- The rows of the users are what those of `start` may have become. -/
abbrev KeepsAccounts (env : Env) (whole : Prop) (change : AccountChange) (start : RowList) : Database → Prop :=
  Tracks env whole .users (Evolves whole (change = .register) (Amends start change) start)

theorem evolves_trans_amends {G : Prop} (hgrows : G → change = .register) {rows' : RowList}
    (h : Evolves whole (change = .register) (Amends start change) start rows)
    (h' : Evolves whole G (Amends start change) rows rows') :
    Evolves whole (change = .register) (Amends start change) start rows' := by
  refine h.trans (G := change = .register) ?_ (fun h => h) (fun h => h) Amends.trans
  obtain ⟨n, kept, added, hn, hadded, hrest⟩ := h'
  exact ⟨n, kept, added, hn, fun hne => hgrows (hadded hne), hrest⟩

theorem take_accounts (hpart : ¬whole) (rows : RowList) (n : Nat)
    (h : Evolves whole (change = .register) (Amends start change) start rows) :
    Evolves whole (change = .register) (Amends start change) start (rows.take n) :=
  evolves_trans_amends (G := False) False.elim h (evolves_take hpart (.refl start change) rows n)

theorem reads_accounts (env : Env) (whole : Prop) (change : AccountChange) (start : RowList) :
    Reads env (fun _ _ => True) (KeepsAccounts env whole change start) (KeepsAccounts env whole change start) :=
  reads_tracks take_accounts

/-- An update whose effect on each row of the user is allowed. -/
theorem guarded_update_accounts {u : Row → Row} (hu : ∀ row, isRowOf userId row = true → Amends start change row (u row)) :
    Guarded (KeepsAccounts env whole change start) (KeepsAccounts env whole change start)
      (update env .users (hasId userId) u) := by
  refine guarded_updateRows_tracks take_accounts fun rows hrows => ?_
  refine evolves_trans_amends (G := False) False.elim hrows (evolves_of_forall₂ ?_)
  refine (updateRows_forall₂ _ _ rows).imp fun row row' hrow => ?_
  rcases hrow with rfl | ⟨hid, rfl⟩
  · exact .refl start change _
  · exact hu row (isRowOf_of_hasId hid)

/-- An assignment to a mutable field leaves the others. -/
theorem find?_put_of_notMem {row : Row} {key : Bytes} {field : String} {v : Value} (hfield : field ∈ mutableFields)
    (hkey : key ∉ mutableFields.map lit) : OrdMap.find? (row.put (lit field) v) key = row.find? key :=
  OrdMap.find?_put_of_ne fun h => hkey (h ▸ List.mem_map_of_mem hfield)

theorem guarded_setOnlineStatus_accounts (userId : Int32) (online : Bool) :
    Guarded (KeepsAccounts env whole change start) (KeepsAccounts env whole change start)
      (setOnlineStatus env userId online) := by
  refine (reads_accounts env whole change start).time.bind fun now =>
    Guarded.bind (guarded_update_accounts fun row _ => ⟨fun key hkey => ?_, fun hne => absurd ?_ hne,
      fun hne => absurd ?_ hne⟩) fun _ => guarded_pure ()
  · cases online with
    | true => exact (find?_put_of_notMem (by decide) hkey).trans (find?_put_of_notMem (by decide) hkey)
    | false => exact find?_put_of_notMem (by decide) hkey
  · cases online <;> simp [profile]
  · cases online <;> simp [credentials]

theorem guarded_updateProfile_accounts (nickname : Bytes) (avatarId : Int32) :
    Guarded (KeepsAccounts env whole (.profile userId nickname avatarId) start)
      (KeepsAccounts env whole (.profile userId nickname avatarId) start) (updateProfile env userId nickname avatarId) := by
  refine guarded_update_accounts fun row hrow => ⟨fun key hkey => ?_, fun _ => ?_, fun hne => absurd ?_ hne⟩
  · exact (find?_put_of_notMem (by decide) hkey).trans (find?_put_of_notMem (by decide) hkey)
  · exact ⟨userId, nickname, avatarId, rfl, hrow, by simp [profile]⟩
  · simp [credentials]

/-- A registration adds a row. -/
theorem guarded_create_accounts (password nickname : Bytes) (avatarId : Int32) :
    Guarded (KeepsAccounts env whole .register start) (KeepsAccounts env whole .register start)
      (create env password nickname avatarId) := by
  have hreads := reads_accounts env whole .register start
  have hthrown : ∀ {α : Type} (r : Except Exn α),
      Harmless (KeepsAccounts env whole .register start) (KeepsAccounts env whole .register start) r :=
    fun r => .inr fun _ h => h
  refine (hreads.findByNickname nickname).bind fun existing => ?_
  cases existing with
  | some _ => exact guarded_pure _
  | none =>
    refine Guarded.bind (hreads.queryAll .users) fun all => (guarded_ofExcept (hthrown _)).bind fun id =>
      (hreads.bcryptHashPassword password 12).bind fun hash => hreads.time.bind fun now => ?_
    refine Guarded.bind (guarded_insert_tracks take_accounts fun rows hrows => ?_) fun _ => guarded_pure _
    exact evolves_trans_amends (G := True) (fun _ => rfl) hrows (evolves_append trivial (.refl _ _) rows _)

/-- The rows that a query finds are among those in memory. -/
theorem sat_query_accounts :
    Cmd.Sat (KeepsAccounts env whole change start) (query env .users (hasId userId))
      (fun found db => (∃ all, Evolves whole (change = .register) (Amends start change) start all ∧
        filterRows (hasId userId) all = .ok found) ∧ KeepsAccounts env whole change start db)
      (fun _ => KeepsAccounts env whole change start) fun _ => True := by
  refine (sat_load_tracks take_accounts).bind fun _ => sat_rows_tracks.bind fun all =>
    Cmd.sat_ofExcept (fun found db hfound hdb => ⟨⟨all, hdb.2.2, hfound⟩, hdb.1⟩) fun _ _ _ hdb => hdb.1

theorem find?_of_filterRows {found : RowList} {row : Row} (h : filterRows (hasId userId) rows = .ok (row :: found)) :
    rows.find? (isRowOf userId) = some row := by
  have hids := ids_of_filterRows h
  rw [filterRows_eq fun row hrow => hasId_of_isSome (hids row hrow) userId, Except.ok.injEq] at h
  rw [← List.head?_filter, h]
  rfl

/-- A hash that a login may upgrade has been that of the password from the start. -/
theorem upgradable_of_evolves {password : Bytes} {row : Row} {hash : Value}
    (h : Evolves whole (AccountChange.login userId password = .register) (Amends start (.login userId password)) start rows)
    (hrow : rows.find? (isRowOf userId) = some row) (hversion : passwordVersion row < 1)
    (hhash : row.find? (lit "password_hash") = some hash) (hverified : Sha256.verifyHash password hash.asString = true) :
    Upgradable userId password start := by
  rw [show (AccountChange.login userId password = .register) = False from eq_false nofun] at h
  obtain ⟨row₀, hfirst, hamends⟩ := h.find?_eq_some (fun _ _ hamends => isRowOf_congr hamends.id) hrow
  rcases eq_or_ne (credentials row) (credentials row₀) with heq | hne
  · refine ⟨row₀, hash, hfirst, passwordVersion_congr heq ▸ hversion, ?_, hverified⟩
    exact (congrArg Prod.fst heq).symm.trans hhash
  · obtain ⟨id, password', hchange, -, -, hold⟩ := hamends.password hne
    cases hchange
    exact hold

theorem guarded_verifyPassword_accounts (password : Bytes) :
    Guarded (KeepsAccounts env whole (.login userId password) start)
      (KeepsAccounts env whole (.login userId password) start) (verifyPassword env userId password) := by
  have hreads := reads_accounts env whole (.login userId password) start
  refine Cmd.Sat.bind sat_query_accounts fun found => Cmd.Sat.of_fact fun ⟨all, hall, hfound⟩ => ?_
  cases found with
  | nil => exact guarded_pure false
  | cons row rest =>
    have hrow := find?_of_filterRows hfound
    have hhash : Cmd.Sat (KeepsAccounts env whole (.login userId password) start)
        (Cmd.ofExcept (atField row "password_hash") : DbM Value)
        (fun hash db => row.find? (lit "password_hash") = some hash ∧
          KeepsAccounts env whole (.login userId password) start db)
        (fun _ => KeepsAccounts env whole (.login userId password) start) fun _ => True :=
      Cmd.sat_ofExcept (fun hash db hhash hdb => ⟨find?_of_atField hhash, hdb⟩) fun _ _ _ hdb => hdb
    refine hhash.bind fun hash => Cmd.Sat.of_fact fun hhash => Cmd.sat_ite (fun _ => guarded_pure _) fun hversion =>
      Cmd.sat_ite (fun _ => guarded_pure false) fun hverified =>
        (hreads.bcryptHashPassword password 12).bind fun upgraded => ?_
    have hold := upgradable_of_evolves hall hrow (Int32.not_le.mp hversion) hhash (by simpa using hverified)
    refine Guarded.bind (guarded_update_accounts fun row hrow => ⟨fun key hkey => ?_, fun hne => absurd ?_ hne,
      fun _ => ?_⟩) fun _ => guarded_pure true
    · exact (find?_put_of_notMem (by decide) hkey).trans (find?_put_of_notMem (by decide) hkey)
    · simp [profile]
    · exact ⟨userId, password, rfl, hrow, by simp [passwordVersion, Value.isNumber, Value.asInt], hold⟩

end Operations

end UserRepository

namespace MessageRouter

open Database UserRepository

variable {env : Env} {whole : Prop} {start : RowList} {session : SessionId} {uid : Int32} {request : Object}

/-- What the request of a session with the user may change of the accounts. -/
def accountChange (uid : Int32) (request : Object) : AccountChange :=
  match typeField request with
  | some .RegisterUser => .register
  | some .Login => .login (intField request "id" 0) (stringField request "password" [])
  | some .UserProfileUpdate =>
    if 0 < uid then .profile uid (stringField request "nickname" []) (intField request "headId" 0) else .nothing
  | _ => .nothing

theorem guardsCalls_accounts (hlogin : typeField request ≠ some .Login)
    (hprofile : typeField request ≠ some .UserProfileUpdate) :
    GuardsCalls env (KeepsAccounts env whole (accountChange uid request) start)
      (KeepsAccounts env whole (accountChange uid request) start) uid request := by
  have hreads := reads_accounts env whole (accountChange uid request) start
  have hmessages := @writesTo_tracks env .users .messages whole
    (Evolves whole (accountChange uid request = .register) (Amends start (accountChange uid request)) start) (by decide)
  have hmembers := @writesTo_tracks env .users .group_members whole
    (Evolves whole (accountChange uid request = .register) (Amends start (accountChange uid request)) start) (by decide)
  intro α c hcall
  cases hcall with
  | create _ _ _ htype =>
    have hchange : accountChange uid request = .register := by rw [accountChange, htype]
    rw [hchange]
    exact guarded_create_accounts _ _ _
  | verifyPassword _ _ htype => exact absurd htype hlogin
  | setOnline _ htype => exact absurd htype hlogin
  | offlineForUser _ htype => exact absurd htype hlogin
  | setOffline _ _ => exact guarded_setOnlineStatus_accounts _ _
  | updateProfile _ _ htype _ => exact absurd htype hprofile
  | join _ _ => exact hmembers.join hreads _ _
  | leave _ _ => exact hmembers.leave _ _
  | createGroup _ _ _ => exact WritesTo.createGroup hreads (writesTo_tracks (by decide)) hmembers _ _
  | sendRequest _ _ => exact guarded_sendRequest hreads friendships_tracks _ _ _
  | acceptRequest _ _ => exact guarded_setStatus hreads friendships_tracks _ _ _
  | rejectOrRemove _ => exact guarded_rejectOrRemove hreads friendships_tracks _ _ _
  | savePrivate _ _ _ _ _ _ => exact hmessages.savePrivate hreads _ _ _ _ _
  | saveGroup _ _ _ _ _ => exact hmessages.saveGroup hreads _ _ _ _
  | markReadByNobody _ _ _ => exact hmessages.markRead _ _
  | markRead _ _ _ _ => exact hmessages.markRead _ _
  | addReaction _ _ _ _ _ => exact hmessages.addReaction _ _ _
  | edit _ _ _ _ _ => exact hmessages.edit hreads _ _ _
  | softDelete _ _ _ _ => exact hmessages.softDelete hreads _ _

/-- A profile update changes the profile of the user of the session. -/
theorem guards_profileUpdate_accounts (htype : typeField request = some .UserProfileUpdate) :
    GuardsAs (KeepsAccounts env whole (accountChange uid request) start)
      (KeepsAccounts env whole (accountChange uid request) start) session uid (dispatch env session request) := by
  unfold dispatch
  rw [htype]
  refine .auth <| Guards.ite (fun _ => guards_deliver _ _) fun hvalid => ?_
  rw [not_or, Int32.not_le] at hvalid
  have hchange : accountChange uid request =
      .profile uid (stringField request "nickname" []) (intField request "headId" 0) := by
    simp only [accountChange, htype, if_pos hvalid.1]
  rw [hchange]
  exact (guards_onDb (guarded_updateProfile_accounts _ _)).bind fun _ =>
    Guards.ite (fun _ => guards_deliver _ _) fun _ => guards_deliver _ _

/-- A login changes the password of the user it names. -/
theorem guards_login_accounts (htype : typeField request = some .Login) :
    Guards (KeepsAccounts env whole (accountChange uid request) start)
      (KeepsAccounts env whole (accountChange uid request) start) (dispatch env session request) := by
  unfold dispatch
  rw [htype]
  have hchange : accountChange uid request = .login (intField request "id" 0) (stringField request "password" []) := by
    simp only [accountChange, htype]
  rw [hchange]
  have hreads := reads_accounts env whole (.login (intField request "id" 0) (stringField request "password" [])) start
  refine Guards.ite (fun _ => guards_deliver _ _) fun _ =>
    (guards_onDb (guarded_verifyPassword_accounts _)).bind fun _ => Guards.ite (fun _ => guards_deliver _ _) fun _ =>
      (guards_onDb (hreads.findById _)).bind fun user => ?_
  cases user with
  | none => exact guards_deliver _ _
  | some user =>
    refine (guards_modifyPool _).bind fun _ => (guards_modifyPresence _).bind fun _ =>
      (guards_onDb (guarded_setOnlineStatus_accounts _ _)).bind fun _ => (guards_asks _).bind fun _ =>
        (guards_onDb hreads.getAllUsers).bind fun _ => (guards_onDb (hreads.getFriends _)).bind fun _ =>
          (guards_onDb (hreads.groupsForUser _)).bind fun _ => (guards_deliver _ _).bind fun _ =>
            (guards_deliverOffline ?_).bind fun _ => guards_broadcastPresence hreads _ _
    exact (writesTo_tracks (by decide)).offlineForUser hreads _ _

end MessageRouter

namespace TcpServer

open Database UserRepository FriendRepository MessageRouter

/-- What the event may change of the accounts. -/
def accountChangeOf (st : Server) : Event → AccountChange
  | .frame session json now _ =>
    if Handled st session now then (readObject json).elim .nothing (accountChange (st.userId session)) else .nothing
  | _ => .nothing

/-- The users are in memory, or all of them will be loaded. -/
def AllUsers (env : Env) (st : Server) : Prop := env.Serves ∨ (st.db.tables .users).isSome

section Runs

variable {env : Env} {st st' : Server} {event : Event} {file : Content} {events : List Event}

theorem accounts_step (hst : st.db.Settled .users) (hstep : step env st event = some st') :
    KeepsAccounts env (AllUsers env st) (accountChangeOf st event) (st.db.content .users) st'.db := by
  have hkept : KeepsAccounts env (AllUsers env st) (accountChangeOf st event) (st.db.content .users) st.db :=
    ⟨hst, evolves_refl (.refl _ _) _, id⟩
  refine invariant_step_of_dispatch (reads_accounts env _ _ _) (fun id => guarded_setOnlineStatus_accounts id false)
    ?_ hkept hstep
  rintro session json now later request rfl hhandled hparse
  have hchange : accountChangeOf st (.frame session json now later) = accountChange (st.userId session) request := by
    rw [accountChangeOf, if_pos hhandled, hparse]
    rfl
  rw [hchange] at hkept ⊢
  rcases em (typeField request = some .Login) with hlogin | hlogin
  · exact (guards_login_accounts hlogin).pre fun s hs => hs.2 ▸ hkept
  rcases em (typeField request = some .UserProfileUpdate) with hprofile | hprofile
  · exact (guards_profileUpdate_accounts hprofile).pre fun s hs => ⟨hs.1, hs.2 ▸ hkept⟩
  · exact dispatchSat_of_calls (reads_accounts env _ _ _) hkept (guardsCalls_accounts hlogin hprofile)

/-- The account of a user by a step. -/
theorem account_step {userId : Int32} {row : Row} (hst : st.db.Settled .users) (hstep : step env st event = some st')
    (hall : AllUsers env st) (hrow : (st.db.content .users).find? (isRowOf userId) = some row) :
    ∃ row', (st'.db.content .users).find? (isRowOf userId) = some row' ∧ Endures row row' := by
  obtain ⟨row', hrow', hamends⟩ := (accounts_step hst hstep).rows.find?_of_whole hall
    (fun _ _ hamends => isRowOf_congr hamends.id) hrow
  refine ⟨row', hrow', hamends.kept, fun hversion => ?_⟩
  by_contra hne
  obtain ⟨id, password, -, hid, -, first, hash, hfirst, hold, -⟩ := hamends.password hne
  rw [← isRowOf_inj (List.find?_some hrow) hid, hrow, Option.some.injEq] at hfirst
  subst hfirst
  exact absurd hversion (Int32.not_le.mpr hold)

theorem account_run {userId : Int32} {row : Row} (hst : st.db.Settled .users) (hrun : run (step env) st events = some st')
    (hall : AllUsers env st) (hrow : (st.db.content .users).find? (isRowOf userId) = some row) :
    ∃ row', (st'.db.content .users).find? (isRowOf userId) = some row' ∧ Endures row row' := by
  induction events generalizing st row with
  | nil =>
    cases hrun
    exact ⟨row, hrow, .refl row⟩
  | cons event events ih =>
    obtain ⟨t, ht, hrest⟩ := run_cons_eq_some.mp hrun
    obtain ⟨row₁, hrow₁, hendures⟩ := account_step hst ht hall hrow
    have hkept := accounts_step hst ht
    obtain ⟨row₂, hrow₂, hendures'⟩ := ih hkept.settled hrest (hkept.loads hall) hrow₁
    exact ⟨row₂, hrow₂, hendures.trans hendures'⟩

/-- In every run an account keeps its place, and what an event changes of it is the
profile, if the session that sends the event carries the user, or the password, if
the event is a login that shows the one whose SHA-256 hash is stored, or whether and
when the user was online. Only a registration adds an account, and none is removed:
however the run goes on, the account of a user stays his, and a password that has been
hashed by bcrypt stays as it is. -/
theorem accounts_kept (hrun : run (step env) (.boot env file) events = some st) :
    (∀ event st', step env st event = some st' →
      Evolves (AllUsers env st) (accountChangeOf st event = .register)
        (Amends (st.db.content .users) (accountChangeOf st event)) (st.db.content .users) (st'.db.content .users)) ∧
    ∀ later st', run (step env) st later = some st' → AllUsers env st →
      ∀ userId row, (st.db.content .users).find? (isRowOf userId) = some row →
        ∃ row', (st'.db.content .users).find? (isRowOf userId) = some row' ∧ Endures row row' := by
  have hsettled : st.db.Settled .users := invariant_run
    (fun s e s' hs hstep => (@accounts_step env s s' e hs hstep).settled) (settled_startUp env file .users) hrun
  exact ⟨fun event st' hstep => (accounts_step hsettled hstep).rows,
    fun later st' hlater hall userId row hrow => account_run hsettled hlater hall hrow⟩

end Runs

theorem accounts_kept_firstLogin : ∃ st, run (step .ideal) (.boot .ideal .empty) [.accept 0, zeroByte, firstLogin] = some st ∧
    (∀ event st', step .ideal st event = some st' →
      Evolves (AllUsers .ideal st) (accountChangeOf st event = .register)
        (Amends (st.db.content .users) (accountChangeOf st event)) (st.db.content .users) (st'.db.content .users)) ∧
    ∀ later st', run (step .ideal) st later = some st' → AllUsers .ideal st →
      ∀ userId row, (st.db.content .users).find? (isRowOf userId) = some row →
        ∃ row', (st'.db.content .users).find? (isRowOf userId) = some row' ∧ Endures row row' := by
  obtain ⟨st, hrun, -⟩ := run_registered
  exact ⟨st, hrun, accounts_kept hrun⟩

end TcpServer

end LanChat
