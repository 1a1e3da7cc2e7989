import OpsNtpd.Cli.Invariant

/-! # CLI: What a Return Code Says

  The handlers for servers, keys and trust return `CMD_SUCCESS` when their
  request holds afterwards, and another code when they have changed nothing.
  There are four exceptions to the first half: a full table, whose refusal
  `END_DB_TXN` turns into a success; a server in another VRF than the one that
  the insertion picks; a `no` form that meets a second matching row; and a key
  whose number is no `int`, which `atoi` reads as another key.

  - Section 1: invocations, their requests and the promise.
  - Section 2: the paths that return.
  - Section 3: the handlers one by one.
  - Section 4: the invocations that keep the promise.
-/

namespace OpsNtpd.Cli

open Text

variable (isValidIpv4 : Nat → Bool)

/-! ## Section 1: Invocations and their requests -/

/-- A call of a handler with its parameters. -/
inductive Invocation where
  /-- `vtysh_ovsdb_ntp_server_set` -/
  | server (p : NtpServerParams)
  /-- `vtysh_ovsdb_ntp_auth_key_set` -/
  | authKey (p : NtpAuthKeyParams)
  /-- `vtysh_ovsdb_ntp_trusted_key_set` -/
  | trustedKey (p : NtpTrustedKeyParams)

def Invocation.verdict (txn : Txn) (db : Db) : Invocation → Verdict
  | .server p => vtyshOvsdbNtpServerSet isValidIpv4 txn db p
  | .authKey p => vtyshOvsdbNtpAuthKeySet txn db p
  | .trustedKey p => vtyshOvsdbNtpTrustedKeySet txn db p

/-- The return code and the database afterwards. -/
def Invocation.run (txn : Txn) (db : Db) (i : Invocation) : CmdCode × Db :=
  (i.verdict isValidIpv4 txn db).run txn db

/-- The server `serverName` of the VRF `vrfName`. -/
def IsServer (db : Db) (vrfName serverName : String) (row : NtpAssociationRow) : Prop :=
  row.address = serverName ∧ ∃ v ∈ row.vrf.bind db.vrfRow, v.name = vrfName

/-- The row has every option of the command. -/
structure HasOptions (db : Db) (p : NtpServerParams) (row : NtpAssociationRow) : Prop where
  prefer : p.prefer = true → row.associationAttributes.lookup ntpAssocAttribPrefer = some "true"
  version : ∀ v ∈ p.version, row.associationAttributes.lookup ntpAssocAttribVersion = some v
  keyId : ∀ key ∈ p.keyid,
    ∃ kr ∈ db.ntpKey, row.keyId = some kr.uuid ∧ kr.keyId = leadingInt key

/-- The named server is there with its options, or is absent. -/
def NtpServerParams.Holds (p : NtpServerParams) (db : Db) : Prop :=
  if p.noForm then ∀ row ∈ db.ntpAssociation, ¬ IsServer db p.vrfName p.serverName row
  else ∃ row ∈ db.ntpAssociation, IsServer db p.vrfName p.serverName row ∧ HasOptions db p row

/-- The named key is there with its password, or is absent. -/
def NtpAuthKeyParams.Holds (p : NtpAuthKeyParams) (db : Db) : Prop :=
  if p.noForm then ∀ kr ∈ db.ntpKey, kr.keyId ≠ leadingInt p.key
  else ∃ kr ∈ db.ntpKey, kr.keyId = leadingInt p.key ∧ ∀ pwd ∈ p.md5Pwd, kr.keyPassword = pwd

/-- The named key is trusted, or is not. -/
def NtpTrustedKeyParams.Holds (p : NtpTrustedKeyParams) (db : Db) : Prop :=
  if p.noForm then ∀ kr ∈ db.ntpKey, ¬ (kr.keyId = leadingInt p.key ∧ kr.trustEnable = true)
  else ∃ kr ∈ db.ntpKey, kr.keyId = leadingInt p.key ∧ kr.trustEnable = true

/-- The request holds in the tables. -/
def Invocation.Holds (db : Db) : Invocation → Prop
  | .server p => p.Holds db
  | .authKey p => p.Holds db
  | .trustedKey p => p.Holds db

/-- **The promise.** A success says that the request holds, and any other code
    that the tables are as they were. -/
structure TellsTruth (txn : Txn) (db : Db) (i : Invocation) : Prop where
  success : (i.run isValidIpv4 txn db).1 = .success → i.Holds (i.run isValidIpv4 txn db).2
  refusal : (i.run isValidIpv4 txn db).1 ≠ .success →
    (i.run isValidIpv4 txn db).2.ntpKey = db.ntpKey ∧
      (i.run isValidIpv4 txn db).2.ntpAssociation = db.ntpAssociation

/-- The transaction is created and commits. -/
def Txn.Commits (txn : Txn) : Prop :=
  txn.created = true ∧ (txn.status = .success ∨ txn.status = .unchanged)

instance (txn : Txn) : Decidable txn.Commits := inferInstanceAs (Decidable (_ ∧ _))

/-- The first VRF row has this name. -/
def FirstVrf (db : Db) (vrfName : String) : Prop :=
  ∃ v, db.vrf.head? = some v ∧ v.name = vrfName

/-- The row is not the one that a lookup has found. -/
def Besides {ρ : Type} (uuid : ρ → Uuid) (found : Option ρ) (r : ρ) : Prop :=
  ∀ row ∈ found, uuid r ≠ uuid row

/-- `atoi` makes another number of the text: no row with the number in it is the
    one that the lookup finds. -/
def Misread (db : Db) (key : String) : Prop :=
  ∀ kr ∈ db.ntpKey, kr.keyId = leadingInt key →
    Besides NtpKeyRow.uuid (ntpOvsrecGetAuthKey db (atoi key)) kr

/-- Accepted arguments whose request a committed transaction does not bring
    about. The `no` form meets another row besides the one that it deletes; a
    new server meets a full table, goes into another VRF or gets another key;
    or a server that is there gets another key, and no other row has all the
    options. -/
def NtpServerParams.Slips (txn : Txn) (db : Db) (p : NtpServerParams) : Prop :=
  (∃ keyRow, ntpServerSanitizeParameters isValidIpv4 db p = .ok keyRow) ∧ txn.Commits ∧
    if p.noForm then
      ∃ other ∈ db.ntpAssociation, IsServer db p.vrfName p.serverName other ∧
        Besides NtpAssociationRow.uuid (ntpOvsrecGetAssoc db p.vrfName p.serverName) other
    else
      match ntpOvsrecGetAssoc db p.vrfName p.serverName with
      | none =>
          db.ntpAssociation.length ≥ ntpAssocMaxServers ∨
            (txn.inserted = true ∧ (¬ FirstVrf db p.vrfName ∨ ∃ key ∈ p.keyid, Misread db key))
      | some row =>
          (∃ key ∈ p.keyid, Misread db key) ∧
            ∀ other ∈ db.ntpAssociation, IsServer db p.vrfName p.serverName other →
              other.uuid ≠ row.uuid → ¬ HasOptions db p other

/-- The `no` form meets a row with the number besides the one that it deletes.
    The plain form takes the number for another one, and no row with the number
    has the password. -/
def NtpAuthKeyParams.Slips (txn : Txn) (db : Db) (p : NtpAuthKeyParams) : Prop :=
  (∃ keyRow, ntpSanitizeAuthKey db (some p.key) false p.md5Pwd = .ok keyRow) ∧ txn.Commits ∧
    if p.noForm then
      ∃ other ∈ db.ntpKey, other.keyId = leadingInt p.key ∧
        Besides NtpKeyRow.uuid (ntpOvsrecGetAuthKey db (atoi p.key)) other
    else
      (ntpOvsrecGetAuthKey db (atoi p.key) = none → txn.inserted = true) ∧
        atoi p.key ≠ leadingInt p.key ∧ Misread db p.key ∧
          ∀ kr ∈ db.ntpKey, kr.keyId = leadingInt p.key → ∃ pwd ∈ p.md5Pwd, kr.keyPassword ≠ pwd

/-- The `no` form meets a trusted row with the number besides the one that it
    writes. The plain form takes the number for another one, and no row with
    the number is trusted. -/
def NtpTrustedKeyParams.Slips (txn : Txn) (db : Db) (p : NtpTrustedKeyParams) : Prop :=
  (∃ keyRow, ntpSanitizeAuthKey db (some p.key) true none = .ok keyRow) ∧ txn.Commits ∧
    if p.noForm then
      ∃ other ∈ db.ntpKey, (other.keyId = leadingInt p.key ∧ other.trustEnable = true) ∧
        Besides NtpKeyRow.uuid (ntpOvsrecGetAuthKey db (atoi p.key)) other
    else
      Misread db p.key ∧ ∀ kr ∈ db.ntpKey, kr.keyId = leadingInt p.key → kr.trustEnable = false

/-- The invocations that return a success without their request. -/
def Invocation.Slips (txn : Txn) (db : Db) : Invocation → Prop
  | .server p => p.Slips isValidIpv4 txn db
  | .authKey p => p.Slips txn db
  | .trustedKey p => p.Slips txn db

/-! ## Section 2: The paths that return -/

/-- A verdict that does not end a transaction is no success. -/
def Verdict.Honest : Verdict → Prop
  | .done code _ => code ≠ .success
  | .endDbTxn _ _ => True

section verdicts
variable {txn : Txn} {db : Db}

theorem configFinishResult_eq_success_iff {status : TxnStatus} :
    configFinishResult status = .success ↔ status = .success ∨ status = .unchanged := by
  unfold configFinishResult
  by_cases h : status = .success ∨ status = .unchanged
  · simp [h]
  · simp [h]

/-- Without a success the database is as it was. -/
theorem Verdict.run_unchanged (v : Verdict) (h : (v.run txn db).1 ≠ .success) :
    (v.run txn db).2 = db := by
  cases v with
  | done code out => rfl
  | endDbTxn ops out => exact if_neg h

/-- A success of an honest verdict is a commit. -/
theorem Verdict.Honest.commits {body : Verdict} (h : body.Honest)
    (hsuccess : ((startDbTxn txn body).run txn db).1 = .success) : txn.Commits := by
  unfold startDbTxn at hsuccess
  by_cases hcreated : txn.created = true
  · rw [if_pos hcreated] at hsuccess
    cases body with
    | done code out => exact absurd hsuccess h
    | endDbTxn ops out => exact ⟨hcreated, configFinishResult_eq_success_iff.mp hsuccess⟩
  · rw [if_neg hcreated] at hsuccess
    cases hsuccess

theorem startDbTxn_of_commits (h : txn.Commits) (body : Verdict) : startDbTxn txn body = body :=
  if_pos h.1

theorem run_endDbTxn_of_commits (h : txn.Commits) (ops : List DbOp) (out : String) :
    (Verdict.endDbTxn ops out).run txn db = (.success, db.commit ops) := by
  have hstatus := configFinishResult_eq_success_iff.mpr h.2
  show (configFinishResult txn.status,
    if configFinishResult txn.status = .success then db.commit ops else db) = _
  rw [hstatus, if_pos rfl]

end verdicts

theorem sanitizeKey_error {db : Db} {wantRow : Bool} {pkey : Option String} {e : Refusal}
    (h : sanitizeKey db wantRow pkey = .error e) : e.code ≠ .success := by
  unfold sanitizeKey at h
  cases pkey with
  | none => cases h
  | some key =>
    simp only at h
    split at h
    · cases h; decide
    · split at h
      · split at h
        · cases h; decide
        · cases h
      · cases h

theorem ntpSanitizeAuthKey_error {db : Db} {pkey password : Option String} {wantRow : Bool}
    {e : Refusal} (h : ntpSanitizeAuthKey db pkey wantRow password = .error e) :
    e.code ≠ .success := by
  unfold ntpSanitizeAuthKey at h
  cases hkey : sanitizeKey db wantRow pkey with
  | error e' =>
    rw [hkey] at h
    cases h
    exact sanitizeKey_error hkey
  | ok row =>
    rw [hkey] at h
    cases password with
    | none => cases h
    | some pwd =>
      simp only at h
      split at h
      · cases h; decide
      · cases h

theorem sanitizeServerName_error {name : String} {e : Refusal}
    (h : sanitizeServerName isValidIpv4 name = .error e) : e.code ≠ .success := by
  unfold sanitizeServerName at h
  split at h
  · cases h; decide
  · split at h
    · cases h; decide
    · cases h

theorem ntpServerSanitizeParameters_error {db : Db} {p : NtpServerParams} {e : Refusal}
    (h : ntpServerSanitizeParameters isValidIpv4 db p = .error e) : e.code ≠ .success := by
  unfold ntpServerSanitizeParameters at h
  cases hname : sanitizeServerName isValidIpv4 p.serverName with
  | error e' =>
    rw [hname] at h
    cases h
    exact sanitizeServerName_error isValidIpv4 hname
  | ok u =>
    cases hkey : ntpSanitizeAuthKey db p.keyid true none with
    | error e' =>
      rw [hname, hkey] at h
      cases h
      exact ntpSanitizeAuthKey_error hkey
    | ok keyRow =>
      rw [hname, hkey] at h
      simp only at h
      split at h
      · cases h
      · split at h
        · cases h; decide
        · cases h

/-! ## Section 3: The handlers -/

section handlers
variable {txn : Txn} {db : Db}

theorem ntpOvsrecGetAssoc_isServer {vrfName serverName : String} {row : NtpAssociationRow}
    (h : ntpOvsrecGetAssoc db vrfName serverName = some row) :
    row ∈ db.ntpAssociation ∧ IsServer db vrfName serverName row := by
  have hmatch := List.find?_some h
  rw [decide_eq_true_eq] at hmatch
  exact ⟨List.mem_of_find?_eq_some h, hmatch.1.symm, hmatch.2⟩

theorem not_isServer_of_getAssoc_none {vrfName serverName : String}
    (h : ntpOvsrecGetAssoc db vrfName serverName = none) :
    ∀ row ∈ db.ntpAssociation, ¬ IsServer db vrfName serverName row := by
  intro row hrow hserver
  have hno := List.find?_eq_none.mp h row hrow
  rw [decide_eq_true_eq] at hno
  exact hno ⟨hserver.1.symm, hserver.2⟩

theorem ntpOvsrecGetAuthKey_keyId {key : Int} {row : NtpKeyRow}
    (h : ntpOvsrecGetAuthKey db key = some row) : row ∈ db.ntpKey ∧ row.keyId = key := by
  have hmatch := List.find?_some h
  rw [decide_eq_true_eq] at hmatch
  exact ⟨List.mem_of_find?_eq_some h, hmatch⟩

/-- Only a number that is no `int` is misread, when the lookup finds a key. -/
theorem Misread.atoi_ne {key : String} {row : NtpKeyRow} (h : Misread db key)
    (hrow : ntpOvsrecGetAuthKey db (atoi key) = some row) : atoi key ≠ leadingInt key := by
  obtain ⟨hmem, hid⟩ := ntpOvsrecGetAuthKey_keyId hrow
  intro hread
  exact h row hmem (hid.trans hread) row hrow rfl

theorem lookup_prefer_optionAssocAttribs {p : NtpServerParams} (hprefer : p.prefer = true)
    (attribs : Smap) :
    (optionAssocAttribs p attribs).lookup ntpAssocAttribPrefer = some "true" := by
  have hne : ntpAssocAttribPrefer ≠ ntpAssocAttribVersion := by decide
  unfold optionAssocAttribs
  rw [if_pos hprefer]
  cases p.version with
  | none => exact Finmap.lookup_insert _
  | some v => exact (Finmap.lookup_insert_of_ne _ hne).trans (Finmap.lookup_insert _)

theorem lookup_version_optionAssocAttribs {p : NtpServerParams} {v : String}
    (hversion : p.version = some v) (attribs : Smap) :
    (optionAssocAttribs p attribs).lookup ntpAssocAttribVersion = some v := by
  unfold optionAssocAttribs
  rw [hversion]
  exact Finmap.lookup_insert _

/-- The row that the handler writes, whether it is new or not, has the options
    if the key is the one that was meant. -/
theorem hasOptions_written {p : NtpServerParams} {keyRow : Option NtpKeyRow}
    (hok : ntpServerSanitizeParameters isValidIpv4 db p = .ok keyRow) (attribs : Smap)
    (serverExists : Bool) (row : NtpAssociationRow) :
    HasOptions db p ((ntpServerReplaceParameters db attribs p keyRow serverExists).apply row) ↔
      ¬ ∃ key ∈ p.keyid, Misread db key := by
  have hattribs : ∃ base, ((ntpServerReplaceParameters db attribs p keyRow
      serverExists).apply row).associationAttributes = optionAssocAttribs p base := by
    cases serverExists with
    | true => exact ⟨attribs, rfl⟩
    | false => exact ⟨defaultAssocAttribs attribs, rfl⟩
  obtain ⟨base, hbase⟩ := hattribs
  have hrow := sanitizeKey_true_ok_iff.mp
    ((ntpServerSanitizeParameters_ok_iff isValidIpv4).mp hok).2.1
  -- the reference is to the row that the lookup has found
  have hkey : ∀ key ∈ p.keyid, ∃ found, ntpOvsrecGetAuthKey db (atoi key) = some found ∧
      ((ntpServerReplaceParameters db attribs p keyRow serverExists).apply row).keyId =
        some found.uuid := by
    intro key hkey
    have hsome : p.keyid = some key := hkey
    rw [hsome] at hrow
    obtain ⟨_, found, hfound, rfl⟩ := hrow
    refine ⟨found, hfound, ?_⟩
    cases serverExists <;> simp [ntpServerReplaceParameters, NtpAssociationWrites.apply, hsome]
  constructor
  · rintro hoptions ⟨key, hmem, hmisread⟩
    obtain ⟨found, hfound, href⟩ := hkey key hmem
    obtain ⟨kr, hkr, href', hid⟩ := hoptions.keyId key hmem
    rw [href] at href'
    exact hmisread kr hkr hid found hfound (Option.some.inj href').symm
  · intro hread
    refine { prefer := ?_, version := ?_, keyId := ?_ }
    · intro hprefer
      rw [hbase]; exact lookup_prefer_optionAssocAttribs hprefer base
    · intro v hv
      rw [hbase]; exact lookup_version_optionAssocAttribs hv base
    · intro key hmem
      obtain ⟨found, hfound, href⟩ := hkey key hmem
      by_contra hnone
      refine hread ⟨key, hmem, ?_⟩
      intro kr hkr hid row' hrow' heq
      rw [hfound] at hrow'
      obtain rfl := Option.some.inj hrow'
      exact hnone ⟨kr, hkr, by rw [href, heq], hid⟩

theorem HasOptions.congr {p : NtpServerParams} {row : NtpAssociationRow}
    (h : HasOptions db p row) {db' : Db} (hkeys : db'.ntpKey = db.ntpKey) :
    HasOptions db' p row :=
  { prefer := h.prefer, version := h.version, keyId := by rw [hkeys]; exact h.keyId }

/-- After the deletion of the row found there is no other match if there was
    none before. -/
theorem forall_filter_uuid {ρ : Type} (uuid : ρ → Uuid) {rows : List ρ} {matching : ρ → Prop}
    (found : ρ) :
    (∀ r ∈ rows.filter (fun r => uuid r ≠ uuid found), ¬ matching r) ↔
      ¬ ∃ other ∈ rows, matching other ∧ Besides uuid (some found) other := by
  simp only [Besides, List.mem_filter, decide_eq_true_eq, not_exists, not_and, and_imp,
    Option.mem_def, Option.some.injEq, forall_eq']
  constructor
  · intro h r hr hmatch hne
    exact h r hr hne hmatch
  · intro h r hr hne hmatch
    exact h r hr hmatch hne

/-! ### Servers -/

/-- A success is a commit of accepted arguments. -/
theorem server_success {p : NtpServerParams}
    (h : ((vtyshOvsdbNtpServerSet isValidIpv4 txn db p).run txn db).1 = .success) :
    (∃ keyRow, ntpServerSanitizeParameters isValidIpv4 db p = .ok keyRow) ∧ txn.Commits := by
  unfold vtyshOvsdbNtpServerSet at h
  cases hok : ntpServerSanitizeParameters isValidIpv4 db p with
  | error e =>
    rw [hok] at h
    exact absurd h (ntpServerSanitizeParameters_error isValidIpv4 hok)
  | ok keyRow =>
    refine ⟨⟨keyRow, rfl⟩, ?_⟩
    simp only [hok] at h
    refine Verdict.Honest.commits ?_ h
    -- the one path of the body that does not end the transaction is a failed insertion
    split
    · split
      · trivial
      · split
        · trivial
        · split
          · intro hcode; cases hcode
          · trivial
    · split <;> trivial

theorem server_no_truth {p : NtpServerParams} {keyRow : Option NtpKeyRow}
    (hok : ntpServerSanitizeParameters isValidIpv4 db p = .ok keyRow) (hcommits : txn.Commits)
    (hform : p.noForm = true) :
    (((vtyshOvsdbNtpServerSet isValidIpv4 txn db p).run txn db).1 = .success →
      p.Holds ((vtyshOvsdbNtpServerSet isValidIpv4 txn db p).run txn db).2) ↔
      ¬ ∃ other ∈ db.ntpAssociation, IsServer db p.vrfName p.serverName other ∧
        Besides NtpAssociationRow.uuid (ntpOvsrecGetAssoc db p.vrfName p.serverName)
          other := by
  unfold NtpServerParams.Holds
  rw [if_pos hform]
  cases hrow : ntpOvsrecGetAssoc db p.vrfName p.serverName with
  | none =>
    have hverdict : vtyshOvsdbNtpServerSet isValidIpv4 txn db p =
        .endDbTxn [] "This server does not exist\n" := by
      simp [vtyshOvsdbNtpServerSet, hok, startDbTxn_of_commits hcommits, hrow, hform]
    rw [hverdict, run_endDbTxn_of_commits hcommits]
    constructor
    · rintro _ ⟨other, hother, hserver, _⟩
      exact not_isServer_of_getAssoc_none hrow other hother hserver
    · intro _ _; exact not_isServer_of_getAssoc_none hrow
  | some row =>
    have hverdict : vtyshOvsdbNtpServerSet isValidIpv4 txn db p =
        .endDbTxn [.deleteAssociation row.uuid] "" := by
      simp [vtyshOvsdbNtpServerSet, hok, startDbTxn_of_commits hcommits, hrow, hform]
    rw [hverdict, run_endDbTxn_of_commits hcommits]
    exact (imp_iff_right rfl).trans (forall_filter_uuid NtpAssociationRow.uuid row)

theorem server_plain_truth {p : NtpServerParams} {keyRow : Option NtpKeyRow}
    (hok : ntpServerSanitizeParameters isValidIpv4 db p = .ok keyRow) (hcommits : txn.Commits)
    (hform : p.noForm = false) :
    (((vtyshOvsdbNtpServerSet isValidIpv4 txn db p).run txn db).1 = .success →
      p.Holds ((vtyshOvsdbNtpServerSet isValidIpv4 txn db p).run txn db).2) ↔
      ¬ match ntpOvsrecGetAssoc db p.vrfName p.serverName with
        | none =>
            db.ntpAssociation.length ≥ ntpAssocMaxServers ∨
              (txn.inserted = true ∧ (¬ FirstVrf db p.vrfName ∨ ∃ key ∈ p.keyid, Misread db key))
        | some row =>
            (∃ key ∈ p.keyid, Misread db key) ∧
              ∀ other ∈ db.ntpAssociation, IsServer db p.vrfName p.serverName other →
                other.uuid ≠ row.uuid → ¬ HasOptions db p other := by
  have hplain : ¬ p.noForm = true := by rw [hform]; exact Bool.false_ne_true
  have hwritten := hasOptions_written isValidIpv4 hok
  unfold NtpServerParams.Holds
  rw [if_neg hplain]
  cases hrow : ntpOvsrecGetAssoc db p.vrfName p.serverName with
  | some row =>
    have hverdict : vtyshOvsdbNtpServerSet isValidIpv4 txn db p =
        .endDbTxn [.updateAssociation row.uuid
          (ntpServerReplaceParameters db row.associationAttributes p keyRow true)] "" := by
      simp [vtyshOvsdbNtpServerSet, hok, startDbTxn_of_commits hcommits, hrow, hform]
    rw [hverdict, run_endDbTxn_of_commits hcommits]
    obtain ⟨hmem, hserver⟩ := ntpOvsrecGetAssoc_isServer hrow
    constructor
    · rintro hholds ⟨hmisread, hothers⟩
      obtain ⟨r, hr, hisServer, hoptions⟩ := hholds rfl
      rcases Rows.mem_updateWhere.mp hr with ⟨hold, hne⟩ | ⟨r₀, _, _, rfl⟩
      · exact hothers r hold hisServer hne (hoptions.congr rfl)
      · exact (hwritten _ true r₀).mp (hoptions.congr rfl) hmisread
    · intro hnot _
      by_cases hmisread : ∃ key ∈ p.keyid, Misread db key
      · -- another row must have the options
        obtain ⟨other, hother, hisServer, hne, hoptions⟩ : ∃ other ∈ db.ntpAssociation,
            IsServer db p.vrfName p.serverName other ∧ other.uuid ≠ row.uuid ∧
              HasOptions db p other := by
          by_contra hnone
          refine hnot ⟨hmisread, ?_⟩
          intro other hother hisServer hne hoptions
          exact hnone ⟨other, hother, hisServer, hne, hoptions⟩
        exact ⟨other, Rows.mem_updateWhere.mpr (Or.inl ⟨hother, hne⟩), hisServer,
          hoptions.congr rfl⟩
      · -- the row found is written, and stays the server it was
        exact ⟨_, Rows.mem_updateWhere.mpr (Or.inr ⟨row, hmem, rfl, rfl⟩), hserver,
          ((hwritten row.associationAttributes true row).mpr hmisread).congr rfl⟩
  | none =>
    have hnone := not_isServer_of_getAssoc_none hrow
    by_cases hfull : db.ntpAssociation.length ≥ ntpAssocMaxServers
    · have hverdict : vtyshOvsdbNtpServerSet isValidIpv4 txn db p = .endDbTxn []
          "Maximum number of configurable NTP server limit has been reached\n" := by
        simp [vtyshOvsdbNtpServerSet, hok, startDbTxn_of_commits hcommits, hrow, hform,
          ntpServerCheckMaxNumberOfServers, hfull]
      rw [hverdict, run_endDbTxn_of_commits hcommits]
      constructor
      · intro hholds
        obtain ⟨row, hmem, hserver, _⟩ := hholds rfl
        exact absurd hserver (hnone row hmem)
      · intro hnot
        exact absurd (Or.inl hfull) hnot
    · by_cases hinserted : txn.inserted = true
      · have hverdict : vtyshOvsdbNtpServerSet isValidIpv4 txn db p = .endDbTxn
            [.insertAssociation (ntpServerReplaceParameters db ∅ p keyRow false)] "" := by
          simp [vtyshOvsdbNtpServerSet, hok, startDbTxn_of_commits hcommits, hrow, hform,
            ntpServerCheckMaxNumberOfServers, hfull, hinserted]
        rw [hverdict, run_endDbTxn_of_commits hcommits]
        -- the new row refers to the first VRF row
        have hnew : IsServer db p.vrfName p.serverName
            ((ntpServerReplaceParameters db ∅ p keyRow false).apply (.blank db.nextUuid)) ↔
            FirstVrf db p.vrfName := by
          show (p.serverName = p.serverName ∧
            ∃ v ∈ (db.vrf.head?.map VrfRow.uuid).bind db.vrfRow, v.name = p.vrfName) ↔ _
          unfold FirstVrf
          cases hhead : db.vrf.head? with
          | none => simp
          | some v =>
            obtain ⟨vs, hvs⟩ := List.head?_eq_some_iff.mp hhead
            have hderef : db.vrfRow v.uuid = some v := by simp [Db.vrfRow, hvs]
            simp [hderef]
        constructor
        · intro hholds hslip
          obtain ⟨row, hmem, hserver, hoptions⟩ := hholds rfl
          rcases hslip with hfull' | ⟨_, hwrong⟩
          · exact hfull hfull'
          · rcases List.mem_cons.mp hmem with rfl | hold
            · rcases hwrong with hfirst | hmisread
              · exact hfirst (hnew.mp hserver)
              · exact (hwritten ∅ false _).mp (hoptions.congr rfl) hmisread
            · exact hnone row hold hserver
        · intro hnot _
          have hfirst : FirstVrf db p.vrfName := by
            by_contra hfirst
            exact hnot (Or.inr ⟨hinserted, Or.inl hfirst⟩)
          have hread : ¬ ∃ key ∈ p.keyid, Misread db key := by
            intro hmisread
            exact hnot (Or.inr ⟨hinserted, Or.inr hmisread⟩)
          exact ⟨_, List.mem_cons_self, hnew.mpr hfirst,
            ((hwritten ∅ false _).mpr hread).congr rfl⟩
      · have hverdict : vtyshOvsdbNtpServerSet isValidIpv4 txn db p =
            erroneousDbTxn "Could not insert a row into the NTP Assoc Table" := by
          simp [vtyshOvsdbNtpServerSet, hok, startDbTxn_of_commits hcommits, hrow, hform,
            ntpServerCheckMaxNumberOfServers, hfull, hinserted]
        rw [hverdict]
        constructor
        · rintro _ (hfull' | ⟨hins, _⟩)
          · exact hfull hfull'
          · exact hinserted hins
        · intro _ hsuccess; cases hsuccess

theorem server_truth (p : NtpServerParams) :
    (((vtyshOvsdbNtpServerSet isValidIpv4 txn db p).run txn db).1 = .success →
      p.Holds ((vtyshOvsdbNtpServerSet isValidIpv4 txn db p).run txn db).2) ↔
      ¬ p.Slips isValidIpv4 txn db := by
  by_cases hcond : (∃ keyRow, ntpServerSanitizeParameters isValidIpv4 db p = .ok keyRow) ∧
      txn.Commits
  · obtain ⟨⟨keyRow, hok⟩, hcommits⟩ := hcond
    unfold NtpServerParams.Slips
    rw [and_iff_right ⟨keyRow, hok⟩, and_iff_right hcommits]
    cases hform : p.noForm with
    | true => exact server_no_truth isValidIpv4 hok hcommits hform
    | false =>
      rw [if_neg Bool.false_ne_true]
      exact server_plain_truth isValidIpv4 hok hcommits hform
  · constructor
    · rintro _ ⟨haccepted, hcommits, _⟩; exact hcond ⟨haccepted, hcommits⟩
    · intro _ hsuccess; exact absurd (server_success isValidIpv4 hsuccess) hcond

/-! ### Keys -/

theorem authKey_success {p : NtpAuthKeyParams}
    (h : ((vtyshOvsdbNtpAuthKeySet txn db p).run txn db).1 = .success) :
    (∃ keyRow, ntpSanitizeAuthKey db (some p.key) false p.md5Pwd = .ok keyRow) ∧ txn.Commits := by
  unfold vtyshOvsdbNtpAuthKeySet at h
  cases hok : ntpSanitizeAuthKey db (some p.key) false p.md5Pwd with
  | error e =>
    rw [hok] at h
    exact absurd h (ntpSanitizeAuthKey_error hok)
  | ok keyRow =>
    refine ⟨⟨keyRow, rfl⟩, ?_⟩
    simp only [hok] at h
    refine Verdict.Honest.commits ?_ h
    split
    · split
      · trivial
      · split
        · intro hcode; cases hcode
        · trivial
    · split <;> trivial

/-- Rows with the number that do not make the request hold have other passwords. -/
theorem others_of_not_holds {key : Int} {md5Pwd : Option String}
    (h : ∀ kr ∈ db.ntpKey, kr.keyId = key → ¬ ∀ pwd ∈ md5Pwd, kr.keyPassword = pwd) :
    ∀ kr ∈ db.ntpKey, kr.keyId = key → ∃ pwd ∈ md5Pwd, kr.keyPassword ≠ pwd := by
  intro kr hkr hid
  by_contra hnone
  refine h kr hkr hid ?_
  intro pwd hpwd
  by_contra hne
  exact hnone ⟨pwd, hpwd, hne⟩

theorem authKey_truth (p : NtpAuthKeyParams) :
    (((vtyshOvsdbNtpAuthKeySet txn db p).run txn db).1 = .success →
      p.Holds ((vtyshOvsdbNtpAuthKeySet txn db p).run txn db).2) ↔ ¬ p.Slips txn db := by
  by_cases hcond : (∃ keyRow, ntpSanitizeAuthKey db (some p.key) false p.md5Pwd = .ok keyRow) ∧
      txn.Commits
  · obtain ⟨⟨keyRow, hok⟩, hcommits⟩ := hcond
    unfold NtpAuthKeyParams.Slips NtpAuthKeyParams.Holds
    rw [and_iff_right ⟨keyRow, hok⟩, and_iff_right hcommits]
    cases hform : p.noForm with
    | true =>
      rw [if_pos rfl, if_pos rfl]
      cases hrow : ntpOvsrecGetAuthKey db (atoi p.key) with
      | none =>
        have hverdict : vtyshOvsdbNtpAuthKeySet txn db p =
            .endDbTxn [] "This key does not exist\n" := by
          simp [vtyshOvsdbNtpAuthKeySet, hok, startDbTxn_of_commits hcommits, hrow, hform]
        rw [hverdict, run_endDbTxn_of_commits hcommits]
        constructor
        · rintro hholds ⟨other, hother, hid, _⟩
          exact hholds rfl other hother hid
        · intro hnot _ kr hkr hid
          exact hnot ⟨kr, hkr, hid, fun row hnone => by cases hnone⟩
      | some row =>
        have hverdict : vtyshOvsdbNtpAuthKeySet txn db p =
            .endDbTxn [.deleteKey row.uuid] "" := by
          simp [vtyshOvsdbNtpAuthKeySet, hok, startDbTxn_of_commits hcommits, hrow, hform]
        rw [hverdict, run_endDbTxn_of_commits hcommits]
        exact (imp_iff_right rfl).trans (forall_filter_uuid NtpKeyRow.uuid row)
    | false =>
      rw [if_neg Bool.false_ne_true, if_neg Bool.false_ne_true]
      have hwritten : ∀ pwd ∈ p.md5Pwd, p.md5Pwd.getD "" = pwd := by
        intro pwd hpwd
        exact congrArg (Option.getD · "") hpwd
      cases hrow : ntpOvsrecGetAuthKey db (atoi p.key) with
      | none =>
        have habsent := ntpOvsrecGetAuthKey_none.mp hrow
        by_cases hinserted : txn.inserted = true
        · have hverdict : vtyshOvsdbNtpAuthKeySet txn db p =
              .endDbTxn [.insertKey (ntpAuthKeyReplaceParameters p false)] "" := by
            simp [vtyshOvsdbNtpAuthKeySet, hok, startDbTxn_of_commits hcommits, hrow, hform,
              hinserted]
          rw [hverdict, run_endDbTxn_of_commits hcommits]
          constructor
          · rintro hholds ⟨_, hwrong, _, hothers⟩
            obtain ⟨kr, hkr, hid, hpwd⟩ := hholds rfl
            rcases List.mem_cons.mp hkr with rfl | hold
            · exact hwrong hid
            · obtain ⟨pwd, hmem, hne⟩ := hothers kr hold hid
              exact hne (hpwd pwd hmem)
          · intro hnot _
            by_cases hread : atoi p.key = leadingInt p.key
            · exact ⟨_, List.mem_cons_self, hread, hwritten⟩
            · by_contra hnone
              refine hnot ⟨fun _ => hinserted, hread, ?_, ?_⟩
              · intro kr _ _ row hmem
                rw [hrow] at hmem
                cases hmem
              · exact others_of_not_holds fun kr hkr hid hpwd =>
                  hnone ⟨kr, List.mem_cons_of_mem _ hkr, hid, hpwd⟩
        · have hverdict : vtyshOvsdbNtpAuthKeySet txn db p =
              erroneousDbTxn "Could not insert a row into the NTP Keys Table" := by
            simp [vtyshOvsdbNtpAuthKeySet, hok, startDbTxn_of_commits hcommits, hrow, hform,
              hinserted]
          rw [hverdict]
          constructor
          · rintro _ ⟨hins, _⟩; exact hinserted (hins rfl)
          · intro _ hsuccess; cases hsuccess
      | some row =>
        have hverdict : vtyshOvsdbNtpAuthKeySet txn db p =
            .endDbTxn [.updateKey row.uuid (ntpAuthKeyReplaceParameters p true)] "" := by
          simp [vtyshOvsdbNtpAuthKeySet, hok, startDbTxn_of_commits hcommits, hrow, hform]
        rw [hverdict, run_endDbTxn_of_commits hcommits]
        constructor
        · rintro hholds ⟨_, _, hmisread, hothers⟩
          obtain ⟨kr, hkr, hkrId, hpwd⟩ := hholds rfl
          rcases Rows.mem_updateWhere.mp hkr with ⟨hold, _⟩ | ⟨r₀, hr₀, huuid, rfl⟩
          · obtain ⟨pwd, hpwdMem, hne⟩ := hothers kr hold hkrId
            exact hne (hpwd pwd hpwdMem)
          · exact hmisread r₀ hr₀ hkrId row hrow huuid
        · intro hnot _
          by_contra hnone
          -- a row with the number is neither written nor has it the password
          have hmisread : Misread db p.key := by
            intro kr hkr hkrId row' hrow' huuid
            rw [hrow] at hrow'
            obtain rfl := Option.some.inj hrow'
            exact hnone ⟨_, Rows.mem_updateWhere.mpr (Or.inr ⟨kr, hkr, huuid, rfl⟩), hkrId,
              hwritten⟩
          refine hnot ⟨fun h => absurd h (Option.some_ne_none row), hmisread.atoi_ne hrow,
            hmisread, ?_⟩
          refine others_of_not_holds fun kr hkr hkrId hpwd => hnone ⟨kr, ?_, hkrId, hpwd⟩
          exact Rows.mem_updateWhere.mpr (Or.inl ⟨hkr, hmisread kr hkr hkrId row hrow⟩)
  · constructor
    · rintro _ ⟨haccepted, hcommits, _⟩; exact hcond ⟨haccepted, hcommits⟩
    · intro _ hsuccess; exact absurd (authKey_success hsuccess) hcond

/-! ### Trust -/

theorem trustedKey_success {p : NtpTrustedKeyParams}
    (h : ((vtyshOvsdbNtpTrustedKeySet txn db p).run txn db).1 = .success) :
    (∃ keyRow, ntpSanitizeAuthKey db (some p.key) true none = .ok keyRow) ∧ txn.Commits := by
  unfold vtyshOvsdbNtpTrustedKeySet at h
  cases hok : ntpSanitizeAuthKey db (some p.key) true none with
  | error e =>
    rw [hok] at h
    exact absurd h (ntpSanitizeAuthKey_error hok)
  | ok keyRow =>
    refine ⟨⟨keyRow, rfl⟩, ?_⟩
    simp only [hok] at h
    refine Verdict.Honest.commits ?_ h
    split <;> trivial

/-- The accepted key has a row, whose trust flag the handler writes. -/
theorem trustedKey_run {p : NtpTrustedKeyParams} {keyRow : Option NtpKeyRow}
    (hok : ntpSanitizeAuthKey db (some p.key) true none = .ok keyRow) (hcommits : txn.Commits) :
    ∃ row, ntpOvsrecGetAuthKey db (atoi p.key) = some row ∧
      (vtyshOvsdbNtpTrustedKeySet txn db p).run txn db =
        (.success, db.apply (.updateKey row.uuid ⟨none, none, some !p.noForm⟩)) := by
  have hkey : sanitizeKey db true (some p.key) = .ok keyRow := by
    unfold ntpSanitizeAuthKey at hok
    cases hkey : sanitizeKey db true (some p.key) with
    | error e => rw [hkey] at hok; cases hok
    | ok r => rw [hkey] at hok; exact hok
  obtain ⟨_, row, hrow, rfl⟩ := sanitizeKey_true_ok_iff.mp hkey
  refine ⟨row, hrow, ?_⟩
  have hverdict : vtyshOvsdbNtpTrustedKeySet txn db p =
      .endDbTxn [.updateKey row.uuid ⟨none, none, some !p.noForm⟩] "" := by
    simp [vtyshOvsdbNtpTrustedKeySet, hok, startDbTxn_of_commits hcommits]
  rw [hverdict, run_endDbTxn_of_commits hcommits]
  rfl

theorem trustedKey_truth (p : NtpTrustedKeyParams) :
    (((vtyshOvsdbNtpTrustedKeySet txn db p).run txn db).1 = .success →
      p.Holds ((vtyshOvsdbNtpTrustedKeySet txn db p).run txn db).2) ↔ ¬ p.Slips txn db := by
  by_cases hcond : (∃ keyRow, ntpSanitizeAuthKey db (some p.key) true none = .ok keyRow) ∧
      txn.Commits
  · obtain ⟨⟨keyRow, hok⟩, hcommits⟩ := hcond
    obtain ⟨row, hrow, hrun⟩ := trustedKey_run hok hcommits
    unfold NtpTrustedKeyParams.Slips NtpTrustedKeyParams.Holds
    rw [and_iff_right ⟨keyRow, hok⟩, and_iff_right hcommits, hrun, hrow]
    refine (imp_iff_right rfl).trans ?_
    cases hform : p.noForm with
    | true =>
      rw [if_pos rfl, if_pos rfl]
      constructor
      · rintro hnone ⟨other, hother, hmatch, hbesides⟩
        have hne : other.uuid ≠ row.uuid := hbesides row rfl
        exact hnone other (Rows.mem_updateWhere.mpr (Or.inl ⟨hother, hne⟩)) hmatch
      · intro hnot kr hkr hmatch
        -- a row that is written is not trusted
        rcases Rows.mem_updateWhere.mp hkr with ⟨hold, hne⟩ | ⟨r₀, _, _, rfl⟩
        · refine hnot ⟨kr, hold, hmatch, ?_⟩
          intro row' hrow'
          obtain rfl := Option.some.inj hrow'
          exact hne
        · exact Bool.false_ne_true hmatch.2
    | false =>
      rw [if_neg Bool.false_ne_true, if_neg Bool.false_ne_true]
      constructor
      · rintro ⟨kr, hkr, hkrId, htrust⟩ ⟨hmisread, huntrusted⟩
        rcases Rows.mem_updateWhere.mp hkr with ⟨hold, _⟩ | ⟨r₀, hr₀, huuid, rfl⟩
        · rw [huntrusted kr hold hkrId] at htrust
          cases htrust
        · exact hmisread r₀ hr₀ hkrId row hrow huuid
      · intro hnot
        by_contra hnone
        have hmisread : Misread db p.key := by
          intro kr hkr hkrId row' hrow' huuid
          rw [hrow] at hrow'
          obtain rfl := Option.some.inj hrow'
          exact hnone ⟨_, Rows.mem_updateWhere.mpr (Or.inr ⟨kr, hkr, huuid, rfl⟩), hkrId, rfl⟩
        refine hnot ⟨hmisread, ?_⟩
        intro kr hkr hkrId
        rw [← Bool.not_eq_true]
        intro htrust
        have hne : kr.uuid ≠ row.uuid := hmisread kr hkr hkrId row hrow
        exact hnone ⟨kr, Rows.mem_updateWhere.mpr (Or.inl ⟨hkr, hne⟩), hkrId, htrust⟩
  · constructor
    · rintro _ ⟨haccepted, hcommits, _⟩; exact hcond ⟨haccepted, hcommits⟩
    · intro _ hsuccess; exact absurd (trustedKey_success hsuccess) hcond

end handlers

/-! ## Section 4: The invocations that keep the promise -/

/-- A refusal always leaves the tables as they were, and a success tells the
    truth, if and only if the invocation is none of those that slip. -/
theorem tellsTruth_iff (txn : Txn) (db : Db) (i : Invocation) :
    TellsTruth isValidIpv4 txn db i ↔ ¬ i.Slips isValidIpv4 txn db := by
  have hsuccess : ((i.run isValidIpv4 txn db).1 = .success →
      i.Holds (i.run isValidIpv4 txn db).2) ↔ ¬ i.Slips isValidIpv4 txn db := by
    cases i with
    | server p => exact server_truth isValidIpv4 p
    | authKey p => exact authKey_truth p
    | trustedKey p => exact trustedKey_truth p
  constructor
  · intro htruth
    exact hsuccess.mp htruth.success
  · intro hnot
    refine { success := hsuccess.mpr hnot, refusal := ?_ }
    intro hcode
    have hsame : (i.run isValidIpv4 txn db).2 = db :=
      Verdict.run_unchanged (i.verdict isValidIpv4 txn db) hcode
    rw [hsame]
    exact ⟨rfl, rfl⟩

/-- A number that is no `int` sets the password of another key. -/
example :
    (Invocation.authKey { noForm := false, key := "4294967303", md5Pwd := some "topsecret" }).run
      (fun _ => true) .committed
      { nextUuid := 2, system := [], vrf := [], ntpAssociation := []
        ntpKey := [⟨1, 7, "swordfish", true⟩] } =
    (.success,
      { nextUuid := 2, system := [], vrf := [], ntpAssociation := []
        ntpKey := [⟨1, 7, "topsecret", true⟩] }) := by decide +kernel

/-- Eight servers of the default VRF. -/
def fullTables : Db :=
  { nextUuid := 9, system := [], vrf := [⟨0, defaultVrfName⟩], ntpKey := []
    ntpAssociation := (List.range 8).map fun n =>
      ⟨n + 1, "s" ++ toString n ++ ".example", some 0, none, assocAttribs "3" false, ∅⟩ }

/-- A ninth server is refused with a success. -/
theorem success_of_full_table :
    (Invocation.server (ntpServerParams "s9.example" false none none)).run (fun _ => true)
      .committed fullTables = (.success, fullTables) ∧
    ¬ TellsTruth (fun _ => true) .committed fullTables
      (.server (ntpServerParams "s9.example" false none none)) := by
  have hrun : (Invocation.server (ntpServerParams "s9.example" false none none)).run
      (fun _ => true) .committed fullTables = (.success, fullTables) := by decide +kernel
  refine ⟨hrun, ?_⟩
  intro htruth
  have hholds := htruth.success (by rw [hrun])
  rw [hrun] at hholds
  obtain ⟨row, hrow, ⟨haddress, _⟩, _⟩ := hholds
  have hnone : ∀ r ∈ fullTables.ntpAssociation, r.address ≠ "s9.example" := by decide +kernel
  exact hnone row hrow haddress

end OpsNtpd.Cli
