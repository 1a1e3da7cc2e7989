import OpsNtpd.Cli.Handlers

/-! # CLI: What a Command Does and the Table Invariant

  Section 1 says once, for each command, what its committed transaction does
  to the database. Section 2 is the invariant of the tables that the commands
  build up from empty tables over a single default VRF, and Section 3 shows
  that every command preserves it.
-/

namespace OpsNtpd.Cli

open Text

variable (isValidIpv4 : Nat → Bool)

/-! ## Section 1: The effect of a committed command -/

@[simp] theorem run_done (txn : Txn) (db : Db) (code : CmdCode) (out : String) :
    (Verdict.done code out).run txn db = (code, db) := rfl

@[simp] theorem run_endDbTxn_committed (db : Db) (ops : List DbOp) (out : String) :
    (Verdict.endDbTxn ops out).run .committed db = (.success, db.commit ops) := rfl

@[simp] theorem startDbTxn_committed (body : Verdict) : startDbTxn .committed body = body := rfl

theorem run_ntpServer (db : Db) (name : String) (prefer : Bool) (version keyId : Option String) :
    (Command.ntpServer name prefer version keyId).run isValidIpv4 .committed db =
      match ntpServerSanitizeParameters isValidIpv4 db
          (ntpServerParams name prefer version keyId) with
      | .error e => (e.code, db)
      | .ok keyRow =>
        match ntpOvsrecGetAssoc db defaultVrfName name with
        | some row =>
            (.success, db.apply (.updateAssociation row.uuid
              (ntpServerReplaceParameters db row.associationAttributes
                (ntpServerParams name prefer version keyId) keyRow true)))
        | none =>
            if db.ntpAssociation.length ≥ ntpAssocMaxServers then (.success, db)
            else (.success, db.apply (.insertAssociation
              (ntpServerReplaceParameters db ∅
                (ntpServerParams name prefer version keyId) keyRow false))) := by
  simp only [Command.run, Command.verdict, vtyshOvsdbNtpServerSet]
  cases ntpServerSanitizeParameters isValidIpv4 db
      (ntpServerParams name prefer version keyId) with
  | error e => rfl
  | ok keyRow =>
    simp only [startDbTxn_committed, ntpServerParams]
    cases ntpOvsrecGetAssoc db defaultVrfName name with
    | some row => rfl
    | none =>
      by_cases hfull : db.ntpAssociation.length ≥ ntpAssocMaxServers
      · simp [ntpServerCheckMaxNumberOfServers, hfull]
      · simp [ntpServerCheckMaxNumberOfServers, hfull, Txn.committed, Verdict.run,
          configFinishResult]

theorem run_noNtpServer (db : Db) (name : String) :
    (Command.noNtpServer name).run isValidIpv4 .committed db =
      match ntpServerSanitizeParameters isValidIpv4 db (noNtpServerParams name) with
      | .error e => (e.code, db)
      | .ok _ =>
        match ntpOvsrecGetAssoc db defaultVrfName name with
        | some row => (.success, db.apply (.deleteAssociation row.uuid))
        | none => (.success, db) := by
  simp only [Command.run, Command.verdict, vtyshOvsdbNtpServerSet]
  cases ntpServerSanitizeParameters isValidIpv4 db (noNtpServerParams name) with
  | error e => rfl
  | ok keyRow =>
    simp only [startDbTxn_committed, noNtpServerParams]
    cases ntpOvsrecGetAssoc db defaultVrfName name with
    | some row => rfl
    | none => rfl

theorem run_ntpAuthenticationKey (db : Db) (key md5 : String) :
    (Command.ntpAuthenticationKey key md5).run isValidIpv4 .committed db =
      if ¬ (keyIdInRange (atoi key) ∧ passwordLenInRange md5) then (.errNothingToDo, db)
      else
        match ntpOvsrecGetAuthKey db (atoi key) with
        | some row =>
            (.success, db.apply (.updateKey row.uuid ⟨none, some md5, none⟩))
        | none => (.success, db.apply (.insertKey ⟨some (atoi key), some md5, none⟩)) := by
  simp only [Command.run, Command.verdict, vtyshOvsdbNtpAuthKeySet, ntpSanitizeAuthKey,
    sanitizeKey]
  by_cases hrange : keyIdInRange (atoi key)
  · by_cases hlen : passwordLenInRange md5
    · simp only [hrange, hlen, not_true_eq_false, if_false, startDbTxn_committed, and_self,
        Bool.false_eq_true]
      cases ntpOvsrecGetAuthKey db (atoi key) with
      | some row => rfl
      | none => rfl
    · simp [hrange, hlen]
  · simp [hrange]

theorem run_noNtpAuthenticationKey (db : Db) (key : String) :
    (Command.noNtpAuthenticationKey key).run isValidIpv4 .committed db =
      if ¬ keyIdInRange (atoi key) then (.errNothingToDo, db)
      else
        match ntpOvsrecGetAuthKey db (atoi key) with
        | some row => (.success, db.apply (.deleteKey row.uuid))
        | none => (.success, db) := by
  simp only [Command.run, Command.verdict, vtyshOvsdbNtpAuthKeySet, ntpSanitizeAuthKey,
    sanitizeKey]
  by_cases hrange : keyIdInRange (atoi key)
  · simp only [hrange, not_true_eq_false, if_false, startDbTxn_committed, Bool.false_eq_true]
    cases ntpOvsrecGetAuthKey db (atoi key) with
    | some row => rfl
    | none => rfl
  · simp [hrange]

/-- The trust flag that `ntp trusted-key` or its `no` form sets. -/
theorem run_trustedKey (db : Db) (key : String) (trust : Bool) :
    ((if trust then Command.ntpTrustedKey key else .noNtpTrustedKey key).run
        isValidIpv4 .committed db) =
      if ¬ keyIdInRange (atoi key) then (.errNothingToDo, db)
      else
        match ntpOvsrecGetAuthKey db (atoi key) with
        | some row => (.success, db.apply (.updateKey row.uuid ⟨none, none, some trust⟩))
        | none => (.ovsdbFailure, db) := by
  have hverdict : ∀ noForm : Bool,
      (vtyshOvsdbNtpTrustedKeySet .committed db { noForm := noForm, key := key }).run
          .committed db =
        if ¬ keyIdInRange (atoi key) then (.errNothingToDo, db)
        else
          match ntpOvsrecGetAuthKey db (atoi key) with
          | some row => (.success, db.apply (.updateKey row.uuid ⟨none, none, some !noForm⟩))
          | none => (.ovsdbFailure, db) := by
    intro noForm
    simp only [vtyshOvsdbNtpTrustedKeySet, ntpSanitizeAuthKey, sanitizeKey]
    by_cases hrange : keyIdInRange (atoi key)
    · simp only [hrange, not_true_eq_false, if_false, if_true]
      cases ntpOvsrecGetAuthKey db (atoi key) with
      | some row => rfl
      | none => rfl
    · simp [hrange]
  cases trust with
  | true => exact hverdict false
  | false => exact hverdict true

/-- `ntp authentication enable` and its `no` form. -/
theorem run_authenticationEnable (db : Db) (enable : Bool) :
    ((if enable then Command.ntpAuthenticationEnable else .noNtpAuthenticationEnable).run
        isValidIpv4 .committed db) =
      match db.system.head? with
      | none => (.warning, db)
      | some sys => (.success, db.apply (.updateSystem sys.uuid
          (sys.ntpConfig.insert systemNtpConfigAuthenticationEnable
            (if enable then "true" else "false")))) := by
  have hverdict : ∀ noForm : Bool,
      (vtyshOvsdbNtpAuthEnableSet .committed db { noForm := noForm }).run .committed db =
        match db.system.head? with
        | none => (.warning, db)
        | some sys => (.success, db.apply (.updateSystem sys.uuid
            (sys.ntpConfig.insert systemNtpConfigAuthenticationEnable
              (if noForm then "false" else "true")))) := by
    intro noForm
    simp only [vtyshOvsdbNtpAuthEnableSet, startDbTxn_committed]
    cases db.system.head? with
    | none => rfl
    | some sys => rfl
  cases enable with
  | true => exact hverdict false
  | false => exact hverdict true

/-! ## Section 2: The invariant -/

/-- The attributes column of a server row: the reference clock is never set. -/
def assocAttribs (version : String) (prefer : Bool) : Smap :=
  (((∅ : Smap).insert ntpAssocAttribRefClockId "-").insert ntpAssocAttribPrefer
    (if prefer then "true" else "false")).insert ntpAssocAttribVersion version

@[simp] theorem lookup_version_assocAttribs (version : String) (prefer : Bool) :
    (assocAttribs version prefer).lookup ntpAssocAttribVersion = some version :=
  Finmap.lookup_insert _

@[simp] theorem lookup_prefer_assocAttribs (version : String) (prefer : Bool) :
    (assocAttribs version prefer).lookup ntpAssocAttribPrefer =
      some (if prefer then "true" else "false") := by
  rw [assocAttribs, Finmap.lookup_insert_of_ne _ (by decide), Finmap.lookup_insert]

@[simp] theorem lookup_refClockId_assocAttribs (version : String) (prefer : Bool) :
    (assocAttribs version prefer).lookup ntpAssocAttribRefClockId = some "-" := by
  rw [assocAttribs, Finmap.lookup_insert_of_ne _ (by decide),
    Finmap.lookup_insert_of_ne _ (by decide), Finmap.lookup_insert]

theorem optionAssocAttribs_assocAttribs (p : NtpServerParams) (version : String)
    (prefer : Bool) :
    optionAssocAttribs p (assocAttribs version prefer) =
      assocAttribs (p.version.getD version) (p.prefer || prefer) := by
  have hne : ntpAssocAttribPrefer ≠ ntpAssocAttribVersion := by decide
  have hprefer : (if p.prefer then (assocAttribs version prefer).insert ntpAssocAttribPrefer "true"
      else assocAttribs version prefer) = assocAttribs version (p.prefer || prefer) := by
    cases p.prefer with
    | false => rfl
    | true =>
      simp only [if_true, Bool.true_or, assocAttribs]
      rw [← Finmap.insert_insert_of_ne _ hne, Finmap.insert_insert]
  unfold optionAssocAttribs
  rw [hprefer]
  cases p.version with
  | none => rfl
  | some v => simp only [assocAttribs, Option.getD_some, Finmap.insert_insert]

theorem optionAssocAttribs_default (p : NtpServerParams) :
    optionAssocAttribs p (defaultAssocAttribs ∅) =
      assocAttribs (p.version.getD ntpAssocAttribVersionDefault) p.prefer := by
  have h := optionAssocAttribs_assocAttribs p ntpAssocAttribVersionDefault false
  rwa [Bool.or_false] at h

/-- What the lookup of servers needs: every server refers to the first VRF
    row, which is the default one. -/
structure ServerTable (db : Db) : Prop where
  firstVrf : ∃ v, db.vrf.head? = some v ∧ v.name = defaultVrfName
  assocUuids : (db.ntpAssociation.map NtpAssociationRow.uuid).Nodup
  assocFresh : ∀ r ∈ db.ntpAssociation, r.uuid < db.nextUuid
  addresses : (db.ntpAssociation.map NtpAssociationRow.address).Nodup
  assocVrf : ∀ r ∈ db.ntpAssociation, r.vrf = db.vrf.head?.map VrfRow.uuid

/-- The tables that the commands build over a single default VRF. -/
structure WellFormed (db : Db) : Prop where
  defaultVrf : ∃ v, db.vrf = [v] ∧ v.name = defaultVrfName
  keyUuids : (db.ntpKey.map NtpKeyRow.uuid).Nodup
  keyFresh : ∀ r ∈ db.ntpKey, r.uuid < db.nextUuid
  keyIds : (db.ntpKey.map NtpKeyRow.keyId).Nodup
  keyValid : ∀ r ∈ db.ntpKey, keyIdInRange r.keyId ∧ passwordLenInRange r.keyPassword
  assocUuids : (db.ntpAssociation.map NtpAssociationRow.uuid).Nodup
  assocFresh : ∀ r ∈ db.ntpAssociation, r.uuid < db.nextUuid
  addresses : (db.ntpAssociation.map NtpAssociationRow.address).Nodup
  assocValid : ∀ r ∈ db.ntpAssociation, validServerName isValidIpv4 r.address
  assocVrf : ∀ r ∈ db.ntpAssociation, r.vrf = db.vrf.head?.map VrfRow.uuid
  assocAttributes : ∀ r ∈ db.ntpAssociation, ∃ version prefer,
    versionInRange version ∧ r.associationAttributes = assocAttribs version prefer
  assocKey : ∀ r ∈ db.ntpAssociation, ∀ k ∈ r.keyId, k ∈ db.ntpKey.map NtpKeyRow.uuid
  maxServers : db.ntpAssociation.length ≤ ntpAssocMaxServers

/-- Nothing configured yet: empty tables and exactly the default VRF. -/
def emptyTables (nextUuid vrf : Uuid) (system : List SystemRow) : Db :=
  { nextUuid := nextUuid, system := system, vrf := [⟨vrf, defaultVrfName⟩],
    ntpKey := [], ntpAssociation := [] }

theorem wellFormed_emptyTables (nextUuid vrf : Uuid) (system : List SystemRow) :
    WellFormed isValidIpv4 (emptyTables nextUuid vrf system) := by
  constructor <;> simp [emptyTables]

variable {isValidIpv4}

namespace ServerTable

variable {db : Db}

/-- The lookup by VRF and address is a lookup by address. -/
theorem ntpOvsrecGetAssoc_eq (h : ServerTable db) (name : String) :
    ntpOvsrecGetAssoc db defaultVrfName name =
      db.ntpAssociation.find? fun r => r.address = name := by
  obtain ⟨v, hvrf, hname⟩ := h.firstVrf
  have hfirst : db.vrfRow v.uuid = some v := by
    obtain ⟨vs, hvs⟩ := List.head?_eq_some_iff.mp hvrf
    simp [Db.vrfRow, hvs]
  have hderef : ∀ r ∈ db.ntpAssociation, ∃ w ∈ r.vrf.bind db.vrfRow, w.name = defaultVrfName := by
    intro r hr
    refine ⟨v, ?_, hname⟩
    rw [h.assocVrf r hr, hvrf]
    exact hfirst
  unfold ntpOvsrecGetAssoc
  rw [← List.head?_filter, ← List.head?_filter]
  congr 1
  apply List.filter_congr
  intro r hr
  rw [decide_eq_decide]
  constructor
  · intro hmatch; exact hmatch.1.symm
  · intro haddr; exact ⟨haddr.symm, hderef r hr⟩

theorem ntpOvsrecGetAssoc_some (h : ServerTable db) {name : String} {r : NtpAssociationRow} :
    ntpOvsrecGetAssoc db defaultVrfName name = some r ↔
      r ∈ db.ntpAssociation ∧ r.address = name := by
  rw [h.ntpOvsrecGetAssoc_eq]
  exact Rows.find_iff h.addresses

theorem ntpOvsrecGetAssoc_none (h : ServerTable db) {name : String} :
    ntpOvsrecGetAssoc db defaultVrfName name = none ↔
      name ∉ db.ntpAssociation.map NtpAssociationRow.address := by
  rw [h.ntpOvsrecGetAssoc_eq]
  exact Rows.find_none_iff

/-! ### The operations of a server command keep it -/

theorem deleteAssociation (h : ServerTable db) (u : Uuid) :
    ServerTable (db.apply (.deleteAssociation u)) := by
  have hmem : ∀ r ∈ (db.apply (.deleteAssociation u)).ntpAssociation,
      r ∈ db.ntpAssociation := fun r hr => (List.mem_filter.mp hr).1
  exact {
    firstVrf := h.firstVrf
    assocUuids := Rows.nodup_map_filter _ _ h.assocUuids
    assocFresh := fun r hr => h.assocFresh r (hmem r hr)
    addresses := Rows.nodup_map_filter _ _ h.addresses
    assocVrf := fun r hr => h.assocVrf r (hmem r hr) }

/-- An update writes neither the address nor the VRF. -/
theorem updateAssociation (h : ServerTable db) (u : Uuid) (attribs : Smap)
    (p : NtpServerParams) (keyRow : Option NtpKeyRow) :
    ServerTable (db.apply (.updateAssociation u
      (ntpServerReplaceParameters db attribs p keyRow true))) := by
  let w := ntpServerReplaceParameters db attribs p keyRow true
  have huuid : ∀ r : NtpAssociationRow, (w.apply r).uuid = r.uuid := fun _ => rfl
  have haddr : ∀ r : NtpAssociationRow, (w.apply r).address = r.address := fun _ => rfl
  have hvrf : ∀ r : NtpAssociationRow, (w.apply r).vrf = r.vrf := fun _ => rfl
  have hmem : ∀ r ∈ (db.apply (.updateAssociation u w)).ntpAssociation,
      ∃ r₀ ∈ db.ntpAssociation, r.uuid = r₀.uuid ∧ r.vrf = r₀.vrf := by
    intro r hr
    rcases Rows.mem_updateWhere.mp hr with ⟨hmem, _⟩ | ⟨r₀, hmem, _, rfl⟩
    · exact ⟨r, hmem, rfl, rfl⟩
    · exact ⟨r₀, hmem, huuid r₀, hvrf r₀⟩
  constructor
  · exact h.firstVrf
  · show ((Rows.updateWhere _ _ w.apply db.ntpAssociation).map _).Nodup
    rw [Rows.map_updateWhere _ huuid]; exact h.assocUuids
  · intro r hr
    obtain ⟨r₀, hr₀, hid, _⟩ := hmem r hr
    rw [hid]; exact h.assocFresh r₀ hr₀
  · show ((Rows.updateWhere _ _ w.apply db.ntpAssociation).map _).Nodup
    rw [Rows.map_updateWhere _ haddr]; exact h.addresses
  · intro r hr
    obtain ⟨r₀, hr₀, _, hv⟩ := hmem r hr
    rw [hv]; exact h.assocVrf r₀ hr₀

theorem insertAssociation (h : ServerTable db) {p : NtpServerParams}
    (keyRow : Option NtpKeyRow)
    (hnew : p.serverName ∉ db.ntpAssociation.map NtpAssociationRow.address) :
    ServerTable (db.apply (.insertAssociation
      (ntpServerReplaceParameters db ∅ p keyRow false))) := by
  constructor
  · exact h.firstVrf
  · exact Rows.nodup_cons_fresh h.assocUuids h.assocFresh rfl
  · intro r hr
    rcases List.mem_cons.mp hr with rfl | hmem
    · exact Nat.lt_succ_self _
    · exact Nat.lt_succ_of_lt (h.assocFresh r hmem)
  · exact List.nodup_cons.mpr ⟨hnew, h.addresses⟩
  · intro r hr
    rcases List.mem_cons.mp hr with rfl | hmem
    · rfl
    · exact h.assocVrf r hmem

end ServerTable

namespace WellFormed

variable {db : Db}

theorem serverTable (h : WellFormed isValidIpv4 db) : ServerTable db := by
  obtain ⟨v, hvrf, hname⟩ := h.defaultVrf
  exact {
    firstVrf := ⟨v, by rw [hvrf]; rfl, hname⟩
    assocUuids := h.assocUuids
    assocFresh := h.assocFresh
    addresses := h.addresses
    assocVrf := h.assocVrf }

theorem ntpOvsrecGetAssoc_some (h : WellFormed isValidIpv4 db) {name : String}
    {r : NtpAssociationRow} :
    ntpOvsrecGetAssoc db defaultVrfName name = some r ↔
      r ∈ db.ntpAssociation ∧ r.address = name :=
  h.serverTable.ntpOvsrecGetAssoc_some

theorem ntpOvsrecGetAssoc_none (h : WellFormed isValidIpv4 db) {name : String} :
    ntpOvsrecGetAssoc db defaultVrfName name = none ↔
      name ∉ db.ntpAssociation.map NtpAssociationRow.address :=
  h.serverTable.ntpOvsrecGetAssoc_none

theorem ntpOvsrecGetAuthKey_some (h : WellFormed isValidIpv4 db) {key : Int} {r : NtpKeyRow} :
    ntpOvsrecGetAuthKey db key = some r ↔ r ∈ db.ntpKey ∧ r.keyId = key :=
  Rows.find_iff h.keyIds

end WellFormed

theorem ntpOvsrecGetAuthKey_none {db : Db} {key : Int} :
    ntpOvsrecGetAuthKey db key = none ↔ key ∉ db.ntpKey.map NtpKeyRow.keyId :=
  Rows.find_none_iff

/-! ## Section 3: Every command preserves the invariant -/

section preservation
variable {db : Db}

theorem wellFormed_updateKey (h : WellFormed isValidIpv4 db) (u : Uuid) (w : NtpKeyWrites)
    (hid : w.keyId = none) (hpwd : ∀ p ∈ w.keyPassword, passwordLenInRange p) :
    WellFormed isValidIpv4 (db.apply (.updateKey u w)) := by
  have huuid : ∀ r : NtpKeyRow, (w.apply r).uuid = r.uuid := fun _ => rfl
  have hkey : ∀ r : NtpKeyRow, (w.apply r).keyId = r.keyId := by
    intro r; simp [NtpKeyWrites.apply, hid]
  have hmap : (db.apply (.updateKey u w)).ntpKey.map NtpKeyRow.uuid =
      db.ntpKey.map NtpKeyRow.uuid := Rows.map_updateWhere _ huuid
  refine { h with keyUuids := ?_, keyFresh := ?_, keyIds := ?_, keyValid := ?_, assocKey := ?_ }
  -- neither the identities nor the key ids are written
  · rw [hmap]; exact h.keyUuids
  · intro r hr
    rcases Rows.mem_updateWhere.mp hr with ⟨hmem, _⟩ | ⟨r₀, hmem, _, rfl⟩
    · exact h.keyFresh r hmem
    · exact h.keyFresh r₀ hmem
  · have hids : (db.apply (.updateKey u w)).ntpKey.map NtpKeyRow.keyId =
        db.ntpKey.map NtpKeyRow.keyId := Rows.map_updateWhere _ hkey
    rw [hids]; exact h.keyIds
  · intro r hr
    rcases Rows.mem_updateWhere.mp hr with ⟨hmem, _⟩ | ⟨r₀, hmem, _, rfl⟩
    · exact h.keyValid r hmem
    · refine ⟨by rw [hkey]; exact (h.keyValid r₀ hmem).1, ?_⟩
      cases hp : w.keyPassword with
      | none => simpa [NtpKeyWrites.apply, hp] using (h.keyValid r₀ hmem).2
      | some p => simpa [NtpKeyWrites.apply, hp] using hpwd p hp
  · intro r hr k hk
    rw [hmap]
    exact h.assocKey r hr k hk

theorem wellFormed_insertKey (h : WellFormed isValidIpv4 db) {key : Int} {pwd : String}
    (hrange : keyIdInRange key) (hlen : passwordLenInRange pwd)
    (hnew : key ∉ db.ntpKey.map NtpKeyRow.keyId) :
    WellFormed isValidIpv4 (db.apply (.insertKey ⟨some key, some pwd, none⟩)) := by
  refine { h with keyUuids := ?_, keyFresh := ?_, keyIds := ?_, keyValid := ?_,
                  assocFresh := ?_, assocKey := ?_ }
  · exact Rows.nodup_cons_fresh h.keyUuids h.keyFresh rfl
  · intro r hr
    rcases List.mem_cons.mp hr with rfl | hmem
    · exact Nat.lt_succ_self _
    · exact Nat.lt_succ_of_lt (h.keyFresh r hmem)
  · exact List.nodup_cons.mpr ⟨hnew, h.keyIds⟩
  · intro r hr
    rcases List.mem_cons.mp hr with rfl | hmem
    · exact ⟨hrange, hlen⟩
    · exact h.keyValid r hmem
  · intro r hr
    exact Nat.lt_succ_of_lt (h.assocFresh r hr)
  · intro r hr k hk
    exact List.mem_cons_of_mem _ (h.assocKey r hr k hk)

theorem dropKey_address (u : Uuid) (r : NtpAssociationRow) :
    (r.dropKey u).address = r.address := by
  unfold NtpAssociationRow.dropKey; split <;> rfl

theorem dropKey_uuid (u : Uuid) (r : NtpAssociationRow) : (r.dropKey u).uuid = r.uuid := by
  unfold NtpAssociationRow.dropKey; split <;> rfl

theorem dropKey_vrf (u : Uuid) (r : NtpAssociationRow) : (r.dropKey u).vrf = r.vrf := by
  unfold NtpAssociationRow.dropKey; split <;> rfl

theorem dropKey_associationAttributes (u : Uuid) (r : NtpAssociationRow) :
    (r.dropKey u).associationAttributes = r.associationAttributes := by
  unfold NtpAssociationRow.dropKey; split <;> rfl

theorem mem_keyId_dropKey {u k : Uuid} {r : NtpAssociationRow} :
    k ∈ (r.dropKey u).keyId ↔ k ∈ r.keyId ∧ k ≠ u := by
  unfold NtpAssociationRow.dropKey
  by_cases hk : r.keyId = some u
  · rw [if_pos hk, hk]
    simp [eq_comm]
  · rw [if_neg hk]
    constructor
    · intro hmem
      refine ⟨hmem, ?_⟩
      rintro rfl
      exact hk hmem
    · intro hmem; exact hmem.1

theorem wellFormed_deleteKey (h : WellFormed isValidIpv4 db) (u : Uuid) :
    WellFormed isValidIpv4 (db.apply (.deleteKey u)) := by
  have hmem : ∀ r ∈ (db.apply (.deleteKey u)).ntpAssociation,
      ∃ r₀ ∈ db.ntpAssociation, r₀.dropKey u = r := by
    intro r hr; exact List.mem_map.mp hr
  have hcol : ∀ {σ : Type} (col : NtpAssociationRow → σ), (∀ r, col (r.dropKey u) = col r) →
      (db.apply (.deleteKey u)).ntpAssociation.map col = db.ntpAssociation.map col := by
    intro σ col hdrop
    show (db.ntpAssociation.map (NtpAssociationRow.dropKey u)).map col = _
    rw [List.map_map]
    exact List.map_congr_left fun r _ => hdrop r
  constructor
  · exact h.defaultVrf
  · exact Rows.nodup_map_filter _ _ h.keyUuids
  · intro r hr; exact h.keyFresh r (List.mem_filter.mp hr).1
  · exact Rows.nodup_map_filter _ _ h.keyIds
  · intro r hr; exact h.keyValid r (List.mem_filter.mp hr).1
  · rw [hcol _ (dropKey_uuid u)]; exact h.assocUuids
  · intro r hr
    obtain ⟨r₀, hr₀, rfl⟩ := hmem r hr
    rw [dropKey_uuid]; exact h.assocFresh r₀ hr₀
  · rw [hcol _ (dropKey_address u)]; exact h.addresses
  · intro r hr
    obtain ⟨r₀, hr₀, rfl⟩ := hmem r hr
    rw [dropKey_address]; exact h.assocValid r₀ hr₀
  · intro r hr
    obtain ⟨r₀, hr₀, rfl⟩ := hmem r hr
    rw [dropKey_vrf]; exact h.assocVrf r₀ hr₀
  · intro r hr
    obtain ⟨r₀, hr₀, rfl⟩ := hmem r hr
    rw [dropKey_associationAttributes]; exact h.assocAttributes r₀ hr₀
  · -- a reference that survives points to another row, which is still there
    intro r hr k hk
    obtain ⟨r₀, hr₀, rfl⟩ := hmem r hr
    obtain ⟨hk₀, hne⟩ := mem_keyId_dropKey.mp hk
    obtain ⟨kr, hkr, rfl⟩ := List.mem_map.mp (h.assocKey r₀ hr₀ k hk₀)
    exact List.mem_map.mpr ⟨kr, List.mem_filter.mpr ⟨hkr, by simpa using hne⟩, rfl⟩
  · show (db.ntpAssociation.map (NtpAssociationRow.dropKey u)).length ≤ _
    rw [List.length_map]; exact h.maxServers

theorem wellFormed_deleteAssociation (h : WellFormed isValidIpv4 db) (u : Uuid) :
    WellFormed isValidIpv4 (db.apply (.deleteAssociation u)) := by
  have htable := h.serverTable.deleteAssociation u
  have hmem : ∀ r ∈ (db.apply (.deleteAssociation u)).ntpAssociation,
      r ∈ db.ntpAssociation := fun r hr => (List.mem_filter.mp hr).1
  refine { h with
    assocUuids := htable.assocUuids
    assocFresh := htable.assocFresh
    addresses := htable.addresses
    assocValid := fun r hr => h.assocValid r (hmem r hr)
    assocVrf := htable.assocVrf
    assocAttributes := fun r hr => h.assocAttributes r (hmem r hr)
    assocKey := fun r hr => h.assocKey r (hmem r hr)
    maxServers := ?_ }
  have hlen : (db.ntpAssociation.filter fun r => r.uuid ≠ u).length ≤ db.ntpAssociation.length :=
    List.length_filter_le _ _
  have hmax := h.maxServers
  exact le_trans hlen hmax

/-- The row that `ntp server` with accepted arguments writes. -/
structure AcceptedParams (db : Db) (p : NtpServerParams) (keyRow : Option NtpKeyRow) :
    Prop where
  keyGiven : p.keyid.isSome = keyRow.isSome
  keyRow : ∀ r ∈ keyRow, r ∈ db.ntpKey
  version : ∀ v ∈ p.version, versionInRange v

theorem wellFormed_updateAssociation (h : WellFormed isValidIpv4 db) {p : NtpServerParams}
    {keyRow : Option NtpKeyRow} (hp : AcceptedParams db p keyRow) {row : NtpAssociationRow}
    (hrow : row ∈ db.ntpAssociation) :
    WellFormed isValidIpv4 (db.apply (.updateAssociation row.uuid
      (ntpServerReplaceParameters db row.associationAttributes p keyRow true))) := by
  let w := ntpServerReplaceParameters db row.associationAttributes p keyRow true
  have htable : ServerTable (db.apply (.updateAssociation row.uuid w)) :=
    h.serverTable.updateAssociation row.uuid row.associationAttributes p keyRow
  have hmem : ∀ r ∈ (db.apply (.updateAssociation row.uuid w)).ntpAssociation,
      r ∈ db.ntpAssociation ∨ r = w.apply row := by
    intro r hr
    rcases Rows.mem_updateWhere.mp hr with ⟨hmem, _⟩ | ⟨r₀, hmem, hid, rfl⟩
    · exact Or.inl hmem
    · rw [Rows.eq_of_index h.assocUuids hmem hrow hid]; exact Or.inr rfl
  refine { h with assocUuids := htable.assocUuids, assocFresh := htable.assocFresh,
                  addresses := htable.addresses, assocValid := ?_,
                  assocVrf := htable.assocVrf, assocAttributes := ?_, assocKey := ?_,
                  maxServers := ?_ }
  · intro r hr
    rcases hmem r hr with hr | rfl
    · exact h.assocValid r hr
    · exact h.assocValid row hrow
  · intro r hr
    rcases hmem r hr with hr | rfl
    · exact h.assocAttributes r hr
    · -- options that are not given keep the values of the row
      obtain ⟨v, pr, hv, hattr⟩ := h.assocAttributes row hrow
      refine ⟨p.version.getD v, p.prefer || pr, ?_, ?_⟩
      · cases hver : p.version with
        | none => exact hv
        | some v' => exact hp.version v' hver
      · rw [← optionAssocAttribs_assocAttribs, ← hattr]; rfl
  · intro r hr k hk
    rcases hmem r hr with hr | rfl
    · exact h.assocKey r hr k hk
    · -- the reference is kept, or set to the row that the check has found
      cases hkey : p.keyid with
      | none =>
        have hkeep : (w.apply row).keyId = row.keyId := by
          simp [w, ntpServerReplaceParameters, NtpAssociationWrites.apply, hkey]
        rw [hkeep] at hk
        exact h.assocKey row hrow k hk
      | some key =>
        have hset : (w.apply row).keyId = keyRow.map NtpKeyRow.uuid := by
          simp [w, ntpServerReplaceParameters, NtpAssociationWrites.apply, hkey]
        rw [hset, Option.mem_map] at hk
        obtain ⟨kr, hkr, rfl⟩ := hk
        exact List.mem_map.mpr ⟨kr, hp.keyRow kr hkr, rfl⟩
  · show (Rows.updateWhere _ _ w.apply db.ntpAssociation).length ≤ _
    rw [Rows.length_updateWhere]; exact h.maxServers

theorem wellFormed_insertAssociation (h : WellFormed isValidIpv4 db) {p : NtpServerParams}
    {keyRow : Option NtpKeyRow} (hp : AcceptedParams db p keyRow)
    (hname : validServerName isValidIpv4 p.serverName)
    (hnew : p.serverName ∉ db.ntpAssociation.map NtpAssociationRow.address)
    (hroom : db.ntpAssociation.length < ntpAssocMaxServers) :
    WellFormed isValidIpv4 (db.apply (.insertAssociation
      (ntpServerReplaceParameters db ∅ p keyRow false))) := by
  let row := (ntpServerReplaceParameters db ∅ p keyRow false).apply (.blank db.nextUuid)
  have htable := h.serverTable.insertAssociation keyRow hnew
  have hattr : row.associationAttributes =
      assocAttribs (p.version.getD ntpAssocAttribVersionDefault) p.prefer :=
    optionAssocAttribs_default p
  refine { h with keyFresh := ?_, assocUuids := htable.assocUuids,
                  assocFresh := htable.assocFresh, addresses := htable.addresses,
                  assocValid := ?_, assocVrf := htable.assocVrf, assocAttributes := ?_,
                  assocKey := ?_, maxServers := ?_ }
  · intro r hr
    exact Nat.lt_succ_of_lt (h.keyFresh r hr)
  · intro r hr
    rcases List.mem_cons.mp hr with rfl | hmem
    · exact hname
    · exact h.assocValid r hmem
  · intro r hr
    rcases List.mem_cons.mp hr with rfl | hmem
    · refine ⟨_, _, ?_, hattr⟩
      cases hver : p.version with
      | none => exact by decide +kernel
      | some v => exact hp.version v hver
    · exact h.assocAttributes r hmem
  · intro r hr k hk
    rcases List.mem_cons.mp hr with rfl | hmem
    · -- a new row refers to nothing, or to the row that the check has found
      cases hkey : p.keyid with
      | none => simp [ntpServerReplaceParameters, NtpAssociationWrites.apply, hkey] at hk
      | some key =>
        simp only [ntpServerReplaceParameters, NtpAssociationWrites.apply, hkey, Option.map_some,
          Option.getD_some, Bool.false_eq_true, if_false, Option.mem_map] at hk
        obtain ⟨kr, hkr, rfl⟩ := hk
        exact List.mem_map.mpr ⟨kr, hp.keyRow kr hkr, rfl⟩
    · exact h.assocKey r hmem k hk
  · show (_ :: db.ntpAssociation).length ≤ _
    rw [List.length_cons]; omega

theorem acceptedParams_of_sanitize {p : NtpServerParams} {keyRow : Option NtpKeyRow}
    (hok : ntpServerSanitizeParameters isValidIpv4 db p = .ok keyRow) :
    validServerName isValidIpv4 p.serverName ∧ AcceptedParams db p keyRow := by
  obtain ⟨hname, hkey, hver⟩ := (ntpServerSanitizeParameters_ok_iff isValidIpv4).mp hok
  have hkey' := sanitizeKey_true_ok_iff.mp hkey
  cases hkeyid : p.keyid with
  | none =>
    rw [hkeyid] at hkey'
    subst hkey'
    exact ⟨hname, ⟨by rw [hkeyid]; rfl, by simp, hver⟩⟩
  | some key =>
    rw [hkeyid] at hkey'
    obtain ⟨_, r, hr, rfl⟩ := hkey'
    have hmem : r ∈ db.ntpKey := List.mem_of_find?_eq_some hr
    exact ⟨hname, ⟨by rw [hkeyid]; rfl, by simpa using hmem, hver⟩⟩

theorem wellFormed_updateSystem (h : WellFormed isValidIpv4 db) (u : Uuid) (config : Smap) :
    WellFormed isValidIpv4 (db.apply (.updateSystem u config)) := { h with }

theorem wellFormed_trustedKey (h : WellFormed isValidIpv4 db) (key : String) (trust : Bool) :
    WellFormed isValidIpv4
      ((if trust then Command.ntpTrustedKey key else .noNtpTrustedKey key).run
        isValidIpv4 .committed db).2 := by
  rw [run_trustedKey]
  split
  · exact h
  · cases ntpOvsrecGetAuthKey db (atoi key) with
    | none => exact h
    | some row => exact wellFormed_updateKey h _ _ rfl (by simp)

theorem wellFormed_authenticationEnable (h : WellFormed isValidIpv4 db) (enable : Bool) :
    WellFormed isValidIpv4
      ((if enable then Command.ntpAuthenticationEnable else .noNtpAuthenticationEnable).run
        isValidIpv4 .committed db).2 := by
  rw [run_authenticationEnable]
  cases db.system.head? with
  | none => exact h
  | some sys => exact wellFormed_updateSystem h _ _

/-- **Step.** A committed command preserves the invariant. -/
theorem wellFormed_exec (h : WellFormed isValidIpv4 db) (c : Command) :
    WellFormed isValidIpv4 (c.exec isValidIpv4 db) := by
  unfold Command.exec
  cases c with
  | ntpServer name prefer version keyId =>
    rw [run_ntpServer]
    cases hok : ntpServerSanitizeParameters isValidIpv4 db
        (ntpServerParams name prefer version keyId) with
    | error e => exact h
    | ok keyRow =>
      obtain ⟨hname, hp⟩ := acceptedParams_of_sanitize hok
      cases hrow : ntpOvsrecGetAssoc db defaultVrfName name with
      | some row =>
        exact wellFormed_updateAssociation h hp (h.ntpOvsrecGetAssoc_some.mp hrow).1
      | none =>
        -- the check for room comes before the insertion
        by_cases hfull : db.ntpAssociation.length ≥ ntpAssocMaxServers
        · simp only [hfull, if_true]; exact h
        · simp only [hfull, if_false]
          exact wellFormed_insertAssociation h hp hname (h.ntpOvsrecGetAssoc_none.mp hrow)
            (Nat.lt_of_not_le hfull)
  | noNtpServer name =>
    rw [run_noNtpServer]
    cases ntpServerSanitizeParameters isValidIpv4 db (noNtpServerParams name) with
    | error e => exact h
    | ok keyRow =>
      cases ntpOvsrecGetAssoc db defaultVrfName name with
      | some row => exact wellFormed_deleteAssociation h row.uuid
      | none => exact h
  | ntpAuthenticationEnable => exact wellFormed_authenticationEnable h true
  | noNtpAuthenticationEnable => exact wellFormed_authenticationEnable h false
  | ntpAuthenticationKey key md5 =>
    rw [run_ntpAuthenticationKey]
    split
    · exact h
    · next hok =>
      have hvalid := not_not.mp hok
      cases hrow : ntpOvsrecGetAuthKey db (atoi key) with
      | some row => exact wellFormed_updateKey h _ _ rfl (by simpa using hvalid.2)
      | none =>
        -- the search has found no row with this id
        exact wellFormed_insertKey h hvalid.1 hvalid.2 (ntpOvsrecGetAuthKey_none.mp hrow)
  | noNtpAuthenticationKey key =>
    rw [run_noNtpAuthenticationKey]
    split
    · exact h
    · cases ntpOvsrecGetAuthKey db (atoi key) with
      | some row => exact wellFormed_deleteKey h row.uuid
      | none => exact h
  | ntpTrustedKey key => exact wellFormed_trustedKey h key true
  | noNtpTrustedKey key => exact wellFormed_trustedKey h key false

/-- **Run.** Every sequence of committed commands preserves the invariant. -/
theorem wellFormed_execAll (h : WellFormed isValidIpv4 db) (cs : List Command) :
    WellFormed isValidIpv4 (execAll isValidIpv4 db cs) := by
  induction cs generalizing db with
  | nil => exact h
  | cons c cs ih => exact ih (wellFormed_exec h c)

end preservation

end OpsNtpd.Cli
