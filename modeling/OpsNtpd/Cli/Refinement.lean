import OpsNtpd.Cli.Config
import OpsNtpd.Cli.Invariant

/-! # CLI: The Tables Refine the Configuration

  Every committed command acts on the tables as `Config.step` acts on the
  configuration they represent. Section 1 shows what each transaction
  operation does to the represented configuration; Section 2 assembles the
  commands; Section 3 is the statement for whole runs.
-/

namespace OpsNtpd.Cli

open Text

variable {isValidIpv4 : Nat → Bool} {db : Db}

/-! ## Section 1: Operations -/

/-- The configuration is determined by what the two maps hold. -/
theorem Config.eq_of_maps {m m' : Config} (hk : m.keys = m'.keys)
    (hs : m.servers = m'.servers) : m = m' := by
  cases m; cases m'; cases hk; cases hs; rfl

theorem lookup_configOf_keys (h : WellFormed isValidIpv4 db) {r : NtpKeyRow}
    (hr : r ∈ db.ntpKey) :
    (configOf db).keys.lookup r.keyId = some (r.keyPassword, r.trustEnable) :=
  Rows.lookup_index_of_mem h.keyIds hr

theorem lookup_configOf_servers (h : WellFormed isValidIpv4 db) {r : NtpAssociationRow}
    (hr : r ∈ db.ntpAssociation) :
    (configOf db).servers.lookup r.address = some (serverEntry db r) :=
  Rows.lookup_index_of_mem h.addresses hr

theorem lookup_configOf_keys_none (h : WellFormed isValidIpv4 db) {key : Int} :
    (configOf db).keys.lookup key = none ↔ key ∉ db.ntpKey.map NtpKeyRow.keyId :=
  Rows.lookup_index_eq_none h.keyIds

theorem mem_configOf_keys (h : WellFormed isValidIpv4 db) {key : Int} :
    key ∈ (configOf db).keys.keys ↔ key ∈ db.ntpKey.map NtpKeyRow.keyId := by
  rw [configOf, Rows.keys_index h.keyIds, List.mem_toFinset]

/-- A key id is the id of at most one key row, so equal ids mean equal rows. -/
theorem keyOf_eq_some_iff (h : WellFormed isValidIpv4 db) {row : NtpAssociationRow}
    (hrow : row ∈ db.ntpAssociation) {kr : NtpKeyRow} (hkr : kr ∈ db.ntpKey) :
    db.keyOf row = some kr.keyId ↔ row.keyId = some kr.uuid := by
  unfold Db.keyOf
  cases hkey : row.keyId with
  | none => simp
  | some u =>
    obtain ⟨kr', hkr', huuid⟩ := List.mem_map.mp (h.assocKey row hrow u hkey)
    have hfind : db.keyRow u = some kr' := (Db.keyRow_eq_some h.keyUuids).mpr ⟨hkr', huuid⟩
    simp only [Option.bind_some, hfind, Option.map_some, Option.some_inj]
    constructor
    · intro hid
      rw [← huuid, Rows.eq_of_index h.keyIds hkr' hkr hid]
    · intro hu
      rw [Rows.eq_of_index h.keyUuids hkr' hkr (huuid.trans hu)]

/-- Writing a key row does not change which key a server uses. -/
theorem keyOf_updateKey (u : Uuid) {w : NtpKeyWrites} (hid : w.keyId = none)
    (row : NtpAssociationRow) : (db.apply (.updateKey u w)).keyOf row = db.keyOf row := by
  unfold Db.keyOf
  cases row.keyId with
  | none => rfl
  | some k =>
    simp only [Option.bind_some, Db.keyRow, Db.apply, Rows.updateWhere, List.find?_map,
      Option.map_map]
    have hpred : ((fun r : NtpKeyRow => decide (r.uuid = k)) ∘
        fun r => if r.uuid = u then w.apply r else r) = fun r => decide (r.uuid = k) := by
      funext r
      by_cases hu : r.uuid = u
      · simp [hu, NtpKeyWrites.apply]
      · simp [hu]
    rw [hpred]
    congr 1
    funext r
    by_cases hu : r.uuid = u
    · simp [hu, NtpKeyWrites.apply, hid]
    · simp [hu]

/-- Inserting a key row does not either: a reference never dangles. -/
theorem keyOf_insertKey (h : WellFormed isValidIpv4 db) (w : NtpKeyWrites)
    {row : NtpAssociationRow} (hrow : row ∈ db.ntpAssociation) :
    (db.apply (.insertKey w)).keyOf row = db.keyOf row := by
  unfold Db.keyOf
  cases hkey : row.keyId with
  | none => rfl
  | some k =>
    obtain ⟨kr, hkr, huuid⟩ := List.mem_map.mp (h.assocKey row hrow k hkey)
    have hne : ¬ db.nextUuid = k := by
      intro heq
      exact absurd (huuid.trans heq.symm) (Nat.ne_of_lt (h.keyFresh kr hkr))
    simp [Db.keyRow, Db.apply, NtpKeyWrites.apply, NtpKeyRow.blank, hne]

/-- Deleting a key row clears exactly the references to it. -/
theorem keyOf_deleteKey (h : WellFormed isValidIpv4 db) {kr : NtpKeyRow} (hkr : kr ∈ db.ntpKey)
    {row : NtpAssociationRow} (hrow : row ∈ db.ntpAssociation) :
    (db.apply (.deleteKey kr.uuid)).keyOf (row.dropKey kr.uuid) =
      if db.keyOf row = some kr.keyId then none else db.keyOf row := by
  by_cases hkey : row.keyId = some kr.uuid
  · rw [if_pos ((keyOf_eq_some_iff h hrow hkr).mpr hkey)]
    simp [NtpAssociationRow.dropKey, hkey, Db.keyOf]
  · rw [if_neg (fun hk => hkey ((keyOf_eq_some_iff h hrow hkr).mp hk))]
    rw [NtpAssociationRow.dropKey, if_neg hkey]
    unfold Db.keyOf
    cases hk : row.keyId with
    | none => rfl
    | some k =>
      have hne : k ≠ kr.uuid := by
        rintro rfl
        exact hkey hk
      simp only [Option.bind_some, Db.keyRow, Db.apply, List.find?_filter]
      congr 2
      funext r
      by_cases hr : r.uuid = k
      · simp [hr, hne]
      · simp [hr]

theorem configOf_updateKey (h : WellFormed isValidIpv4 db) {kr : NtpKeyRow}
    (hkr : kr ∈ db.ntpKey) {w : NtpKeyWrites} (hid : w.keyId = none) :
    configOf (db.apply (.updateKey kr.uuid w)) =
      { configOf db with
        keys := (configOf db).keys.insert kr.keyId
          ((w.apply kr).keyPassword, (w.apply kr).trustEnable) } := by
  apply Config.eq_of_maps
  · exact Rows.index_updateWhere h.keyUuids h.keyIds hkr
      (fun r => by simp [NtpKeyWrites.apply, hid])
  · apply Rows.index_congr
    intro r _
    simp only [serverEntry, keyOf_updateKey kr.uuid hid r]

theorem configOf_insertKey (h : WellFormed isValidIpv4 db) {key : Int} {pwd : String}
    (hnew : key ∉ db.ntpKey.map NtpKeyRow.keyId) :
    configOf (db.apply (.insertKey ⟨some key, some pwd, none⟩)) =
      { configOf db with keys := (configOf db).keys.insert key (pwd, false) } := by
  apply Config.eq_of_maps
  · let row := (⟨some key, some pwd, none⟩ : NtpKeyWrites).apply (.blank db.nextUuid)
    have hnd : ((row :: db.ntpKey).map NtpKeyRow.keyId).Nodup :=
      List.nodup_cons.mpr ⟨hnew, h.keyIds⟩
    exact Rows.index_cons (v := fun r => (r.keyPassword, r.trustEnable)) hnd
  · apply Rows.index_congr
    intro r hr
    simp only [serverEntry, keyOf_insertKey h _ hr]

theorem configOf_deleteKey (h : WellFormed isValidIpv4 db) {kr : NtpKeyRow}
    (hkr : kr ∈ db.ntpKey) :
    configOf (db.apply (.deleteKey kr.uuid)) =
      { keys := (configOf db).keys.erase kr.keyId
        servers := Dict.mapValues (ServerEntry.dropKey kr.keyId) (configOf db).servers } := by
  apply Config.eq_of_maps
  · exact Rows.index_filter h.keyUuids h.keyIds hkr
  · apply Rows.index_map h.addresses
    · intro r _; exact dropKey_address kr.uuid r
    · intro r hr
      have hkey := keyOf_deleteKey h hkr hr
      simp only [serverEntry, ServerEntry.dropKey, dropKey_associationAttributes, hkey]
      by_cases hk : db.keyOf r = some kr.keyId
      · simp only [hk, if_true]
      · simp only [hk, if_false]

theorem configOf_deleteAssociation (h : WellFormed isValidIpv4 db) {row : NtpAssociationRow}
    (hrow : row ∈ db.ntpAssociation) :
    configOf (db.apply (.deleteAssociation row.uuid)) =
      { configOf db with servers := (configOf db).servers.erase row.address } := by
  apply Config.eq_of_maps
  · rfl
  · exact Rows.index_filter h.assocUuids h.addresses hrow

/-- The key id that an accepted command stores is the one it was given. -/
theorem keyOf_accepted (h : WellFormed isValidIpv4 db) {p : NtpServerParams}
    {keyRow : Option NtpKeyRow} (hok : sanitizeKey db true p.keyid = .ok keyRow) :
    (keyRow.map NtpKeyRow.uuid).bind (fun u => (db.keyRow u).map NtpKeyRow.keyId) =
      p.keyid.map atoi := by
  have hkey := sanitizeKey_true_ok_iff.mp hok
  cases hid : p.keyid with
  | none => rw [hid] at hkey; subst hkey; rfl
  | some key =>
    rw [hid] at hkey
    obtain ⟨_, r, hr, rfl⟩ := hkey
    obtain ⟨hmem, hkeyId⟩ := h.ntpOvsrecGetAuthKey_some.mp hr
    have hfind : db.keyRow r.uuid = some r := (Db.keyRow_eq_some h.keyUuids).mpr ⟨hmem, rfl⟩
    simp [hfind, hkeyId]

theorem keyRow_isSome {p : NtpServerParams} {keyRow : Option NtpKeyRow}
    (hok : sanitizeKey db true p.keyid = .ok keyRow) : keyRow.isSome = p.keyid.isSome := by
  have hkey := sanitizeKey_true_ok_iff.mp hok
  cases hid : p.keyid with
  | none => rw [hid] at hkey; subst hkey; rfl
  | some key =>
    rw [hid] at hkey
    obtain ⟨_, r, _, rfl⟩ := hkey
    rfl

theorem configOf_updateAssociation (h : WellFormed isValidIpv4 db) {p : NtpServerParams}
    {keyRow : Option NtpKeyRow} (hok : sanitizeKey db true p.keyid = .ok keyRow)
    {row : NtpAssociationRow} (hrow : row ∈ db.ntpAssociation) :
    configOf (db.apply (.updateAssociation row.uuid
        (ntpServerReplaceParameters db row.associationAttributes p keyRow true))) =
      { configOf db with
        servers := (configOf db).servers.insert row.address
          ((serverEntry db row).update p.prefer p.version p.keyid) } := by
  obtain ⟨v, pr, _, hattr⟩ := h.assocAttributes row hrow
  let w := ntpServerReplaceParameters db row.associationAttributes p keyRow true
  apply Config.eq_of_maps
  · rfl
  · show Rows.index _ (serverEntry db) (Rows.updateWhere _ _ w.apply db.ntpAssociation) = _
    rw [Rows.index_updateWhere h.assocUuids h.addresses hrow (g := w.apply) (fun _ => rfl)]
    show (configOf db).servers.insert row.address (serverEntry db (w.apply row)) = _
    congr 1
    -- the written row has the options of the old one, updated
    have hattr' : (w.apply row).associationAttributes =
        assocAttribs (p.version.getD v) (p.prefer || pr) := by
      rw [← optionAssocAttribs_assocAttribs, ← hattr]; rfl
    have hkey := keyOf_accepted h hok
    have hkey' : db.keyOf (w.apply row) = (p.keyid.map atoi).or (db.keyOf row) := by
      cases hid : p.keyid with
      | none => simp [w, Db.keyOf, ntpServerReplaceParameters, NtpAssociationWrites.apply, hid]
      | some key =>
        rw [hid] at hkey
        have hbind : (keyRow.map NtpKeyRow.uuid).bind
            (fun u => (db.keyRow u).map NtpKeyRow.keyId) = some (atoi key) := hkey
        simp only [w, Db.keyOf, ntpServerReplaceParameters, NtpAssociationWrites.apply, hid,
          Option.map_some, Option.getD_some, if_true, Option.map_bind, Option.some_or]
        exact hbind
    simp only [serverEntry, ServerEntry.update, hattr', hkey', hattr,
      lookup_version_assocAttribs, lookup_prefer_assocAttribs, Option.getD_some]
    congr 1
    cases p.prefer <;> cases pr <;> simp

theorem configOf_insertAssociation (h : WellFormed isValidIpv4 db) {p : NtpServerParams}
    {keyRow : Option NtpKeyRow} (hok : sanitizeKey db true p.keyid = .ok keyRow)
    (hnew : p.serverName ∉ db.ntpAssociation.map NtpAssociationRow.address) :
    configOf (db.apply (.insertAssociation (ntpServerReplaceParameters db ∅ p keyRow false))) =
      { configOf db with
        servers := (configOf db).servers.insert p.serverName
          (ServerEntry.default.update p.prefer p.version p.keyid) } := by
  let row := (ntpServerReplaceParameters db ∅ p keyRow false).apply (.blank db.nextUuid)
  apply Config.eq_of_maps
  · rfl
  · show Rows.index _ (serverEntry db) (row :: db.ntpAssociation) = _
    refine (Rows.index_cons (List.nodup_cons.mpr ⟨hnew, h.addresses⟩)).trans ?_
    show (configOf db).servers.insert p.serverName (serverEntry db row) = _
    congr 1
    have hattr : row.associationAttributes =
        assocAttribs (p.version.getD ntpAssocAttribVersionDefault) p.prefer :=
      optionAssocAttribs_default p
    have hkey : db.keyOf row = p.keyid.map atoi := by
      have hbind := keyOf_accepted h hok
      have hisSome := keyRow_isSome hok
      have hrowKey : row.keyId = keyRow.map NtpKeyRow.uuid := by
        cases hid : p.keyid with
        | none =>
          rw [hid] at hisSome
          cases keyRow with
          | none => simp [row, ntpServerReplaceParameters, NtpAssociationWrites.apply, hid]
          | some r => cases hisSome
        | some key => simp [row, ntpServerReplaceParameters, NtpAssociationWrites.apply, hid]
      rw [Db.keyOf, hrowKey, Option.map_bind]
      exact hbind
    simp only [serverEntry, ServerEntry.update, ServerEntry.default, hattr, hkey,
      lookup_version_assocAttribs, lookup_prefer_assocAttribs, Option.getD_some, Option.or_none]
    congr 1
    cases p.prefer <;> simp

/-! ## Section 2: Commands -/

/-- The checks of `ntp server` accept exactly the acceptable arguments. -/
theorem sanitize_ok_iff_acceptable (h : WellFormed isValidIpv4 db) (name : String)
    (prefer : Bool) (version keyId : Option String) :
    (∃ keyRow, ntpServerSanitizeParameters isValidIpv4 db
        (ntpServerParams name prefer version keyId) = .ok keyRow) ↔
      (configOf db).acceptable isValidIpv4 name version keyId := by
  simp only [ntpServerSanitizeParameters_ok_iff, ntpServerParams, exists_and_left,
    exists_and_right, Config.acceptable]
  have hkey : (∃ keyRow, sanitizeKey db true keyId = .ok keyRow) ↔
      ∀ k ∈ keyId, keyIdInRange (atoi k) ∧ atoi k ∈ (configOf db).keys.keys := by
    simp only [sanitizeKey_true_ok_iff, mem_configOf_keys h]
    cases keyId with
    | none => simp
    | some key =>
      have hfound : (∃ r, ntpOvsrecGetAuthKey db (atoi key) = some r) ↔
          atoi key ∈ db.ntpKey.map NtpKeyRow.keyId := by
        rw [← Option.ne_none_iff_exists', Ne, ntpOvsrecGetAuthKey_none, not_not]
      constructor
      · intro hrow k hk
        obtain ⟨_, hrange, r, hr, _⟩ := hrow
        cases hk
        exact ⟨hrange, hfound.mp ⟨r, hr⟩⟩
      · intro hall
        obtain ⟨hrange, hmem⟩ := hall key rfl
        obtain ⟨r, hr⟩ := hfound.mpr hmem
        exact ⟨some r, hrange, r, hr, rfl⟩
  rw [hkey]

theorem card_configOf_servers (h : WellFormed isValidIpv4 db) :
    (configOf db).servers.keys.card = db.ntpAssociation.length :=
  Rows.card_index h.addresses

theorem lookup_configOf_servers_none (h : WellFormed isValidIpv4 db) {name : String} :
    (configOf db).servers.lookup name = none ↔
      name ∉ db.ntpAssociation.map NtpAssociationRow.address :=
  Rows.lookup_index_eq_none h.addresses

theorem configOf_ntpServer (h : WellFormed isValidIpv4 db) (name : String) (prefer : Bool)
    (version keyId : Option String) :
    configOf ((Command.ntpServer name prefer version keyId).exec isValidIpv4 db) =
      (configOf db).step isValidIpv4 (.ntpServer name prefer version keyId) := by
  unfold Command.exec
  rw [run_ntpServer, Config.step]
  have hacc := sanitize_ok_iff_acceptable h name prefer version keyId
  cases hok : ntpServerSanitizeParameters isValidIpv4 db
      (ntpServerParams name prefer version keyId) with
  | error e =>
    have hrefuse : ¬ (configOf db).acceptable isValidIpv4 name version keyId := by
      intro hyes
      obtain ⟨keyRow, hok'⟩ := hacc.mpr hyes
      rw [hok] at hok'
      cases hok'
    rw [if_pos hrefuse]
  | ok keyRow =>
    rw [if_neg (not_not.mpr (hacc.mp ⟨keyRow, hok⟩))]
    have hkey := ((ntpServerSanitizeParameters_ok_iff isValidIpv4).mp hok).2.1
    cases hrow : ntpOvsrecGetAssoc db defaultVrfName name with
    | some row =>
      obtain ⟨hmem, rfl⟩ := h.ntpOvsrecGetAssoc_some.mp hrow
      simp only [lookup_configOf_servers h hmem]
      exact configOf_updateAssociation h hkey hmem
    | none =>
      have hnew := h.ntpOvsrecGetAssoc_none.mp hrow
      simp only [(lookup_configOf_servers_none h).mpr hnew, card_configOf_servers h]
      by_cases hfull : db.ntpAssociation.length ≥ ntpAssocMaxServers
      · simp only [hfull, if_true]
      · simp only [hfull, if_false]
        exact configOf_insertAssociation h hkey hnew

theorem configOf_noNtpServer (h : WellFormed isValidIpv4 db) (name : String) :
    configOf ((Command.noNtpServer name).exec isValidIpv4 db) =
      (configOf db).step isValidIpv4 (.noNtpServer name) := by
  unfold Command.exec
  rw [run_noNtpServer, Config.step]
  -- a name that is not configured is not removed, whether or not it is valid
  have habsent : name ∉ db.ntpAssociation.map NtpAssociationRow.address →
      configOf db = { configOf db with servers := (configOf db).servers.erase name } := by
    intro hnew
    have hlook : (configOf db).servers.lookup name = none :=
      (lookup_configOf_servers_none h).mpr hnew
    exact Config.eq_of_maps rfl (Dict.erase_eq_self hlook).symm
  cases hok : ntpServerSanitizeParameters isValidIpv4 db (noNtpServerParams name) with
  | error e =>
    apply habsent
    intro hmem
    obtain ⟨r, hr, rfl⟩ := List.mem_map.mp hmem
    have hokay : ntpServerSanitizeParameters isValidIpv4 db (noNtpServerParams r.address) =
        .ok none := by
      apply (ntpServerSanitizeParameters_ok_iff isValidIpv4).mpr
      exact ⟨h.assocValid r hr, rfl, by simp [noNtpServerParams]⟩
    rw [hokay] at hok
    cases hok
  | ok keyRow =>
    cases hrow : ntpOvsrecGetAssoc db defaultVrfName name with
    | some row =>
      obtain ⟨hmem, rfl⟩ := h.ntpOvsrecGetAssoc_some.mp hrow
      exact configOf_deleteAssociation h hmem
    | none => exact habsent (h.ntpOvsrecGetAssoc_none.mp hrow)

theorem configOf_ntpAuthenticationKey (h : WellFormed isValidIpv4 db) (key md5 : String) :
    configOf ((Command.ntpAuthenticationKey key md5).exec isValidIpv4 db) =
      (configOf db).step isValidIpv4 (.ntpAuthenticationKey key md5) := by
  unfold Command.exec
  rw [run_ntpAuthenticationKey, Config.step]
  by_cases hvalid : keyIdInRange (atoi key) ∧ passwordLenInRange md5
  · rw [if_neg (not_not.mpr hvalid), if_neg (not_not.mpr hvalid)]
    cases hrow : ntpOvsrecGetAuthKey db (atoi key) with
    | some row =>
      obtain ⟨hmem, hid⟩ := h.ntpOvsrecGetAuthKey_some.mp hrow
      have hlook := lookup_configOf_keys h hmem
      rw [hid] at hlook
      simp only [hlook, Option.map_some, Option.getD_some]
      rw [configOf_updateKey h hmem rfl, hid]
      rfl
    | none =>
      have hnew := ntpOvsrecGetAuthKey_none.mp hrow
      simp only [(lookup_configOf_keys_none h).mpr hnew, Option.map_none, Option.getD_none]
      exact configOf_insertKey h hnew
  · rw [if_pos hvalid, if_pos hvalid]

theorem configOf_noNtpAuthenticationKey (h : WellFormed isValidIpv4 db) (key : String) :
    configOf ((Command.noNtpAuthenticationKey key).exec isValidIpv4 db) =
      (configOf db).step isValidIpv4 (.noNtpAuthenticationKey key) := by
  unfold Command.exec
  rw [run_noNtpAuthenticationKey, Config.step]
  -- no server uses a key that does not exist
  have habsent : atoi key ∉ db.ntpKey.map NtpKeyRow.keyId →
      configOf db =
        { keys := (configOf db).keys.erase (atoi key)
          servers := Dict.mapValues (ServerEntry.dropKey (atoi key)) (configOf db).servers } := by
    intro hnew
    have hlook := (lookup_configOf_keys_none h).mpr hnew
    apply Config.eq_of_maps
    · exact (Dict.erase_eq_self hlook).symm
    · refine (Dict.mapValues_eq_self ?_).symm
      intro name e he
      obtain ⟨r, hr, rfl, rfl⟩ := (Rows.lookup_index h.addresses).mp he
      apply if_neg
      intro hkey
      apply hnew
      have hkeyOf : db.keyOf r = some (atoi key) := hkey
      obtain ⟨kr, hkr, hid⟩ := Option.map_eq_some_iff.mp hkeyOf
      obtain ⟨u, _, hu⟩ := Option.bind_eq_some_iff.mp hkr
      exact List.mem_map.mpr ⟨kr, ((Db.keyRow_eq_some h.keyUuids).mp hu).1, hid⟩
  by_cases hrange : keyIdInRange (atoi key)
  · rw [if_neg (not_not.mpr hrange)]
    cases hrow : ntpOvsrecGetAuthKey db (atoi key) with
    | some row =>
      obtain ⟨hmem, hid⟩ := h.ntpOvsrecGetAuthKey_some.mp hrow
      rw [← hid]
      exact configOf_deleteKey h hmem
    | none => exact habsent (ntpOvsrecGetAuthKey_none.mp hrow)
  · rw [if_pos hrange]
    apply habsent
    intro hmem
    obtain ⟨kr, hkr, hid⟩ := List.mem_map.mp hmem
    exact hrange (hid ▸ (h.keyValid kr hkr).1)

theorem configOf_trustedKey (h : WellFormed isValidIpv4 db) (key : String) (trust : Bool) :
    configOf ((if trust then Command.ntpTrustedKey key else .noNtpTrustedKey key).run
        isValidIpv4 .committed db).2 = (configOf db).setTrust (atoi key) trust := by
  rw [run_trustedKey, Config.setTrust]
  by_cases hrange : keyIdInRange (atoi key)
  · rw [if_neg (not_not.mpr hrange)]
    cases hrow : ntpOvsrecGetAuthKey db (atoi key) with
    | some row =>
      obtain ⟨hmem, hid⟩ := h.ntpOvsrecGetAuthKey_some.mp hrow
      have hlook := lookup_configOf_keys h hmem
      rw [hid] at hlook
      simp only [hlook]
      rw [configOf_updateKey h hmem rfl, hid]
      rfl
    | none =>
      simp only [(lookup_configOf_keys_none h).mpr (ntpOvsrecGetAuthKey_none.mp hrow)]
  · rw [if_pos hrange]
    have hnew : atoi key ∉ db.ntpKey.map NtpKeyRow.keyId := by
      intro hmem
      obtain ⟨kr, hkr, hid⟩ := List.mem_map.mp hmem
      exact hrange (hid ▸ (h.keyValid kr hkr).1)
    simp only [(lookup_configOf_keys_none h).mpr hnew]

theorem configOf_authenticationEnable (db : Db) (enable : Bool) :
    configOf ((if enable then Command.ntpAuthenticationEnable else .noNtpAuthenticationEnable).run
        isValidIpv4 .committed db).2 = configOf db := by
  rw [run_authenticationEnable]
  cases db.system.head? with
  | none => rfl
  | some sys => rfl

/-- **Step.** A committed command acts on the tables as on the configuration. -/
theorem configOf_exec (h : WellFormed isValidIpv4 db) (c : Command) :
    configOf (c.exec isValidIpv4 db) = (configOf db).step isValidIpv4 c := by
  cases c with
  | ntpServer name prefer version keyId => exact configOf_ntpServer h name prefer version keyId
  | noNtpServer name => exact configOf_noNtpServer h name
  | ntpAuthenticationEnable => exact configOf_authenticationEnable db true
  | noNtpAuthenticationEnable => exact configOf_authenticationEnable db false
  | ntpAuthenticationKey key md5 => exact configOf_ntpAuthenticationKey h key md5
  | noNtpAuthenticationKey key => exact configOf_noNtpAuthenticationKey h key
  | ntpTrustedKey key => exact configOf_trustedKey h key true
  | noNtpTrustedKey key => exact configOf_trustedKey h key false

/-! ## Section 3: Runs -/

/-- **Run.** So does every sequence of committed commands. -/
theorem configOf_execAll (h : WellFormed isValidIpv4 db) (cs : List Command) :
    configOf (execAll isValidIpv4 db cs) = (configOf db).run isValidIpv4 cs := by
  induction cs generalizing db with
  | nil => rfl
  | cons c cs ih =>
    rw [execAll_cons, ih (wellFormed_exec h c), configOf_exec h c]
    rfl

/-- The tables are a duplicate-free representation of the configuration: one
    row per key and per server, and no reference to a key that is gone. -/
structure Represents (db : Db) (m : Config) : Prop where
  keyIds : (db.ntpKey.map NtpKeyRow.keyId).Nodup
  addresses : (db.ntpAssociation.map NtpAssociationRow.address).Nodup
  keys : ∀ key pwd trust, m.keys.lookup key = some (pwd, trust) ↔
    ∃ r ∈ db.ntpKey, r.keyId = key ∧ r.keyPassword = pwd ∧ r.trustEnable = trust
  servers : ∀ name e, m.servers.lookup name = some e ↔
    ∃ r ∈ db.ntpAssociation, r.address = name ∧
      r.associationAttributes.lookup ntpAssocAttribVersion = some e.version ∧
      r.associationAttributes.lookup ntpAssocAttribPrefer =
        some (if e.prefer then "true" else "false") ∧
      match e.key with
      | none => r.keyId = none
      | some key => ∃ kr ∈ db.ntpKey, r.keyId = some kr.uuid ∧ kr.keyId = key

theorem keyOf_eq_none (h : WellFormed isValidIpv4 db) {row : NtpAssociationRow}
    (hrow : row ∈ db.ntpAssociation) : db.keyOf row = none ↔ row.keyId = none := by
  cases hkey : row.keyId with
  | none => simp [Db.keyOf, hkey]
  | some u =>
    obtain ⟨kr, hkr, rfl⟩ := List.mem_map.mp (h.assocKey row hrow u hkey)
    have hsome := (Db.keyOf_eq_some h.keyUuids).mpr ⟨kr, hkr, hkey, rfl⟩
    simp [hsome]

/-- Under the invariant the tables represent their configuration. -/
theorem represents_configOf (h : WellFormed isValidIpv4 db) : Represents db (configOf db) := by
  refine { keyIds := h.keyIds, addresses := h.addresses, keys := ?_, servers := ?_ }
  · intro key pwd trust
    refine (Rows.lookup_index h.keyIds).trans ?_
    simp only [Prod.mk.injEq]
  · intro name e
    refine (Rows.lookup_index h.addresses).trans ?_
    apply exists_congr
    intro r
    constructor
    · intro hr
      obtain ⟨hmem, haddr, rfl⟩ := hr
      obtain ⟨v, pr, _, hattr⟩ := h.assocAttributes r hmem
      refine ⟨hmem, haddr, by simp [serverEntry, hattr], ?_, ?_⟩
      · cases pr <;> simp [serverEntry, hattr]
      · show match db.keyOf r with
          | none => r.keyId = none
          | some key => ∃ kr ∈ db.ntpKey, r.keyId = some kr.uuid ∧ kr.keyId = key
        cases hkey : db.keyOf r with
        | none => exact (keyOf_eq_none h hmem).mp hkey
        | some key => exact (Db.keyOf_eq_some h.keyUuids).mp hkey
    · intro hr
      obtain ⟨hmem, haddr, hver, hpref, hkey⟩ := hr
      refine ⟨hmem, haddr, ?_⟩
      have hkeyOf : db.keyOf r = e.key := by
        cases hk : e.key with
        | none =>
          rw [hk] at hkey
          exact (keyOf_eq_none h hmem).mpr hkey
        | some key =>
          rw [hk] at hkey
          exact (Db.keyOf_eq_some h.keyUuids).mpr hkey
      obtain ⟨version, prefer, key⟩ := e
      simp only [serverEntry, hver, hpref, hkeyOf, Option.getD_some, ServerEntry.mk.injEq,
        true_and, and_true]
      cases prefer <;> simp

theorem configOf_emptyTables (nextUuid vrf : Uuid) (system : List SystemRow) :
    configOf (emptyTables nextUuid vrf system) = Config.empty := rfl

/-- **The CLI refines a pair of finite maps.** From empty tables over the
    default VRF, any sequence of commands keeps the tables a duplicate-free
    representation of the configuration that the commands describe. -/
theorem commands_refine_config (nextUuid vrf : Uuid) (system : List SystemRow)
    (cs : List Command) :
    Represents (execAll isValidIpv4 (emptyTables nextUuid vrf system) cs)
      (Config.empty.run isValidIpv4 cs) := by
  have hempty := wellFormed_emptyTables isValidIpv4 nextUuid vrf system
  have hrun := configOf_execAll hempty cs
  rw [configOf_emptyTables] at hrun
  rw [← hrun]
  exact represents_configOf (wellFormed_execAll hempty cs)

end OpsNtpd.Cli
