import OpsNtpd.Cli.Printed

/-! # CLI: The Printed Configuration Restores the Tables

  - Section 1: replaying the lines of keys and servers on tables that do not
    have them adds exactly their rows.
  - Section 2: replaying a line on the tables it was printed from changes
    nothing.
  - Section 3: the round trip.
-/

namespace OpsNtpd.Cli

open Text

variable {isValidIpv4 : Nat → Bool} {db : Db}

/-! ## Section 1: Replaying on tables without the rows -/

theorem executeLine_of_success {line : String} {c : Command} (hparse : parseLine line = some c)
    (hrun : (c.run isValidIpv4 .committed db).1 = .success) :
    executeLine isValidIpv4 db line = some (c.exec isValidIpv4 db) := by
  unfold executeLine Command.exec
  rcases hres : c.run isValidIpv4 .committed db with ⟨code, db'⟩
  rw [hres] at hrun
  have hcode : code = .success := hrun
  simp only [hparse, hres, hcode]

theorem executeLines_cons_of_some {line : String} {lines : List String} {db' : Db}
    (h : executeLine isValidIpv4 db line = some db') :
    executeLines isValidIpv4 db (line :: lines) = executeLines isValidIpv4 db' lines := by
  unfold executeLines
  rw [List.foldlM_cons, h]
  rfl

theorem executeLines_append_of_some {lines lines' : List String} {db' : Db}
    (h : executeLines isValidIpv4 db lines = some db') :
    executeLines isValidIpv4 db (lines ++ lines') = executeLines isValidIpv4 db' lines' := by
  unfold executeLines at h ⊢
  rw [List.foldlM_append, h]
  rfl

/-- A valid key is always accepted. -/
theorem run_authenticationKey_success {key md5 : String} (hkey : keyIdInRange (atoi key))
    (hlen : passwordLenInRange md5) :
    ((Command.ntpAuthenticationKey key md5).run isValidIpv4 .committed db).1 = .success := by
  rw [run_ntpAuthenticationKey, if_neg (not_not.mpr ⟨hkey, hlen⟩)]
  cases ntpOvsrecGetAuthKey db (atoi key) with
  | none => rfl
  | some row => rfl

/-- A key that exists can be trusted. -/
theorem run_trustedKey_success (h : WellFormed isValidIpv4 db) {key : String}
    (hkey : keyIdInRange (atoi key)) (hmem : atoi key ∈ (configOf db).keys.keys) :
    ((Command.ntpTrustedKey key).run isValidIpv4 .committed db).1 = .success := by
  have hrun := run_trustedKey isValidIpv4 db key true
  rw [if_pos rfl, if_neg (not_not.mpr hkey)] at hrun
  rw [hrun]
  cases hrow : ntpOvsrecGetAuthKey db (atoi key) with
  | none => exact absurd ((mem_configOf_keys h).mp hmem) (ntpOvsrecGetAuthKey_none.mp hrow)
  | some row => rfl

/-- Acceptable arguments are accepted, if only with a message about a full table. -/
theorem run_server_success (h : WellFormed isValidIpv4 db) {name : String} {prefer : Bool}
    {version keyId : Option String}
    (hacc : (configOf db).acceptable isValidIpv4 name version keyId) :
    ((Command.ntpServer name prefer version keyId).run isValidIpv4 .committed db).1 =
      .success := by
  obtain ⟨keyRow, hok⟩ := (sanitize_ok_iff_acceptable h name prefer version keyId).mpr hacc
  rw [run_ntpServer]
  simp only [hok]
  cases ntpOvsrecGetAssoc db defaultVrfName name with
  | some row => rfl
  | none =>
    simp only
    split <;> rfl

/-- Replaying the lines of a key adds its row. -/
theorem executeLines_printKey (h : WellFormed isValidIpv4 db) {row : NtpKeyRow}
    (hkey : keyIdInRange row.keyId) (hlen : passwordLenInRange row.keyPassword)
    (hpwd : IsWord row.keyPassword) (hnew : (configOf db).keys.lookup row.keyId = none) :
    ∃ db', executeLines isValidIpv4 db (printKey row) = some db' ∧
      WellFormed isValidIpv4 db' ∧
      configOf db' = { configOf db with
        keys := (configOf db).keys.insert row.keyId (row.keyPassword, row.trustEnable) } := by
  have hatoi : atoi (toString row.keyId) = row.keyId := atoi_keyId hkey
  let db₁ := (authenticationKeyCommand row).exec isValidIpv4 db
  have hwf₁ : WellFormed isValidIpv4 db₁ := wellFormed_exec h _
  have hline₁ : executeLine isValidIpv4 db ("ntp authentication-key " ++ toString row.keyId ++
      " md5 " ++ row.keyPassword) = some db₁ :=
    executeLine_of_success (parseLine_authenticationKey hkey hpwd)
      (run_authenticationKey_success (by rw [hatoi]; exact hkey) hlen)
  have hcfg₁ : configOf db₁ = { configOf db with
      keys := (configOf db).keys.insert row.keyId (row.keyPassword, false) } := by
    refine (configOf_exec h _).trans ?_
    rw [authenticationKeyCommand, Config.step, hatoi, if_neg (not_not.mpr ⟨hkey, hlen⟩), hnew]
    rfl
  unfold printKey
  by_cases htrust : row.trustEnable = true
  · rw [if_pos htrust, executeLines_cons_of_some hline₁]
    have hlook : (configOf db₁).keys.lookup row.keyId = some (row.keyPassword, false) := by
      rw [hcfg₁]
      exact Finmap.lookup_insert _
    have hmem : atoi (toString row.keyId) ∈ (configOf db₁).keys.keys := by
      rw [hatoi, Dict.mem_keys_iff]
      exact ⟨_, hlook⟩
    have hline₂ := executeLine_of_success (parseLine_trustedKey hkey)
      (run_trustedKey_success hwf₁ (by rw [hatoi]; exact hkey) hmem)
    refine ⟨_, executeLines_cons_of_some hline₂, wellFormed_exec hwf₁ _, ?_⟩
    rw [configOf_exec hwf₁, trustedKeyCommand, Config.step, Config.setTrust, hatoi]
    simp only [hlook, htrust]
    rw [hcfg₁, Finmap.insert_insert]
  · rw [if_neg htrust]
    refine ⟨db₁, executeLines_cons_of_some hline₁, hwf₁, ?_⟩
    rw [hcfg₁, eq_false_of_ne_true htrust]

/-- **Run.** Replaying the lines of keys adds their rows. -/
theorem executeLines_printKeys (h : WellFormed isValidIpv4 db) {rows : List NtpKeyRow}
    (hvalid : ∀ r ∈ rows, keyIdInRange r.keyId ∧ passwordLenInRange r.keyPassword ∧
      IsWord r.keyPassword)
    (hnd : (rows.map NtpKeyRow.keyId).Nodup)
    (hnew : ∀ r ∈ rows, (configOf db).keys.lookup r.keyId = none) :
    ∃ db', executeLines isValidIpv4 db (rows.flatMap printKey) = some db' ∧
      WellFormed isValidIpv4 db' ∧
      configOf db' = { configOf db with
        keys := (rows.map fun r => (r.keyId, (r.keyPassword, r.trustEnable))).foldl
          (fun m p => m.insert p.1 p.2) (configOf db).keys } := by
  induction rows generalizing db with
  | nil => exact ⟨db, rfl, h, rfl⟩
  | cons row rows ih =>
    rw [List.map_cons, List.nodup_cons] at hnd
    obtain ⟨hkey, hlen, hpwd⟩ := hvalid row List.mem_cons_self
    obtain ⟨db₁, hexec, hwf₁, hcfg₁⟩ :=
      executeLines_printKey h hkey hlen hpwd (hnew row List.mem_cons_self)
    have hnew₁ : ∀ r ∈ rows, (configOf db₁).keys.lookup r.keyId = none := by
      intro r hr
      have hne : r.keyId ≠ row.keyId := by
        intro heq
        exact hnd.1 (List.mem_map.mpr ⟨r, hr, heq⟩)
      rw [hcfg₁]
      show ((configOf db).keys.insert row.keyId _).lookup r.keyId = none
      rw [Finmap.lookup_insert_of_ne _ hne]
      exact hnew r (List.mem_cons_of_mem _ hr)
    obtain ⟨db', hexec', hwf', hcfg'⟩ :=
      ih hwf₁ (fun r hr => hvalid r (List.mem_cons_of_mem _ hr)) hnd.2 hnew₁
    refine ⟨db', ?_, hwf', ?_⟩
    · rw [List.flatMap_cons, executeLines_append_of_some hexec]
      exact hexec'
    · rw [hcfg', hcfg₁]
      rfl

/-- Replaying the line of a server adds its row. -/
theorem executeLine_server (h : WellFormed isValidIpv4 db) {address line : String}
    {e : ServerEntry} (hparse : parseLine line = some (serverCommand address e))
    (hname : validServerName isValidIpv4 address) (hver : versionToken e.version)
    (hkey : ∀ key, e.key = some key → keyIdInRange key ∧ key ∈ (configOf db).keys.keys)
    (hnew : (configOf db).servers.lookup address = none)
    (hroom : (configOf db).servers.keys.card < ntpAssocMaxServers) :
    ∃ db', executeLine isValidIpv4 db line = some db' ∧ WellFormed isValidIpv4 db' ∧
      configOf db' = { configOf db with
        servers := (configOf db).servers.insert address e } := by
  have hatoi : ∀ key, e.key = some key → atoi (toString key) = key := by
    intro key hk
    exact atoi_keyId (hkey key hk).1
  have hacc : (configOf db).acceptable isValidIpv4 address
      (if e.version = "3" then none else some e.version) (e.key.map toString) := by
    refine ⟨hname, ?_, ?_⟩
    · intro k hk
      obtain ⟨key, hekey, rfl⟩ := Option.mem_map.mp hk
      rw [hatoi key hekey]
      exact hkey key hekey
    · intro v hv
      by_cases hthree : e.version = "3"
      · rw [if_pos hthree] at hv
        cases hv
      · rw [if_neg hthree] at hv
        cases hv
        exact versionInRange_of_token hver
  refine ⟨_, executeLine_of_success hparse (run_server_success h hacc), wellFormed_exec h _, ?_⟩
  rw [configOf_exec h, serverCommand, Config.step, if_neg (not_not.mpr hacc), hnew]
  simp only
  rw [if_neg (Nat.not_le.mpr hroom)]
  -- what the line leaves out falls back to the default it had
  have hupdate : ServerEntry.default.update e.prefer
      (if e.version = "3" then none else some e.version) (e.key.map toString) = e := by
    obtain ⟨version, prefer, key⟩ := e
    have hkeyMap : (key.map toString).map atoi = key := by
      cases key with
      | none => rfl
      | some key => rw [Option.map_some, Option.map_some, hatoi key rfl]
    simp only [ServerEntry.update, ServerEntry.default, hkeyMap, Bool.or_false, Option.or_none]
    by_cases hthree : version = "3"
    · simp [hthree]
    · simp [hthree]
  rw [hupdate]

/-- **Run.** Replaying the lines of servers adds their rows. -/
theorem executeLines_servers (h : WellFormed isValidIpv4 db) {src : Db}
    (hsrc : WellFormed isValidIpv4 src) (hp : (configOf src).Printable)
    (hkeys : (configOf db).keys = (configOf src).keys)
    {rows : List NtpAssociationRow} {lines : List String}
    (hsub : ∀ r ∈ rows, r ∈ src.ntpAssociation)
    (hprint : rows.mapM (printServer src) = some lines)
    (hnd : (rows.map NtpAssociationRow.address).Nodup)
    (hnew : ∀ r ∈ rows, (configOf db).servers.lookup r.address = none)
    (hroom : (configOf db).servers.keys.card + rows.length ≤ ntpAssocMaxServers) :
    ∃ db', executeLines isValidIpv4 db lines = some db' ∧ WellFormed isValidIpv4 db' ∧
      configOf db' = { configOf db with
        servers := (rows.map fun r => (r.address, serverEntry src r)).foldl
          (fun m p => m.insert p.1 p.2) (configOf db).servers } := by
  induction rows generalizing db lines with
  | nil =>
    cases hprint
    exact ⟨db, rfl, h, rfl⟩
  | cons row rows ih =>
    obtain ⟨line, lines', hline, hprint', rfl⟩ := Rows.mapM_cons_eq_some hprint
    rw [List.map_cons, List.nodup_cons] at hnd
    rw [List.length_cons] at hroom
    have hrow := hsub row List.mem_cons_self
    obtain ⟨_, hver, hkey, _⟩ := serverRow_valid hsrc hp hrow
    have hkey' : ∀ key, (serverEntry src row).key = some key →
        keyIdInRange key ∧ key ∈ (configOf db).keys.keys := by
      intro key hk
      obtain ⟨kr, hkr, _, hid⟩ := (Db.keyOf_eq_some hsrc.keyUuids).mp hk
      refine ⟨hkey key hk, ?_⟩
      rw [hkeys]
      exact (mem_configOf_keys hsrc).mpr (List.mem_map.mpr ⟨kr, hkr, hid⟩)
    obtain ⟨db₁, hexec, hwf₁, hcfg₁⟩ := executeLine_server h
      (parseLine_server hsrc hp hrow hline) (hsrc.assocValid row hrow) hver hkey'
      (hnew row List.mem_cons_self) (by omega)
    have hnew₁ : ∀ r ∈ rows, (configOf db₁).servers.lookup r.address = none := by
      intro r hr
      have hne : r.address ≠ row.address := by
        intro heq
        exact hnd.1 (List.mem_map.mpr ⟨r, hr, heq⟩)
      rw [hcfg₁]
      show ((configOf db).servers.insert row.address _).lookup r.address = none
      rw [Finmap.lookup_insert_of_ne _ hne]
      exact hnew r (List.mem_cons_of_mem _ hr)
    have hroom₁ : (configOf db₁).servers.keys.card + rows.length ≤ ntpAssocMaxServers := by
      have hcard : (configOf db₁).servers.keys.card ≤ (configOf db).servers.keys.card + 1 := by
        rw [hcfg₁]
        exact Dict.card_keys_insert_le _ _ _
      omega
    obtain ⟨db', hexec', hwf', hcfg'⟩ := ih hwf₁ (by rw [hcfg₁]; exact hkeys)
      (fun r hr => hsub r (List.mem_cons_of_mem _ hr)) hprint' hnd.2 hnew₁ hroom₁
    refine ⟨db', ?_, hwf', ?_⟩
    · rw [executeLines_cons_of_some hexec]
      exact hexec'
    · rw [hcfg', hcfg₁]
      rfl

/-- Replaying the whole printed configuration on empty tables rebuilds the
    configuration. -/
theorem executeLines_printed (hsrc : WellFormed isValidIpv4 db) (hp : (configOf db).Printable)
    {lines : List String} (hprint : vtyshConfigContextNtpClientcallback db = some lines)
    (nextUuid vrf : Uuid) (system : List SystemRow) :
    ∃ db', executeLines isValidIpv4 (emptyTables nextUuid vrf system) lines = some db' ∧
      WellFormed isValidIpv4 db' ∧ configOf db' = configOf db := by
  obtain ⟨servers, hservers, rfl⟩ := vtyshConfigContextNtpClientcallback_eq_some.mp hprint
  have hempty := wellFormed_emptyTables isValidIpv4 nextUuid vrf system
  have hvalid : ∀ r ∈ db.ntpKey, keyIdInRange r.keyId ∧ passwordLenInRange r.keyPassword ∧
      IsWord r.keyPassword := by
    intro r hr
    obtain ⟨hkey, hlen⟩ := hsrc.keyValid r hr
    exact ⟨hkey, hlen, hp.passwords _ _ (lookup_configOf_keys hsrc hr)⟩
  obtain ⟨db₁, hexec₁, hwf₁, hcfg₁⟩ := executeLines_printKeys hempty hvalid hsrc.keyIds
    (fun r _ => Finmap.lookup_empty _)
  have hkeys : (configOf db₁).keys = (configOf db).keys := by rw [hcfg₁]; rfl
  have hnone : (configOf db₁).servers = ∅ := by rw [hcfg₁]; rfl
  obtain ⟨db', hexec', hwf', hcfg'⟩ := executeLines_servers hwf₁ hsrc hp hkeys
    (fun r hr => hr) hservers hsrc.addresses
    (fun r _ => by rw [hnone]; exact Finmap.lookup_empty _)
    (by rw [hnone, Finmap.keys_empty, Finset.card_empty, Nat.zero_add]; exact hsrc.maxServers)
  refine ⟨db', ?_, hwf', ?_⟩
  · rw [executeLines_append_of_some hexec₁]
    exact hexec'
  · rw [hcfg', hnone]
    exact Config.eq_of_maps hkeys rfl

/-! ## Section 2: Replaying on the tables themselves -/

theorem apply_updateKey_eq_self (h : WellFormed isValidIpv4 db) {row : NtpKeyRow}
    (hrow : row ∈ db.ntpKey) {w : NtpKeyWrites} (hw : w.apply row = row) :
    db.apply (.updateKey row.uuid w) = db := by
  have hself : Rows.updateWhere NtpKeyRow.uuid row.uuid w.apply db.ntpKey = db.ntpKey := by
    apply Rows.updateWhere_eq_self
    intro r hr huuid
    rw [Rows.eq_of_index h.keyUuids hr hrow huuid]
    exact hw
  show { db with ntpKey := Rows.updateWhere NtpKeyRow.uuid row.uuid w.apply db.ntpKey } = db
  rw [hself]

theorem apply_updateAssociation_eq_self (h : WellFormed isValidIpv4 db)
    {row : NtpAssociationRow} (hrow : row ∈ db.ntpAssociation) {w : NtpAssociationWrites}
    (hw : w.apply row = row) : db.apply (.updateAssociation row.uuid w) = db := by
  have hself : Rows.updateWhere NtpAssociationRow.uuid row.uuid w.apply db.ntpAssociation =
      db.ntpAssociation := by
    apply Rows.updateWhere_eq_self
    intro r hr huuid
    rw [Rows.eq_of_index h.assocUuids hr hrow huuid]
    exact hw
  show { db with
    ntpAssociation :=
      Rows.updateWhere NtpAssociationRow.uuid row.uuid w.apply db.ntpAssociation } = db
  rw [hself]

theorem executeLine_self {line : String} {c : Command} (hparse : parseLine line = some c)
    (hrun : c.run isValidIpv4 .committed db = (.success, db)) :
    executeLine isValidIpv4 db line = some db := by
  have hsucc : (c.run isValidIpv4 .committed db).1 = .success := by rw [hrun]
  rw [executeLine_of_success hparse hsucc, Command.exec, hrun]

theorem executeLines_self {lines : List String}
    (h : ∀ line ∈ lines, executeLine isValidIpv4 db line = some db) :
    executeLines isValidIpv4 db lines = some db := by
  induction lines with
  | nil => rfl
  | cons line lines ih =>
    rw [executeLines_cons_of_some (h line List.mem_cons_self)]
    exact ih fun line' hline' => h line' (List.mem_cons_of_mem _ hline')

/-- Setting a key again to what it is changes nothing. -/
theorem run_keyCommands_self (h : WellFormed isValidIpv4 db) {row : NtpKeyRow}
    (hrow : row ∈ db.ntpKey) :
    (authenticationKeyCommand row).run isValidIpv4 .committed db = (.success, db) ∧
      (row.trustEnable = true →
        (trustedKeyCommand row).run isValidIpv4 .committed db = (.success, db)) := by
  obtain ⟨hkey, hlen⟩ := h.keyValid row hrow
  have hatoi : atoi (toString row.keyId) = row.keyId := atoi_keyId hkey
  have hget : ntpOvsrecGetAuthKey db (atoi (toString row.keyId)) = some row := by
    rw [hatoi]
    exact h.ntpOvsrecGetAuthKey_some.mpr ⟨hrow, rfl⟩
  constructor
  · rw [authenticationKeyCommand, run_ntpAuthenticationKey, hget, hatoi,
      if_neg (not_not.mpr ⟨hkey, hlen⟩)]
    simp only
    rw [apply_updateKey_eq_self h hrow rfl]
  · intro htrust
    have hrun := run_trustedKey isValidIpv4 db (toString row.keyId) true
    rw [if_pos rfl, hget, hatoi, if_neg (not_not.mpr hkey)] at hrun
    rw [trustedKeyCommand, hrun]
    simp only
    rw [apply_updateKey_eq_self h hrow]
    cases row
    simp_all [NtpKeyWrites.apply]

/-- Setting a server again to what it is changes nothing. -/
theorem run_serverCommand_self (h : WellFormed isValidIpv4 db) (hp : (configOf db).Printable)
    {row : NtpAssociationRow} (hrow : row ∈ db.ntpAssociation) :
    (serverCommand row.address (serverEntry db row)).run isValidIpv4 .committed db =
      (.success, db) := by
  obtain ⟨_, hver, hrange, hattr⟩ := serverRow_valid h hp hrow
  let e := serverEntry db row
  let p := ntpServerParams row.address e.prefer (if e.version = "3" then none else some e.version)
    (e.key.map toString)
  -- the key row found is the one the server refers to
  obtain ⟨keyRow, hsan, hkeep⟩ : ∃ keyRow : Option NtpKeyRow,
      sanitizeKey db true (e.key.map toString) = .ok keyRow ∧
      (e.key.isSome → keyRow.map NtpKeyRow.uuid = row.keyId) := by
    cases hkey : e.key with
    | none => exact ⟨none, rfl, by simp⟩
    | some key =>
      obtain ⟨kr, hkr, hu, hid⟩ := (Db.keyOf_eq_some h.keyUuids).mp hkey
      have hkeyRange := hrange key hkey
      have hatoi : atoi (toString key) = key := atoi_keyId hkeyRange
      refine ⟨some kr, ?_, fun _ => hu.symm⟩
      rw [Option.map_some]
      refine sanitizeKey_true_ok_iff.mpr ⟨by rw [hatoi]; exact hkeyRange, kr, ?_, rfl⟩
      rw [hatoi]
      exact h.ntpOvsrecGetAuthKey_some.mpr ⟨hkr, hid⟩
  have hok : ntpServerSanitizeParameters isValidIpv4 db p = .ok keyRow := by
    refine (ntpServerSanitizeParameters_ok_iff isValidIpv4).mpr ⟨h.assocValid row hrow, hsan, ?_⟩
    intro v hv
    by_cases hthree : e.version = "3"
    · simp only [p, ntpServerParams, hthree, if_true] at hv
      cases hv
    · simp only [p, ntpServerParams, hthree, if_false] at hv
      cases hv
      exact versionInRange_of_token hver
  have hget := h.ntpOvsrecGetAssoc_some.mpr ⟨hrow, rfl⟩
  have hattr' : optionAssocAttribs p row.associationAttributes = row.associationAttributes := by
    rw [hattr, optionAssocAttribs_assocAttribs]
    show assocAttribs ((if e.version = "3" then none else some e.version).getD e.version)
      (e.prefer || e.prefer) = assocAttribs e.version e.prefer
    rw [Bool.or_self]
    congr 1
    split <;> rfl
  have hself : (ntpServerReplaceParameters db row.associationAttributes p keyRow true).apply row =
      row := by
    have hkeyId : (((e.key.map toString).map fun _ => keyRow.map NtpKeyRow.uuid).getD
        row.keyId) = row.keyId := by
      cases hkey : e.key with
      | none => rfl
      | some key => exact hkeep (by rw [hkey]; rfl)
    show { row with
      keyId := (((e.key.map toString).map fun _ => keyRow.map NtpKeyRow.uuid).getD row.keyId)
      associationAttributes := optionAssocAttribs p row.associationAttributes } = row
    rw [hkeyId, hattr']
  show (Command.ntpServer row.address e.prefer (if e.version = "3" then none else some e.version)
    (e.key.map toString)).run isValidIpv4 .committed db = _
  rw [run_ntpServer]
  simp only [hget]
  rw [hok]
  simp only
  rw [apply_updateAssociation_eq_self h hrow hself]

/-! ## Section 3: The round trip -/

/-- What a key row holds, apart from its identity. -/
def keyContents (db : Db) : List (Int × String × Bool) :=
  db.ntpKey.map fun r => (r.keyId, r.keyPassword, r.trustEnable)

/-- What a server row holds, apart from its identity; the key reference is
    given by the id of the key. -/
structure ServerContents where
  address : String
  keyId : Option Int
  version : Option String
  prefer : Option String
  refClockId : Option String
  deriving DecidableEq, Repr

def serverContents (db : Db) : List ServerContents :=
  db.ntpAssociation.map fun r =>
    { address := r.address
      keyId := db.keyOf r
      version := r.associationAttributes.lookup ntpAssocAttribVersion
      prefer := r.associationAttributes.lookup ntpAssocAttribPrefer
      refClockId := r.associationAttributes.lookup ntpAssocAttribRefClockId }

/-- The contents of a server row are determined by its options. -/
def ServerEntry.contents (address : String) (e : ServerEntry) : ServerContents :=
  { address := address
    keyId := e.key
    version := some e.version
    prefer := some (if e.prefer then "true" else "false")
    refClockId := some "-" }

theorem serverContents_eq (h : WellFormed isValidIpv4 db) :
    serverContents db =
      (db.ntpAssociation.map fun r => (r.address, serverEntry db r)).map
        fun p => p.2.contents p.1 := by
  unfold serverContents
  rw [List.map_map]
  refine List.map_congr_left fun r hr => ?_
  obtain ⟨version, prefer, _, hattr⟩ := h.assocAttributes r hr
  cases prefer <;> simp [ServerEntry.contents, serverEntry, hattr]

/-- Tables with the same configuration have the same rows up to identity. -/
theorem contents_perm {db' : Db} (h : WellFormed isValidIpv4 db) (h' : WellFormed isValidIpv4 db')
    (heq : configOf db = configOf db') :
    (keyContents db).Perm (keyContents db') ∧ (serverContents db).Perm (serverContents db') := by
  constructor
  · exact Rows.perm_of_index_eq h.keyIds h'.keyIds (congrArg Config.keys heq)
  · rw [serverContents_eq h, serverContents_eq h']
    have hservers : Rows.index NtpAssociationRow.address (serverEntry db) db.ntpAssociation =
        Rows.index NtpAssociationRow.address (serverEntry db') db'.ntpAssociation :=
      congrArg Config.servers heq
    exact (Rows.perm_of_index_eq h.addresses h'.addresses hservers).map _

section reorder
variable {db' : Db}

theorem WellFormed.reorders (h : WellFormed isValidIpv4 db) (hre : db.Reorders db') :
    WellFormed isValidIpv4 db' := by
  have hvrf : db'.vrf = db.vrf := by
    obtain ⟨v, hv, _⟩ := h.defaultVrf
    have hperm := hre.vrf
    rw [hv] at hperm ⊢
    exact List.perm_singleton.mp hperm
  have hkeyMem : ∀ r, r ∈ db'.ntpKey ↔ r ∈ db.ntpKey := fun r => hre.ntpKey.mem_iff
  have hassocMem : ∀ r, r ∈ db'.ntpAssociation ↔ r ∈ db.ntpAssociation :=
    fun r => hre.ntpAssociation.mem_iff
  exact
    { defaultVrf := by rw [hvrf]; exact h.defaultVrf
      keyUuids := (hre.ntpKey.map _).nodup_iff.mpr h.keyUuids
      keyFresh := fun r hr => by rw [hre.nextUuid]; exact h.keyFresh r ((hkeyMem r).mp hr)
      keyIds := (hre.ntpKey.map _).nodup_iff.mpr h.keyIds
      keyValid := fun r hr => h.keyValid r ((hkeyMem r).mp hr)
      assocUuids := (hre.ntpAssociation.map _).nodup_iff.mpr h.assocUuids
      assocFresh := fun r hr => by rw [hre.nextUuid]; exact h.assocFresh r ((hassocMem r).mp hr)
      addresses := (hre.ntpAssociation.map _).nodup_iff.mpr h.addresses
      assocValid := fun r hr => h.assocValid r ((hassocMem r).mp hr)
      assocVrf := fun r hr => by rw [hvrf]; exact h.assocVrf r ((hassocMem r).mp hr)
      assocAttributes := fun r hr => h.assocAttributes r ((hassocMem r).mp hr)
      assocKey := fun r hr k hk =>
        (hre.ntpKey.map _).mem_iff.mpr (h.assocKey r ((hassocMem r).mp hr) k hk)
      maxServers := by rw [hre.ntpAssociation.length_eq]; exact h.maxServers }

theorem configOf_reorders (h : WellFormed isValidIpv4 db) (hre : db.Reorders db') :
    configOf db' = configOf db := by
  have hentry : serverEntry db' = serverEntry db := by
    funext row
    simp only [serverEntry, Db.keyOf_reorders h.keyUuids hre row]
  apply Config.eq_of_maps
  · exact Rows.index_perm (h.reorders hre).keyIds hre.ntpKey
  · show Rows.index _ (serverEntry db') _ = Rows.index _ (serverEntry db) _
    rw [hentry]
    exact Rows.index_perm (h.reorders hre).addresses hre.ntpAssociation

end reorder

/-- Replaying the lines printed from a reordering on the tables themselves
    changes nothing. -/
theorem executeLines_printed_self (h : WellFormed isValidIpv4 db) (hp : (configOf db).Printable)
    {db' : Db} (hre : db.Reorders db') {lines : List String}
    (hprint : vtyshConfigContextNtpClientcallback db' = some lines) :
    executeLines isValidIpv4 db lines = some db := by
  obtain ⟨servers, hservers, rfl⟩ := vtyshConfigContextNtpClientcallback_eq_some.mp hprint
  have hcfg := configOf_reorders h hre
  refine executeLines_self fun line hline => ?_
  rcases List.mem_append.mp hline with hkeyLine | hserverLine
  · obtain ⟨row, hrow', hin⟩ := List.mem_flatMap.mp hkeyLine
    have hrow : row ∈ db.ntpKey := hre.ntpKey.mem_iff.mp hrow'
    obtain ⟨hkey, _⟩ := h.keyValid row hrow
    obtain ⟨hself, htrusted⟩ := run_keyCommands_self h hrow
    rcases List.mem_cons.mp hin with rfl | htail
    · exact executeLine_self
        (parseLine_authenticationKey hkey (hp.passwords _ _ (lookup_configOf_keys h hrow))) hself
    · by_cases htrust : row.trustEnable = true
      · rw [if_pos htrust, List.mem_singleton] at htail
        rw [htail]
        exact executeLine_self (parseLine_trustedKey hkey) (htrusted htrust)
      · rw [if_neg htrust] at htail
        cases htail
  · obtain ⟨row, hrow', hline'⟩ := Rows.exists_of_mem_mapM hservers hserverLine
    have hrow : row ∈ db.ntpAssociation := hre.ntpAssociation.mem_iff.mp hrow'
    have hparse := parseLine_server (h.reorders hre) (by rw [hcfg]; exact hp) hrow' hline'
    have hentry : serverEntry db' row = serverEntry db row := by
      simp only [serverEntry, Db.keyOf_reorders h.keyUuids hre row]
    rw [hentry] at hparse
    exact executeLine_self hparse (run_serverCommand_self h hp hrow)

/-- The database is one that lines entered by users build up from empty tables
    over the default VRF. -/
def Configured (isValidIpv4 : Nat → Bool) (db : Db) : Prop :=
  ∃ nextUuid vrf system input,
    db = enterLines isValidIpv4 (emptyTables nextUuid vrf system) input

theorem Configured.wellFormed (h : Configured isValidIpv4 db) :
    WellFormed isValidIpv4 db ∧ (configOf db).Printable := by
  obtain ⟨nextUuid, vrf, system, input, rfl⟩ := h
  exact wellFormed_enterLines (wellFormed_emptyTables isValidIpv4 nextUuid vrf system)
    Config.printable_empty input

/-- **Round trip.** Print the configuration of tables that users have built up,
    in any row order. Replaying the lines on empty tables accepts every line
    and gives the same rows up to identity; replaying them on the tables
    themselves changes nothing. -/
theorem runningConfig_roundTrip (h : Configured isValidIpv4 db) {db' : Db}
    (hre : db.Reorders db') {lines : List String}
    (hprint : vtyshConfigContextNtpClientcallback db' = some lines)
    (nextUuid vrf : Uuid) (system : List SystemRow) :
    (∃ restored,
      executeLines isValidIpv4 (emptyTables nextUuid vrf system) lines = some restored ∧
      (keyContents restored).Perm (keyContents db) ∧
      (serverContents restored).Perm (serverContents db)) ∧
    executeLines isValidIpv4 db lines = some db := by
  obtain ⟨hwf, hp⟩ := h.wellFormed
  have hcfg := configOf_reorders hwf hre
  obtain ⟨restored, hexec, hwfR, hcfgR⟩ :=
    executeLines_printed (hwf.reorders hre) (by rw [hcfg]; exact hp) hprint nextUuid vrf system
  exact ⟨⟨restored, hexec, contents_perm hwfR hwf (hcfgR.trans hcfg)⟩,
    executeLines_printed_self hwf hp hre hprint⟩

/-- A trusted key and two servers, one of them with every option. -/
theorem runningConfig_roundTrip_two_servers :
    let db := enterLines (fun _ => true) (emptyTables 1 0 [])
      ["ntp authentication-key 007 md5 topsecret", "ntp trusted-key 7", "ntp server 10.0.0.1",
       "ntp server time.example key-id 7 prefer version 04"]
    let lines := ["ntp authentication-key 7 md5 topsecret", "ntp trusted-key 7",
      "ntp server time.example key-id 7 version 04 prefer", "ntp server 10.0.0.1"]
    (∃ restored, executeLines (fun _ => true) (emptyTables 5 4 []) lines = some restored ∧
      (keyContents restored).Perm (keyContents db) ∧
      (serverContents restored).Perm (serverContents db)) ∧
    executeLines (fun _ => true) db lines = some db := by
  intro db lines
  have hprint : vtyshConfigContextNtpClientcallback db = some lines := by decide +kernel
  exact runningConfig_roundTrip ⟨1, 0, [], _, rfl⟩ (Db.Reorders.refl _) hprint 5 4 []

end OpsNtpd.Cli
