import OpsNtpd.Daemon.Updates

/-! # Daemon: One Pass

  `ops_ntpd_check_updates_from_ovsdb` reads the tables, compares them with the
  shadow state and hands the commands to `ops_ntpd_sync_updates_to_ntpd`,
  which writes the keys file, makes ntpd read it and runs the commands.

  - `Proper`: the databases the results are about. Columns are filled, and key
    ids and addresses are pairwise different.
  - `demandedServers`, `demandedKeys`: what a database asks of ntpd.
  - `pass_spec`: what a pass does to the shadow state and to ntpd.
-/

namespace OpsNtpd.Daemon

/-! ## Section 1: The pass -/

/-- The globals `g_ntpa_map`, `g_ntpk_db` and `auth_state`. -/
structure Shadow where
  gNtpaMap : AssocMap
  gNtpkDb : KeyMap
  authState : String
  deriving DecidableEq

/-- The globals of a daemon that has just started. -/
def Shadow.start : Shadow := { gNtpaMap := ∅, gNtpkDb := ∅, authState := "false" }

/-- The orders in which one pass iterates its dictionaries and sets. -/
structure PassOrders where
  us : List Int
  ts : List Int
  is : List Int
  ks : List (Uuid × String)
  rs : List (Uuid × String)

/-- What a pass hands to `ops_ntpd_sync_updates_to_ntpd`, and the events it
    has logged. -/
structure Batch where
  serverConfigs : List (Keyed.Cmd String ServerOpts)
  keyConfigs : List ConfigCmd
  keysFileContent : String
  events : List Event

/-- `server_configs + key_configs` -/
def Batch.configs (b : Batch) : List ConfigCmd :=
  b.serverConfigs.map ConfigCmd.association ++ b.keyConfigs

/-- The `NTP_GLOBAL` event. -/
def authEvent (old new : String) : Event :=
  { category := "NTP_GLOBAL", args := [("old", old), ("new", new)] }

/-- `ops_ntpd_check_updates_from_ovsdb`, less its last call. -/
def checkUpdatesFromOvsdb (secret : String) (db : Db) (sh : Shadow) (o : PassOrders) :
    Except PyError (Shadow × Batch) :=
  let auth := authenticationEnable db
  let triggerReconfig := decide (sh.authState ≠ auth)
  match readKeyRows auth db.ntpKey with
  | .error e => .error e
  | .ok lNtpkDb =>
    let keys := checkUpdatesWithNtpKeys secret lNtpkDb sh.gNtpkDb o.us o.ts o.is
    -- an exception here ends the daemon, so the changed globals do not matter
    match readAssociationRows db db.ntpAssociation with
    | .error e => .error e
    | .ok lNtpaMap =>
      let assocs := checkUpdatesWithNtpAssociations lNtpaMap sh.gNtpaMap triggerReconfig o.ks o.rs
      .ok
        ({ gNtpaMap := assocs.gNtpaMap, gNtpkDb := keys.gNtpkDb, authState := auth },
         { serverConfigs := assocs.serverConfigs
           keyConfigs := keys.keyConfigs
           keysFileContent := keys.keysFileContent
           events := (if triggerReconfig then [authEvent sh.authState auth] else []) ++
             keys.events ++ assocs.events })

/-- The orders enumerate what the pass iterates, given the maps it reads. -/
structure PassOrders.Valid (o : PassOrders) (lNtpkDb : KeyMap) (lNtpaMap : AssocMap)
    (sh : Shadow) : Prop where
  keys : KeyOrders lNtpkDb sh.gNtpkDb o.us o.ts o.is
  ks : IterOrder o.ks (lNtpaMap.keys ∪ sh.gNtpaMap.keys)
  rs : IterOrder o.rs lNtpaMap.keys

/-- The effect of `ops_ntpd_sync_updates_to_ntpd` on ntpd: the `ntpdc`
    invocation makes it read the keys file, the `ntpq` invocation runs the
    commands; an invocation that fails does nothing. -/
def Batch.Synced (b : Batch) (ntpdcOk ntpqOk : Bool) (n n' : Ntpd) : Prop :=
  -- the keys file is on the disk in either case, but ntpd reads it only when told
  let n₁ := if ntpdcOk then n.readkeys b.keysFileContent else n
  if ntpqOk then Ntpd.Run n₁ b.configs n' else n' = n₁

/-! ## Section 2: What a database asks for -/

/-- The options of a server row. -/
def rowOpts (db : Db) (row : NtpAssociationRow) : ServerOpts :=
  { version := (row.associationAttributes.lookup ntpAssocAttribVersion).getD defaultNtpVersion
    key := (db.keyOf row).map toString
    prefer :=
      (row.associationAttributes.lookup ntpAssocAttribPrefer).getD defaultNtpPref ≠ defaultNtpPref }

/-- The servers that a database asks for. -/
def demandedServers (db : Db) : Dict String ServerOpts :=
  Rows.index NtpAssociationRow.address (rowOpts db) db.ntpAssociation

/-- The keys that a database asks ntpd to trust, with their passwords: none
    unless authentication is enabled. -/
def demandedKeys (db : Db) : KeyMap :=
  Dict.ofPairs ((db.ntpKey.filter (makesEntry (authenticationEnable db))).map keyEntry)

/-- The databases that the daemon is made for: one `System` row, row
    identities, key ids and addresses pairwise different, columns filled. -/
structure Proper (db : Db) : Prop where
  oneSystem : db.system.length ≤ 1
  keyUuids : (db.ntpKey.map NtpKeyRow.uuid).Nodup
  keyIds : (db.ntpKey.map NtpKeyRow.keyId).Nodup
  addresses : (db.ntpAssociation.map NtpAssociationRow.address).Nodup
  filled : RowsFilled (authenticationEnable db) db

section proper
variable {db db' : Db}

theorem system_reorders (h : Proper db) (hre : db.Reorders db') : db'.system = db.system := by
  have hone := h.oneSystem
  cases hsys : db.system with
  | nil =>
    have hperm := hre.system
    rw [hsys] at hperm
    exact List.perm_nil.mp hperm
  | cons r rs =>
    have hnil : rs = [] := by
      rw [hsys, List.length_cons] at hone
      exact List.length_eq_zero_iff.mp (by omega)
    have hperm := hre.system
    rw [hsys, hnil] at hperm
    rw [hnil]
    exact List.perm_singleton.mp hperm

theorem authenticationEnable_reorders (h : Proper db) (hre : db.Reorders db') :
    authenticationEnable db' = authenticationEnable db := by
  rw [authenticationEnable, system_reorders h hre, authenticationEnable]

theorem Proper.reorders (h : Proper db) (hre : db.Reorders db') : Proper db' :=
  { oneSystem := by rw [hre.system.length_eq]; exact h.oneSystem
    keyUuids := (hre.ntpKey.map _).nodup_iff.mpr h.keyUuids
    keyIds := (hre.ntpKey.map _).nodup_iff.mpr h.keyIds
    addresses := (hre.ntpAssociation.map _).nodup_iff.mpr h.addresses
    filled :=
      { keys := fun r hr => by
          rw [authenticationEnable_reorders h hre]
          exact h.filled.keys r (hre.ntpKey.mem_iff.mp hr)
        associations := fun r hr => h.filled.associations r (hre.ntpAssociation.mem_iff.mp hr) } }

theorem demandedKeys_reorders (h : Proper db) (hre : db.Reorders db') :
    demandedKeys db' = demandedKeys db := by
  unfold demandedKeys
  rw [authenticationEnable_reorders h hre]
  exact Dict.ofPairs_perm (nodup_keyEntries (h.reorders hre).keyIds)
    ((hre.ntpKey.filter _).map keyEntry)

/-- The trusted keys that a database asks for are those of its trusted rows. -/
theorem lookup_demandedKeys (h : Proper db) {key : Int} {v : String × Bool} :
    (demandedKeys db).lookup key = some v ↔
      ∃ r ∈ db.ntpKey, makesEntry (authenticationEnable db) r = true ∧ r.keyId = key ∧
        (r.keyPassword, true) = v := by
  unfold demandedKeys
  rw [Dict.lookup_ofPairs (nodup_keyEntries h.keyIds), List.mem_map]
  simp only [List.mem_filter, keyEntry, Prod.mk.injEq]
  constructor
  · intro hex
    obtain ⟨r, ⟨hmem, hmakes⟩, hid, hv⟩ := hex
    exact ⟨r, hmem, hmakes, hid, hv⟩
  · intro hex
    obtain ⟨r, hmem, hmakes, hid, hv⟩ := hex
    exact ⟨r, ⟨hmem, hmakes⟩, hid, hv⟩

/-- The association map that a proper database is read into. -/
def readAssocs (db : Db) : AssocMap :=
  Dict.ofPairs (db.ntpAssociation.filterMap (assocEntry db))

theorem nodup_vrf_address (h : Proper db) :
    (db.ntpAssociation.map fun r => (r.vrf, r.address)).Nodup := by
  have hsnd : ((db.ntpAssociation.map fun r => (r.vrf, r.address)).map Prod.snd).Nodup := by
    rw [List.map_map]
    exact h.addresses
  exact List.Nodup.of_map _ hsnd

theorem lookup_readAssocs (h : Proper db) {k : Uuid × String} {v : AssocTuple} :
    (readAssocs db).lookup k = some v ↔
      ∃ r ∈ db.ntpAssociation, assocEntry db r = some (k, v) := by
  unfold readAssocs
  rw [Dict.lookup_ofPairs
    (nodup_assocEntries (fun r hr => (h.filled.associations r hr).2) (nodup_vrf_address h)),
    List.mem_filterMap]

theorem assocEntry_eq_some {r : NtpAssociationRow} {k : Uuid × String} {v : AssocTuple} :
    assocEntry db r = some (k, v) ↔
      ∃ vrf, r.vrf = some vrf ∧ k = (vrf, r.address) ∧ v = assocTuple db r vrf := by
  unfold assocEntry
  rw [Option.map_eq_some_iff]
  simp only [Prod.mk.injEq]
  constructor
  · intro hex
    obtain ⟨vrf, hvrf, hk, hv⟩ := hex
    exact ⟨vrf, hvrf, hk.symm, hv.symm⟩
  · intro hex
    obtain ⟨vrf, hvrf, hk, hv⟩ := hex
    exact ⟨vrf, hvrf, hk.symm, hv.symm⟩

/-- What is read mirrors the servers that are asked for. -/
theorem mirrors_readAssocs (h : Proper db) : Mirrors (demandedServers db) (readAssocs db) := by
  refine { address := ?_, unique := ?_, opts := ?_ }
  · intro k v hv
    obtain ⟨r, _, hentry⟩ := (lookup_readAssocs h).mp hv
    obtain ⟨vrf, _, hk, hv'⟩ := assocEntry_eq_some.mp hentry
    rw [hk, hv']
    rfl
  · intro k k' v v' hv hv' heq
    obtain ⟨r, hr, hentry⟩ := (lookup_readAssocs h).mp hv
    obtain ⟨r', hr', hentry'⟩ := (lookup_readAssocs h).mp hv'
    obtain ⟨vrf, hvrf, hk, _⟩ := assocEntry_eq_some.mp hentry
    obtain ⟨vrf', hvrf', hk', _⟩ := assocEntry_eq_some.mp hentry'
    have haddr : r.address = r'.address := by
      rw [hk, hk'] at heq
      exact heq
    have hrr : r = r' := Rows.eq_of_index h.addresses hr hr' haddr
    rw [hrr, hvrf'] at hvrf
    rw [hk, hk', hrr, Option.some.inj hvrf]
  · intro a o
    refine (Rows.lookup_index h.addresses).trans ?_
    constructor
    · intro hex
      obtain ⟨r, hr, haddr, hopts⟩ := hex
      obtain ⟨vrf, hvrf⟩ := Option.ne_none_iff_exists'.mp (h.filled.associations r hr).2
      refine ⟨(vrf, r.address), assocTuple db r vrf, ?_, haddr, hopts⟩
      exact (lookup_readAssocs h).mpr ⟨r, hr, assocEntry_eq_some.mpr ⟨vrf, hvrf, rfl, rfl⟩⟩
    · intro hex
      obtain ⟨k, v, hv, hka, hvo⟩ := hex
      obtain ⟨r, hr, hentry⟩ := (lookup_readAssocs h).mp hv
      obtain ⟨vrf, _, hk, hv'⟩ := assocEntry_eq_some.mp hentry
      refine ⟨r, hr, ?_, ?_⟩
      · rw [← hka, hk]
      · rw [← hvo, hv']
        rfl

end proper

/-! ## Section 3: What a pass does -/

section spec
variable {secret : String} {db db' : Db} {sh : Shadow} {o : PassOrders}

/-- One pass over a database, in some order of its rows and of the maps and
    sets that are iterated. -/
def IsPass (secret : String) (db : Db) (sh sh' : Shadow) (b : Batch) : Prop :=
  ∃ (db' : Db) (o : PassOrders) (lNtpkDb : KeyMap) (lNtpaMap : AssocMap), db.Reorders db' ∧
    readKeyRows (authenticationEnable db') db'.ntpKey = .ok lNtpkDb ∧
    readAssociationRows db' db'.ntpAssociation = .ok lNtpaMap ∧
    o.Valid lNtpkDb lNtpaMap sh ∧
    checkUpdatesFromOvsdb secret db' sh o = .ok (sh', b)

theorem readKeyRows_eq (h : Proper db) :
    readKeyRows (authenticationEnable db) db.ntpKey = .ok (demandedKeys db) :=
  readKeyRows_of_filled h.filled.keys

theorem readAssociationRows_eq (h : Proper db) :
    readAssociationRows db db.ntpAssociation = .ok (readAssocs db) :=
  readAssociationRows_of_filled db h.filled.associations

/-- On a proper database a pass computes the updates against the maps of the
    database, without an exception. -/
theorem checkUpdatesFromOvsdb_eq (h : Proper db) :
    checkUpdatesFromOvsdb secret db sh o =
      let keys := checkUpdatesWithNtpKeys secret (demandedKeys db) sh.gNtpkDb o.us o.ts o.is
      let trigger := decide (sh.authState ≠ authenticationEnable db)
      let assocs :=
        checkUpdatesWithNtpAssociations (readAssocs db) sh.gNtpaMap trigger o.ks o.rs
      .ok
        ({ gNtpaMap := assocs.gNtpaMap, gNtpkDb := keys.gNtpkDb
           authState := authenticationEnable db },
         { serverConfigs := assocs.serverConfigs
           keyConfigs := keys.keyConfigs
           keysFileContent := keys.keysFileContent
           events :=
             (if trigger then [authEvent sh.authState (authenticationEnable db)] else []) ++
               keys.events ++ assocs.events }) := by
  simp only [checkUpdatesFromOvsdb, readKeyRows_eq h, readAssociationRows_eq h]

theorem readAssocs_reorders (h : Proper db) (hre : db.Reorders db') :
    readAssocs db' = readAssocs db := by
  have h' := h.reorders hre
  have hentry : assocEntry db' = assocEntry db := by
    funext row
    simp only [assocEntry, assocTuple, Db.keyOf_reorders h.keyUuids hre row]
  unfold readAssocs
  rw [← hentry]
  exact Dict.ofPairs_perm
    (nodup_assocEntries (fun r hr => (h'.filled.associations r hr).2) (nodup_vrf_address h'))
    (hre.ntpAssociation.filterMap _)

/-- A pass over filled rows, some of which may be about the same server or key:
    the maps that it reads are those of some order of the rows. -/
theorem pass_maps (h : ∀ db', db.Reorders db' → RowsFilled (authenticationEnable db') db')
    {sh' : Shadow} {b : Batch} (hpass : IsPass secret db sh sh' b) :
    ∃ (db' : Db) (o : PassOrders), db.Reorders db' ∧
      o.Valid (demandedKeys db') (readAssocs db') sh ∧
      sh' = { gNtpaMap := readAssocs db'
              gNtpkDb := demandedKeys db'
              authState := authenticationEnable db' } ∧
      b.serverConfigs = (checkUpdatesWithNtpAssociations (readAssocs db') sh.gNtpaMap
        (decide (sh.authState ≠ authenticationEnable db')) o.ks o.rs).serverConfigs ∧
      b.keyConfigs =
        (checkUpdatesWithNtpKeys secret (demandedKeys db') sh.gNtpkDb o.us o.ts o.is).keyConfigs ∧
      b.keysFileContent = keysFileContent secret (demandedKeys db') o.is := by
  obtain ⟨db', o, l, m, hre, hl, hm, hvalid, hrun⟩ := hpass
  have hkeys := readKeyRows_of_filled (h db' hre).keys
  have hassocs := readAssociationRows_of_filled db' (h db' hre).associations
  rw [hkeys, Except.ok.injEq] at hl
  rw [hassocs, Except.ok.injEq] at hm
  subst hl hm
  have hspec := checkUpdatesWithNtpKeys_eq secret hvalid.keys
  simp only [checkUpdatesFromOvsdb, hkeys, hassocs] at hrun
  obtain ⟨rfl, rfl⟩ := Prod.mk.inj (Except.ok.inj hrun)
  refine ⟨db', o, hre, hvalid, ?_, rfl, rfl, hspec.2.2⟩
  rw [hspec.1]
  exact congrArg (fun g => Shadow.mk g _ _) (assocDiff_after hvalid.ks).1

/-- The order of the rows does not matter: a pass over a proper database is a
    pass in the order in which its rows are given. -/
theorem isPass_iff (h : Proper db) {sh' : Shadow} {b : Batch} :
    IsPass secret db sh sh' b ↔ ∃ o : PassOrders, o.Valid (demandedKeys db) (readAssocs db) sh ∧
      checkUpdatesFromOvsdb secret db sh o = .ok (sh', b) := by
  constructor
  · intro hpass
    obtain ⟨db', o, l, m, hre, hl, hm, hvalid, hrun⟩ := hpass
    have h' := h.reorders hre
    rw [readKeyRows_eq h', Except.ok.injEq] at hl
    rw [readAssociationRows_eq h', Except.ok.injEq] at hm
    rw [← hl, demandedKeys_reorders h hre, ← hm, readAssocs_reorders h hre] at hvalid
    refine ⟨o, hvalid, ?_⟩
    rw [checkUpdatesFromOvsdb_eq h', demandedKeys_reorders h hre, readAssocs_reorders h hre,
      authenticationEnable_reorders h hre] at hrun
    rw [checkUpdatesFromOvsdb_eq h]
    exact hrun
  · intro hex
    obtain ⟨o, hvalid, hrun⟩ := hex
    exact ⟨db, o, _, _, Db.Reorders.refl db, readKeyRows_eq h, readAssociationRows_eq h, hvalid,
      hrun⟩

/-- The shadow state after a pass is that of the database. -/
theorem pass_shadow (h : Proper db) {sh' : Shadow} {b : Batch}
    (hpass : IsPass secret db sh sh' b) :
    sh' = { gNtpaMap := readAssocs db
            gNtpkDb := demandedKeys db
            authState := authenticationEnable db } := by
  obtain ⟨o, hvalid, hrun⟩ := (isPass_iff h).mp hpass
  rw [checkUpdatesFromOvsdb_eq h] at hrun
  cases hrun
  have hassocs : (checkUpdatesWithNtpAssociations (readAssocs db) sh.gNtpaMap
      (decide (sh.authState ≠ authenticationEnable db)) o.ks o.rs).gNtpaMap = readAssocs db :=
    (assocDiff_after hvalid.ks).1
  rw [hassocs, (checkUpdatesWithNtpKeys_eq secret hvalid.keys).1]

/-- The keys file of a pass has the keys of the database. -/
theorem pass_keysFile (h : Proper db) {sh' : Shadow} {b : Batch}
    (hpass : IsPass secret db sh sh' b) :
    ∃ is, IterOrder is (demandedKeys db).keys ∧
      b.keysFileContent = keysFileContent secret (demandedKeys db) is := by
  obtain ⟨o, hvalid, hrun⟩ := (isPass_iff h).mp hpass
  rw [checkUpdatesFromOvsdb_eq h] at hrun
  cases hrun
  exact ⟨o.is, hvalid.keys.entries, (checkUpdatesWithNtpKeys_eq secret hvalid.keys).2.2⟩

/-- The server commands of a pass bring ntpd from the servers of the shadow
    state to those of the database. -/
theorem pass_servers (h : Proper db) {sh' : Shadow} {b : Batch}
    (hpass : IsPass secret db sh sh' b) {servers servers' : Dict String ServerOpts}
    (hmirror : Mirrors servers sh.gNtpaMap) (hrun : Keyed.Run servers b.serverConfigs servers') :
    servers' = demandedServers db := by
  obtain ⟨o, hvalid, hpassRun⟩ := (isPass_iff h).mp hpass
  rw [checkUpdatesFromOvsdb_eq h] at hpassRun
  cases hpassRun
  exact run_serverConfigs hmirror (mirrors_readAssocs h) hvalid.ks hrun

/-- The key commands of a pass take the keys that are gone out of the trusted
    set and put the keys of the database in. -/
theorem pass_keys (h : Proper db) {sh' : Shadow} {b : Batch} (hpass : IsPass secret db sh sh' b)
    {n n' : Ntpd} (hrun : Ntpd.Run n b.keyConfigs n') :
    n' = { n with
      trusted := (n.trusted \ (sh.gNtpkDb.keys \ (demandedKeys db).keys)) ∪
        (demandedKeys db).keys } := by
  obtain ⟨o, hvalid, hpassRun⟩ := (isPass_iff h).mp hpass
  rw [checkUpdatesFromOvsdb_eq h] at hpassRun
  cases hpassRun
  exact run_keyConfigs secret hvalid.keys hrun

/-- **A pass.** When ntpd has the servers of the shadow state, the commands
    bring it to the servers of the database, take the keys that are gone out
    of its trusted set and put the keys of the database in. -/
theorem pass_spec (h : Proper db) {sh' : Shadow} {b : Batch} (hpass : IsPass secret db sh sh' b)
    {n n' : Ntpd} (hmirror : Mirrors n.servers sh.gNtpaMap) (hrun : Ntpd.Run n b.configs n') :
    n' = { servers := demandedServers db
           trusted := (n.trusted \ (sh.gNtpkDb.keys \ (demandedKeys db).keys)) ∪
             (demandedKeys db).keys
           keyStore := n.keyStore } := by
  obtain ⟨servers, hservers, hkeys⟩ := Ntpd.run_associations.mp hrun
  rw [pass_keys h hpass hkeys, pass_servers h hpass hmirror hservers]

/-- A second pass over the same database has no server commands. -/
theorem pass_again (h : Proper db) {sh₁ sh₂ : Shadow} {b₁ b₂ : Batch}
    (hfirst : IsPass secret db sh sh₁ b₁) (hsecond : IsPass secret db sh₁ sh₂ b₂) :
    b₂.serverConfigs = [] := by
  have hshadow := pass_shadow h hfirst
  obtain ⟨o, hvalid, hrun⟩ := (isPass_iff h).mp hsecond
  rw [hshadow] at hvalid hrun
  rw [checkUpdatesFromOvsdb_eq h] at hrun
  cases hrun
  have htrigger : decide (authenticationEnable db ≠ authenticationEnable db) = false := by
    rw [decide_eq_false_iff_not, not_not]
  simp only [htrigger]
  exact serverConfigs_self hvalid.ks

/-- A proper database can be passed over, with the entries of the keys file in
    any order. -/
theorem exists_pass_writing (secret : String) (h : Proper db) (sh : Shadow) {is : List Int}
    (his : IterOrder is (demandedKeys db).keys) :
    ∃ sh' b, IsPass secret db sh sh' b ∧
      b.keysFileContent = keysFileContent secret (demandedKeys db) is := by
  let o : PassOrders :=
    { us := (sh.gNtpkDb.keys \ (demandedKeys db).keys).toList
      ts := (demandedKeys db).keys.toList
      is := is
      ks := ((readAssocs db).keys ∪ sh.gNtpaMap.keys).toList
      rs := (readAssocs db).keys.toList }
  have hvalid : o.Valid (demandedKeys db) (readAssocs db) sh :=
    { keys := ⟨iterOrder_toList _, iterOrder_toList _, his⟩
      ks := iterOrder_toList _
      rs := iterOrder_toList _ }
  refine ⟨_, _, ⟨db, o, _, _, Db.Reorders.refl db, readKeyRows_eq h, readAssociationRows_eq h,
    hvalid, checkUpdatesFromOvsdb_eq h⟩, ?_⟩
  exact (checkUpdatesWithNtpKeys_eq secret hvalid.keys).2.2

/-- A proper database can be passed over. -/
theorem exists_pass (secret : String) (h : Proper db) (sh : Shadow) :
    ∃ sh' b, IsPass secret db sh sh' b := by
  obtain ⟨sh', b, hpass, _⟩ := exists_pass_writing secret h sh (iterOrder_toList _)
  exact ⟨sh', b, hpass⟩

end spec

end OpsNtpd.Daemon
