import OpsNtpd.Cli.RoundTrip
import OpsNtpd.Daemon.MainLoop

/-! # Restoring a Printed Configuration

  What the CLI prints, replayed on a factory-default system, and what a
  freshly started daemon makes of the tables before and after.

  - Section 1: the tables that the CLI builds are ones the daemon is made for.
  - Section 2: what a freshly started daemon brings ntpd to.
  - Section 3: the authentication flag, which no printed line sets.
  - Section 4: the restored configuration has the same effect exactly when
    the flag makes no difference.
-/

namespace OpsNtpd

open Cli Daemon

variable {isValidIpv4 : Nat → Bool} {secret : String} {db db' : Db}

/-! ## Section 1: Tables of the CLI -/

/-- The options that the daemon gives a server with these entries. -/
def entryOpts (e : ServerEntry) : ServerOpts :=
  { version := e.version, key := e.key.map toString, prefer := e.prefer }

theorem rowOpts_eq (h : WellFormed isValidIpv4 db) {row : NtpAssociationRow}
    (hrow : row ∈ db.ntpAssociation) : rowOpts db row = entryOpts (serverEntry db row) := by
  obtain ⟨version, prefer, _, hattr⟩ := h.assocAttributes row hrow
  cases prefer <;> simp [rowOpts, entryOpts, serverEntry, hattr, defaultNtpPref]

/-- The servers that the tables ask for are determined by the configuration. -/
theorem demandedServers_eq (h : WellFormed isValidIpv4 db) :
    demandedServers db = Dict.mapValues entryOpts (configOf db).servers := by
  have hmap : Rows.index NtpAssociationRow.address (rowOpts db) (db.ntpAssociation.map id) =
      Dict.mapValues entryOpts (configOf db).servers :=
    Rows.index_map h.addresses (fun r _ => rfl) fun r hr => rowOpts_eq h hr
  rw [List.map_id] at hmap
  exact hmap

theorem name_ne_empty {name : String} (h : validServerName isValidIpv4 name) : name ≠ "" := by
  intro hempty
  have hname : ntpInternalIsValidServerName isValidIpv4 "" = true := by
    rw [← hempty]
    exact h.2
  exact absurd hname (by simp [ntpInternalIsValidServerName, ntpInternalHasAllDigits,
    ntpInternalIsValidIpv4Address, inetPton, octet])

/-- The tables that the CLI builds are filled. -/
theorem admissible_of_wellFormed (h : WellFormed isValidIpv4 db) (hone : db.system.length ≤ 1) :
    Admissible db := by
  have hrange : ∀ r ∈ db.ntpKey, 1 ≤ r.keyId ∧ r.keyId ≤ 65534 := fun r hr => (h.keyValid r hr).1
  refine { proper := ?_, keyRange := ?_ }
  · refine { oneSystem := hone, keyUuids := h.keyUuids, keyIds := h.keyIds
             addresses := h.addresses, filled := ?_ }
    refine { keys := ?_, associations := ?_ }
    · intro r hr _
      refine ⟨?_, ?_⟩
      · have hlow := (hrange r hr).1
        omega
      · intro hempty
        have hlen : ntpKeyKeyPasswordLenMin ≤ r.keyPassword.utf8ByteSize := (h.keyValid r hr).2.1
        rw [hempty] at hlen
        exact absurd hlen (by decide)
    · intro r hr
      refine ⟨name_ne_empty (h.assocValid r hr), ?_⟩
      obtain ⟨v, hv, _⟩ := h.defaultVrf
      rw [h.assocVrf r hr, hv]
      exact Option.some_ne_none _
  · intro r hr heq
    have hhigh := (hrange r hr).2
    rw [heq, controlkey] at hhigh
    omega

/-! ## Section 2: A fresh daemon -/

/-- A freshly started daemon can bring a fresh ntpd to `n`: by its first pass,
    in some order of the rows and of what it iterates. -/
def Provisions (secret : String) (db : Db) (n : Ntpd) : Prop :=
  ∃ sh b, IsPass secret db Shadow.start sh b ∧ b.Synced true true (Ntpd.fresh secret) n

/-- What the first pass brings ntpd to depends only on the servers and on the
    keys that the database asks for. -/
theorem provisions_iff (h : Admissible db) {n : Ntpd} :
    Provisions secret db n ↔ n.servers = demandedServers db ∧
      n.trusted = insert controlkey (demandedKeys db).keys ∧
      ∃ is, IterOrder is (demandedKeys db).keys ∧
        n.keyStore = keysFileContent secret (demandedKeys db) is := by
  have hspec : ∀ {sh b n}, IsPass secret db Shadow.start sh b →
      b.Synced true true (Ntpd.fresh secret) n →
      n = { servers := demandedServers db
            trusted := insert controlkey (demandedKeys db).keys
            keyStore := b.keysFileContent } := by
    intro sh b n hpass hsync
    have hrun : Ntpd.Run ((Ntpd.fresh secret).readkeys b.keysFileContent) b.configs n := hsync
    have hn := pass_spec h.proper hpass mirrors_empty hrun
    have hnone : ((∅ : KeyMap).keys \ (demandedKeys db).keys) = ∅ := by
      rw [Finmap.keys_empty, Finset.empty_sdiff]
    have htrusted : (((Ntpd.fresh secret).readkeys b.keysFileContent).trusted \
        (Shadow.start.gNtpkDb.keys \ (demandedKeys db).keys)) ∪ (demandedKeys db).keys =
        insert controlkey (demandedKeys db).keys := by
      show ({controlkey} \ ((∅ : KeyMap).keys \ (demandedKeys db).keys)) ∪ _ = _
      rw [hnone, Finset.sdiff_empty, Finset.singleton_union]
    rw [htrusted] at hn
    exact hn
  constructor
  · intro hprov
    obtain ⟨sh, b, hpass, hsync⟩ := hprov
    rw [hspec hpass hsync]
    exact ⟨rfl, rfl, pass_keysFile h.proper hpass⟩
  · intro hn
    obtain ⟨hservers, htrusted, is, his, hstore⟩ := hn
    obtain ⟨sh, b, hpass, hfile⟩ := exists_pass_writing secret h.proper Shadow.start his
    obtain ⟨n', hrun⟩ := Ntpd.exists_run ((Ntpd.fresh secret).readkeys b.keysFileContent) b.configs
    refine ⟨sh, b, hpass, ?_⟩
    have hn' := hspec hpass hrun
    have hsame : n = n' := by
      rw [hn', hfile]
      obtain ⟨servers, trusted, keyStore⟩ := n
      simp only at hservers htrusted hstore
      rw [hservers, htrusted, hstore]
    rw [hsame]
    exact hrun

/-- No key is asked for unless authentication is enabled and a key is trusted. -/
theorem demandedKeys_eq_empty_iff (h : Proper db) :
    demandedKeys db = ∅ ↔
      ¬ (authenticationEnable db = "true" ∧ ∃ r ∈ db.ntpKey, r.trustEnable = true) := by
  rw [← Dict.keys_eq_empty_iff, Finset.eq_empty_iff_forall_notMem]
  constructor
  · intro hnone hboth
    obtain ⟨hauth, r, hr, htrust⟩ := hboth
    exact hnone r.keyId ((mem_demandedKeys h).mpr ⟨hauth, r, hr, htrust, rfl⟩)
  · intro hnot key hmem
    obtain ⟨hauth, r, hr, htrust, _⟩ := (mem_demandedKeys h).mp hmem
    exact hnot ⟨hauth, r, hr, htrust⟩

/-! ## Section 3: The authentication flag -/

/-- The tables of a system that has never been configured: one `System` row,
    without an `ntp_config`, and the default VRF. -/
def factoryDefault (nextUuid vrf system : Uuid) (curCfg : Int) : Db :=
  emptyTables nextUuid vrf
    [{ uuid := system, curCfg := curCfg, ntpConfig := ∅, ntpStatus := ∅, ntpStatistics := ∅ }]

theorem length_system_apply (db : Db) (op : DbOp) :
    (db.apply op).system.length = db.system.length := by
  cases op with
  | updateSystem row config => exact Rows.length_updateWhere row _
  | _ => rfl

/-- No command adds or removes a `System` row. -/
theorem length_system_exec (db : Db) (c : Command) :
    (c.exec isValidIpv4 db).system.length = db.system.length := by
  have hcommit : ∀ (ops : List DbOp) (db : Db),
      (db.commit ops).system.length = db.system.length := by
    intro ops
    induction ops with
    | nil => intro db; rfl
    | cons op ops ih =>
      intro db
      exact (ih (db.apply op)).trans (length_system_apply db op)
  unfold Command.exec Command.run
  cases c.verdict isValidIpv4 .committed db with
  | done code out => rfl
  | endDbTxn ops out => exact hcommit ops db

theorem length_system_enterLines (db : Db) (lines : List String) :
    (enterLines isValidIpv4 db lines).system.length = db.system.length := by
  induction lines generalizing db with
  | nil => rfl
  | cons line lines ih =>
    refine (ih _).trans ?_
    unfold enterLine
    cases parseLine line with
    | none => rfl
    | some c => exact length_system_exec db c

/-- The command leaves the `System` table alone. -/
def LeavesSystem (isValidIpv4 : Nat → Bool) (c : Command) : Prop :=
  ∀ db, (c.exec isValidIpv4 db).system = db.system

theorem leavesSystem_authenticationKey (key md5 : String) :
    LeavesSystem isValidIpv4 (.ntpAuthenticationKey key md5) := by
  intro db
  unfold Command.exec
  rw [run_ntpAuthenticationKey]
  split
  · rfl
  · split <;> rfl

theorem leavesSystem_trustedKey (key : String) :
    LeavesSystem isValidIpv4 (.ntpTrustedKey key) := by
  intro db
  have hrun := run_trustedKey isValidIpv4 db key true
  rw [if_pos rfl] at hrun
  unfold Command.exec
  rw [hrun]
  split
  · rfl
  · split <;> rfl

theorem leavesSystem_server (name : String) (prefer : Bool) (version keyId : Option String) :
    LeavesSystem isValidIpv4 (.ntpServer name prefer version keyId) := by
  intro db
  unfold Command.exec
  rw [run_ntpServer]
  split
  · rfl
  · split
    · rfl
    · split <;> rfl

/-- Every printed line is a command of a key or of a server. -/
theorem printed_leavesSystem (h : WellFormed isValidIpv4 db) (hp : (configOf db).Printable)
    {lines : List String} (hprint : vtyshConfigContextNtpClientcallback db = some lines)
    {line : String} (hline : line ∈ lines) :
    ∃ c, parseLine line = some c ∧ LeavesSystem isValidIpv4 c := by
  obtain ⟨servers, hservers, rfl⟩ := vtyshConfigContextNtpClientcallback_eq_some.mp hprint
  rcases List.mem_append.mp hline with hkeyLine | hserverLine
  · obtain ⟨row, hrow, hin⟩ := List.mem_flatMap.mp hkeyLine
    obtain ⟨hkey, _⟩ := h.keyValid row hrow
    rcases List.mem_cons.mp hin with heq | htail
    · rw [heq]
      exact ⟨_, parseLine_authenticationKey hkey (hp.passwords _ _ (lookup_configOf_keys h hrow)),
        leavesSystem_authenticationKey _ _⟩
    · split at htail
      · rw [List.mem_singleton.mp htail]
        exact ⟨_, parseLine_trustedKey hkey, leavesSystem_trustedKey _⟩
      · exact absurd htail List.not_mem_nil
  · obtain ⟨row, hrow, hprinted⟩ := Rows.exists_of_mem_mapM hservers hserverLine
    exact ⟨_, parseLine_server h hp hrow hprinted, leavesSystem_server _ _ _ _⟩

/-- **Run.** Lines of such commands leave the `System` table alone. -/
theorem executeLines_system {lines : List String}
    (hlines : ∀ line ∈ lines, ∃ c, parseLine line = some c ∧ LeavesSystem isValidIpv4 c)
    (hexec : executeLines isValidIpv4 db lines = some db') : db'.system = db.system := by
  induction lines generalizing db with
  | nil =>
    cases hexec
    rfl
  | cons line lines ih =>
    unfold executeLines at hexec
    rw [List.foldlM_cons] at hexec
    obtain ⟨db₁, hone, hrest⟩ := Option.bind_eq_some_iff.mp hexec
    rw [ih (fun l hl => hlines l (List.mem_cons_of_mem _ hl)) hrest]
    obtain ⟨c, hparse, hleaves⟩ := hlines line List.mem_cons_self
    rw [← hleaves db]
    unfold executeLine at hone
    simp only [hparse] at hone
    unfold Command.exec
    split at hone
    · next heq => rw [heq]; exact congrArg Db.system (Option.some.inj hone).symm
    · cases hone

/-! ## Section 4: The restored configuration -/

/-- Print the configuration, in any row order, and replay the lines on the
    factory-default system: a freshly started daemon brings ntpd to the same
    servers, trusted keys and keys files as before. -/
def Restores (isValidIpv4 : Nat → Bool) (secret : String) (factory db : Db) : Prop :=
  ∀ db', db.Reorders db' → ∃ lines restored,
    vtyshConfigContextNtpClientcallback db' = some lines ∧
    executeLines isValidIpv4 factory lines = some restored ∧
    ∀ n, Provisions secret restored n ↔ Provisions secret db n

section restored
variable (h : WellFormed isValidIpv4 db) (hp : (configOf db).Printable)
include h

theorem optionsFit_reorders (hre : db.Reorders db') (row : NtpAssociationRow) :
    OptionsFit db' row ↔ OptionsFit db row := by
  have hkey : printKeyId db' row = printKeyId db row := by
    rw [(printKeyId_eq (h.reorders hre) row).1, (printKeyId_eq h row).1,
      Db.keyOf_reorders h.keyUuids hre row]
  unfold OptionsFit
  rw [hkey]

/-- The configuration is printed exactly when every option text fits. -/
theorem printed_iff : (∃ lines, vtyshConfigContextNtpClientcallback db = some lines) ↔
    ∀ row ∈ db.ntpAssociation, OptionsFit db row := by
  rw [exists_lines_iff]
  exact forall₂_congr fun row _ => optionText_fits (printKeyId_fits h row)

include hp in
/-- The tables that the printed lines build ask for the same servers, and for
    no key: authentication is not enabled. -/
theorem restored_demands {lines : List String} (hre : db.Reorders db')
    (hprint : vtyshConfigContextNtpClientcallback db' = some lines)
    (nextUuid vrf system : Uuid) (curCfg : Int) :
    ∃ restored, executeLines isValidIpv4 (factoryDefault nextUuid vrf system curCfg) lines =
        some restored ∧
      Admissible restored ∧ demandedServers restored = demandedServers db ∧
      demandedKeys restored = ∅ := by
  have h' := h.reorders hre
  have hcfg := configOf_reorders h hre
  have hp' : (configOf db').Printable := by
    rw [hcfg]
    exact hp
  let factory := factoryDefault nextUuid vrf system curCfg
  obtain ⟨restored, hexec, hwf, hcfgR⟩ :=
    executeLines_printed h' hp' hprint nextUuid vrf factory.system
  have hsystem := executeLines_system (fun line hline => printed_leavesSystem h' hp' hprint hline)
    hexec
  have hadm : Admissible restored := by
    refine admissible_of_wellFormed hwf ?_
    rw [hsystem]
    exact Nat.le_refl 1
  refine ⟨restored, hexec, hadm, ?_, ?_⟩
  · rw [demandedServers_eq hwf, demandedServers_eq h, hcfgR, hcfg]
  · rw [demandedKeys_eq_empty_iff hadm.proper]
    intro hboth
    have hauth : authenticationEnable restored = "false" := by
      unfold authenticationEnable
      rw [hsystem]
      rfl
    rw [hauth] at hboth
    exact absurd hboth.1 (by decide)

include hp in
/-- When a key is trusted and authentication is enabled, the key is lost. -/
theorem not_restores (hone : db.system.length ≤ 1) (hauth : authenticationEnable db = "true")
    (htrust : ∃ r ∈ db.ntpKey, r.trustEnable = true) (nextUuid vrf system : Uuid) (curCfg : Int) :
    ¬ Restores isValidIpv4 secret (factoryDefault nextUuid vrf system curCfg) db := by
  intro hrestores
  have hadm := admissible_of_wellFormed h hone
  obtain ⟨lines, restored, hprint, hexec, hsame⟩ := hrestores db (Db.Reorders.refl db)
  obtain ⟨restored', hexec', hadmR, _, hnone⟩ :=
    restored_demands h hp (Db.Reorders.refl db) hprint nextUuid vrf system curCfg
  rw [hexec, Option.some_inj] at hexec'
  rw [← hexec'] at hadmR hnone
  -- what the daemon makes of the tables before, it would have to make of them after
  let is := (demandedKeys db).keys.toList
  let n : Ntpd :=
    { servers := demandedServers db
      trusted := insert controlkey (demandedKeys db).keys
      keyStore := keysFileContent secret (demandedKeys db) is }
  have hprov : Provisions secret db n :=
    (provisions_iff hadm).mpr ⟨rfl, rfl, is, iterOrder_toList _, rfl⟩
  obtain ⟨_, htrusted, _⟩ := (provisions_iff hadmR).mp ((hsame n).mpr hprov)
  obtain ⟨r, hr, htrue⟩ := htrust
  have hmem : r.keyId ∈ (demandedKeys db).keys :=
    (mem_demandedKeys hadm.proper).mpr ⟨hauth, r, hr, htrue, rfl⟩
  have hin : r.keyId ∈ n.trusted := Finset.mem_insert_of_mem hmem
  rw [htrusted, hnone, Finmap.keys_empty, Finset.mem_insert] at hin
  rcases hin with heq | hempty
  · exact hadm.keyRange r hr heq
  · exact absurd hempty (Finset.notMem_empty _)

end restored

/-- **A printed configuration is restored exactly when it fits and the
    authentication flag makes no difference.** For tables that users have built
    up on a factory-default system. -/
theorem restores_iff (isValidIpv4 : Nat → Bool) (secret : String)
    (nextUuid vrf system nextUuid' vrf' system' : Uuid) (curCfg curCfg' : Int)
    (input : List String) :
    let db := enterLines isValidIpv4 (factoryDefault nextUuid vrf system curCfg) input
    Restores isValidIpv4 secret (factoryDefault nextUuid' vrf' system' curCfg') db ↔
      (∀ row ∈ db.ntpAssociation, OptionsFit db row) ∧
        ¬ (authenticationEnable db = "true" ∧ ∃ r ∈ db.ntpKey, r.trustEnable = true) := by
  intro db
  have hconf : Configured isValidIpv4 db := ⟨nextUuid, vrf, _, input, rfl⟩
  obtain ⟨h, hp⟩ := hconf.wellFormed
  have hone : db.system.length ≤ 1 := by
    have hlength : db.system.length = 1 := length_system_enterLines _ input
    omega
  constructor
  · intro hrestores
    constructor
    · obtain ⟨lines, _, hprint, _⟩ := hrestores db (Db.Reorders.refl db)
      exact (printed_iff h).mp ⟨lines, hprint⟩
    · intro hboth
      exact not_restores h hp hone hboth.1 hboth.2 _ _ _ _ hrestores
  · intro hand
    obtain ⟨hfit, hflag⟩ := hand
    intro db' hre
    have hfit' : ∀ row ∈ db'.ntpAssociation, OptionsFit db' row := by
      intro row hrow
      exact (optionsFit_reorders h hre row).mpr (hfit row (hre.ntpAssociation.mem_iff.mp hrow))
    obtain ⟨lines, hprint⟩ := (printed_iff (h.reorders hre)).mpr hfit'
    obtain ⟨restored, hexec, hadmR, hservers, hnone⟩ :=
      restored_demands h hp hre hprint nextUuid' vrf' system' curCfg'
    refine ⟨lines, restored, hprint, hexec, ?_⟩
    intro n
    have hadm := admissible_of_wellFormed h hone
    have hnone' : demandedKeys db = ∅ := (demandedKeys_eq_empty_iff hadm.proper).mpr hflag
    rw [provisions_iff hadmR, provisions_iff hadm, hservers, hnone, hnone']

/-- Authentication with one trusted key: the printed lines bring back the key,
    but not the flag. -/
theorem authentication_not_restored :
    let db := enterLines (fun _ => true) (factoryDefault 1 0 0 1)
      ["ntp authentication enable", "ntp authentication-key 7 md5 topsecret", "ntp trusted-key 7"]
    vtyshConfigContextNtpClientcallback db =
        some ["ntp authentication-key 7 md5 topsecret", "ntp trusted-key 7"] ∧
      ¬ Restores (fun _ => true) "0123456789abcdef" (factoryDefault 1 0 0 1) db := by
  intro db
  have hconf : Configured (fun _ => true) db := ⟨1, 0, _, _, rfl⟩
  obtain ⟨h, hp⟩ := hconf.wellFormed
  refine ⟨by decide +kernel, ?_⟩
  exact not_restores h hp (by decide +kernel) (by decide +kernel) (by decide +kernel) _ _ _ _

end OpsNtpd
