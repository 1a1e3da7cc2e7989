import OpsNtpd.Switch
import OpsNtpd.Daemon.StartFiles

/-! # The Way to ntpd

  Whether what the daemon of the running switch wants of ntpd gets there: the
  commands go through a shell, and ntpd takes them only from a tool that logs
  in with a key that ntpd trusts and has the secret of.

  - Section 1: the names and keys that the users have entered.
  - Section 2: the commands of a pass are about those.
  - Section 3: no step of the switch takes the control key away.
  - Section 4: the daemon is never locked out, and which passes are delivered.
-/

namespace OpsNtpd

open Cli Daemon Text Transition

/-! ## Section 1: What the users have entered -/

/-- One of the commands adds this server, or changes it. -/
def NamedBy (cs : List Command) (a : String) : Prop :=
  ∃ prefer version keyId, Command.ntpServer a prefer version keyId ∈ cs

section names
variable {isValidIpv4 : Nat → Bool} {m : Config} {c : Command} {a : String}

theorem servers_setTrust (m : Config) (key : Int) (trust : Bool) :
    (m.setTrust key trust).servers = m.servers := by
  unfold Config.setTrust
  split <;> rfl

/-- **Step.** Only `ntp server` adds a server. -/
theorem mem_servers_step (h : a ∈ (m.step isValidIpv4 c).servers.keys) :
    a ∈ m.servers.keys ∨ NamedBy [c] a := by
  have hinsert : ∀ {servers : Dict String ServerEntry} {name : String} {e : ServerEntry},
      a ∈ (servers.insert name e).keys → a = name ∨ a ∈ servers.keys := by
    intro servers name e hmem
    obtain ⟨v, hv⟩ := Dict.mem_keys_iff.mp hmem
    rw [Dict.lookup_insert_eq] at hv
    split at hv
    · next heq => exact Or.inl heq
    · exact Or.inr (Dict.mem_keys_iff.mpr ⟨v, hv⟩)
  cases c with
  | ntpServer name prefer version keyId =>
    have hnamed : a = name → NamedBy [Command.ntpServer name prefer version keyId] a := by
      intro heq
      rw [heq]
      exact ⟨prefer, version, keyId, List.mem_cons_self⟩
    simp only [Config.step] at h
    split at h
    · exact Or.inl h
    · split at h
      · exact (hinsert h).symm.imp_right hnamed
      · split at h
        · exact Or.inl h
        · exact (hinsert h).symm.imp_right hnamed
  | noNtpServer name =>
    obtain ⟨v, hv⟩ := Dict.mem_keys_iff.mp h
    have hv' : (m.servers.erase name).lookup a = some v := hv
    rw [Dict.lookup_erase_eq] at hv'
    split at hv'
    · cases hv'
    · exact Or.inl (Dict.mem_keys_iff.mpr ⟨v, hv'⟩)
  | ntpAuthenticationEnable => exact Or.inl h
  | noNtpAuthenticationEnable => exact Or.inl h
  | ntpAuthenticationKey key md5 =>
    simp only [Config.step] at h
    split at h
    · exact Or.inl h
    · exact Or.inl h
  -- the servers lose a reference, and none comes in
  | noNtpAuthenticationKey key =>
    obtain ⟨v, hv⟩ := Dict.mem_keys_iff.mp h
    have hv' : (Dict.mapValues (ServerEntry.dropKey (atoi key)) m.servers).lookup a = some v := hv
    rw [Dict.lookup_mapValues] at hv'
    obtain ⟨e, he, _⟩ := Option.map_eq_some_iff.mp hv'
    exact Or.inl (Dict.mem_keys_iff.mpr ⟨e, he⟩)
  | ntpTrustedKey key =>
    simp only [Config.step, servers_setTrust] at h
    exact Or.inl h
  | noNtpTrustedKey key =>
    simp only [Config.step, servers_setTrust] at h
    exact Or.inl h

theorem NamedBy.mono {cs ds : List Command} (h : NamedBy cs a) (hsub : cs ⊆ ds) : NamedBy ds a := by
  obtain ⟨prefer, version, keyId, hmem⟩ := h
  exact ⟨prefer, version, keyId, hsub hmem⟩

/-- **Run.** The configured servers are among those that have been entered. -/
theorem namedBy_of_mem_run {cs : List Command}
    (h : a ∈ (Intent.empty.run isValidIpv4 cs).config.servers.keys) : NamedBy cs a := by
  induction cs using List.reverseRecOn with
  | nil =>
    obtain ⟨v, hv⟩ := Dict.mem_keys_iff.mp h
    cases hv
  | append_singleton cs c ih =>
    have hstep : (Intent.empty.run isValidIpv4 (cs ++ [c])).config =
        (Intent.empty.run isValidIpv4 cs).config.step isValidIpv4 c := by
      unfold Intent.run
      rw [List.foldl_append]
      rfl
    rw [hstep] at h
    rcases mem_servers_step h with hold | hnew
    · exact (ih hold).mono (List.subset_append_left _ _)
    · exact hnew.mono (List.subset_append_right _ _)

end names

/-- The address of a server that the CLI accepts, and that is `named`. -/
structure CliAddress (isValidIpv4 : Nat → Bool) (named : String → Prop) (a : String) : Prop where
  word : IsWord a
  valid : validServerName isValidIpv4 a
  named : named a

/-- The rows are such as the CLI leaves. Two rows may be about the same server
    or key. -/
structure CliRows (isValidIpv4 : Nat → Bool) (named : String → Prop) (db : Db) : Prop where
  addresses : ∀ r ∈ db.ntpAssociation, CliAddress isValidIpv4 named r.address
  vrfs : ∀ r ∈ db.ntpAssociation, r.vrf ≠ none
  versions : ∀ r ∈ db.ntpAssociation, versionToken (rowOpts db r).version
  keys : ∀ r ∈ db.ntpKey,
    keyIdInRange r.keyId ∧ passwordLenInRange r.keyPassword ∧ IsWord r.keyPassword

/-- What the daemon remembers of earlier tables. -/
structure CliShadow (isValidIpv4 : Nat → Bool) (named : String → Prop) (sh : Shadow) : Prop where
  addresses : ∀ k v, sh.gNtpaMap.lookup k = some v → CliAddress isValidIpv4 named k.2
  keys : ∀ key ∈ sh.gNtpkDb.keys, keyIdInRange key

section rows
variable {isValidIpv4 : Nat → Bool} {named named' : String → Prop} {db : Db} {sh : Shadow}

theorem CliAddress.mono {a : String} (h : CliAddress isValidIpv4 named a)
    (hmore : ∀ a, named a → named' a) : CliAddress isValidIpv4 named' a :=
  ⟨h.word, h.valid, hmore a h.named⟩

theorem CliRows.mono (h : CliRows isValidIpv4 named db) (hmore : ∀ a, named a → named' a) :
    CliRows isValidIpv4 named' db :=
  { h with addresses := fun r hr => (h.addresses r hr).mono hmore }

theorem CliShadow.mono (h : CliShadow isValidIpv4 named sh) (hmore : ∀ a, named a → named' a) :
    CliShadow isValidIpv4 named' sh :=
  { h with addresses := fun k v hv => (h.addresses k v hv).mono hmore }

theorem cliShadow_start : CliShadow isValidIpv4 named Shadow.start := by
  refine { addresses := ?_, keys := ?_ }
  · intro k v hv
    cases hv
  · intro key hkey
    exact absurd hkey (by simp [Shadow.start])

theorem cliRows_of_wellFormed (h : WellFormed isValidIpv4 db) (hp : (configOf db).Printable)
    (hnamed : ∀ a ∈ (configOf db).servers.keys, named a) : CliRows isValidIpv4 named db := by
  refine { addresses := ?_, vrfs := ?_, versions := ?_, keys := ?_ }
  · intro r hr
    obtain ⟨hword, _⟩ := serverRow_valid h hp hr
    refine ⟨hword, h.assocValid r hr, hnamed _ ?_⟩
    exact Dict.mem_keys_iff.mpr ⟨_, lookup_configOf_servers h hr⟩
  · intro r hr
    obtain ⟨vrf, hvrf, _⟩ := h.defaultVrf
    rw [h.assocVrf r hr, hvrf]
    exact Option.some_ne_none _
  · intro r hr
    obtain ⟨_, hversion, _, hattr⟩ := serverRow_valid h hp hr
    have hlook : r.associationAttributes.lookup ntpAssocAttribVersion =
        some (serverEntry db r).version := by
      rw [hattr, lookup_version_assocAttribs]
    show versionToken ((r.associationAttributes.lookup ntpAssocAttribVersion).getD _)
    rw [hlook]
    exact hversion
  · intro r hr
    obtain ⟨hkey, hlen⟩ := h.keyValid r hr
    exact ⟨hkey, hlen, hp.passwords _ _ (lookup_configOf_keys h hr)⟩

theorem CliRows.reorders {db' : Db} (h : CliRows isValidIpv4 named db) (hre : db.Reorders db') :
    CliRows isValidIpv4 named db' :=
  { addresses := fun r hr => h.addresses r (hre.ntpAssociation.mem_iff.mp hr)
    vrfs := fun r hr => h.vrfs r (hre.ntpAssociation.mem_iff.mp hr)
    versions := fun r hr => h.versions r (hre.ntpAssociation.mem_iff.mp hr)
    keys := fun r hr => h.keys r (hre.ntpKey.mem_iff.mp hr) }

/-- The rows of the CLI have no empty columns. -/
theorem CliRows.filled (h : CliRows isValidIpv4 named db) (auth : String) : RowsFilled auth db := by
  refine { keys := ?_, associations := ?_ }
  · intro r hr _
    obtain ⟨⟨hlow, _⟩, hlen, _⟩ := h.keys r hr
    have hmin : (1 : Int) ≤ r.keyId := hlow
    refine ⟨by omega, ?_⟩
    intro hempty
    rw [hempty] at hlen
    exact absurd hlen.1 (by decide)
  · intro r hr
    refine ⟨?_, h.vrfs r hr⟩
    intro hempty
    have hword := (h.addresses r hr).word.1
    rw [hempty] at hword
    exact hword rfl

theorem CliRows.filled_reorders (h : CliRows isValidIpv4 named db) :
    ∀ db', db.Reorders db' → RowsFilled (authenticationEnable db') db' :=
  fun _ hre => (h.reorders hre).filled _

/-- A server refers to keys of the CLI. -/
theorem CliRows.keyOf (h : CliRows isValidIpv4 named db) {r : NtpAssociationRow} {key : Int}
    (hkey : db.keyOf r = some key) : keyIdInRange key := by
  obtain ⟨row, hrow, rfl⟩ := Option.map_eq_some_iff.mp hkey
  obtain ⟨u, _, hfind⟩ := Option.bind_eq_some_iff.mp hrow
  exact (h.keys row (List.mem_of_find?_eq_some hfind)).1

/-- The entries that are read are those of rows. -/
theorem exists_row_of_readAssocs {k : Uuid × String} {v : AssocTuple}
    (hv : (readAssocs db).lookup k = some v) :
    ∃ r ∈ db.ntpAssociation, r.vrf = some k.1 ∧ r.address = k.2 ∧ v.address = r.address ∧
      v.opts = rowOpts db r := by
  obtain ⟨r, hr, hentry⟩ := List.mem_filterMap.mp (Dict.mem_of_lookup_ofPairs hv)
  obtain ⟨vrf, hvrf, rfl, rfl⟩ := assocEntry_eq_some.mp hentry
  exact ⟨r, hr, hvrf, rfl, rfl, rfl⟩

theorem exists_row_of_demandedKeys {key : Int} {v : String × Bool}
    (hv : (demandedKeys db).lookup key = some v) :
    ∃ r ∈ db.ntpKey, makesEntry (authenticationEnable db) r = true ∧ r.keyId = key ∧
      r.keyPassword = v.1 := by
  obtain ⟨r, hr, hentry⟩ := List.mem_map.mp (Dict.mem_of_lookup_ofPairs hv)
  obtain ⟨hmem, hmakes⟩ := List.mem_filter.mp hr
  obtain ⟨rfl, rfl⟩ := Prod.mk.inj hentry
  exact ⟨r, hmem, hmakes, rfl, rfl⟩

theorem CliRows.demandedKeys_fromCli (h : CliRows isValidIpv4 named db) :
    FromCli (demandedKeys db) := by
  intro key v hv
  obtain ⟨r, hr, _, rfl, hpwd⟩ := exists_row_of_demandedKeys hv
  rw [← hpwd]
  exact h.keys r hr

/-- What a pass remembers. -/
theorem CliRows.shadow (h : CliRows isValidIpv4 named db) {auth : String} :
    CliShadow isValidIpv4 named
      { gNtpaMap := readAssocs db, gNtpkDb := demandedKeys db, authState := auth } := by
  refine { addresses := ?_, keys := ?_ }
  · intro k v hv
    obtain ⟨r, hr, _, haddr, _⟩ := exists_row_of_readAssocs hv
    rw [← haddr]
    exact h.addresses r hr
  · intro key hkey
    obtain ⟨v, hv⟩ := Dict.mem_keys_iff.mp hkey
    exact (h.demandedKeys_fromCli key v hv).1

theorem CliRows.shadow_of_pass (h : CliRows isValidIpv4 named db) {secret : String}
    {sh' : Shadow} {b : Batch} (hpass : IsPass secret db sh sh' b) :
    CliShadow isValidIpv4 named sh' := by
  obtain ⟨db', _, hre, _, rfl, _⟩ := pass_maps h.filled_reorders hpass
  exact (h.reorders hre).shadow

end rows

/-! ## Section 2: The commands of a pass -/

/-- The address that a command is about. -/
def Daemon.ConfigCmd.address : ConfigCmd → Option String
  | .association (.put address _) => some address
  | .association (.drop address) => some address
  | .trustedkey _ => none
  | .unconfigTrustedkey _ => none

/-- The command is one for a tool of the CLI's servers and keys. -/
structure CliCommand (isValidIpv4 : Nat → Bool) (named : String → Prop) (c : ConfigCmd) : Prop where
  fromCli : c.FromCli isValidIpv4
  named : ∀ a ∈ c.address, named a

section commands
variable {isValidIpv4 : Nat → Bool} {secret : String} {named : String → Prop} {db : Db}
variable {sh sh' : Shadow} {b : Batch}

/-- The options of a row can be printed. -/
theorem CliRows.put (h : CliRows isValidIpv4 named db) {r : NtpAssociationRow}
    (hr : r ∈ db.ntpAssociation) :
    CliCommand isValidIpv4 named (.server r.address (rowOpts db r)) := by
  obtain ⟨hword, hvalid, hnamed⟩ := h.addresses r hr
  refine { fromCli := ⟨hword, hvalid, h.versions r hr, ?_⟩, named := ?_ }
  · intro key hkey
    obtain ⟨k, hk, rfl⟩ := Option.map_eq_some_iff.mp hkey
    exact keyToken_toString (h.keyOf hk)
  · intro a ha
    obtain rfl := Option.some.inj ha
    exact hnamed

theorem CliAddress.drop {a : String} (h : CliAddress isValidIpv4 named a) :
    CliCommand isValidIpv4 named (.unconfig a) := by
  refine { fromCli := ⟨h.word, h.valid⟩, named := ?_ }
  intro a' ha'
  obtain rfl := Option.some.inj ha'
  exact h.named

/-- **Commands.** All commands of a pass are about servers and keys of the
    tables, or of what the daemon remembers. -/
theorem cliCommand_of_pass (hrows : CliRows isValidIpv4 named db)
    (hsh : CliShadow isValidIpv4 named sh) (hpass : IsPass secret db sh sh' b) :
    ∀ c ∈ b.configs, CliCommand isValidIpv4 named c := by
  obtain ⟨db', o, hre, hvalid, _, hservers, hkeys, _⟩ := pass_maps hrows.filled_reorders hpass
  have hrows' := hrows.reorders hre
  obtain ⟨_, hadd, hdelete⟩ := assocDiff_after hvalid.ks
  -- what is added or replaced is a row of the tables
  have hput : ∀ p : String × ServerOpts,
      (∃ k v, (readAssocs db').lookup k = some v ∧ (v.address, v.opts) = p) →
        CliCommand isValidIpv4 named (.server p.1 p.2) ∧
          CliCommand isValidIpv4 named (.unconfig p.1) := by
    intro p hp
    obtain ⟨k, v, hv, rfl⟩ := hp
    obtain ⟨r, hr, _, _, haddr, hopts⟩ := exists_row_of_readAssocs hv
    dsimp only
    rw [haddr, hopts]
    exact ⟨hrows'.put hr, (hrows'.addresses r hr).drop⟩
  intro c hc
  rcases List.mem_append.mp hc with hserver | hkey
  · obtain ⟨cmd, hcmd, rfl⟩ := List.mem_map.mp hserver
    rw [hservers, serverConfigs_eq _ hvalid.ks] at hcmd
    rcases List.mem_append.mp hcmd with hcmd | hcmd
    · rcases List.mem_append.mp hcmd with hcmd | hcmd
      · -- replacements of servers that have a key
        obtain ⟨p, hp, hmem⟩ := List.mem_flatMap.mp hcmd
        split at hp
        · obtain ⟨k, _, v, hv, _, hkv⟩ := mem_reviseConfigs.mp hp
          obtain ⟨hadded, hdropped⟩ := hput p ⟨k, v, hv, hkv⟩
          rcases List.mem_pair.mp hmem with rfl | rfl
          · exact hdropped
          · exact hadded
        · cases hp
      · -- servers that are gone or have changed
        obtain ⟨a, ha, rfl⟩ := List.mem_map.mp hcmd
        obtain ⟨k, hk, rfl⟩ := List.mem_map.mp ha
        obtain ⟨w, hw, _⟩ := (hdelete k).mp hk
        exact (hsh.addresses k w hw).drop
    · obtain ⟨p, hp, rfl⟩ := List.mem_map.mp hcmd
      obtain ⟨k, _, v, hv, hkv⟩ := mem_addConfigs.mp hp
      exact (hput p ⟨k, v, hv, hkv⟩).1
  · rw [hkeys, (checkUpdatesWithNtpKeys_eq secret hvalid.keys).2.1] at hkey
    rcases List.mem_append.mp hkey with hkey | hkey
    · split at hkey
      · rw [List.mem_singleton.mp hkey]
        refine { fromCli := fun key hmem => ?_, named := fun a ha => by cases ha }
        have hold := hvalid.keys.untrusted.mem_iff.mp hmem
        exact hsh.keys key (Finset.mem_sdiff.mp hold).1
      · cases hkey
    · split at hkey
      · rw [List.mem_singleton.mp hkey]
        refine { fromCli := fun key hmem => ?_, named := fun a ha => by cases ha }
        have hnew := hvalid.keys.trusted.mem_iff.mp hmem
        obtain ⟨v, hv⟩ := Dict.mem_keys_iff.mp hnew
        exact (hrows'.demandedKeys_fromCli key v hv).1
      · cases hkey

/-- ntpd takes the login of the daemon from the start. -/
theorem accepts_fresh (hsecret : ControlkeyAnswer secret) :
    Accepts (Ntpd.fresh secret) controlkey secret := by
  have hfresh : defaultKeysFileContent secret ++ "\n" = keysFileContent secret ∅ [] := by
    show _ = defaultKeysFileContent secret ++ "" ++ "\n"
    rw [String.append_empty]
  have hempty : FromCli ∅ := by
    intro key v hv
    cases hv
  refine ⟨Finset.mem_singleton_self _, ?_⟩
  show (readKeysFile (defaultKeysFileContent secret ++ "\n")).filter _ = _
  rw [hfresh]
  exact entry_keysFileContent hsecret hempty []

/-- **Step.** A command about the users' keys leaves the control key alone. -/
theorem accepts_step {n n' : Ntpd} {c : ConfigCmd} (h : Accepts n controlkey secret)
    (hc : c.FromCli isValidIpv4) (hstep : n.Step c n') : Accepts n' controlkey secret := by
  cases hstep with
  | association hservers => exact ⟨h.trusted, h.entry⟩
  | trustedkey keys => exact ⟨Finset.mem_union_left _ h.trusted, h.entry⟩
  | unconfigTrustedkey keys =>
    refine ⟨Finset.mem_sdiff.mpr ⟨h.trusted, ?_⟩, h.entry⟩
    -- the control key is above all keys that the CLI accepts
    intro hmem
    have hhigh : controlkey ≤ ntpKeyKeyIdMax := (hc _ (List.mem_toFinset.mp hmem)).2
    exact absurd hhigh (by decide)

/-- **Run.** -/
theorem accepts_run {n n' : Ntpd} {cs : List ConfigCmd} (h : Accepts n controlkey secret)
    (hcs : ∀ c ∈ cs, c.FromCli isValidIpv4) (hrun : Ntpd.Run n cs n') :
    Accepts n' controlkey secret := by
  induction hrun with
  | nil n => exact h
  | cons hstep _ ih =>
    obtain ⟨hc, hcs⟩ := List.forall_mem_cons.mp hcs
    exact ih (accepts_step h hc hstep) hcs

/-- ntpd takes the login of the daemon all through a pass. -/
theorem accepts_in_pass (hsecret : ControlkeyAnswer secret) {n n' : Ntpd}
    (h : Accepts n controlkey secret) (hrows : CliRows isValidIpv4 named db)
    (hsh : CliShadow isValidIpv4 named sh) (hpass : IsPass secret db sh sh' b)
    {cs : List ConfigCmd} (hcs : cs <+: b.configs)
    (hrun : Ntpd.Run (n.readkeys b.keysFileContent) cs n') : Accepts n' controlkey secret := by
  have hcommands := cliCommand_of_pass hrows hsh hpass
  obtain ⟨db', o, hre, _, _, _, _, hfile⟩ := pass_maps hrows.filled_reorders hpass
  -- the file that ntpd reads first has the control key in front of the users' keys
  have hread : Accepts (n.readkeys b.keysFileContent) controlkey secret := by
    refine ⟨h.trusted, ?_⟩
    show (readKeysFile b.keysFileContent).filter _ = _
    rw [hfile]
    exact entry_keysFileContent hsecret (hrows.reorders hre).demandedKeys_fromCli o.is
  exact accepts_run hread (fun c hc => (hcommands c (hcs.subset hc)).fromCli) hrun

end commands

/-! ## Section 3: Runs of the switch -/

/-- The daemon has only seen tables of the CLI, and ntpd takes its login. -/
structure DaemonCli (isValidIpv4 : Nat → Bool) (secret : String) (named : String → Prop)
    (d : MainState) : Prop where
  inFlight : ∀ db ∈ d.inFlight, CliRows isValidIpv4 named db
  replica : CliRows isValidIpv4 named d.replica
  shadow : CliShadow isValidIpv4 named d.shadow
  accepts : Accepts d.ntpd controlkey secret

section runs
variable {isValidIpv4 : Nat → Bool} {secret : String} {named named' : String → Prop}
variable {nextUuid vrf sys : Uuid} {curCfg : Int} {d d' : MainState} {s : SwitchState}
variable {tr : List (SwitchState × SwitchLabel)}

theorem DaemonCli.mono (h : DaemonCli isValidIpv4 secret named d)
    (hmore : ∀ a, named a → named' a) : DaemonCli isValidIpv4 secret named' d :=
  { inFlight := fun db hdb => (h.inFlight db hdb).mono hmore
    replica := h.replica.mono hmore
    shadow := h.shadow.mono hmore
    accepts := h.accepts }

theorem DaemonCli.idlRun (h : DaemonCli isValidIpv4 secret named d) (updates : Nat) :
    DaemonCli isValidIpv4 secret named (d.idlRun updates) := by
  refine { h with
    inFlight := fun db hdb => h.inFlight db (List.mem_of_mem_drop hdb), replica := ?_ }
  show CliRows _ _ ((d.inFlight.take updates).getLastD d.replica)
  rw [List.getLastD_eq_getLast?]
  cases hlast : (d.inFlight.take updates).getLast? with
  | none => exact h.replica
  | some db => exact h.inFlight db (List.mem_of_mem_take (List.mem_of_getLast? hlast))

/-- **Step.** The daemon's own steps. -/
theorem daemonCli_step (hsecret : ControlkeyAnswer secret)
    (h : DaemonCli isValidIpv4 secret named d) {a : MainLabel}
    (hown : ∀ db, a ≠ .commit db) (hstep : mainStep secret Admissible d a d') :
    DaemonCli isValidIpv4 secret named d' := by
  cases a with
  | commit db => exact absurd rfl (hown db)
  | idlRun updates =>
    obtain ⟨_, hstep⟩ := hstep
    have hnext := h.idlRun updates
    cases hphase : d.phase with
    | provision =>
      rw [hphase] at hstep
      dsimp only at hstep
      split at hstep
      · rw [hstep]; exact hnext
      · rw [hstep]; exact { hnext with }
    | loopTop =>
      rw [hphase] at hstep
      dsimp only at hstep
      rw [hstep]
      exact { hnext with }
    | starting => rw [hphase] at hstep; exact hstep.elim
    | branch => rw [hphase] at hstep; exact hstep.elim
  | pass =>
    obtain ⟨_, shadow, b, ntpd, hpass, hsync, rfl⟩ := hstep
    refine { inFlight := h.inFlight, replica := h.replica, shadow := ?_, accepts := ?_ }
    · exact h.replica.shadow_of_pass hpass
    · exact accepts_in_pass hsecret h.accepts h.replica h.shadow hpass (List.prefix_refl _) hsync
  | poll =>
    obtain ⟨_, _, rfl⟩ := hstep
    exact { h with }

theorem daemonCli_commit (h : DaemonCli isValidIpv4 secret named s.daemon) {before after : Db}
    (hrows : CliRows isValidIpv4 named (s.commit before after).db) :
    DaemonCli isValidIpv4 secret named (s.commit before after).daemon := by
  unfold SwitchState.commit at hrows ⊢
  -- only a commit that changes something reaches the daemon
  by_cases heq : after = before
  · rw [if_pos heq]
    exact h
  · rw [if_neg heq] at hrows ⊢
    refine { h with inFlight := ?_ }
    intro db hdb
    rcases List.mem_append.mp hdb with hold | hnew
    · exact h.inFlight db hold
    · rw [List.mem_singleton.mp hnew]
      exact hrows

/-- Tables that stand for what commands ask for are such as the CLI leaves. -/
theorem SwitchInv.cliRows {reported : StatusMsg → Prop} {cs : List Command}
    (h : SwitchInv isValidIpv4 secret sys reported s)
    (hintent : intentOf s.db = Intent.empty.run isValidIpv4 cs) :
    CliRows isValidIpv4 (NamedBy cs) s.db := by
  refine cliRows_of_wellFormed h.wellFormed h.printable ?_
  intro a ha
  refine @namedBy_of_mem_run isValidIpv4 _ _ ?_
  rw [← hintent]
  exact ha

/-- The daemon as it starts over tables of the CLI. -/
theorem daemonCli_start (hsecret : ControlkeyAnswer secret) {db : Db}
    (h : CliRows isValidIpv4 named db) :
    DaemonCli isValidIpv4 secret named { MainState.start secret with inFlight := [db] } := by
  refine { inFlight := ?_, replica := ?_, shadow := ?_, accepts := ?_ }
  · intro d hd
    rw [List.mem_singleton.mp hd]
    exact h
  · constructor <;> simp [MainState.start, Db.blank]
  · exact cliShadow_start
  · exact accepts_fresh hsecret

/-- **Step.** Every step of the switch that leaves tables of the CLI. -/
theorem daemonCli_switchStep (hsecret : ControlkeyAnswer secret)
    (h : DaemonCli isValidIpv4 secret named s.daemon) {a : SwitchLabel} {s' : SwitchState}
    (hrows : CliRows isValidIpv4 named s'.db) (hstep : switchStep isValidIpv4 secret s a s') :
    DaemonCli isValidIpv4 secret named s'.daemon := by
  have hown : ∀ {a : MainLabel} {d : MainState}, (∀ db, a ≠ .commit db) →
      mainStep secret Admissible s.daemon a d → DaemonCli isValidIpv4 secret named d :=
    fun hne hd => daemonCli_step hsecret h hne hd
  cases a with
  | enter c =>
    obtain ⟨_, db, _, rfl⟩ := hstep
    exact daemonCli_commit h hrows
  | configured curCfg =>
    obtain rfl : s' = _ := hstep
    exact daemonCli_commit h hrows
  | idlRun updates =>
    obtain ⟨d, hd, rfl⟩ := hstep
    exact hown (fun _ heq => by cases heq) hd
  | pass =>
    obtain ⟨d, hd, rfl⟩ := hstep
    exact hown (fun _ heq => by cases heq) hd
  | poll out =>
    obtain ⟨d, hd, hsent⟩ := hstep
    rcases hsent with ⟨msg, _, rfl⟩ | ⟨_, rfl⟩
    · exact hown (fun _ heq => by cases heq) hd
    · exact hown (fun _ heq => by cases heq) hd
  | receive ks =>
    obtain ⟨msg, queue, db, _, _, _, rfl⟩ := hstep
    exact h
  | refresh replica =>
    obtain ⟨_, rfl⟩ := hstep
    exact h

/-- A step adds at most a name. -/
theorem NamedBy.step {a : SwitchLabel} {x : String} (h : NamedBy (entered tr) x) :
    NamedBy (entered ((s, a) :: tr)) x := by
  refine h.mono ?_
  cases a with
  | enter c => exact List.subset_append_left _ _
  | _ => exact List.Subset.refl _

/-- **Run.** -/
theorem daemonCli_run (hsecret : ControlkeyAnswer secret)
    (h : (switch isValidIpv4 secret (factoryDefault nextUuid vrf sys curCfg)).Trace tr s) :
    DaemonCli isValidIpv4 secret (NamedBy (entered tr)) s.daemon := by
  induction h with
  | @init s hi =>
    obtain ⟨hinv, hintent⟩ := switchInv_run (.init hi)
    have hrows := hinv.cliRows hintent
    obtain ⟨hdb, _, _, _, hdaemon⟩ := hi
    rw [hdb] at hrows
    rw [hdaemon]
    exact daemonCli_start hsecret hrows
  | @step tr s s' a htrace hstep ih =>
    obtain ⟨hinv, hintent⟩ := switchInv_run (htrace.step a hstep)
    exact daemonCli_switchStep hsecret (ih.mono fun x hx => hx.step) (hinv.cliRows hintent) hstep

end runs

/-! ## Section 4: Never locked out, and what is delivered -/

section results
variable {isValidIpv4 : Nat → Bool} {secret : String} {nextUuid vrf sys : Uuid} {curCfg : Int}
variable {s : SwitchState} {tr : List (SwitchState × SwitchLabel)}

/-- **Never locked out.** The shell runs ntpd with the paths of the files of
    `ops_ntpd_setup_ntpd_default_config`, and from these ntpd starts as the main
    loop has it. Whatever the users enter and in whatever order the processes
    run, the shell runs `ntpdc` with a login that ntpd takes in every state, and
    ntpd takes the login of `ntpq` before each command of each pass. -/
theorem control_kept (hsecret : ControlkeyAnswer secret)
    (h : (switch isValidIpv4 secret (factoryDefault nextUuid vrf sys curCfg)).Trace tr s) :
    let info := opsNtpdSetupNtpdDefaultConfig secret
    let conf := readConf (opsNtpdSetupNtpdDefaultConfigFile "/etc/ntp/").2
    let keys := (opsNtpdSetupNtpdDefaultKeysFile "/etc/ntp/" secret).2
    Shell.simpleCommand (ntpdCommand info) = some
        ["ntpd", "-I", "eth0", "-c", info.confFile, "-k", info.keysFile, "-l", info.logFile] ∧
      MainState.start secret = { MainState.start secret with ntpd := Ntpd.start conf keys } ∧
      (∃ argv, Shell.simpleCommand (ntpdcCommand secret) = some argv ∧
        s.daemon.ntpd.Takes conf.requestkey (loginOf argv)) ∧
      ∀ sh b, IsPass secret s.daemon.replica s.daemon.shadow sh b →
        ∀ cs n, cs <+: b.configs → Ntpd.Run (s.daemon.ntpd.readkeys b.keysFileContent) cs n →
          n.Takes conf.controlkey (loginOf (ntpqArgv secret b.configs)) := by
  have hdaemon := daemonCli_run hsecret h
  dsimp only
  rw [readConf_default]
  refine ⟨simpleCommand_ntpdCommand secret, ?_, ⟨_, simpleCommand_ntpdcCommand hsecret, ?_⟩, ?_⟩
  · rw [← readConf_default "/etc/ntp/", start_default]
    rfl
  · exact ⟨controlkey, secret, rfl, loginOf_ntpdcArgv hsecret, hdaemon.accepts⟩
  · intro sh b hpass cs n hcs hrun
    have haccepts := accepts_in_pass hsecret hdaemon.accepts hdaemon.replica hdaemon.shadow hpass
      hcs hrun
    exact ⟨controlkey, secret, rfl, loginOf_ntpqArgv hsecret b.configs, haccepts⟩

/-- The daemon has taken in the tables with one server and can pass over them. -/
theorem oneServer_pass :
    ∃ (tr : List (SwitchState × SwitchLabel)) (s : SwitchState) (sh : Shadow) (b : Batch),
      (switch (fun _ => true) "0123456789abcdef" newDb).Trace tr s ∧
      entered tr = [oneServerCommand] ∧ s.daemon.replica = oneServerSwitch.db ∧
      IsPass "0123456789abcdef" s.daemon.replica s.daemon.shadow sh b := by
  let d : MainState := { oneServerSwitch.daemon.idlRun 2 with seqno := 2, phase := .starting }
  let s : SwitchState := { oneServerSwitch with daemon := d }
  have htaken : (switch (fun _ => true) "0123456789abcdef" newDb).step oneServerSwitch
      (.idlRun 2) s := ⟨d, ⟨by decide, rfl⟩, rfl⟩
  have htrace := trace_oneServer.step _ htaken
  obtain ⟨hinv, _⟩ := switchInv_run htrace
  obtain ⟨sh, b, hpass⟩ := exists_pass "0123456789abcdef" hinv.main.replica.proper d.shadow
  exact ⟨_, s, sh, b, htrace, rfl, rfl, hpass⟩

theorem control_kept_one_server :
    ∃ (s : SwitchState) (sh : Shadow) (b : Batch), s.daemon.replica = oneServerSwitch.db ∧
      IsPass "0123456789abcdef" s.daemon.replica s.daemon.shadow sh b ∧
      ∀ cs n, cs <+: b.configs → Ntpd.Run (s.daemon.ntpd.readkeys b.keysFileContent) cs n →
        n.Takes (some controlkey) (loginOf (ntpqArgv "0123456789abcdef" b.configs)) := by
  obtain ⟨tr, s, sh, b, htrace, _, hreplica, hpass⟩ := oneServer_pass
  obtain ⟨_, _, _, hpasses⟩ := control_kept (by decide) htrace
  rw [readConf_default] at hpasses
  exact ⟨s, sh, b, hreplica, hpass, hpasses sh b hpass⟩

/-- **Delivery.** Every address in a command of a pass has been entered with
    `ntp server` in this run. So a pass reaches `ntpq` with its exact arguments
    if all the names entered are safe, and otherwise it does if and only if
    those are safe that its commands are about. -/
theorem pass_delivered (hsecret : ControlkeyAnswer secret)
    (h : (switch isValidIpv4 secret (factoryDefault nextUuid vrf sys curCfg)).Trace tr s)
    {sh : Shadow} {b : Batch} (hpass : IsPass secret s.daemon.replica s.daemon.shadow sh b) :
    let delivered := Shell.simpleCommand (ntpqCommand secret b.configs) =
      some (ntpqArgv secret b.configs)
    (∀ c ∈ b.configs, ∀ a ∈ c.address, NamedBy (entered tr) a) ∧
      (delivered ↔ ∀ c ∈ b.configs, c.ShellSafe) ∧
      ((∀ a, NamedBy (entered tr) a → SafeAddress a ∧ a.toList.getLast? ≠ some '\\') →
        delivered) := by
  have hdaemon := daemonCli_run hsecret h
  have hcommands := cliCommand_of_pass hdaemon.replica hdaemon.shadow hpass
  have hnamed : ∀ c ∈ b.configs, ∀ a ∈ c.address, NamedBy (entered tr) a :=
    fun c hc => (hcommands c hc).named
  have hiff := @simpleCommand_ntpqCommand _ b.configs hsecret
  rw [forall₂_congr fun c hc => literal_render_iff (hcommands c hc).fromCli] at hiff
  refine ⟨hnamed, hiff, ?_⟩
  intro hsafe
  refine hiff.mpr fun c hc => ?_
  cases c with
  | association cmd =>
    cases cmd with
    | put address o => exact (hsafe address (hnamed _ hc address rfl)).1
    | drop address => exact hsafe address (hnamed _ hc address rfl)
  | trustedkey keys => trivial
  | unconfigTrustedkey keys => trivial

theorem pass_delivered_one_server :
    ∃ (s : SwitchState) (sh : Shadow) (b : Batch), s.daemon.replica = oneServerSwitch.db ∧
      IsPass "0123456789abcdef" s.daemon.replica s.daemon.shadow sh b ∧
      Shell.simpleCommand (ntpqCommand "0123456789abcdef" b.configs) =
        some (ntpqArgv "0123456789abcdef" b.configs) := by
  obtain ⟨tr, s, sh, b, htrace, hentered, hreplica, hpass⟩ := oneServer_pass
  obtain ⟨_, _, hdelivered⟩ := pass_delivered (by decide) htrace hpass
  refine ⟨s, sh, b, hreplica, hpass, hdelivered ?_⟩
  intro a ha
  rw [hentered] at ha
  obtain ⟨prefer, version, keyId, hmem⟩ := ha
  obtain ⟨rfl, _⟩ := Command.ntpServer.inj (List.mem_singleton.mp hmem)
  decide

end results

end OpsNtpd
