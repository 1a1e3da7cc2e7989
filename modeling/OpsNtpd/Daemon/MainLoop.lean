import OpsNtpd.Framework.Transition
import OpsNtpd.Daemon.Pass

/-! # Daemon: The Main Loop

  `ops_ntpd_init` as a transition system. Databases are committed at any time
  and wait until `idl.run()` takes them into the replica, which raises
  `change_seqno`. The daemon first provisions ntpd, with a pass over the
  replica, and then loops: `idl.run()`, and either a status poll, when
  nothing has changed, or a pass.

  The main result is that ntpd has converged to the replica whenever the loop
  has seen its last change.
-/

namespace OpsNtpd.Daemon

open Transition

/-! ## Section 1: The system -/

/-- Where `ops_ntpd_init` stands. -/
inductive Phase where
  /-- At `ops_ntpd_provision_ntpd_daemon`. -/
  | provision
  /-- ntpd has been started; its first pass comes next. -/
  | starting
  /-- Before `idl.run()` in the main loop. -/
  | loopTop
  /-- After it, at the comparison of the sequence numbers. -/
  | branch
  deriving DecidableEq, Repr

structure MainState where
  /-- Committed databases that the replica has not taken in, oldest first. -/
  inFlight : List Db
  replica : Db
  changeSeqno : Nat
  seqno : Nat
  phase : Phase
  shadow : Shadow
  ntpd : Ntpd

inductive MainLabel where
  | commit (db : Db)
  | idlRun (updates : Nat)
  | pass
  | poll

/-- A fresh ntpd: the configuration file has it trust the control key. -/
def Ntpd.fresh (secret : String) : Ntpd :=
  { servers := ∅, trusted := {controlkey}, keyStore := defaultKeysFileContent secret ++ "\n" }

/-- `ops_ntpd_check_system_status` -/
def checkSystemStatus (db : Db) : Bool := db.system.any fun r => r.curCfg ≠ 0

/-- `idl.run()` that takes in the first `updates` databases. -/
def MainState.idlRun (s : MainState) (updates : Nat) : MainState :=
  { s with
    replica := (s.inFlight.take updates).getLastD s.replica
    inFlight := s.inFlight.drop updates
    changeSeqno := s.changeSeqno + updates }

/-- One step. Every command that the daemon emits is executed. -/
def mainStep (secret : String) (allowed : Db → Prop) (s : MainState) (a : MainLabel)
    (s' : MainState) : Prop :=
  match a with
  | .commit db => allowed db ∧ s' = { s with inFlight := s.inFlight ++ [db] }
  | .idlRun updates =>
      updates ≤ s.inFlight.length ∧
        match s.phase with
        | .provision =>
            let s₁ := s.idlRun updates
            if s₁.seqno = s₁.changeSeqno then s' = s₁
            else
              s' = { s₁ with
                seqno := s₁.changeSeqno
                phase := if checkSystemStatus s₁.replica then .starting else .provision }
        | .loopTop => s' = { s.idlRun updates with phase := .branch }
        | _ => False
  | .pass =>
      (s.phase = .starting ∨ (s.phase = .branch ∧ s.seqno ≠ s.changeSeqno)) ∧
        ∃ shadow b ntpd, IsPass secret s.replica s.shadow shadow b ∧
          b.Synced true true s.ntpd ntpd ∧
          s' = { s with
            shadow := shadow
            ntpd := ntpd
            seqno := s.changeSeqno
            phase := .loopTop }
  | .poll =>
      s.phase = .branch ∧ s.seqno = s.changeSeqno ∧ s' = { s with phase := .loopTop }

/-- An empty database: what the replica is before the first update. -/
def Db.blank : Db := { nextUuid := 0, system := [], vrf := [], ntpKey := [], ntpAssociation := [] }

/-- The daemon starts with empty shadow maps and a fresh ntpd. -/
def MainState.start (secret : String) : MainState :=
  { inFlight := [], replica := Db.blank, changeSeqno := 0, seqno := 0, phase := .provision
    shadow := Shadow.start, ntpd := Ntpd.fresh secret }

/-- The daemon, over committed databases that are `allowed`. -/
def mainLoop (secret : String) (allowed : Db → Prop) : System MainState MainLabel :=
  { init := fun s => s = MainState.start secret
    step := mainStep secret allowed }

/-! ## Section 2: Convergence -/

/-- A keys file: the line of the control key and one for each of these keys. -/
def keysFileText (secret : String) (keys : List (Int × String)) : String :=
  "#This is generated from ops-ntpd\n 65535 MD5 " ++ secret ++ "\n" ++
    "\n".intercalate (keys.map fun k => " " ++ toString k.1 ++ " MD5 " ++ k.2) ++ "\n"

/-- ntpd is configured as the tables say: one server per row, with the options
    of the row; the trusted keys are the control key and, if authentication
    is enabled, the keys of the trusted rows; and the loaded key store is a
    keys file with exactly the control key and the trusted keys. -/
structure Converged (secret : String) (db : Db) (n : Ntpd) : Prop where
  servers : ∀ a o, n.servers.lookup a = some o ↔
    ∃ r ∈ db.ntpAssociation, r.address = a ∧ rowOpts db r = o
  onePerRow : n.servers.keys.card = db.ntpAssociation.length
  trusted : ∀ key, key ∈ n.trusted ↔ key = controlkey ∨
    (authenticationEnable db = "true" ∧ ∃ r ∈ db.ntpKey, r.trustEnable = true ∧ r.keyId = key)
  keyStore : ∃ keys : List (Int × String), (keys.map Prod.fst).Nodup ∧
    (∀ key pwd, (key, pwd) ∈ keys ↔ authenticationEnable db = "true" ∧
      ∃ r ∈ db.ntpKey, r.trustEnable = true ∧ r.keyId = key ∧ r.keyPassword = pwd) ∧
    n.keyStore = keysFileText secret keys

/-- The databases that convergence is about: proper ones in which no key has
    the id of the control key. -/
structure Admissible (db : Db) : Prop where
  proper : Proper db
  keyRange : ∀ r ∈ db.ntpKey, r.keyId ≠ controlkey

/-- What links ntpd to the shadow state between passes. -/
structure Linked (s : MainState) : Prop where
  servers : Mirrors s.ntpd.servers s.shadow.gNtpaMap
  trusted : s.ntpd.trusted = insert controlkey s.shadow.gNtpkDb.keys
  control : controlkey ∉ s.shadow.gNtpkDb.keys

/-- The invariant of the daemon. -/
structure MainInv (secret : String) (s : MainState) : Prop where
  linked : Linked s
  replica : Admissible s.replica
  inFlight : ∀ db ∈ s.inFlight, Admissible db
  loopTop : s.phase = .loopTop → s.seqno = s.changeSeqno
  converged : (s.phase = .loopTop ∨ s.phase = .branch) → s.seqno = s.changeSeqno →
    Converged secret s.replica s.ntpd

section convergence
variable {secret : String} {db : Db}

theorem admissible_blank : Admissible Db.blank := by
  refine { proper := ?_, keyRange := by simp [Db.blank] }
  refine { oneSystem := ?_, keyUuids := ?_, keyIds := ?_, addresses := ?_, filled := ?_ }
  · simp [Db.blank]
  · simp [Db.blank]
  · simp [Db.blank]
  · simp [Db.blank]
  · exact { keys := by simp [Db.blank], associations := by simp [Db.blank] }

theorem mem_demandedKeys (h : Proper db) {key : Int} :
    key ∈ (demandedKeys db).keys ↔
      authenticationEnable db = "true" ∧ ∃ r ∈ db.ntpKey, r.trustEnable = true ∧ r.keyId = key := by
  rw [Dict.mem_keys_iff]
  constructor
  · intro hex
    obtain ⟨v, hv⟩ := hex
    obtain ⟨r, hr, hmakes, hid, _⟩ := (lookup_demandedKeys h).mp hv
    have hboth : r.trustEnable = true ∧ authenticationEnable db = "true" := by
      simpa [makesEntry] using hmakes
    exact ⟨hboth.2, r, hr, hboth.1, hid⟩
  · intro hand
    obtain ⟨hauth, r, hr, htrust, hid⟩ := hand
    refine ⟨_, (lookup_demandedKeys h).mpr ⟨r, hr, ?_, hid, rfl⟩⟩
    simp [makesEntry, htrust, hauth]

theorem controlkey_not_demanded (h : Admissible db) : controlkey ∉ (demandedKeys db).keys := by
  intro hmem
  obtain ⟨_, r, hr, _, hid⟩ := (mem_demandedKeys h.proper).mp hmem
  exact h.keyRange r hr hid

/-- A file of keys of the map is the one that is written for them in this order. -/
theorem keysFileText_eq {l : KeyMap} {keys : List (Int × String)}
    (h : ∀ k ∈ keys, ∃ trust, l.lookup k.1 = some (k.2, trust)) :
    keysFileText secret keys = keysFileContent secret l (keys.map Prod.fst) := by
  have hlines : (keys.map Prod.fst).filterMap (fun k => (l.lookup k).map fun v => keyLine k v.1) =
      keys.map fun k => keyLine k.1 k.2 := by
    rw [List.filterMap_map, ← List.filterMap_eq_map]
    refine List.filterMap_congr fun k hk => ?_
    obtain ⟨trust, hlook⟩ := h k hk
    rw [Function.comp_apply, hlook, Option.map_some]
    rfl
  have hcontrol : "#This is generated from ops-ntpd\n" ++ " " ++ toString controlkey ++ " MD5 " =
      "#This is generated from ops-ntpd\n 65535 MD5 " := by decide +kernel
  unfold keysFileText keysFileContent defaultKeysFileContent
  rw [hlines, hcontrol]
  rfl

/-- The keys of a map in some order, with their passwords. -/
theorem exists_keysFileText (secret : String) {l : KeyMap} {is : List Int}
    (his : IterOrder is l.keys) :
    ∃ keys : List (Int × String), keys.map Prod.fst = is ∧
      (∀ key pwd, (key, pwd) ∈ keys ↔ ∃ trust, l.lookup key = some (pwd, trust)) ∧
      keysFileContent secret l is = keysFileText secret keys := by
  let keys := is.filterMap fun key => (l.lookup key).map fun v => (key, v.1)
  have hmem : ∀ key pwd, (key, pwd) ∈ keys ↔ ∃ trust, l.lookup key = some (pwd, trust) := by
    intro key pwd
    rw [List.mem_filterMap]
    constructor
    · intro hex
      obtain ⟨_, _, hkey⟩ := hex
      obtain ⟨v, hv, heq⟩ := Option.map_eq_some_iff.mp hkey
      obtain ⟨rfl, rfl⟩ := Prod.mk.inj heq
      exact ⟨v.2, hv⟩
    · intro hex
      obtain ⟨trust, hlook⟩ := hex
      refine ⟨key, his.mem_iff.mpr (Dict.mem_keys_iff.mpr ⟨_, hlook⟩), ?_⟩
      rw [hlook]
      rfl
  have hids : keys.map Prod.fst = is := by
    rw [List.map_filterMap]
    refine Eq.trans (List.filterMap_congr ?_) List.filterMap_some
    intro key hkey
    obtain ⟨v, hv⟩ := Dict.mem_keys_iff.mp (his.mem_iff.mp hkey)
    rw [hv]
    rfl
  refine ⟨keys, hids, hmem, ?_⟩
  rw [keysFileText_eq fun k hk => (hmem k.1 k.2).mp hk, hids]

/-- The keys of the file are those that the tables ask for. -/
theorem Converged.keysFile (h : Proper db) {n : Ntpd} (hn : Converged secret db n) :
    ∃ is, IterOrder is (demandedKeys db).keys ∧
      n.keyStore = keysFileContent secret (demandedKeys db) is := by
  obtain ⟨keys, hnd, hkeys, hstore⟩ := hn.keyStore
  have hlook : ∀ k ∈ keys, (demandedKeys db).lookup k.1 = some (k.2, true) := by
    intro k hk
    obtain ⟨hauth, r, hr, htrust, hid, hpwd⟩ := (hkeys k.1 k.2).mp hk
    refine (lookup_demandedKeys h).mpr ⟨r, hr, by simp [makesEntry, htrust, hauth], hid, ?_⟩
    rw [hpwd]
  refine ⟨keys.map Prod.fst, ⟨hnd, ?_⟩, ?_⟩
  · ext key
    rw [List.mem_toFinset, mem_demandedKeys h]
    constructor
    · intro hin
      obtain ⟨k, hk, rfl⟩ := List.mem_map.mp hin
      obtain ⟨hauth, r, hr, htrust, hid, _⟩ := (hkeys k.1 k.2).mp hk
      exact ⟨hauth, r, hr, htrust, hid⟩
    · intro hand
      obtain ⟨hauth, r, hr, htrust, hid⟩ := hand
      exact List.mem_map.mpr
        ⟨_, (hkeys key r.keyPassword).mpr ⟨hauth, r, hr, htrust, hid, rfl⟩, rfl⟩
  · rw [hstore, keysFileText_eq fun k hk => ⟨true, hlook k hk⟩]

/-- What a database asks for is what convergence means. -/
theorem converged_of_demanded (h : Admissible db) {n : Ntpd}
    (hservers : n.servers = demandedServers db)
    (htrusted : n.trusted = insert controlkey (demandedKeys db).keys)
    (hstore : ∃ is, IterOrder is (demandedKeys db).keys ∧
      n.keyStore = keysFileContent secret (demandedKeys db) is) :
    Converged secret db n := by
  refine { servers := ?_, onePerRow := ?_, trusted := ?_, keyStore := ?_ }
  · intro a o
    rw [hservers]
    exact Rows.lookup_index h.proper.addresses
  · rw [hservers]
    exact Rows.card_index h.proper.addresses
  · intro key
    rw [htrusted, Finset.mem_insert, mem_demandedKeys h.proper]
  · obtain ⟨is, his, hfile⟩ := hstore
    obtain ⟨keys, hids, hkeys, htext⟩ := exists_keysFileText secret his
    refine ⟨keys, by rw [hids]; exact his.1, ?_, hfile.trans htext⟩
    intro key pwd
    rw [hkeys]
    constructor
    · intro hex
      obtain ⟨trust, hlook⟩ := hex
      obtain ⟨r, hr, hmakes, hid, hpwd⟩ := (lookup_demandedKeys h.proper).mp hlook
      have hboth : r.trustEnable = true ∧ authenticationEnable db = "true" := by
        simpa [makesEntry] using hmakes
      exact ⟨hboth.2, r, hr, hboth.1, hid, (Prod.mk.inj hpwd).1⟩
    · intro hand
      obtain ⟨hauth, r, hr, htrust, hid, rfl⟩ := hand
      exact ⟨true, (lookup_demandedKeys h.proper).mpr
        ⟨r, hr, by simp [makesEntry, htrust, hauth], hid, rfl⟩⟩

/-- **Pass.** A pass whose commands are executed links ntpd to the new shadow
    state and makes it converge. -/
theorem pass_converges {s : MainState} (hlinked : Linked s) (hadm : Admissible s.replica)
    {shadow : Shadow} {b : Batch} {ntpd : Ntpd}
    (hpass : IsPass secret s.replica s.shadow shadow b) (hsync : b.Synced true true s.ntpd ntpd) :
    Mirrors ntpd.servers shadow.gNtpaMap ∧
      ntpd.trusted = insert controlkey shadow.gNtpkDb.keys ∧
      controlkey ∉ shadow.gNtpkDb.keys ∧ Converged secret s.replica ntpd := by
  have hshadow := pass_shadow hadm.proper hpass
  obtain ⟨is, his, hfile⟩ := pass_keysFile hadm.proper hpass
  have hsync' : Ntpd.Run (s.ntpd.readkeys b.keysFileContent) b.configs ntpd := hsync
  have hn := pass_spec hadm.proper hpass (n := s.ntpd.readkeys b.keysFileContent)
    hlinked.servers hsync'
  have htrusted : ntpd.trusted = insert controlkey (demandedKeys s.replica).keys := by
    rw [hn]
    show (s.ntpd.trusted \ (s.shadow.gNtpkDb.keys \ (demandedKeys s.replica).keys)) ∪
      (demandedKeys s.replica).keys = _
    rw [hlinked.trusted]
    ext key
    simp only [Finset.mem_union, Finset.mem_sdiff, Finset.mem_insert]
    -- the control key is never among the keys that are taken out
    have hcontrol := hlinked.control
    constructor
    · intro hor
      rcases hor with ⟨heq | hold, hkept⟩ | hnew
      · exact Or.inl heq
      · by_contra hnot
        exact hkept ⟨hold, fun hin => hnot (Or.inr hin)⟩
      · exact Or.inr hnew
    · intro hor
      rcases hor with heq | hnew
      · refine Or.inl ⟨Or.inl heq, ?_⟩
        intro hgone
        rw [heq] at hgone
        exact hcontrol hgone.1
      · exact Or.inr hnew
  have hservers : ntpd.servers = demandedServers s.replica := by rw [hn]
  rw [hshadow]
  refine ⟨by rw [hservers]; exact mirrors_readAssocs hadm.proper, htrusted,
    controlkey_not_demanded hadm, ?_⟩
  refine converged_of_demanded hadm hservers htrusted ⟨is, his, ?_⟩
  rw [hn]
  exact hfile

theorem admissible_idlRun {s : MainState} (h : MainInv secret s) (updates : Nat) :
    Admissible (s.idlRun updates).replica ∧
      ∀ db ∈ (s.idlRun updates).inFlight, Admissible db := by
  constructor
  · show Admissible ((s.inFlight.take updates).getLastD s.replica)
    rw [List.getLastD_eq_getLast?]
    cases hlast : (s.inFlight.take updates).getLast? with
    | none => exact h.replica
    | some db =>
      have hmem : db ∈ s.inFlight.take updates := List.mem_of_getLast? hlast
      exact h.inFlight db (List.mem_of_mem_take hmem)
  · intro db hdb
    exact h.inFlight db (List.mem_of_mem_drop hdb)

/-- Before the loop is entered nothing is said about `seqno` and the servers. -/
theorem mainInv_of_provisioning {s : MainState} (hlinked : Linked s)
    (hreplica : Admissible s.replica) (hflight : ∀ db ∈ s.inFlight, Admissible db)
    (htop : s.phase ≠ .loopTop) (hbranch : s.phase ≠ .branch) : MainInv secret s :=
  { linked := hlinked, replica := hreplica, inFlight := hflight
    loopTop := fun h => absurd h htop
    converged := fun hor _ => hor.elim (fun h => absurd h htop) fun h => absurd h hbranch }

/-- **Step.** Every step of the daemon keeps the invariant. -/
theorem mainInv_step {s s' : MainState} {a : MainLabel} (h : MainInv secret s)
    (hstep : mainStep secret Admissible s a s') : MainInv secret s' := by
  cases a with
  | commit db =>
    obtain ⟨hdb, rfl⟩ := hstep
    refine { linked := ⟨h.linked.servers, h.linked.trusted, h.linked.control⟩
             replica := h.replica, inFlight := ?_, loopTop := h.loopTop, converged := h.converged }
    intro db' hdb'
    rcases List.mem_append.mp hdb' with hold | hnew
    · exact h.inFlight db' hold
    · rw [List.mem_singleton.mp hnew]
      exact hdb
  | idlRun updates =>
    obtain ⟨hle, hstep⟩ := hstep
    obtain ⟨hreplica, hflight⟩ := admissible_idlRun h updates
    have hlinked : Linked (s.idlRun updates) :=
      ⟨h.linked.servers, h.linked.trusted, h.linked.control⟩
    cases hphase : s.phase with
    | provision =>
      rw [hphase] at hstep
      by_cases hsame : (s.idlRun updates).seqno = (s.idlRun updates).changeSeqno
      · simp only [hsame, if_true] at hstep
        subst hstep
        have hstay : (s.idlRun updates).phase = .provision := hphase
        exact mainInv_of_provisioning hlinked hreplica hflight (by rw [hstay]; decide)
          (by rw [hstay]; decide)
      · simp only [hsame, if_false] at hstep
        subst hstep
        refine mainInv_of_provisioning ⟨hlinked.servers, hlinked.trusted, hlinked.control⟩
          hreplica hflight ?_ ?_
        · show (if checkSystemStatus (s.idlRun updates).replica then Phase.starting
            else .provision) ≠ .loopTop
          split <;> decide
        · show (if checkSystemStatus (s.idlRun updates).replica then Phase.starting
            else .provision) ≠ .branch
          split <;> decide
    | starting => rw [hphase] at hstep; exact hstep.elim
    | branch => rw [hphase] at hstep; exact hstep.elim
    | loopTop =>
      rw [hphase] at hstep
      have hs' : s' = { s.idlRun updates with phase := .branch } := hstep
      subst hs'
      refine { linked := ⟨hlinked.servers, hlinked.trusted, hlinked.control⟩
               replica := hreplica, inFlight := hflight
               loopTop := fun htop => by cases htop
               converged := ?_ }
      intro _ hseq
      -- with no update the replica is the one of before, which ntpd has converged to
      have hold := h.loopTop hphase
      have hzero : updates = 0 := by
        have hseq' : s.seqno = s.changeSeqno + updates := hseq
        omega
      subst hzero
      have hsame : (s.idlRun 0).replica = s.replica := by
        show (s.inFlight.take 0).getLastD s.replica = s.replica
        rw [List.take_zero]
        rfl
      show Converged secret (s.idlRun 0).replica s.ntpd
      rw [hsame]
      exact h.converged (Or.inl hphase) hold
  | pass =>
    obtain ⟨_, shadow, b, ntpd, hpass, hsync, rfl⟩ := hstep
    obtain ⟨hservers, htrusted, hcontrol, hconv⟩ := pass_converges h.linked h.replica hpass hsync
    exact { linked := ⟨hservers, htrusted, hcontrol⟩
            replica := h.replica, inFlight := h.inFlight
            loopTop := fun _ => rfl
            converged := fun _ _ => hconv }
  | poll =>
    obtain ⟨hphase, hseq, rfl⟩ := hstep
    exact { linked := ⟨h.linked.servers, h.linked.trusted, h.linked.control⟩
            replica := h.replica, inFlight := h.inFlight
            loopTop := fun _ => hseq
            converged := fun _ _ => h.converged (Or.inr hphase) hseq }

theorem mainInv_start : MainInv secret (MainState.start secret) := by
  refine mainInv_of_provisioning ⟨mirrors_empty, ?_, ?_⟩ admissible_blank
    (by simp [MainState.start]) (fun htop => by cases htop) (fun hbranch => by cases hbranch)
  · show ({controlkey} : Finset Int) = insert controlkey (∅ : KeyMap).keys
    rw [Finmap.keys_empty]
    rfl
  · show controlkey ∉ (∅ : KeyMap).keys
    rw [Finmap.keys_empty]
    exact Finset.notMem_empty _

/-- **Convergence.** In every reachable state of the main loop that has seen
    the last change of the replica, ntpd is configured as the replica says. -/
theorem mainLoop_converged {s : MainState} (h : (mainLoop secret Admissible).Reachable s)
    (hloop : s.phase = .loopTop ∨ s.phase = .branch) (hseq : s.seqno = s.changeSeqno) :
    Converged secret s.replica s.ntpd := by
  have hinv : MainInv secret s := by
    refine System.invariant ?_ ?_ h
    · intro s₀ hs₀
      have heq : s₀ = MainState.start secret := hs₀
      rw [heq]
      exact mainInv_start
    · intro s₁ a s₂ hs₁ hstep
      exact mainInv_step hs₁ hstep
  exact hinv.converged hloop hseq

/-- The first pass can be reached once a database is committed that says that
    the system is up. -/
theorem reachable_first_pass {allowed : Db → Prop} (hdb : allowed db)
    (hup : checkSystemStatus db = true) {shadow : Shadow} {b : Batch} {ntpd : Ntpd}
    (hpass : IsPass secret db Shadow.start shadow b)
    (hsync : b.Synced true true (Ntpd.fresh secret) ntpd) :
    (mainLoop secret allowed).Reachable
      { inFlight := [], replica := db, changeSeqno := 1, seqno := 1, phase := .loopTop
        shadow := shadow, ntpd := ntpd } := by
  let s₀ := MainState.start secret
  let s₁ : MainState := { s₀ with inFlight := [db] }
  let s₂ : MainState := { s₁.idlRun 1 with seqno := 1, phase := .starting }
  have h₁ : (mainLoop secret allowed).step s₀ (.commit db) s₁ := ⟨hdb, rfl⟩
  have h₂ : (mainLoop secret allowed).step s₁ (.idlRun 1) s₂ := by
    refine ⟨by simp [s₁], ?_⟩
    show s₂ = { s₁.idlRun 1 with
      seqno := 1
      phase := if checkSystemStatus db then Phase.starting else .provision }
    rw [hup]
    rfl
  have h₃ : (mainLoop secret allowed).step s₂ .pass
      { inFlight := [], replica := db, changeSeqno := 1, seqno := 1, phase := .loopTop
        shadow := shadow, ntpd := ntpd } :=
    ⟨Or.inl rfl, shadow, b, ntpd, hpass, hsync, rfl⟩
  exact (((System.Reachable.init rfl).step _ h₁).step _ h₂).step _ h₃

end convergence

/-! ## Section 3: Examples -/

/-- A server with a key, and authentication enabled. -/
def keyedServerDb : Db :=
  { nextUuid := 4
    system := [⟨0, 1, (∅ : Smap).insert systemNtpConfigAuthenticationEnable "true", ∅, ∅⟩]
    vrf := [⟨1, "vrf_default"⟩]
    ntpKey := [⟨2, 7, "topsecret", true⟩]
    ntpAssociation := [⟨3, "10.0.0.1", some 1, some 2, ∅, ∅⟩] }

theorem admissible_keyedServerDb : Admissible keyedServerDb := by
  refine ⟨?_, by decide⟩
  refine { oneSystem := by decide, keyUuids := by decide, keyIds := by decide
           addresses := by decide, filled := ?_ }
  refine { keys := ?_, associations := ?_ }
  · intro r hr _
    rw [List.mem_singleton.mp hr]
    exact ⟨by decide, by decide⟩
  · intro r hr
    rw [List.mem_singleton.mp hr]
    exact ⟨by decide, by decide⟩

theorem mainLoop_converged_keyed :
    ∃ s, (mainLoop "0123456789abcdef" Admissible).Reachable s ∧ s.replica = keyedServerDb ∧
      Converged "0123456789abcdef" s.replica s.ntpd := by
  have hadm := admissible_keyedServerDb
  obtain ⟨shadow, b, hpass⟩ := exists_pass "0123456789abcdef" hadm.proper Shadow.start
  obtain ⟨ntpd, hrun⟩ := Ntpd.exists_run
    ((Ntpd.fresh "0123456789abcdef").readkeys b.keysFileContent) b.configs
  have hreach := reachable_first_pass hadm (by decide) hpass hrun
  exact ⟨_, hreach, rfl, mainLoop_converged hreach (Or.inl rfl) rfl⟩

/-- Two servers with one address in two VRFs. -/
def twoVrfsDb : Db :=
  { nextUuid := 5
    system := [⟨0, 1, ∅, ∅, ∅⟩]
    vrf := [⟨1, "vrf_default"⟩, ⟨2, "vrf_1"⟩]
    ntpKey := []
    ntpAssociation := [⟨3, "10.0.0.1", some 1, none, ∅, ∅⟩, ⟨4, "10.0.0.1", some 2, none, ∅, ∅⟩] }

/-- Without a condition on the databases ntpd need not converge: it has one
    server per address, whatever the VRF. -/
theorem mainLoop_two_vrfs :
    ∃ s, (mainLoop "0123456789abcdef" fun _ => True).Reachable s ∧ s.phase = .loopTop ∧
      s.seqno = s.changeSeqno ∧ ¬ Converged "0123456789abcdef" s.replica s.ntpd := by
  let o : PassOrders :=
    { us := [], ts := [], is := [], ks := [(1, "10.0.0.1"), (2, "10.0.0.1")]
      rs := [(1, "10.0.0.1"), (2, "10.0.0.1")] }
  let opts : ServerOpts := { version := "3", key := none, prefer := false }
  obtain ⟨shadow, b, hpass, hconfigs⟩ : ∃ shadow b,
      IsPass "0123456789abcdef" twoVrfsDb Shadow.start shadow b ∧
        b.configs = [.server "10.0.0.1" opts, .server "10.0.0.1" opts] := by
    refine ⟨_, _, ⟨twoVrfsDb, o, ∅, readAssocs twoVrfsDb, Db.Reorders.refl _, rfl, rfl, ?_, rfl⟩,
      rfl⟩
    exact { keys := ⟨by decide, by decide, by decide⟩, ks := by decide, rs := by decide }
  let fresh := (Ntpd.fresh "0123456789abcdef").readkeys b.keysFileContent
  have hrun : Ntpd.Run fresh b.configs
      { fresh with
        servers := (fresh.servers.insert "10.0.0.1" opts).insert "10.0.0.1" opts } := by
    rw [hconfigs]
    exact .cons (.association (.put _ _)) (.cons (.association (.put _ _)) (.nil _))
  refine ⟨_, reachable_first_pass trivial (by decide) hpass hrun, rfl, rfl, ?_⟩
  intro hconv
  have hcard : (((∅ : Dict String ServerOpts).insert "10.0.0.1" opts).insert "10.0.0.1"
      opts).keys.card = 2 := hconv.onePerRow
  exact absurd hcard (by decide)

end OpsNtpd.Daemon
