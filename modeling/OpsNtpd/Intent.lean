import OpsNtpd.Restore
import OpsNtpd.Daemon.KeysFile

/-! # What the Users Ask For

  The configuration together with the authentication flag, and what an ntpd
  that serves them looks like: which servers it has, which keys it trusts and
  which keys are in its keys file.

  - Section 1: commands act on the intent.
  - Section 2: the tables ask of ntpd what the intent asks.
-/

namespace OpsNtpd

open Cli Daemon Text

variable {isValidIpv4 : Nat → Bool} {secret : String} {db db' : Db}

/-! ## Section 1: Commands -/

/-- A configuration and the authentication flag. -/
structure Intent where
  config : Config
  auth : Bool

/-- Nothing is configured and authentication is off. -/
def Intent.empty : Intent := { config := Config.empty, auth := false }

/-- The flag after a command. -/
def authStep (auth : Bool) : Command → Bool
  | .ntpAuthenticationEnable => true
  | .noNtpAuthenticationEnable => false
  | _ => auth

/-- The effect of a command. -/
def Intent.step (isValidIpv4 : Nat → Bool) (m : Intent) (c : Command) : Intent :=
  { config := m.config.step isValidIpv4 c, auth := authStep m.auth c }

/-- The effect of a sequence of commands. -/
def Intent.run (isValidIpv4 : Nat → Bool) (m : Intent) (cs : List Command) : Intent :=
  cs.foldl (Intent.step isValidIpv4) m

/-- The intent that the tables stand for. -/
def intentOf (db : Db) : Intent :=
  { config := configOf db, auth := decide (authenticationEnable db = "true") }

theorem leavesSystem_noServer (name : String) : LeavesSystem isValidIpv4 (.noNtpServer name) := by
  intro db
  unfold Command.exec
  rw [run_noNtpServer]
  split
  · rfl
  · split <;> rfl

theorem leavesSystem_noAuthenticationKey (key : String) :
    LeavesSystem isValidIpv4 (.noNtpAuthenticationKey key) := by
  intro db
  unfold Command.exec
  rw [run_noNtpAuthenticationKey]
  split
  · rfl
  · split <;> rfl

theorem leavesSystem_noTrustedKey (key : String) :
    LeavesSystem isValidIpv4 (.noNtpTrustedKey key) := by
  intro db
  have hrun := run_trustedKey isValidIpv4 db key false
  rw [if_neg Bool.false_ne_true] at hrun
  unfold Command.exec
  rw [hrun]
  split
  · rfl
  · split <;> rfl

theorem authenticationEnable_singleton {sys : SystemRow} (h : db.system = [sys]) :
    authenticationEnable db =
      (sys.ntpConfig.lookup systemNtpConfigAuthenticationEnable).getD "false" := by
  unfold authenticationEnable
  rw [h]
  rfl

/-- The flag in the tables after a command that sets it. -/
theorem authenticationEnable_set {sys : SystemRow} (h : db.system = [sys]) (enable : Bool) :
    authenticationEnable
      (((if enable then Command.ntpAuthenticationEnable else .noNtpAuthenticationEnable).run
        isValidIpv4 .committed db).2) = if enable then "true" else "false" := by
  have hhead : db.system.head? = some sys := by rw [h]; rfl
  let config := sys.ntpConfig.insert systemNtpConfigAuthenticationEnable
    (if enable then "true" else "false")
  have hsystem : (db.apply (.updateSystem sys.uuid config)).system =
      [{ sys with ntpConfig := config }] := by
    show Rows.updateWhere SystemRow.uuid sys.uuid _ db.system = _
    rw [h]
    simp [Rows.updateWhere]
  have hset := authenticationEnable_singleton hsystem
  rw [run_authenticationEnable, hhead]
  show authenticationEnable (db.apply (.updateSystem sys.uuid config)) = _
  rw [hset]
  show (config.lookup systemNtpConfigAuthenticationEnable).getD "false" = _
  rw [Finmap.lookup_insert]
  rfl

/-- The flag after a command. -/
theorem authenticationEnable_exec {sys : SystemRow} (h : db.system = [sys]) (c : Command) :
    decide (authenticationEnable (c.exec isValidIpv4 db) = "true") =
      authStep (decide (authenticationEnable db = "true")) c := by
  have hleaves : ∀ {c : Command}, LeavesSystem isValidIpv4 c →
      decide (authenticationEnable (c.exec isValidIpv4 db) = "true") =
        decide (authenticationEnable db = "true") := by
    intro c hc
    rw [authenticationEnable, hc db, authenticationEnable]
  cases c with
  | ntpServer name prefer version keyId => exact hleaves (leavesSystem_server _ _ _ _)
  | noNtpServer name => exact hleaves (leavesSystem_noServer name)
  | ntpAuthenticationEnable =>
    have hset := @authenticationEnable_set isValidIpv4 _ _ h true
    rw [if_pos rfl, if_pos rfl] at hset
    show decide (authenticationEnable (Command.exec isValidIpv4 db _) = "true") = true
    rw [Command.exec, hset]
    rfl
  | noNtpAuthenticationEnable =>
    have hset := @authenticationEnable_set isValidIpv4 _ _ h false
    rw [if_neg Bool.false_ne_true, if_neg Bool.false_ne_true] at hset
    show decide (authenticationEnable (Command.exec isValidIpv4 db _) = "true") = false
    rw [Command.exec, hset]
    rfl
  | ntpAuthenticationKey key md5 => exact hleaves (leavesSystem_authenticationKey key md5)
  | noNtpAuthenticationKey key => exact hleaves (leavesSystem_noAuthenticationKey key)
  | ntpTrustedKey key => exact hleaves (leavesSystem_trustedKey key)
  | noNtpTrustedKey key => exact hleaves (leavesSystem_noTrustedKey key)

/-- **Step.** A committed command acts on the tables as on the intent. -/
theorem intentOf_exec (h : WellFormed isValidIpv4 db) {sys : SystemRow} (hsys : db.system = [sys])
    (c : Command) :
    intentOf (c.exec isValidIpv4 db) = (intentOf db).step isValidIpv4 c := by
  unfold intentOf Intent.step
  rw [configOf_exec h c, authenticationEnable_exec hsys c]

/-! ## Section 2: Serving the intent -/

/-- The key is configured with this password, it is trusted, and authentication
    is enabled. -/
def Intent.Trusts (m : Intent) (key : Int) (pwd : String) : Prop :=
  m.auth = true ∧ m.config.keys.lookup key = some (pwd, true)

/-- ntpd serves the intent: it has exactly the configured servers with their
    options, and it trusts exactly the control key and the trusted keys, which
    are also the keys of its keys file. A `#` would cut a password off. -/
structure Serves (secret : String) (m : Intent) (n : Ntpd) : Prop where
  servers : n.servers = Dict.mapValues entryOpts m.config.servers
  trusted : ∀ key, key ∈ n.trusted ↔ key = controlkey ∨ ∃ pwd, m.Trusts key pwd
  keyStore : (∀ key pwd, m.Trusts key pwd → '#' ∉ pwd.toList) → ∀ e,
    e ∈ readKeysFile n.keyStore ↔
      e = md5Entry controlkey secret ∨ ∃ key pwd, m.Trusts key pwd ∧ e = md5Entry key pwd

/-- The keys that the tables ask for are those that the intent trusts. -/
theorem lookup_demandedKeys_intent (h : WellFormed isValidIpv4 db) (hproper : Proper db) {key : Int}
    {v : String × Bool} :
    (demandedKeys db).lookup key = some v ↔ (intentOf db).Trusts key v.1 ∧ v.2 = true := by
  have hauth : (intentOf db).auth = true ↔ authenticationEnable db = "true" := decide_eq_true_iff
  have hkeys : (configOf db).keys.lookup key = some (v.1, true) ↔
      ∃ r ∈ db.ntpKey, r.keyId = key ∧ (r.keyPassword, r.trustEnable) = (v.1, true) :=
    Rows.lookup_index h.keyIds
  rw [lookup_demandedKeys hproper, Intent.Trusts, hauth]
  show _ ↔ (_ ∧ (configOf db).keys.lookup key = some (v.1, true)) ∧ _
  rw [hkeys]
  constructor
  · intro hex
    obtain ⟨r, hr, hmakes, hid, rfl⟩ := hex
    have hboth : r.trustEnable = true ∧ authenticationEnable db = "true" := by
      simpa [makesEntry] using hmakes
    exact ⟨⟨hboth.2, r, hr, hid, by rw [hboth.1]⟩, rfl⟩
  · intro hand
    obtain ⟨⟨hon, r, hr, hid, hv⟩, htrust⟩ := hand
    rw [Prod.mk.injEq] at hv
    refine ⟨r, hr, by simp [makesEntry, hv.2, hon], hid, ?_⟩
    rw [hv.1]
    exact Prod.ext rfl htrust.symm

/-- The keys of printable tables are ones that the CLI produces. -/
theorem fromCli_demandedKeys (h : WellFormed isValidIpv4 db) (hproper : Proper db)
    (hp : (configOf db).Printable) : FromCli (demandedKeys db) := by
  intro key v hv
  obtain ⟨r, hr, _, rfl, rfl⟩ := (lookup_demandedKeys hproper).mp hv
  obtain ⟨hrange, hlen⟩ := h.keyValid r hr
  have hword : IsWord r.keyPassword :=
    hp.passwords r.keyId (r.keyPassword, r.trustEnable) (lookup_configOf_keys h hr)
  exact ⟨hrange, hlen, hword⟩

/-- **What ntpd has converged to is what the users ask for.** -/
theorem serves_of_converged (hsecret : ControlkeyAnswer secret) (h : WellFormed isValidIpv4 db)
    (hp : (configOf db).Printable) (hadm : Admissible db) {n : Ntpd}
    (hn : Converged secret db n) : Serves secret (intentOf db) n := by
  have hproper := hadm.proper
  refine { servers := ?_, trusted := ?_, keyStore := ?_ }
  · show n.servers = Dict.mapValues entryOpts (configOf db).servers
    rw [← demandedServers_eq h]
    apply Finmap.ext_lookup
    intro a
    apply Option.ext
    intro o
    rw [hn.servers, demandedServers, Rows.lookup_index h.addresses]
  · intro key
    rw [hn.trusted, ← mem_demandedKeys hproper, Dict.mem_keys_iff]
    refine or_congr Iff.rfl ?_
    constructor
    · intro hex
      obtain ⟨v, hv⟩ := hex
      exact ⟨v.1, ((lookup_demandedKeys_intent h hproper).mp hv).1⟩
    · intro hex
      obtain ⟨pwd, hpwd⟩ := hex
      exact ⟨(pwd, true), (lookup_demandedKeys_intent h hproper).mpr ⟨hpwd, rfl⟩⟩
  · intro hplain e
    obtain ⟨is, his, hstore⟩ := hn.keysFile hproper
    have hback : ReadsBack secret (demandedKeys db) n.keyStore := by
      rw [hstore]
      refine readsBack_of_plain hsecret (fromCli_demandedKeys h hproper hp) his ?_
      intro key v hv
      exact hplain key v.1 ((lookup_demandedKeys_intent h hproper).mp hv).1
    rw [hback.entries]
    refine or_congr Iff.rfl ?_
    constructor
    · intro hex
      obtain ⟨key, v, hv, rfl⟩ := hex
      exact ⟨key, v.1, ((lookup_demandedKeys_intent h hproper).mp hv).1, rfl⟩
    · intro hex
      obtain ⟨key, pwd, hpwd, rfl⟩ := hex
      exact ⟨key, (pwd, true), (lookup_demandedKeys_intent h hproper).mpr ⟨hpwd, rfl⟩, rfl⟩

end OpsNtpd
