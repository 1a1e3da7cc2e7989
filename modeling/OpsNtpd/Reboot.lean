import OpsNtpd.Restart

/-! # Reboots

  A reboot loses the database as well. What is left is what the running
  configuration has printed before, in any state of any run: its lines are
  entered on the new system, while the daemon there takes its steps.

  The lines bring back the servers and the keys. They do not bring back the
  authentication flag, so ntpd trusts none of the keys until it is set again.
-/

namespace OpsNtpd

open Cli Daemon Text Transition

/-! ## Section 1: The saved commands -/

section saved
variable {isValidIpv4 : Nat → Bool} {db db' : Db} {c : Command} {cs : List Command}

/-- Lines that are all accepted are commands, and execute as these. -/
theorem execAll_of_executeLines {lines : List String}
    (hlines : ∀ line ∈ lines, ∃ c, parseLine line = some c ∧ LeavesSystem isValidIpv4 c)
    (hexec : executeLines isValidIpv4 db lines = some db') :
    ∃ cs, lines.mapM parseLine = some cs ∧ (∀ c ∈ cs, LeavesSystem isValidIpv4 c) ∧
      execAll isValidIpv4 db cs = db' := by
  induction lines generalizing db with
  | nil =>
    refine ⟨[], rfl, fun c hc => absurd hc List.not_mem_nil, ?_⟩
    exact Option.some.inj hexec
  | cons line lines ih =>
    obtain ⟨⟨c, hparse, hleaves⟩, hrest⟩ := List.forall_mem_cons.mp hlines
    unfold executeLines at hexec
    rw [List.foldlM_cons] at hexec
    obtain ⟨db₁, hone, htail⟩ := Option.bind_eq_some_iff.mp hexec
    have hdb₁ : c.exec isValidIpv4 db = db₁ := by
      unfold executeLine at hone
      simp only [hparse] at hone
      unfold Command.exec
      split at hone
      · next heq =>
        rw [heq]
        exact Option.some.inj hone
      · cases hone
    obtain ⟨cs, hcs, hall, hdb'⟩ := ih hrest htail
    refine ⟨c :: cs, ?_, List.forall_mem_cons.mpr ⟨hleaves, hall⟩, ?_⟩
    · rw [List.mapM_cons, hparse, hcs]
      rfl
    · rw [execAll_cons, hdb₁]
      exact hdb'

/-- A command that leaves the `System` table alone does not set the flag. -/
theorem authStep_of_leavesSystem (h : LeavesSystem isValidIpv4 c) : authStep false c = false := by
  have hexec := @authenticationEnable_exec isValidIpv4 (factoryDefault 0 0 0 0) _ rfl c
  rw [authenticationEnable, h, ← authenticationEnable] at hexec
  exact hexec.symm

theorem auth_run {m : Intent} (hm : m.auth = false) (h : ∀ c ∈ cs, LeavesSystem isValidIpv4 c) :
    (m.run isValidIpv4 cs).auth = false := by
  induction cs generalizing m with
  | nil => exact hm
  | cons c cs ih =>
    obtain ⟨hc, hrest⟩ := List.forall_mem_cons.mp h
    refine @ih (m.step isValidIpv4 c) ?_ hrest
    show authStep m.auth c = false
    rw [hm]
    exact authStep_of_leavesSystem hc

theorem config_run (m : Intent) (cs : List Command) :
    (m.run isValidIpv4 cs).config = m.config.run isValidIpv4 cs := by
  induction cs generalizing m with
  | nil => rfl
  | cons c cs ih => exact ih (m.step isValidIpv4 c)

/-- **What is saved.** The printed lines are commands that ask for the printed
    configuration, with authentication off. -/
theorem run_printed (h : WellFormed isValidIpv4 db) (hp : (configOf db).Printable)
    {lines : List String} (hprint : vtyshConfigContextNtpClientcallback db = some lines) :
    ∃ cs, lines.mapM parseLine = some cs ∧
      Intent.empty.run isValidIpv4 cs = { config := configOf db, auth := false } := by
  obtain ⟨restored, hexec, _, hcfg⟩ := executeLines_printed h hp hprint 0 0 []
  obtain ⟨cs, hcs, hleaves, rfl⟩ := execAll_of_executeLines
    (fun line hline => printed_leavesSystem h hp hprint hline) hexec
  refine ⟨cs, hcs, ?_⟩
  have hempty := wellFormed_emptyTables isValidIpv4 0 0 []
  have hconfig : (Intent.empty.run isValidIpv4 cs).config = configOf db := by
    rw [config_run, ← hcfg, configOf_execAll hempty, configOf_emptyTables]
    rfl
  have hauth : (Intent.empty.run isValidIpv4 cs).auth = false := auth_run rfl hleaves
  rw [← hconfig, ← hauth]

end saved

/-! ## Section 2: The new system -/

section rebooted
variable {isValidIpv4 : Nat → Bool} {secret secret' : Nat → String}
variable {nextUuid vrf sys nextUuid' vrf' sys' : Uuid} {curCfg curCfg' : Int}
variable {s s' : LifeState} {tr tr' : List (LifeState × LifeLabel)} {db : Db}

/-- **A reboot brings everything back but the flag.** The lines that are printed in
    any state of any run are commands. When they have been entered on a new
    system, in whatever order the processes there take their steps, an idle
    daemon has its own ntpd serve what ntpd served before, with authentication
    off; with `ntp authentication enable` after them, it is on. -/
theorem reboot_serves (hsecret : ∀ k, ControlkeyAnswer (secret k))
    (hsecret' : ∀ k, ControlkeyAnswer (secret' k))
    (h : (lives isValidIpv4 secret (factoryDefault nextUuid vrf sys curCfg)).Trace tr s)
    (hre : s.switch.db.Reorders db) {lines : List String}
    (hprint : vtyshConfigContextNtpClientcallback db = some lines)
    (h' : (lives isValidIpv4 secret' (factoryDefault nextUuid' vrf' sys' curCfg')).Trace tr' s')
    (hown : s'.launchedIn = s'.life) (hidle : Idle s'.switch.daemon) :
    let m := Intent.empty.run isValidIpv4 (entered (sessions tr))
    ∃ cs, lines.mapM parseLine = some cs ∧
      (entered (sessions tr') = cs →
        Serves (secret' s'.life) { m with auth := false } s'.switch.daemon.ntpd) ∧
      (entered (sessions tr') = cs ++ [.ntpAuthenticationEnable] →
        Serves (secret' s'.life) { m with auth := true } s'.switch.daemon.ntpd) := by
  intro m
  have hlife := lifeInv_run hsecret h
  obtain ⟨n, hinv, _, _⟩ := hlife.asIf
  have hcfg : configOf db = m.config := by
    rw [configOf_reorders hinv.wellFormed hre]
    exact congrArg Intent.config hlife.intent
  have hprintable : (configOf db).Printable := by
    rw [configOf_reorders hinv.wellFormed hre]
    exact hinv.printable
  obtain ⟨cs, hcs, hrun⟩ := run_printed (hinv.wellFormed.reorders hre) hprintable hprint
  rw [hcfg] at hrun
  have hserves := serves_of_own hsecret' h' hown hidle
  refine ⟨cs, hcs, ?_, ?_⟩
  · intro hentered
    rw [hentered, hrun] at hserves
    exact hserves
  · intro hentered
    -- the last command changes nothing but the flag
    have hlast : Intent.empty.run isValidIpv4 (cs ++ [.ntpAuthenticationEnable]) =
        { m with auth := true } := by
      unfold Intent.run at hrun ⊢
      rw [List.foldl_append, hrun]
      rfl
    rw [hentered, hlast] at hserves
    exact hserves

end rebooted

/-- What is printed for the site. -/
def siteLines : List String :=
  ["ntp authentication-key 7 md5 password", "ntp trusted-key 7",
   "ntp server 10.0.0.2 version 4", "ntp server 10.0.0.1 key-id 7 prefer"]

/-- The commands that these lines are. -/
def savedCommands : List Command :=
  [.ntpAuthenticationKey "7" "password", .ntpTrustedKey "7",
   .ntpServer "10.0.0.2" false (some "4") none, .ntpServer "10.0.0.1" true none (some "7")]

/-- They have been entered on a new system, and its daemon idles. -/
theorem trace_restored {cs : List Command} (hcs : ∀ c ∈ cs, c.Tokens)
    (hup : checkSystemStatus (cs.foldl (fun db c => c.exec (fun _ => true) db) newDb) = true) :
    ∃ tr s, (lives (fun _ => true) twoSecrets newDb).Trace tr s ∧ entered (sessions tr) = cs ∧
      s.life = 0 ∧ s.launchedIn = s.life ∧ Idle s.switch.daemon := by
  obtain ⟨tr, s, hpassed, hentered, _, hphase, hflight, hseen, _⟩ := trace_new_pass hcs hup
  obtain ⟨tr', htrace, hsessions⟩ := trace_firstLife hpassed
  exact ⟨tr', _, htrace, by rw [hsessions, hentered], rfl, rfl, hflight, Or.inl hphase, hseen⟩

theorem reboot_serves_site :
    ∃ tr s, (lives (fun _ => true) twoSecrets newDb).Trace tr s ∧
      entered (sessions tr) = siteCommands ∧
      vtyshConfigContextNtpClientcallback s.switch.db = some siteLines ∧
      siteLines.mapM parseLine = some savedCommands ∧
      (∃ tr' s', (lives (fun _ => true) twoSecrets newDb).Trace tr' s' ∧
        entered (sessions tr') = savedCommands ∧
        Serves "0123456789abcdef"
          { Intent.empty.run (fun _ => true) siteCommands with auth := false }
          s'.switch.daemon.ntpd) ∧
      ∃ tr' s', (lives (fun _ => true) twoSecrets newDb).Trace tr' s' ∧
        entered (sessions tr') = savedCommands ++ [.ntpAuthenticationEnable] ∧
        Serves "0123456789abcdef"
          { Intent.empty.run (fun _ => true) siteCommands with auth := true }
          s'.switch.daemon.ntpd := by
  obtain ⟨tr₁, s₁, htrace₁, hentered₁, hdb, _⟩ := trace_site_pass
  obtain ⟨tr, htrace, hsessions⟩ := trace_firstLife htrace₁
  have hprint : vtyshConfigContextNtpClientcallback s₁.db = some siteLines := by
    rw [hdb]
    decide +kernel
  have hparse : siteLines.mapM parseLine = some savedCommands := by decide +kernel
  have htokens : ∀ c ∈ savedCommands, c.Tokens := by
    intro c hc
    obtain ⟨line, _, hline⟩ := Rows.exists_of_mem_mapM hparse hc
    exact parseLine_tokens hline
  have hentered : entered (sessions tr) = siteCommands := by rw [hsessions, hentered₁]
  obtain ⟨tr₂, s₂, htrace₂, hentered₂, hlife₂, hown₂, hidle₂⟩ :=
    trace_restored htokens (by decide +kernel)
  have htokens' : ∀ c ∈ savedCommands ++ [.ntpAuthenticationEnable], c.Tokens := by
    intro c hc
    rcases List.mem_append.mp hc with hold | hnew
    · exact htokens c hold
    · rw [List.mem_singleton.mp hnew]
      trivial
  obtain ⟨tr₃, s₃, htrace₃, hentered₃, hlife₃, hown₃, hidle₃⟩ :=
    trace_restored htokens' (by decide +kernel)
  obtain ⟨cs, hcs, hoff, _⟩ := reboot_serves controlkeyAnswer_twoSecrets
    controlkeyAnswer_twoSecrets htrace (Db.Reorders.refl _) hprint htrace₂ hown₂ hidle₂
  obtain ⟨cs', hcs', _, hon⟩ := reboot_serves controlkeyAnswer_twoSecrets
    controlkeyAnswer_twoSecrets htrace (Db.Reorders.refl _) hprint htrace₃ hown₃ hidle₃
  rw [hparse] at hcs hcs'
  obtain rfl := Option.some.inj hcs
  obtain rfl := Option.some.inj hcs'
  have hserves := hoff hentered₂
  have hserves' := hon hentered₃
  rw [hentered, hlife₂] at hserves
  rw [hentered, hlife₃] at hserves'
  exact ⟨tr, _, htrace, hentered, hprint, hparse, ⟨tr₂, s₂, htrace₂, hentered₂, hserves⟩,
    tr₃, s₃, htrace₃, hentered₃, hserves'⟩

end OpsNtpd
