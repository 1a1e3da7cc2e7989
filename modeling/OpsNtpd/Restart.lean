import OpsNtpd.Control

/-! # Restarts

  The daemon exits or its service is stopped, and it is started again. A start
  makes a new secret for the control key and begins with empty shadow maps and
  the whole database as its first update; the database, the users and their
  commands go on as if nothing had happened.

  What becomes of ntpd is not up to the daemon alone. When ntpd has ended with
  the daemon, the start launches another one, from files that have the new
  secret. When it has not, it is still the one that holds the port: it has
  read the secret of the daemon that launched it, and takes no other.

  - A start that launches ntpd makes up for everything: ntpd serves the
    commands of all the daemon's lives.
  - A start that finds ntpd alive has lost it for good.

  The sync manager ends with the daemon. After an orderly exit it has emptied
  the queue; when the service is stopped, what waits is lost.
-/

namespace OpsNtpd

open Cli Daemon Text Transition

variable (isValidIpv4 : Nat → Bool) (secret : Nat → String)

/-! ## Section 1: The system -/

structure LifeState where
  switch : SwitchState
  /-- How often the daemon has been started before. -/
  life : Nat
  /-- The life that launched the ntpd that answers. -/
  launchedIn : Nat

inductive LifeLabel where
  /-- A step of the switch. -/
  | run (a : SwitchLabel)
  /-- The daemon ends, with ntpd or without it, and is started again. -/
  | restart (ntpdEnded : Bool) (replica : Db)

/-- A pass whose tools sign with the daemon's secret: ntpd executes what they
    ask for if it accepts the secret. -/
def signedPass (secret : String) (d d' : MainState) : Prop :=
  (d.phase = .starting ∨ (d.phase = .branch ∧ d.seqno ≠ d.changeSeqno)) ∧
    ∃ shadow b ntpd, IsPass secret d.replica d.shadow shadow b ∧
      b.Synced (Accepts d.ntpd controlkey secret) (Accepts d.ntpd controlkey secret) d.ntpd ntpd ∧
      d' = { d with
        shadow := shadow
        ntpd := ntpd
        seqno := d.changeSeqno
        phase := .loopTop }

/-- The state after a restart. -/
def LifeState.restart (s : LifeState) (ntpdEnded : Bool) (replica : Db) : LifeState :=
  { switch :=
      { s.switch with
        queue := []
        replica := replica
        daemon :=
          { MainState.start (secret (s.life + 1)) with
            inFlight := [s.switch.db]
            ntpd :=
              if ntpdEnded then Ntpd.fresh (secret (s.life + 1)) else s.switch.daemon.ntpd } }
    life := s.life + 1
    launchedIn := if ntpdEnded then s.life + 1 else s.launchedIn }

/-- One step. -/
def lifeStep (s : LifeState) (a : LifeLabel) (s' : LifeState) : Prop :=
  match a with
  -- every other step of the switch is as it was, for the other steps do not talk to ntpd
  | .run .pass =>
      ∃ d, signedPass (secret s.life) s.switch.daemon d ∧
        s' = { s with switch := { s.switch with daemon := d } }
  | .run a =>
      ∃ t, switchStep isValidIpv4 (secret s.life) s.switch a t ∧ s' = { s with switch := t }
  | .restart ntpdEnded replica =>
      s.switch.db.Reorders replica ∧ s' = s.restart secret ntpdEnded replica

/-- The switch and its daemon's lives; `secret k` is what `os.urandom` gives in
    the life `k`. -/
def lives (db₀ : Db) : System LifeState LifeLabel :=
  { init := fun s =>
      (switch isValidIpv4 (secret 0) db₀).init s.switch ∧ s.life = 0 ∧ s.launchedIn = 0
    step := lifeStep isValidIpv4 secret }

/-- The steps of the switch, over all lives. -/
def sessions : List (LifeState × LifeLabel) → List (SwitchState × SwitchLabel)
  | [] => []
  | (s, .run a) :: tr => (s.switch, a) :: sessions tr
  | (_, .restart _ _) :: tr => sessions tr

/-- The steps that do not end ntpd. -/
def LifeLabel.Spares : LifeLabel → Prop
  | .run _ => True
  | .restart ntpdEnded _ => ntpdEnded = false

/-- The steps of one life that let the daemon catch up. -/
def LifeLabel.Quiet (s : LifeState) : LifeLabel → Prop
  | .run a => OpsNtpd.Quiet s.switch a
  | .restart _ _ => False

/-- The steps of the daemon. -/
def LifeLabel.turn : LifeLabel → Bool
  | .run a => a.turn
  | .restart _ _ => false

variable {isValidIpv4} {secret}

/-- **What a step of the switch does.** A signed pass, or what it did before. -/
theorem lifeStep_run {s s' : LifeState} {a : SwitchLabel}
    (h : lifeStep isValidIpv4 secret s (.run a) s') :
    (a = .pass ∧ ∃ d, signedPass (secret s.life) s.switch.daemon d ∧
      s' = { s with switch := { s.switch with daemon := d } }) ∨
    (a ≠ .pass ∧ ∃ t, switchStep isValidIpv4 (secret s.life) s.switch a t ∧
      s' = { s with switch := t }) := by
  cases a with
  | pass => exact Or.inl ⟨rfl, h⟩
  | _ => exact Or.inr ⟨fun heq => (by cases heq), h⟩

/-! ## Section 2: The daemon does not see its ntpd -/

/-- The same switch with another ntpd. -/
def SwitchState.withNtpd (s : SwitchState) (n : Ntpd) : SwitchState :=
  { s with daemon := { s.daemon with ntpd := n } }

section unseen
variable {key : String} {d d' : MainState} {s s' : SwitchState} {a : SwitchLabel}

theorem Daemon.Accepts.unique {n : Ntpd} {k : Int} {x y : String} (hx : Accepts n k x)
    (hy : Accepts n k y) : x = y := by
  have hentry : [md5Entry k x] = [md5Entry k y] := hx.entry.symm.trans hy.entry
  exact congrArg KeyEntry.secret (List.cons.inj hentry).1

/-- Between its passes the daemon neither uses nor changes ntpd. -/
theorem mainStep_withNtpd {a : MainLabel} (hpass : a ≠ .pass)
    (hstep : mainStep key Admissible d a d') :
    d'.ntpd = d.ntpd ∧
      ∀ n, mainStep key Admissible { d with ntpd := n } a { d' with ntpd := n } := by
  cases a with
  | commit db =>
    obtain ⟨hadm, rfl⟩ := hstep
    exact ⟨rfl, fun n => ⟨hadm, rfl⟩⟩
  | idlRun updates =>
    obtain ⟨hle, hstep⟩ := hstep
    obtain ⟨inFlight, replica, changeSeqno, seqno, phase, shadow, ntpd⟩ := d
    cases phase with
    | provision =>
      dsimp only at hstep
      split at hstep
      · next hsame =>
        rw [hstep]
        exact ⟨rfl, fun n => ⟨hle, (if_pos hsame).mpr rfl⟩⟩
      · next hnew =>
        rw [hstep]
        exact ⟨rfl, fun n => ⟨hle, (if_neg hnew).mpr rfl⟩⟩
    | loopTop =>
      dsimp only at hstep
      rw [hstep]
      exact ⟨rfl, fun n => ⟨hle, rfl⟩⟩
    | starting => exact hstep.elim
    | branch => exact hstep.elim
  | pass => exact absurd rfl hpass
  | poll =>
    obtain ⟨hphase, hseen, rfl⟩ := hstep
    exact ⟨rfl, fun n => ⟨hphase, hseen, rfl⟩⟩

theorem commit_withNtpd (s : SwitchState) (before after : Db) (n : Ntpd) :
    (s.commit before after).withNtpd n = (s.withNtpd n).commit before after := by
  unfold SwitchState.commit
  split <;> rfl

theorem ntpd_commit (s : SwitchState) (before after : Db) :
    (s.commit before after).daemon.ntpd = s.daemon.ntpd := by
  unfold SwitchState.commit
  split <;> rfl

/-- Nor does any other step of the switch. -/
theorem switchStep_withNtpd (hpass : a ≠ .pass) (hstep : switchStep isValidIpv4 key s a s') :
    s'.daemon.ntpd = s.daemon.ntpd ∧
      ∀ n, switchStep isValidIpv4 key (s.withNtpd n) a (s'.withNtpd n) := by
  cases a with
  | enter c =>
    obtain ⟨hc, db, hre, rfl⟩ := hstep
    exact ⟨ntpd_commit .., fun n => ⟨hc, db, hre, commit_withNtpd ..⟩⟩
  | configured curCfg =>
    obtain rfl : s' = _ := hstep
    exact ⟨ntpd_commit .., fun n => commit_withNtpd ..⟩
  | idlRun updates =>
    obtain ⟨d, hd, rfl⟩ := hstep
    obtain ⟨hsame, hany⟩ := mainStep_withNtpd (fun heq => by cases heq) hd
    exact ⟨hsame, fun n => ⟨_, hany n, rfl⟩⟩
  | pass => exact absurd rfl hpass
  | poll out =>
    obtain ⟨d, hd, hsent⟩ := hstep
    obtain ⟨hsame, hany⟩ := mainStep_withNtpd (fun heq => by cases heq) hd
    rcases hsent with ⟨msg, hmsg, rfl⟩ | ⟨hnone, rfl⟩
    · exact ⟨hsame, fun n => ⟨_, hany n, Or.inl ⟨msg, hmsg, rfl⟩⟩⟩
    · exact ⟨hsame, fun n => ⟨_, hany n, Or.inr ⟨hnone, rfl⟩⟩⟩
  | receive ks =>
    obtain ⟨msg, queue, db, hqueue, hks, hcommit, rfl⟩ := hstep
    exact ⟨rfl, fun n => ⟨msg, queue, db, hqueue, hks, hcommit, rfl⟩⟩
  | refresh replica =>
    obtain ⟨hreplica, rfl⟩ := hstep
    exact ⟨rfl, fun n => ⟨hreplica, rfl⟩⟩

/-- A pass goes on in the same way whatever ntpd is there to execute it. -/
theorem signedPass_withNtpd (hstep : signedPass key d d') (n : Ntpd) :
    ∃ n', mainStep key Admissible { d with ntpd := n } .pass { d' with ntpd := n' } := by
  obtain ⟨hphase, shadow, b, ntpd, hpass, _, rfl⟩ := hstep
  obtain ⟨n', hrun⟩ := Ntpd.exists_run (n.readkeys b.keysFileContent) b.configs
  exact ⟨n', hphase, shadow, b, n', hpass, hrun, rfl⟩

/-- An ntpd that accepts the secret executes the pass. -/
theorem mainStep_of_signedPass (h : Accepts d.ntpd controlkey key) (hstep : signedPass key d d') :
    mainStep key Admissible d .pass d' := by
  obtain ⟨hphase, shadow, b, ntpd, hpass, hsync, rfl⟩ := hstep
  rw [decide_eq_true h] at hsync
  exact ⟨hphase, shadow, b, ntpd, hpass, hsync, rfl⟩

/-- An ntpd that does not is left as it is. -/
theorem ntpd_of_signedPass (h : ¬ Accepts d.ntpd controlkey key) (hstep : signedPass key d d') :
    d'.ntpd = d.ntpd := by
  obtain ⟨_, shadow, b, ntpd, _, hsync, rfl⟩ := hstep
  rw [decide_eq_false h] at hsync
  exact hsync

end unseen

/-! ## Section 3: The invariant -/

/-- What holds after a run: but for its ntpd the switch is as if every start had
    launched one, and ntpd accepts the secret of the life that launched it. -/
structure LifeInv (isValidIpv4 : Nat → Bool) (secret : Nat → String) (sys : Uuid)
    (tr : List (SwitchState × SwitchLabel)) (s : LifeState) : Prop where
  launched : s.launchedIn ≤ s.life
  accepts : Accepts s.switch.daemon.ntpd controlkey (secret s.launchedIn)
  intent : intentOf s.switch.db = Intent.empty.run isValidIpv4 (entered tr)
  asIf : ∃ n,
    SwitchInv isValidIpv4 (secret s.life) sys (Reported tr) (s.switch.withNtpd n) ∧
    DaemonCli isValidIpv4 (secret s.life) (NamedBy (entered tr)) (s.switch.withNtpd n).daemon ∧
    (s.launchedIn = s.life → n = s.switch.daemon.ntpd)

section invariant
variable {nextUuid vrf sys : Uuid} {curCfg : Int} {s s' : LifeState}
variable {tr : List (SwitchState × SwitchLabel)}

/-- In a life that has launched its own ntpd, the switch is as it was before
    there were restarts. -/
theorem LifeInv.own (h : LifeInv isValidIpv4 secret sys tr s) (hown : s.launchedIn = s.life) :
    SwitchInv isValidIpv4 (secret s.life) sys (Reported tr) s.switch ∧
      DaemonCli isValidIpv4 (secret s.life) (NamedBy (entered tr)) s.switch.daemon := by
  obtain ⟨n, hinv, hcli, hsame⟩ := h.asIf
  rw [hsame hown] at hinv hcli
  exact ⟨hinv, hcli⟩

theorem lifeInv_init (hsecret : ∀ k, ControlkeyAnswer (secret k))
    (h : (lives isValidIpv4 secret (factoryDefault nextUuid vrf sys curCfg)).init s) :
    LifeInv isValidIpv4 secret sys [] s := by
  obtain ⟨hinit, hlife, hlaunched⟩ := h
  obtain ⟨hinv, hintent⟩ := switchInv_run (.init hinit)
  have hcli := daemonCli_run (hsecret 0) (.init hinit)
  have hntpd := hcli.accepts
  refine { launched := ?_, accepts := ?_, intent := hintent
           asIf := ⟨s.switch.daemon.ntpd, ?_, ?_, fun _ => rfl⟩ }
  · rw [hlaunched]
    exact Nat.zero_le _
  · rw [hlaunched]
    exact hntpd
  · rw [hlife]
    exact hinv
  · rw [hlife]
    exact hcli

/-- **Step.** A step of the switch, seen with the ntpd it would have. -/
theorem asIf_step {key : String} (hsecret : ControlkeyAnswer key) {t t' : SwitchState}
    {a : SwitchLabel} (hinv : SwitchInv isValidIpv4 key sys (Reported tr) t)
    (hcli : DaemonCli isValidIpv4 key (NamedBy (entered tr)) t.daemon)
    (hintent : intentOf t.db = Intent.empty.run isValidIpv4 (entered tr))
    (hstep : switchStep isValidIpv4 key t a t') (u : SwitchState) :
    SwitchInv isValidIpv4 key sys (Reported ((u, a) :: tr)) t' ∧
      DaemonCli isValidIpv4 key (NamedBy (entered ((u, a) :: tr))) t'.daemon ∧
      intentOf t'.db = Intent.empty.run isValidIpv4 (entered ((u, a) :: tr)) := by
  have hinv' := switchInv_step hinv hstep
  have hintent' := intentOf_step hinv hintent hstep
  -- neither the commands nor the reports of a run depend on the states in its trace
  have hentered : entered ((u, a) :: tr) = entered ((t, a) :: tr) := by cases a <;> rfl
  have hreported : ∀ msg, Reported ((t, a) :: tr) msg → Reported ((u, a) :: tr) msg := by
    intro msg hmsg
    obtain ⟨p, hp, out, hpoll, hread⟩ := hmsg
    rcases List.mem_cons.mp hp with rfl | hold
    · exact ⟨(u, a), List.mem_cons_self, out, hpoll, hread⟩
    · exact ⟨p, List.mem_cons_of_mem _ hold, out, hpoll, hread⟩
  rw [hentered]
  refine ⟨hinv'.mono hreported, ?_, hintent'⟩
  exact daemonCli_switchStep hsecret (hcli.mono fun x hx => hx.step) (hinv'.cliRows hintent') hstep

/-- The switch as the next life finds it. -/
theorem switchInv_restart {key : String} {reported : StatusMsg → Prop} {t : SwitchState}
    (h : SwitchInv isValidIpv4 key sys reported t) (key' : String) {replica : Db}
    (hreplica : t.db.Reorders replica) :
    SwitchInv isValidIpv4 key' sys reported
      { t with
        queue := [], replica := replica
        daemon := { MainState.start key' with inFlight := [t.db] } } := by
  have hadm : Admissible t.db := by
    refine admissible_of_wellFormed h.wellFormed ?_
    obtain ⟨row, hrow⟩ := h.oneSystem
    rw [hrow]
    exact Nat.le_refl 1
  have hcommit : mainStep key' Admissible (MainState.start key') (.commit t.db)
      { MainState.start key' with inFlight := [t.db] } := ⟨hadm, rfl⟩
  exact {
    wellFormed := h.wellFormed, printable := h.printable, servers := h.servers
    globals := h.globals
    history := { h.history with replica := ⟨t.db, h.history.current, hreplica⟩ }
    main := mainInv_step mainInv_start hcommit
    last := Reflects.refl h.wellFormed
    notYetUp := fun _ => ⟨rfl, rfl⟩
    messages := fun _ hmsg => by cases hmsg }

/-- **Step.** A pass. If ntpd accepts the secret, it is the one ntpd was launched
    with; if not, ntpd stays as it is. -/
theorem lifeInv_pass (hsecret : ∀ k, ControlkeyAnswer (secret k))
    (h : LifeInv isValidIpv4 secret sys tr s) {d : MainState}
    (hpass : signedPass (secret s.life) s.switch.daemon d) :
    LifeInv isValidIpv4 secret sys ((s.switch, .pass) :: tr)
      { s with switch := { s.switch with daemon := d } } := by
  obtain ⟨n, hinv, hcli, hsame⟩ := h.asIf
  have haccepts : Accepts d.ntpd controlkey (secret s.launchedIn) := by
    by_cases htaken : Accepts s.switch.daemon.ntpd controlkey (secret s.life)
    · have hsecrets : secret s.life = secret s.launchedIn := htaken.unique h.accepts
      obtain ⟨_, shadow, b, ntpd, hread, hrun, rfl⟩ := mainStep_of_signedPass htaken hpass
      rw [← hsecrets]
      exact accepts_in_pass (hsecret _) htaken hcli.replica hcli.shadow hread
        (List.prefix_refl _) hrun
    · rw [ntpd_of_signedPass htaken hpass]
      exact h.accepts
  obtain ⟨n', hd, hsame'⟩ : ∃ n', mainStep (secret s.life) Admissible (s.switch.withNtpd n).daemon
      .pass { d with ntpd := n' } ∧ (s.launchedIn = s.life → n' = d.ntpd) := by
    by_cases hown : s.launchedIn = s.life
    · -- the ntpd of this life is the one that executes the pass
      have htaken : Accepts s.switch.daemon.ntpd controlkey (secret s.life) := by
        rw [← hown]
        exact h.accepts
      refine ⟨d.ntpd, ?_, fun _ => rfl⟩
      rw [hsame hown]
      exact mainStep_of_signedPass htaken hpass
    · obtain ⟨n', hd⟩ := signedPass_withNtpd hpass n
      exact ⟨n', hd, fun heq => absurd heq hown⟩
  have hstep : switchStep isValidIpv4 (secret s.life) (s.switch.withNtpd n) .pass
      (SwitchState.withNtpd { s.switch with daemon := d } n') := ⟨_, hd, rfl⟩
  obtain ⟨hinv', hcli', hintent'⟩ :=
    asIf_step (hsecret s.life) hinv hcli h.intent hstep s.switch
  exact { launched := h.launched, accepts := haccepts, intent := hintent'
          asIf := ⟨n', hinv', hcli', hsame'⟩ }

/-- **Step.** Another step of the switch. -/
theorem lifeInv_switchStep (hsecret : ∀ k, ControlkeyAnswer (secret k))
    (h : LifeInv isValidIpv4 secret sys tr s) {a : SwitchLabel} {t : SwitchState}
    (hpass : a ≠ .pass) (hstep : switchStep isValidIpv4 (secret s.life) s.switch a t) :
    LifeInv isValidIpv4 secret sys ((s.switch, a) :: tr) { s with switch := t } := by
  obtain ⟨n, hinv, hcli, hsame⟩ := h.asIf
  obtain ⟨hntpd, hany⟩ := switchStep_withNtpd hpass hstep
  obtain ⟨hinv', hcli', hintent'⟩ :=
    asIf_step (hsecret s.life) hinv hcli h.intent (hany n) s.switch
  refine { launched := h.launched, accepts := ?_, intent := hintent'
           asIf := ⟨n, hinv', hcli', ?_⟩ }
  · show Accepts t.daemon.ntpd _ _
    rw [hntpd]
    exact h.accepts
  · intro hown
    show n = t.daemon.ntpd
    rw [hntpd]
    exact hsame hown

/-- **Step.** A restart. -/
theorem lifeInv_restart (hsecret : ∀ k, ControlkeyAnswer (secret k))
    (h : LifeInv isValidIpv4 secret sys tr s) (ntpdEnded : Bool) {replica : Db}
    (hreplica : s.switch.db.Reorders replica) :
    LifeInv isValidIpv4 secret sys tr (s.restart secret ntpdEnded replica) := by
  obtain ⟨n, hinv, _, _⟩ := h.asIf
  have hnext := switchInv_restart hinv (secret (s.life + 1)) hreplica
  have hstart := daemonCli_start (hsecret (s.life + 1)) (hinv.cliRows h.intent)
  cases ntpdEnded with
  | true =>
    exact { launched := Nat.le_refl _, accepts := accepts_fresh (hsecret _), intent := h.intent
            asIf := ⟨Ntpd.fresh (secret (s.life + 1)), hnext, hstart, fun _ => rfl⟩ }
  | false =>
    refine { launched := Nat.le_succ_of_le h.launched, accepts := h.accepts, intent := h.intent
             asIf := ⟨Ntpd.fresh (secret (s.life + 1)), hnext, hstart, ?_⟩ }
    intro hown
    have hle := h.launched
    -- the next life has launched nothing, so nothing has to be shown of its ntpd
    have hown' : s.launchedIn = s.life + 1 := hown
    omega

/-- **Step.** Every step keeps the invariant. -/
theorem lifeInv_step (hsecret : ∀ k, ControlkeyAnswer (secret k)) {a : LifeLabel}
    {tr : List (LifeState × LifeLabel)} (h : LifeInv isValidIpv4 secret sys (sessions tr) s)
    (hstep : lifeStep isValidIpv4 secret s a s') :
    LifeInv isValidIpv4 secret sys (sessions ((s, a) :: tr)) s' := by
  cases a with
  | run a =>
    rcases lifeStep_run hstep with ⟨rfl, d, hd, rfl⟩ | ⟨hpass, t, ht, rfl⟩
    · exact lifeInv_pass hsecret h hd
    · exact lifeInv_switchStep hsecret h hpass ht
  | restart ntpdEnded replica =>
    obtain ⟨hreplica, rfl⟩ := hstep
    exact lifeInv_restart hsecret h ntpdEnded hreplica

/-- **Run.** -/
theorem lifeInv_run (hsecret : ∀ k, ControlkeyAnswer (secret k))
    {tr : List (LifeState × LifeLabel)}
    (h : (lives isValidIpv4 secret (factoryDefault nextUuid vrf sys curCfg)).Trace tr s) :
    LifeInv isValidIpv4 secret sys (sessions tr) s := by
  induction h with
  | init hi => exact lifeInv_init hsecret hi
  | step a _ hstep ih => exact lifeInv_step hsecret ih hstep

end invariant

/-! ## Section 4: A start that launches ntpd -/

section served
variable {nextUuid vrf sys : Uuid} {curCfg : Int} {s s' : LifeState} {m : Intent}
variable {tr later : List (LifeState × LifeLabel)} {db₀ : Db}

/-- A quiet path stays in its life, and nothing is entered on it. -/
theorem quiet_path (tr : List (LifeState × LifeLabel))
    (hpath : (lives isValidIpv4 secret db₀).Path s later s')
    (hquiet : ∀ p ∈ later, p.2.Quiet p.1) :
    s'.life = s.life ∧ s'.launchedIn = s.launchedIn ∧
      entered (sessions (later ++ tr)) = entered (sessions tr) := by
  induction hpath with
  | refl => exact ⟨rfl, rfl, rfl⟩
  | @step later s₁ s₂ a _ hstep ih =>
    obtain ⟨ha, hrest⟩ := List.forall_mem_cons.mp hquiet
    obtain ⟨hlife, hlaunched, hentered⟩ := ih hrest
    cases a with
    | restart ntpdEnded replica => exact ha.elim
    | run a =>
      have hsame : s₂.life = s₁.life ∧ s₂.launchedIn = s₁.launchedIn := by
        rcases lifeStep_run hstep with ⟨_, d, _, rfl⟩ | ⟨_, t, _, rfl⟩
        · exact ⟨rfl, rfl⟩
        · exact ⟨rfl, rfl⟩
      refine ⟨hsame.1.trans hlife, hsame.2.trans hlaunched, ?_⟩
      cases a with
      | enter c => exact ha.elim
      | _ => exact hentered

/-- **Step.** Whatever ntpd is there, the daemon comes nearer to idling. -/
theorem lifeSettling_step {a : LifeLabel}
    (h : ∃ n, Settling isValidIpv4 (secret s.life) sys m (s.switch.withNtpd n))
    (hquiet : a.Quiet s) (hstep : lifeStep isValidIpv4 secret s a s') :
    (∃ n, Settling isValidIpv4 (secret s'.life) sys m (s'.switch.withNtpd n)) ∧
      s'.switch.daemon.pending ≤ s.switch.daemon.pending - if a.turn then 1 else 0 := by
  obtain ⟨n, hset⟩ := h
  cases a with
  | restart ntpdEnded replica => exact hquiet.elim
  | run a =>
    have hquiet' : Quiet (s.switch.withNtpd n) a := by
      cases a <;> exact hquiet
    rcases lifeStep_run hstep with ⟨rfl, d, hd, rfl⟩ | ⟨hpass, t, ht, rfl⟩
    · obtain ⟨n', hd'⟩ := signedPass_withNtpd hd n
      -- refused or not, the pass has the same phase and sequence number after it
      have hstep' : switchStep isValidIpv4 (secret s.life) (s.switch.withNtpd n) .pass
          (SwitchState.withNtpd { s.switch with daemon := d } n') := ⟨_, hd', rfl⟩
      obtain ⟨hset', hle⟩ := settling_step hset hquiet' hstep'
      exact ⟨⟨n', hset'⟩, hle⟩
    · obtain ⟨hset', hle⟩ := settling_step hset hquiet' ((switchStep_withNtpd hpass ht).2 n)
      exact ⟨⟨n, hset'⟩, hle⟩

/-- Three steps of the daemon are enough for it to idle. -/
theorem LifeInv.idle_of_quiet {trace : List (SwitchState × SwitchLabel)}
    (h : LifeInv isValidIpv4 secret sys trace s) (hup : checkSystemStatus s.switch.db = true)
    (hpath : (lives isValidIpv4 secret db₀).Path s later s')
    (hquiet : ∀ p ∈ later, p.2.Quiet p.1) (hturns : 3 ≤ later.countP fun p => p.2.turn) :
    Idle s'.switch.daemon := by
  obtain ⟨n, hinv, _, _⟩ := h.asIf
  have hstart : ∃ n, Settling isValidIpv4 (secret s.life) sys (intentOf s.switch.db)
      (s.switch.withNtpd n) := ⟨n, hinv.mono fun _ _ => trivial, hup, rfl⟩
  have hnext : ∀ s₁ a s₂, (∃ n, Settling isValidIpv4 (secret s₁.life) sys (intentOf s.switch.db)
      (s₁.switch.withNtpd n)) → LifeLabel.Quiet s₁ a → lifeStep isValidIpv4 secret s₁ a s₂ → _ :=
    fun _ _ _ hset hq hstep => lifeSettling_step hset hq hstep
  obtain ⟨⟨n', hend⟩, hle⟩ := hpath.measure_le hnext hstart hquiet
  have hthree := s.switch.daemon.pending_le
  have hzero : (s'.switch.withNtpd n').daemon.pending = 0 := by
    show s'.switch.daemon.pending = 0
    omega
  have hidle := idle_of_pending hend.inv.main hzero
  exact ⟨hidle.inFlight, hidle.loop, hidle.seen⟩

/-- An idle daemon has its own ntpd serve what has been entered. -/
theorem serves_of_own (hsecret : ∀ k, ControlkeyAnswer (secret k))
    (h : (lives isValidIpv4 secret (factoryDefault nextUuid vrf sys curCfg)).Trace tr s)
    (hown : s.launchedIn = s.life) (hidle : Idle s.switch.daemon) :
    Serves (secret s.life) (Intent.empty.run isValidIpv4 (entered (sessions tr)))
      s.switch.daemon.ntpd := by
  have hlife := lifeInv_run hsecret h
  rw [← hlife.intent]
  exact serves_of_idle (hsecret s.life) (hlife.own hown).1 hidle

/-- **A restart loses nothing.** In a life that has launched its own ntpd, however
    many lives there have been: an idle daemon has ntpd serve what has been
    entered in all of them, and when the system is up and the configuration is
    left alone the daemon idles after three of its steps at most. -/
theorem restart_serves (hsecret : ∀ k, ControlkeyAnswer (secret k))
    (h : (lives isValidIpv4 secret (factoryDefault nextUuid vrf sys curCfg)).Trace tr s)
    (hown : s.launchedIn = s.life) :
    (Idle s.switch.daemon →
      Serves (secret s.life) (Intent.empty.run isValidIpv4 (entered (sessions tr)))
        s.switch.daemon.ntpd) ∧
    (checkSystemStatus s.switch.db = true → ∀ later s',
      (lives isValidIpv4 secret (factoryDefault nextUuid vrf sys curCfg)).Path s later s' →
      (∀ p ∈ later, p.2.Quiet p.1) → 3 ≤ (later.countP fun p => p.2.turn) →
      Idle s'.switch.daemon ∧
        Serves (secret s.life) (Intent.empty.run isValidIpv4 (entered (sessions tr)))
          s'.switch.daemon.ntpd) := by
  refine ⟨serves_of_own hsecret h hown, ?_⟩
  intro hup later s' hpath hquiet hturns
  have hidle := (lifeInv_run hsecret h).idle_of_quiet hup hpath hquiet hturns
  obtain ⟨hlife, hlaunched, hentered⟩ := quiet_path tr hpath hquiet
  have hserves := serves_of_own hsecret (hpath.trace h)
    (hlaunched.trans (hown.trans hlife.symm)) hidle
  rw [hlife, hentered] at hserves
  exact ⟨hidle, hserves⟩

end served

/-! ## Section 5: A start that finds ntpd alive -/

section frozen
variable {nextUuid vrf sys : Uuid} {curCfg : Int} {s s' : LifeState} {n : Ntpd} {k : Nat}
variable {later : List (LifeState × LifeLabel)} {db₀ : Db}

/-- This ntpd answers, and an earlier life has launched it. -/
structure Survives (n : Ntpd) (k : Nat) (s : LifeState) : Prop where
  ntpd : s.switch.daemon.ntpd = n
  launchedIn : s.launchedIn = k
  earlier : k < s.life

/-- **Step.** A survivor that accepts no secret but its own stays as it is. -/
theorem survives_step (haccepts : Accepts n controlkey (secret k))
    (hdiffer : ∀ j, k < j → secret j ≠ secret k) (h : Survives n k s) {a : LifeLabel}
    (hspares : a.Spares) (hstep : lifeStep isValidIpv4 secret s a s') : Survives n k s' := by
  cases a with
  | run a =>
    rcases lifeStep_run hstep with ⟨rfl, d, hd, rfl⟩ | ⟨hpass, t, ht, rfl⟩
    · have hrefuses : ¬ Accepts s.switch.daemon.ntpd controlkey (secret s.life) := by
        rw [h.ntpd]
        intro htaken
        -- it accepts one secret only, and this later life has another
        exact hdiffer s.life h.earlier (htaken.unique haccepts)
      exact { h with ntpd := (ntpd_of_signedPass hrefuses hd).trans h.ntpd }
    · exact { h with ntpd := (switchStep_withNtpd hpass ht).1.trans h.ntpd }
  | restart ntpdEnded replica =>
    obtain ⟨_, rfl⟩ := hstep
    have hfalse : ntpdEnded = false := hspares
    subst hfalse
    exact { ntpd := h.ntpd, launchedIn := h.launchedIn
            earlier := Nat.lt_succ_of_lt h.earlier }

/-- **Run.** -/
theorem survives_path (haccepts : Accepts n controlkey (secret k))
    (hdiffer : ∀ j, k < j → secret j ≠ secret k) (h : Survives n k s)
    (hpath : (lives isValidIpv4 secret db₀).Path s later s') (hspares : ∀ p ∈ later, p.2.Spares) :
    Survives n k s' := by
  induction hpath with
  | refl => exact h
  | step a _ hstep ih =>
    obtain ⟨ha, hrest⟩ := List.forall_mem_cons.mp hspares
    exact survives_step haccepts hdiffer (ih hrest) ha hstep

/-- **A survivor is lost.** When the daemon is restarted but its ntpd is not,
    nothing that is entered later reaches ntpd, over any number of further
    restarts, until ntpd has been ended: it serves what was asked for before,
    and takes the daemon's login no more. The daemon idles all the same. -/
theorem survivor_frozen (hsecret : ∀ k, ControlkeyAnswer (secret k))
    {tr : List (LifeState × LifeLabel)}
    (h : (lives isValidIpv4 secret (factoryDefault nextUuid vrf sys curCfg)).Trace tr s)
    (hown : s.launchedIn = s.life) (hidle : Idle s.switch.daemon)
    (hdiffer : ∀ j, s.life < j → secret j ≠ secret s.life) {replica : Db} {s₁ : LifeState}
    (hstep : lifeStep isValidIpv4 secret s (.restart false replica) s₁)
    (hpath : (lives isValidIpv4 secret (factoryDefault nextUuid vrf sys curCfg)).Path s₁ later s')
    (hspares : ∀ p ∈ later, p.2.Spares) :
    Serves (secret s.life) (Intent.empty.run isValidIpv4 (entered (sessions tr)))
      s'.switch.daemon.ntpd ∧
    ¬ Accepts s'.switch.daemon.ntpd controlkey (secret s'.life) ∧
    (checkSystemStatus s'.switch.db = true → ∀ quiet s'',
      (lives isValidIpv4 secret (factoryDefault nextUuid vrf sys curCfg)).Path s' quiet s'' →
      (∀ p ∈ quiet, p.2.Quiet p.1) → 3 ≤ (quiet.countP fun p => p.2.turn) →
      Idle s''.switch.daemon ∧ s''.switch.daemon.ntpd = s'.switch.daemon.ntpd) := by
  have hserves := serves_of_own hsecret h hown hidle
  have haccepts : Accepts s.switch.daemon.ntpd controlkey (secret s.life) := by
    rw [← hown]
    exact (lifeInv_run hsecret h).accepts
  have hstart : Survives s.switch.daemon.ntpd s.life s₁ := by
    obtain ⟨_, rfl⟩ := hstep
    exact { ntpd := rfl, launchedIn := hown, earlier := Nat.lt_succ_self _ }
  have hend := survives_path haccepts hdiffer hstart hpath hspares
  have hlife := lifeInv_run hsecret (hpath.trace (h.step (LifeLabel.restart false replica) hstep))
  refine ⟨?_, ?_, ?_⟩
  · rw [hend.ntpd]
    exact hserves
  · rw [hend.ntpd]
    intro htaken
    exact hdiffer s'.life hend.earlier (htaken.unique haccepts)
  · intro hup quiet s'' hpath' hquiet hturns
    refine ⟨hlife.idle_of_quiet hup hpath' hquiet hturns, ?_⟩
    have hspares' : ∀ p ∈ quiet, p.2.Spares := by
      intro p hp
      have hq := hquiet p hp
      cases hlabel : p.2 with
      | run a => trivial
      | restart ntpdEnded replica =>
        rw [hlabel] at hq
        exact hq.elim
    rw [hend.ntpd]
    exact (survives_path haccepts hdiffer hend hpath' hspares').ntpd

end frozen

/-! ## Section 6: Examples -/

/-- Two secrets: that of the first life, and that of the later ones. -/
def twoSecrets : Nat → String
  | 0 => "0123456789abcdef"
  | _ + 1 => "fedcba9876543210"

theorem controlkeyAnswer_twoSecrets (k : Nat) : ControlkeyAnswer (twoSecrets k) := by
  have hboth : ControlkeyAnswer "0123456789abcdef" ∧ ControlkeyAnswer "fedcba9876543210" := by
    decide
  cases k with
  | zero => exact hboth.1
  | succ k => exact hboth.2

/-- A run without restarts. -/
theorem trace_firstLife {tr : List (SwitchState × SwitchLabel)} {s : SwitchState}
    (h : (switch (fun _ => true) "0123456789abcdef" newDb).Trace tr s) :
    ∃ tr', (lives (fun _ => true) twoSecrets newDb).Trace tr'
      { switch := s, life := 0, launchedIn := 0 } ∧ sessions tr' = tr := by
  induction h with
  | init hi => exact ⟨[], .init ⟨hi, rfl, rfl⟩, rfl⟩
  | @step tr s s' a htrace hstep ih =>
    obtain ⟨tr', htrace', hsessions⟩ := ih
    have hlife : lifeStep (fun _ => true) twoSecrets { switch := s, life := 0, launchedIn := 0 }
        (.run a) { switch := s', life := 0, launchedIn := 0 } := by
      cases a with
      | pass =>
        -- in the first life ntpd accepts the secret
        have haccepts := (daemonCli_run (by decide) htrace).accepts
        obtain ⟨d, ⟨hphase, shadow, b, ntpd, hpass, hsync, rfl⟩, rfl⟩ := hstep
        refine ⟨_, ⟨hphase, shadow, b, ntpd, hpass, ?_, rfl⟩, rfl⟩
        rw [decide_eq_true (show Accepts _ _ (twoSecrets 0) from haccepts)]
        exact hsync
      | _ => exact ⟨s', hstep, rfl⟩
    refine ⟨_, htrace'.step (LifeLabel.run a) hlife, ?_⟩
    show (s, a) :: sessions tr' = (s, a) :: tr
    rw [hsessions]

/-- The daemon is restarted with its ntpd, after one server has been entered. -/
theorem restart_serves_one_server :
    ∃ tr s, (lives (fun _ => true) twoSecrets newDb).Trace tr s ∧ s.life = 1 ∧
      ∀ later s', (lives (fun _ => true) twoSecrets newDb).Path s later s' →
        (∀ p ∈ later, p.2.Quiet p.1) → 3 ≤ (later.countP fun p => p.2.turn) →
        Idle s'.switch.daemon ∧
          Serves "fedcba9876543210" (Intent.empty.run (fun _ => true) [oneServerCommand])
            s'.switch.daemon.ntpd := by
  obtain ⟨tr, htrace, hsessions⟩ := trace_firstLife trace_oneServer
  have hrestart : lifeStep (fun _ => true) twoSecrets
      { switch := oneServerSwitch, life := 0, launchedIn := 0 }
      (.restart true oneServerSwitch.db) _ := ⟨Db.Reorders.refl _, rfl⟩
  obtain ⟨_, hserves⟩ := restart_serves controlkeyAnswer_twoSecrets
    (htrace.step (LifeLabel.restart true oneServerSwitch.db) hrestart) rfl
  refine ⟨_, _, htrace.step (LifeLabel.restart true oneServerSwitch.db) hrestart, rfl, ?_⟩
  have hentered : entered (sessions
      ((⟨oneServerSwitch, 0, 0⟩, .restart true oneServerSwitch.db) :: tr)) =
      [oneServerCommand] := by
    show entered (sessions tr) = _
    rw [hsessions]
    rfl
  rw [hentered] at hserves
  exact hserves (by decide)

/-- The daemon is restarted without its ntpd, which has the one server, and the
    server is taken back: ntpd keeps it. -/
theorem survivor_frozen_one_server :
    ∃ tr s, (lives (fun _ => true) twoSecrets newDb).Trace tr s ∧
      entered (sessions tr) = [oneServerCommand, .noNtpServer "10.0.0.1"] ∧
      Serves "0123456789abcdef" (Intent.empty.run (fun _ => true) [oneServerCommand])
        s.switch.daemon.ntpd ∧
      ¬ Accepts s.switch.daemon.ntpd controlkey "fedcba9876543210" := by
  obtain ⟨tr, s, hpassed, hentered, hphase, hflight, hseen, _⟩ := trace_oneServer_pass
  obtain ⟨tr', htrace, hsessions⟩ := trace_firstLife hpassed
  let s₁ : LifeState :=
    LifeState.restart twoSecrets { switch := s, life := 0, launchedIn := 0 } false s.db
  have hrestart : lifeStep (fun _ => true) twoSecrets
      { switch := s, life := 0, launchedIn := 0 } (.restart false s.db) s₁ :=
    ⟨Db.Reorders.refl _, rfl⟩
  have htrace₁ := htrace.step (LifeLabel.restart false s.db) hrestart
  have htaken : IsWord "10.0.0.1" := by decide
  have henter : (lives (fun _ => true) twoSecrets newDb).step s₁
      (.run (.enter (.noNtpServer "10.0.0.1"))) _ :=
    ⟨_, ⟨htaken, s.db, Db.Reorders.refl _, rfl⟩, rfl⟩
  have hpath := System.Path.step _ .refl henter
  have hdiffer : ∀ j, 0 < j → twoSecrets j ≠ twoSecrets 0 := by
    intro j hj
    have hdifferent : "fedcba9876543210" ≠ "0123456789abcdef" := by decide
    cases j with
    | zero => exact absurd hj (Nat.lt_irrefl 0)
    | succ j => exact hdifferent
  obtain ⟨hserves, hrefuses, _⟩ := survivor_frozen controlkeyAnswer_twoSecrets htrace rfl
    ⟨hflight, Or.inl hphase, hseen⟩ hdiffer hrestart hpath (fun p hp => by
      rw [List.mem_singleton.mp hp]; trivial)
  refine ⟨_, _, hpath.trace htrace₁, ?_, ?_, hrefuses⟩
  · show entered (sessions tr') ++ [_] = _
    rw [hsessions, hentered]
    rfl
  · rw [hsessions, hentered] at hserves
    exact hserves

end OpsNtpd
