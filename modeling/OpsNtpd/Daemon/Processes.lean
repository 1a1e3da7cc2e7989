import OpsNtpd.Daemon.Status
import OpsNtpd.Framework.Transition

/-! # Daemon: The Processes of ntpd

  `ops_ntpd_cleanup_ntpd_processes` looks for `ntpd -c` and `ntpq` in the
  process listing and kills the processes of the lines it finds. The command
  that `ops_ntpd_start_ntpd` launches has an option between `ntpd` and `-c`,
  so whether the cleanup knows it is up to the paths in it.

  - Section 1: the launch, the listing and the cleanup.
  - Section 2: when the search words are in the launch command.
  - Section 3: the processes over runs of starts, exits and crashes.
-/

namespace OpsNtpd.Daemon

open Text Transition

/-! ## Section 1: Launch and cleanup -/

/-- A live process. `managed`: the daemon has launched it. -/
structure Proc where
  pid : Nat
  cmdline : String
  managed : Bool
  deriving DecidableEq

/-- `ntpd_info` -/
structure NtpdInfo where
  confFile : String
  keysFile : String
  logFile : String

/-- `ntpd_command` -/
def ntpdCommand (i : NtpdInfo) : String :=
  "ntpd -I eth0 -c " ++ i.confFile ++ " -k " ++ i.keysFile ++ " -l " ++ i.logFile

/-- `splitlines()`, for a text whose lines end with a line feed and that has no
    carriage return. -/
def splitlines (out : String) : List (List Char) :=
  let pieces := lines out
  if pieces.getLast? = some [] then pieces.dropLast else pieces

/-- `'ntpd -c' in line or 'ntpq' in line` -/
def isNtpdLine (line : List Char) : Bool := contains "ntpd -c" line || contains "ntpq" line

/-- `int(line.split(None, 1)[0])`, for pids without a sign. -/
def pidOf (line : List Char) : Option Nat :=
  match fields isSpace line with
  | [] => none
  | w :: _ => if w.all Char.isDigit then some (Nat.ofDigitChars 10 w 0) else none

/-- `os.kill(pid, signal.SIGKILL)` -/
def kill (procs : List Proc) (pid : Nat) : List Proc := procs.filter fun p => p.pid ≠ pid

/-- One iteration of the cleanup. -/
def cleanupStep (procs : List Proc) (line : List Char) : Option (List Proc) :=
  if isNtpdLine line then (pidOf line).map (kill procs) else some procs

/-- `ops_ntpd_cleanup_ntpd_processes`: what is left of the processes, unless
    the loop raises. -/
def cleanupNtpdProcesses (out : String) (procs : List Proc) : Option (List Proc) :=
  (splitlines out).foldlM cleanupStep procs

/-- The line begins with the pid of the process, and has its command line
    after it. -/
def ShowsLine (p : Proc) (line : List Char) : Prop :=
  ∃ pad before after : List Char, (∀ c ∈ pad, isSpace c = true) ∧
    line = pad ++ (toString p.pid).toList ++ ' ' :: (before ++ p.cmdline.toList ++ after)

/-- The listing has one line per process, in some order, after header lines
    in which the cleanup finds nothing. -/
def Shows (procs : List Proc) (out : String) : Prop :=
  ∃ header ls listed, splitlines out = header ++ ls ∧ (∀ line ∈ header, isNtpdLine line = false) ∧
    listed.Perm procs ∧ List.Forall₂ ShowsLine listed ls

theorem pidOf_of_showsLine {p : Proc} {line : List Char} (h : ShowsLine p line) :
    pidOf line = some p.pid := by
  obtain ⟨pad, before, after, hpad, rfl⟩ := h
  have hnum := isNumeral_toString p.pid
  have hlist : (toString p.pid).toList = Nat.toDigits 10 p.pid := Nat.toList_repr
  have hskip : ∀ xs : List Char, fields isSpace (pad ++ xs) = fields isSpace xs := by
    intro xs
    induction pad with
    | nil => rfl
    | cons c cs ih =>
      rw [List.cons_append, fields_cons_sep _ (hpad c List.mem_cons_self)]
      exact ih fun d hd => hpad d (List.mem_cons_of_mem _ hd)
  have hword := fields_word_cons hnum.isWord.1 hnum.isWord.2
    (before ++ p.cmdline.toList ++ after) (rfl : isSpace ' ' = true)
  unfold pidOf
  rw [List.append_assoc, hskip, hword]
  have hall : (toString p.pid).toList.all Char.isDigit = true := List.all_eq_true.mpr hnum.2
  simp only [hall, if_true]
  rw [hlist, Nat.ofDigitChars_ten_toDigits]

theorem mem_kill {procs : List Proc} {pid : Nat} {p : Proc} :
    p ∈ kill procs pid ↔ p ∈ procs ∧ p.pid ≠ pid := by
  simp [kill]

/-- The cleanup of a listing does not raise. What it leaves are processes that
    were there, and none of a line in which it finds something. -/
theorem cleanup_of_shows {procs : List Proc} {out : String} (h : Shows procs out) :
    ∃ left, cleanupNtpdProcesses out procs = some left ∧ left.Sublist procs ∧
      ∀ p ∈ left, ∃ line, ShowsLine p line ∧ isNtpdLine line = false := by
  obtain ⟨header, ls, listed, hout, hheader, hperm, hlines⟩ := h
  have hskip : ∀ ps, header.foldlM cleanupStep ps = some ps := by
    intro ps
    clear hout
    induction header with
    | nil => rfl
    | cons line header ih =>
      have hline := hheader line List.mem_cons_self
      rw [List.foldlM_cons, cleanupStep, hline]
      exact ih fun l hl => hheader l (List.mem_cons_of_mem _ hl)
  -- the processes whose lines have been read are gone, or not looked for
  have hloop : ∀ (listed : List Proc) (ls : List (List Char)) (ps : List Proc),
      List.Forall₂ ShowsLine listed ls →
      ∃ left, ls.foldlM cleanupStep ps = some left ∧ left.Sublist ps ∧
        ∀ p ∈ left, p ∈ listed → ∃ line, ShowsLine p line ∧ isNtpdLine line = false := by
    intro listed ls ps hlines
    induction hlines generalizing ps with
    | nil => exact ⟨ps, rfl, List.Sublist.refl ps, fun p _ hp => absurd hp List.not_mem_nil⟩
    | @cons q line listed ls hq _ ih =>
      cases hline : isNtpdLine line with
      | false =>
        obtain ⟨left, hrun, hsub, hleft⟩ := ih ps
        refine ⟨left, ?_, hsub, ?_⟩
        · rw [List.foldlM_cons, cleanupStep, hline]
          exact hrun
        · intro p hp hmem
          rcases List.mem_cons.mp hmem with rfl | hmem
          · exact ⟨line, hq, hline⟩
          · exact hleft p hp hmem
      | true =>
        obtain ⟨left, hrun, hsub, hleft⟩ := ih (kill ps q.pid)
        refine ⟨left, ?_, hsub.trans List.filter_sublist, ?_⟩
        · rw [List.foldlM_cons, cleanupStep, hline, pidOf_of_showsLine hq]
          exact hrun
        · intro p hp hmem
          rcases List.mem_cons.mp hmem with rfl | hmem
          · exact absurd rfl (mem_kill.mp (hsub.subset hp)).2
          · exact hleft p hp hmem
  obtain ⟨left, hrun, hsub, hleft⟩ := hloop listed ls procs hlines
  refine ⟨left, ?_, hsub, ?_⟩
  · rw [cleanupNtpdProcesses, hout, List.foldlM_append, hskip]
    exact hrun
  · intro p hp
    exact hleft p hp (hperm.mem_iff.mpr (hsub.subset hp))

/-! ## Section 2: The search words in the launch command -/

/-- Some path of the launch command has a search word. -/
def Swept (i : NtpdInfo) : Prop :=
  ∃ path ∈ [i.confFile, i.keysFile, i.logFile], isNtpdLine path.toList = true

instance (i : NtpdInfo) : Decidable (Swept i) := inferInstanceAs (Decidable (∃ path ∈ _, _))

theorem contains_iff {key : String} {cs : List Char} :
    contains key cs = true ↔ key.toList <:+: cs := by
  rw [contains, decide_eq_true_eq]

/-- A word that fits neither the start of the launch command nor its
    separators is found in the paths only. -/
theorem contains_launch {key pre : String} (hpre : ¬ key.toList <:+: pre.toList)
    (hstart : ∀ q ∈ key.toList.inits, q ≠ [] → ¬ q <:+ pre.toList)
    (hseps : ∀ sep ∈ [" -k ".toList, " -l ".toList],
      ¬ key.toList <:+: sep ∧ (∀ q ∈ key.toList.inits, q ≠ [] → ¬ q <:+ sep) ∧
      ∀ q ∈ key.toList.tails, q ≠ [] → q ≠ key.toList → ¬ q <+: sep ∧ ¬ sep <+: q)
    (i : NtpdInfo) :
    contains key (pre ++ i.confFile ++ " -k " ++ i.keysFile ++ " -l " ++ i.logFile).toList = true ↔
      ∃ path ∈ [i.confFile, i.keysFile, i.logFile], contains key path.toList = true := by
  obtain ⟨hk, hkStart, hkCross⟩ := hseps " -k ".toList (by simp)
  obtain ⟨hl, hlStart, hlCross⟩ := hseps " -l ".toList (by simp)
  have htext : (pre ++ i.confFile ++ " -k " ++ i.keysFile ++ " -l " ++ i.logFile).toList =
      pre.toList ++ (i.confFile.toList ++ (" -k ".toList ++
        (i.keysFile.toList ++ (" -l ".toList ++ i.logFile.toList)))) := by
    simp only [String.toList_append, List.append_assoc]
  rw [contains_iff, htext, infix_after hpre hstart, infix_around hkCross, infix_after hk hkStart,
    infix_around hlCross, infix_after hl hlStart]
  simp only [contains_iff, List.mem_cons, List.not_mem_nil, or_false, exists_eq_or_imp,
    exists_eq_left]

/-- The words fit the separators of the launch command nowhere. -/
theorem searchWords_seps : ∀ key ∈ ["ntpd -c", "ntpq"],
    ∀ sep ∈ [" -k ".toList, " -l ".toList],
      ¬ key.toList <:+: sep ∧ (∀ q ∈ key.toList.inits, q ≠ [] → ¬ q <:+ sep) ∧
      ∀ q ∈ key.toList.tails, q ≠ [] → q ≠ key.toList → ¬ q <+: sep ∧ ¬ sep <+: q := by
  decide +kernel

theorem searchWords_pre : ∀ key ∈ ["ntpd -c", "ntpq"],
    ∀ pre ∈ ["ntpd -I eth0 -c ", "1 ntpd -I eth0 -c "], ¬ key.toList <:+: pre.toList ∧
      ∀ q ∈ key.toList.inits, q ≠ [] → ¬ q <:+ pre.toList := by
  decide +kernel

/-- What the cleanup finds in a line with the launch command. -/
theorem isNtpdLine_launch (i : NtpdInfo) {pre : String}
    (hpre : pre ∈ ["ntpd -I eth0 -c ", "1 ntpd -I eth0 -c "]) :
    isNtpdLine (pre ++ i.confFile ++ " -k " ++ i.keysFile ++ " -l " ++ i.logFile).toList = true ↔
      Swept i := by
  have hword : ∀ key ∈ ["ntpd -c", "ntpq"],
      (contains key (pre ++ i.confFile ++ " -k " ++ i.keysFile ++ " -l " ++ i.logFile).toList = true
        ↔ ∃ path ∈ [i.confFile, i.keysFile, i.logFile], contains key path.toList = true) := by
    intro key hkey
    obtain ⟨hnot, hstart⟩ := searchWords_pre key hkey pre hpre
    exact contains_launch hnot hstart (searchWords_seps key hkey) i
  unfold isNtpdLine Swept
  rw [Bool.or_eq_true, hword "ntpd -c" (by simp), hword "ntpq" (by simp)]
  simp only [isNtpdLine, Bool.or_eq_true, ← exists_or, ← and_or_left]

theorem isNtpdLine_mono {cs ds : List Char} (h : cs <:+: ds) (hcs : isNtpdLine cs = true) :
    isNtpdLine ds = true := by
  simp only [isNtpdLine, Bool.or_eq_true, contains_iff] at hcs ⊢
  rcases hcs with hword | hword
  · exact Or.inl (hword.trans h)
  · exact Or.inr (hword.trans h)

/-- The line shows the launch command: the cleanup finds it if some path has a
    search word. -/
theorem isNtpdLine_of_showsLine {i : NtpdInfo} (hswept : Swept i) {p : Proc} {line : List Char}
    (hline : ShowsLine p line) (hcmd : p.cmdline = ntpdCommand i) : isNtpdLine line = true := by
  obtain ⟨pad, before, after, _, rfl⟩ := hline
  have hfound : isNtpdLine (ntpdCommand i).toList = true :=
    (isNtpdLine_launch i (by simp)).mpr hswept
  rw [hcmd]
  refine isNtpdLine_mono ?_ hfound
  refine ⟨pad ++ (toString p.pid).toList ++ ' ' :: before, after, ?_⟩
  simp only [List.append_assoc, List.cons_append]

/-! ## Section 3: Starts, exits and crashes -/

/-- The processes of the switch, and whether the daemon is running. -/
structure Host where
  procs : List Proc
  running : Bool

inductive HostLabel where
  /-- `ops_ntpd_provision_ntpd_daemon` cleans up after the listing `out` and
      launches ntpd, which gets a pid or fails. -/
  | start (out : String) (pid : Option Nat)
  /-- The exit path of `ops_ntpd_init`. -/
  | exit (out : String)
  /-- The daemon is gone; the other processes stay. -/
  | crash
  /-- Somebody else starts a process. -/
  | spawn (pid : Nat) (cmdline : String)
  /-- A process, ntpd or another, ends. -/
  | die (pid : Nat)

/-- `ops_ntpd_start_ntpd` -/
def startNtpd (i : NtpdInfo) (procs : List Proc) : Option Nat → List Proc
  | none => procs
  | some pid => { pid := pid, cmdline := ntpdCommand i, managed := true } :: procs

def hostStep (i : NtpdInfo) (s : Host) (a : HostLabel) (s' : Host) : Prop :=
  match a with
  | .start out pid =>
      s.running = false ∧ Shows s.procs out ∧
        ∃ left, cleanupNtpdProcesses out s.procs = some left ∧
          (∀ n ∈ pid, n ∉ left.map Proc.pid) ∧
          s' = { procs := startNtpd i left pid, running := true }
  | .exit out =>
      s.running = true ∧ Shows s.procs out ∧
        ∃ left, cleanupNtpdProcesses out s.procs = some left ∧
          s' = { procs := left, running := false }
  | .crash => s.running = true ∧ s' = { s with running := false }
  | .spawn pid cmdline =>
      pid ∉ s.procs.map Proc.pid ∧
        s' = { s with procs := { pid := pid, cmdline := cmdline, managed := false } :: s.procs }
  | .die pid => s' = { s with procs := kill s.procs pid }

/-- Before the first start no ntpd of the daemon is alive. -/
def host (i : NtpdInfo) : System Host HostLabel :=
  { init := fun s => s.running = false ∧ ∀ p ∈ s.procs, p.managed = false
    step := hostStep i }

/-- Every process with the launch command is killed, whatever the listing. -/
def KillsEvery (i : NtpdInfo) : Prop :=
  ∀ procs out, Shows procs out →
    ∃ left, cleanupNtpdProcesses out procs = some left ∧ ∀ p ∈ left, p.cmdline ≠ ntpdCommand i

/-- At any time at most one ntpd of the daemon is alive, and none after an
    orderly exit. -/
def AtMostOneNtpd (i : NtpdInfo) : Prop :=
  ∀ s, (host i).Reachable s →
    (s.procs.filter Proc.managed).length ≤ 1 ∧
    ∀ out s', hostStep i s (.exit out) s' → ∀ p ∈ s'.procs, p.managed = false

/-- What runs preserve when the cleanup knows the launch command. -/
structure HostInv (i : NtpdInfo) (s : Host) : Prop where
  launched : ∀ p ∈ s.procs, p.managed = true → p.cmdline = ntpdCommand i
  atMostOne : (s.procs.filter Proc.managed).length ≤ 1

theorem HostInv.sublist {i : NtpdInfo} {s s' : Host} (h : HostInv i s)
    (hsub : s'.procs.Sublist s.procs) : HostInv i s' := by
  constructor
  · intro p hp hmanaged
    exact h.launched p (hsub.subset hp) hmanaged
  · have hle := (hsub.filter Proc.managed).length_le
    have hone := h.atMostOne
    omega

theorem killsEvery_of_swept {i : NtpdInfo} (h : Swept i) : KillsEvery i := by
  intro procs out hshows
  obtain ⟨left, hrun, _, hleft⟩ := cleanup_of_shows hshows
  refine ⟨left, hrun, ?_⟩
  intro p hp hcmd
  obtain ⟨line, hline, hnot⟩ := hleft p hp
  rw [isNtpdLine_of_showsLine h hline hcmd] at hnot
  cases hnot

/-- After a cleanup no ntpd of the daemon is left. -/
theorem HostInv.cleanup {i : NtpdInfo} (hswept : Swept i) {s : Host} (h : HostInv i s)
    {out : String} (hshows : Shows s.procs out) {left : List Proc}
    (hrun : cleanupNtpdProcesses out s.procs = some left) :
    left.Sublist s.procs ∧ ∀ p ∈ left, p.managed = false := by
  obtain ⟨left', hrun', hnone⟩ := killsEvery_of_swept hswept s.procs out hshows
  obtain ⟨left'', hrun'', hsub, _⟩ := cleanup_of_shows hshows
  obtain rfl : left = left' := Option.some.inj (hrun.symm.trans hrun')
  obtain rfl : left = left'' := Option.some.inj (hrun.symm.trans hrun'')
  refine ⟨hsub, ?_⟩
  intro p hp
  rw [← Bool.not_eq_true]
  intro hmanaged
  exact hnone p hp (h.launched p (hsub.subset hp) hmanaged)

/-- **Step.** -/
theorem hostInv_step {i : NtpdInfo} (hswept : Swept i) {s s' : Host} {a : HostLabel}
    (h : HostInv i s) (hstep : hostStep i s a s') : HostInv i s' := by
  cases a with
  | start out pid =>
    obtain ⟨_, hshows, left, hrun, _, rfl⟩ := hstep
    obtain ⟨hsub, hnone⟩ := h.cleanup hswept hshows hrun
    have hempty : left.filter Proc.managed = [] := by
      rw [List.filter_eq_nil_iff]
      intro p hp
      rw [hnone p hp]
      exact Bool.false_ne_true
    cases pid with
    | none => exact h.sublist hsub
    | some pid =>
      constructor
      · intro p hp hmanaged
        rcases List.mem_cons.mp hp with rfl | hmem
        · rfl
        · rw [hnone p hmem] at hmanaged; cases hmanaged
      · show (List.filter Proc.managed (_ :: left)).length ≤ 1
        rw [List.filter_cons_of_pos rfl, hempty]
        exact Nat.le_refl 1
  | exit out =>
    obtain ⟨_, hshows, left, hrun, rfl⟩ := hstep
    exact h.sublist (h.cleanup hswept hshows hrun).1
  | crash =>
    obtain ⟨_, rfl⟩ := hstep
    exact h.sublist (List.Sublist.refl _)
  | spawn pid cmdline =>
    obtain ⟨_, rfl⟩ := hstep
    constructor
    · intro p hp hmanaged
      rcases List.mem_cons.mp hp with rfl | hmem
      · cases hmanaged
      · exact h.launched p hmem hmanaged
    · show (List.filter Proc.managed (_ :: s.procs)).length ≤ 1
      rw [List.filter_cons_of_neg (by simp)]
      exact h.atMostOne
  | die pid =>
    subst hstep
    exact h.sublist List.filter_sublist

/-- **Run.** -/
theorem atMostOneNtpd_of_swept {i : NtpdInfo} (h : Swept i) : AtMostOneNtpd i := by
  intro s hs
  have hinv : HostInv i s := by
    refine System.invariant ?_ ?_ hs
    · intro s₀ hinit
      have hnone := hinit.2
      constructor
      · intro p hp hmanaged
        rw [hnone p hp] at hmanaged; cases hmanaged
      · have hempty : s₀.procs.filter Proc.managed = [] := by
          rw [List.filter_eq_nil_iff]
          intro p hp
          rw [hnone p hp]
          exact Bool.false_ne_true
        rw [hempty]
        exact Nat.zero_le 1
    · intro s₀ a s₁ h₀ hstep
      exact hostInv_step h h₀ hstep
  refine ⟨hinv.atMostOne, ?_⟩
  rintro out s' ⟨_, hshows, left, hrun, rfl⟩
  exact (hinv.cleanup h hshows hrun).2

/-! ### Paths without a search word -/

/-- A listing with a line per process can show the launch command: no path has
    a line feed or a carriage return. -/
def Printable (i : NtpdInfo) : Prop :=
  ∀ path ∈ [i.confFile, i.keysFile, i.logFile], '\n' ∉ path.toList ∧ '\r' ∉ path.toList

instance (i : NtpdInfo) : Decidable (Printable i) := inferInstanceAs (Decidable (∀ path ∈ _, _))

/-- The listing of an ntpd with pid 1. -/
def survivor (i : NtpdInfo) : String := "1 " ++ ntpdCommand i ++ "\n"

theorem splitlines_survivor {i : NtpdInfo} (h : Printable i) :
    splitlines (survivor i) = [("1 " ++ ntpdCommand i).toList] := by
  have hclean : '\n' ∉ ("1 " ++ ntpdCommand i).toList := by
    obtain ⟨hconf, _⟩ := h i.confFile (by simp)
    obtain ⟨hkeys, _⟩ := h i.keysFile (by simp)
    obtain ⟨hlog, _⟩ := h i.logFile (by simp)
    unfold ntpdCommand
    simp only [String.toList_append, List.mem_append, not_or]
    exact ⟨by decide, ⟨⟨⟨⟨by decide, hconf⟩, by decide⟩, hkeys⟩, by decide⟩, hlog⟩
  have hlines : lines (survivor i) = [("1 " ++ ntpdCommand i).toList, []] := by
    have happend := lines_append hclean ""
    rw [String.append_empty] at happend
    rw [survivor, happend]
    rfl
  unfold splitlines
  rw [hlines]
  exact if_pos rfl

theorem shows_survivor {i : NtpdInfo} (h : Printable i) {p : Proc} (hpid : p.pid = 1)
    (hcmd : p.cmdline = ntpdCommand i) : Shows [p] (survivor i) := by
  refine ⟨[], _, [p], splitlines_survivor h, fun _ hl => absurd hl List.not_mem_nil,
    List.Perm.refl _, List.Forall₂.cons ?_ List.Forall₂.nil⟩
  refine ⟨[], [], [], fun _ hc => absurd hc List.not_mem_nil, ?_⟩
  have hone : "1 ".toList = (toString 1).toList ++ [' '] := by decide
  rw [hpid, hcmd, String.toList_append, hone]
  simp only [List.nil_append, List.append_nil, List.append_assoc, List.singleton_append]

/-- Without a search word in the paths the process outlives the cleanup. -/
theorem cleanup_survivor {i : NtpdInfo} (h : Printable i) (hnot : ¬ Swept i) (p : Proc) :
    cleanupNtpdProcesses (survivor i) [p] = some [p] := by
  have hline : isNtpdLine ("1 " ++ ntpdCommand i).toList = false := by
    have htext : "1 " ++ ntpdCommand i =
        "1 ntpd -I eth0 -c " ++ i.confFile ++ " -k " ++ i.keysFile ++ " -l " ++ i.logFile := by
      have hpre : "1 ntpd -I eth0 -c " = "1 " ++ "ntpd -I eth0 -c " := by decide
      unfold ntpdCommand
      rw [hpre]
      simp only [String.append_assoc]
    rw [htext, ← Bool.not_eq_true, isNtpdLine_launch i (by simp)]
    exact hnot
  have hstep : cleanupStep [p] ("1 " ++ ntpdCommand i).toList = some [p] := by
    rw [cleanupStep, hline, if_neg Bool.false_ne_true]
  rw [cleanupNtpdProcesses, splitlines_survivor h, List.foldlM_cons, hstep]
  rfl

/-- An ntpd that the daemon has launched. -/
def launched (i : NtpdInfo) (pid : Nat) : Proc :=
  { pid := pid, cmdline := ntpdCommand i, managed := true }

theorem swept_of_killsEvery {i : NtpdInfo} (h : Printable i) (hkills : KillsEvery i) :
    Swept i := by
  by_contra hnot
  let p := launched i 1
  obtain ⟨left, hrun, hleft⟩ := hkills [p] (survivor i) (shows_survivor h rfl rfl)
  rw [cleanup_survivor h hnot] at hrun
  obtain rfl : [p] = left := Option.some.inj hrun
  exact hleft p List.mem_cons_self rfl

/-- A start, a crash and another start leave two of them. -/
theorem reachable_two {i : NtpdInfo} (h : Printable i) (hnot : ¬ Swept i) :
    (host i).Reachable ⟨[launched i 2, launched i 1], true⟩ := by
  let p := launched i 1
  let q := launched i 2
  have hfirst : (host i).step ⟨[], false⟩ (.start "" (some 1)) ⟨[p], true⟩ :=
    ⟨rfl, ⟨[], [], [], rfl, fun _ hl => absurd hl List.not_mem_nil, List.Perm.refl _,
      List.Forall₂.nil⟩, [], rfl, by simp, rfl⟩
  have hcrash : (host i).step ⟨[p], true⟩ .crash ⟨[p], false⟩ := ⟨rfl, rfl⟩
  have hsecond : (host i).step ⟨[p], false⟩ (.start (survivor i) (some 2)) ⟨[q, p], true⟩ :=
    ⟨rfl, shows_survivor h rfl rfl, [p], cleanup_survivor h hnot p, by simp [p, launched],
      rfl⟩
  have hinit : (host i).Reachable ⟨[], false⟩ :=
    System.Reachable.init ⟨rfl, fun _ hp => absurd hp List.not_mem_nil⟩
  exact ((hinit.step _ hfirst).step _ hcrash).step _ hsecond

theorem swept_of_atMostOneNtpd {i : NtpdInfo} (h : Printable i) (hone : AtMostOneNtpd i) :
    Swept i := by
  by_contra hnot
  have hle := (hone _ (reachable_two h hnot)).1
  exact absurd hle (by simp [launched])

/-- The cleanup kills what `ops_ntpd_start_ntpd` has launched, and at most one
    ntpd of the daemon is ever alive, if and only if a path of the launch
    command has one of the search words. -/
theorem atMostOneNtpd_iff (i : NtpdInfo) (h : Printable i) :
    (KillsEvery i ↔ Swept i) ∧ (AtMostOneNtpd i ↔ Swept i) :=
  ⟨⟨swept_of_killsEvery h, killsEvery_of_swept⟩,
    ⟨swept_of_atMostOneNtpd h, atMostOneNtpd_of_swept⟩⟩

/-- The paths of `ops_ntpd_setup_ntpd_default_config`. -/
def defaultNtpdInfo : NtpdInfo :=
  { confFile := "/etc/ntp/ops_ntp.conf", keysFile := "/etc/ntp/ops_ntp.keys",
    logFile := "/etc/ntp/ops_ntp.log" }

/-- The same with the keys file in a directory of `ntpq`. -/
def ntpqNtpdInfo : NtpdInfo := { defaultNtpdInfo with keysFile := "/etc/ntpq/ops_ntp.keys" }

theorem atMostOneNtpd_iff_paths :
    (¬ KillsEvery defaultNtpdInfo ∧ ¬ AtMostOneNtpd defaultNtpdInfo) ∧
      KillsEvery ntpqNtpdInfo ∧ AtMostOneNtpd ntpqNtpdInfo := by
  have hnot : ¬ Swept defaultNtpdInfo := by decide +kernel
  have hswept : Swept ntpqNtpdInfo := by decide +kernel
  obtain ⟨hkills, hone⟩ := atMostOneNtpd_iff defaultNtpdInfo (by decide)
  obtain ⟨hkills', hone'⟩ := atMostOneNtpd_iff ntpqNtpdInfo (by decide)
  exact ⟨⟨fun h => hnot (hkills.mp h), fun h => hnot (hone.mp h)⟩, hkills'.mpr hswept,
    hone'.mpr hswept⟩

/-- With the default paths the ntpd of a crashed daemon survives the restart. -/
theorem two_ntpd_after_restart :
    (host defaultNtpdInfo).Reachable
      ⟨[launched defaultNtpdInfo 2, launched defaultNtpdInfo 1], true⟩ ∧
    ¬ KillsEvery defaultNtpdInfo ∧ ¬ AtMostOneNtpd defaultNtpdInfo := by
  have hprint : Printable defaultNtpdInfo := by decide
  have hnot : ¬ Swept defaultNtpdInfo := by decide +kernel
  exact ⟨reachable_two hprint hnot, fun hkills => hnot (swept_of_killsEvery hprint hkills),
    fun hone => hnot (swept_of_atMostOneNtpd hprint hone)⟩

end OpsNtpd.Daemon
