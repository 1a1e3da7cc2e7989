import Mathlib.Data.List.Forall2

/-! # Labelled Transition Systems

  A system is an initial predicate together with a labelled step relation.
  A trace records, newest first, the state in which each label fired, so
  that a condition on the steps of a run can be read off the trace.

  - `System.Trace`: the finite runs of a system.
  - `System.Reachable`: the states at the end of some run.
  - `System.invariant`, `System.trace_invariant`: the induction rules.
  - `System.Trace.simulate`: the runs of a system that another one simulates.
  - `System.Path`, `System.Path.measure_le`: what happens from a state on, and
    a rule for what happens soon.
  - `System.ofNext`: the system of a partial next-state function.
-/

namespace Transition

variable {State : Type*} {Label : Type*}

/-- A labelled transition system. -/
structure System (State Label : Type*) where
  init : State → Prop
  step : State → Label → State → Prop

namespace System

variable (sys : System State Label)

/-- `sys.Trace tr s`: the run that fired the labels of `tr` (newest first,
    each with the state in which it fired) ends in `s`. -/
inductive Trace : List (State × Label) → State → Prop where
  | init {s : State} : sys.init s → Trace [] s
  | step {tr : List (State × Label)} {s s' : State} (a : Label) :
      Trace tr s → sys.step s a s' → Trace ((s, a) :: tr) s'

/-- The states that some run ends in. -/
def Reachable (s : State) : Prop := ∃ tr, sys.Trace tr s

variable {sys}

theorem Reachable.init {s : State} (h : sys.init s) : sys.Reachable s :=
  ⟨[], Trace.init h⟩

theorem Reachable.step {s s' : State} (a : Label) (h : sys.Reachable s)
    (hstep : sys.step s a s') : sys.Reachable s' := by
  obtain ⟨tr, htr⟩ := h
  exact ⟨(s, a) :: tr, Trace.step a htr hstep⟩

/-- **Trace invariant.** What holds initially, and is preserved by every step
    that meets `guard`, holds at the end of every run whose steps all meet it. -/
theorem trace_invariant {inv : State → Prop} (guard : State → Label → Prop)
    (hinit : ∀ s, sys.init s → inv s)
    (hnext : ∀ s a s', inv s → guard s a → sys.step s a s' → inv s')
    {tr : List (State × Label)} {s : State} (h : sys.Trace tr s)
    (hguard : ∀ p ∈ tr, guard p.1 p.2) : inv s := by
  induction h with
  | init hi => exact hinit _ hi
  | step a _ hstep ih =>
    have hprev := ih (fun p hp => hguard p (List.mem_cons_of_mem _ hp))
    exact hnext _ a _ hprev (hguard (_, a) List.mem_cons_self) hstep

/-- **Invariant.** The unguarded case, for the reachable states. -/
theorem invariant {inv : State → Prop} (hinit : ∀ s, sys.init s → inv s)
    (hnext : ∀ s a s', inv s → sys.step s a s' → inv s') {s : State}
    (h : sys.Reachable s) : inv s := by
  obtain ⟨tr, htr⟩ := h
  exact trace_invariant (fun _ _ => True) hinit
    (fun s a s' hs _ hstep => hnext s a s' hs hstep) htr (fun _ _ => trivial)

/-- Every state a trace passes through ends a shorter run, whose steps are
    among those of the trace. -/
theorem Trace.of_mem {tr : List (State × Label)} {s : State} (h : sys.Trace tr s)
    {p : State × Label} (hp : p ∈ tr) :
    ∃ tr', sys.Trace tr' p.1 ∧ ∀ q ∈ tr', q ∈ tr := by
  induction h with
  | init _ => cases hp
  | @step tr₀ s₀ _ a hprev _ ih =>
    rcases List.mem_cons.mp hp with rfl | hmem
    · exact ⟨tr₀, hprev, fun q hq => List.mem_cons_of_mem _ hq⟩
    · obtain ⟨tr', htr', hsub⟩ := ih hmem
      exact ⟨tr', htr', fun q hq => List.mem_cons_of_mem _ (hsub q hq)⟩

/-- Every label of a trace has fired in the state that stands with it. -/
theorem Trace.step_of_mem {tr : List (State × Label)} {s : State} (h : sys.Trace tr s)
    {p : State × Label} (hp : p ∈ tr) : ∃ s', sys.step p.1 p.2 s' := by
  induction h with
  | init _ => cases hp
  | step a _ hstep ih =>
    rcases List.mem_cons.mp hp with rfl | hmem
    · exact ⟨_, hstep⟩
    · exact ih hmem

/-- **Simulation.** When every step can be followed by a step of `sys'` with the
    same label, every run can be followed by a run through related states. -/
theorem Trace.simulate {State' : Type*} {sys' : System State' Label} {rel : State → State' → Prop}
    (hinit : ∀ s, sys.init s → ∃ s', sys'.init s' ∧ rel s s')
    (hnext : ∀ s s' a t, rel s s' → sys.step s a t → ∃ t', sys'.step s' a t' ∧ rel t t')
    {tr : List (State × Label)} {s : State} (h : sys.Trace tr s) :
    ∃ tr' s', sys'.Trace tr' s' ∧ rel s s' ∧
      List.Forall₂ (fun p p' => rel p.1 p'.1 ∧ p.2 = p'.2) tr tr' := by
  induction h with
  | init hi =>
    obtain ⟨s', hi', hrel⟩ := hinit _ hi
    exact ⟨[], s', Trace.init hi', hrel, List.Forall₂.nil⟩
  | step a _ hstep ih =>
    obtain ⟨tr', s', htr', hrel, hall⟩ := ih
    obtain ⟨t', hstep', hrel'⟩ := hnext _ s' a _ hrel hstep
    exact ⟨(s', a) :: tr', t', Trace.step a htr' hstep', hrel', List.Forall₂.cons ⟨hrel, rfl⟩ hall⟩

/-- `sys.Path s tr s'`: firing the labels of `tr` leads from `s` to `s'`. -/
inductive Path (sys : System State Label) (s : State) : List (State × Label) → State → Prop where
  | refl : Path sys s [] s
  | step {tr : List (State × Label)} {s₁ s₂ : State} (a : Label) :
      Path sys s tr s₁ → sys.step s₁ a s₂ → Path sys s ((s₁, a) :: tr) s₂

/-- A path continues a run. -/
theorem Path.trace {tr tr' : List (State × Label)} {s s' : State} (h : sys.Path s tr' s')
    (hs : sys.Trace tr s) : sys.Trace (tr' ++ tr) s' := by
  induction h with
  | refl => exact hs
  | step a _ hstep ih => exact Trace.step a ih hstep

/-- **Progress.** Where no step raises the measure and each `turn` lowers it, it
    has come down by as much as there were turns. -/
theorem Path.measure_le {inv : State → Prop} {guard : State → Label → Prop} {measure : State → Nat}
    {turn : Label → Bool}
    (hnext : ∀ s a s', inv s → guard s a → sys.step s a s' →
      inv s' ∧ measure s' ≤ measure s - if turn a then 1 else 0)
    {tr : List (State × Label)} {s s' : State} (h : sys.Path s tr s') (hs : inv s)
    (hguard : ∀ p ∈ tr, guard p.1 p.2) :
    inv s' ∧ measure s' ≤ measure s - tr.countP fun p => turn p.2 := by
  induction h with
  | refl => exact ⟨hs, Nat.le_refl _⟩
  | @step tr s₁ s₂ a _ hstep ih =>
    obtain ⟨hinv, hle⟩ := ih fun p hp => hguard p (List.mem_cons_of_mem _ hp)
    obtain ⟨hinv', hle'⟩ := hnext s₁ a s₂ hinv (hguard (s₁, a) List.mem_cons_self) hstep
    refine ⟨hinv', ?_⟩
    rw [List.countP_cons]
    dsimp only
    omega

/-! ### Systems with a next-state function -/

/-- The system whose labels determine the next state, if they are enabled. -/
def ofNext (init : State → Prop) (next : State → Label → Option State) :
    System State Label where
  init := init
  step := fun s a s' => next s a = some s'

/-- Executing labels one after another continues a run. -/
theorem trace_of_foldlM {init : State → Prop} {next : State → Label → Option State}
    {tr : List (State × Label)} {s s' : State} (h : (ofNext init next).Trace tr s)
    {labels : List Label} (hrun : labels.foldlM next s = some s') :
    ∃ tr', (ofNext init next).Trace tr' s' ∧
      tr'.map Prod.snd = labels.reverse ++ tr.map Prod.snd := by
  induction labels generalizing tr s with
  | nil =>
    rw [List.foldlM_nil] at hrun
    rw [← Option.some.inj hrun]
    exact ⟨tr, h, rfl⟩
  | cons a labels ih =>
    rw [List.foldlM_cons] at hrun
    obtain ⟨s₁, hs₁, hrest⟩ := Option.bind_eq_some_iff.mp hrun
    obtain ⟨tr', htr', hlabels⟩ := ih (h.step a hs₁) hrest
    refine ⟨tr', htr', ?_⟩
    rw [hlabels, List.map_cons, List.reverse_cons, List.append_assoc, List.singleton_append]

end System

end Transition
