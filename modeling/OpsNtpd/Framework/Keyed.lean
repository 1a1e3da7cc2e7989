import OpsNtpd.Framework.Dict

/-! # Keyed Commands

  A store of values under keys that is changed by commands `put k v` and
  `drop k`. A `put` on a key that is present may overwrite the value or leave
  it alone: a run is a relation, and results hold for every choice.

  - `Run`: the runs of a list of commands.
  - `run_drops`, `run_puts`, `run_replaces`: what three kinds of batches do.
  - `run_sync`: a batch that brings a store from one dictionary to another.
-/

namespace Keyed

variable {κ υ : Type*} [DecidableEq κ]

inductive Cmd (κ υ : Type*) where
  | put (k : κ) (v : υ)
  | drop (k : κ)
  deriving DecidableEq

/-- One command. -/
inductive Step (m : Dict κ υ) : Cmd κ υ → Dict κ υ → Prop where
  | put (k : κ) (v : υ) : Step m (.put k v) (m.insert k v)
  | keep (k : κ) (v w : υ) : m.lookup k = some w → Step m (.put k v) m
  | drop (k : κ) : Step m (.drop k) (m.erase k)

/-- A list of commands. -/
inductive Run : Dict κ υ → List (Cmd κ υ) → Dict κ υ → Prop where
  | nil (m : Dict κ υ) : Run m [] m
  | cons {m m₁ m' : Dict κ υ} {c : Cmd κ υ} {cs : List (Cmd κ υ)} :
      Step m c m₁ → Run m₁ cs m' → Run m (c :: cs) m'

variable {m m' : Dict κ υ}

theorem run_nil_iff : Run m [] m' ↔ m' = m := by
  constructor
  · intro h
    cases h
    rfl
  · intro h
    rw [h]
    exact Run.nil m

theorem run_append {cs ds : List (Cmd κ υ)} :
    Run m (cs ++ ds) m' ↔ ∃ m₁, Run m cs m₁ ∧ Run m₁ ds m' := by
  induction cs generalizing m with
  | nil =>
    constructor
    · intro h
      exact ⟨m, Run.nil m, h⟩
    · intro h
      obtain ⟨m₁, h₁, h₂⟩ := h
      rw [run_nil_iff.mp h₁] at h₂
      exact h₂
  | cons c cs ih =>
    constructor
    · intro h
      cases h with
      | cons hstep hrest =>
        obtain ⟨m₁, h₁, h₂⟩ := ih.mp hrest
        exact ⟨m₁, Run.cons hstep h₁, h₂⟩
    · intro h
      obtain ⟨m₁, h₁, h₂⟩ := h
      cases h₁ with
      | cons hstep hrest => exact Run.cons hstep (ih.mpr ⟨m₁, hrest, h₂⟩)

/-! ### Drops -/

/-- Dropping keys removes exactly these. -/
theorem run_drops {ks : List κ} (h : Run m (ks.map Cmd.drop) m') (k : κ) :
    m'.lookup k = if k ∈ ks then none else m.lookup k := by
  induction ks generalizing m with
  | nil =>
    rw [List.map_nil, run_nil_iff] at h
    rw [h, if_neg List.not_mem_nil]
  | cons k₀ ks ih =>
    rw [List.map_cons] at h
    cases h with
    | cons hstep hrest =>
      cases hstep
      rw [ih hrest, Dict.lookup_erase_eq]
      by_cases hk : k = k₀
      · simp [hk]
      · simp [hk]

/-! ### Puts -/

/-- Putting values leaves the other keys alone. -/
theorem run_puts_of_not_mem {ps : List (κ × υ)}
    (h : Run m (ps.map fun p => .put p.1 p.2) m') {k : κ} (hk : k ∉ ps.map Prod.fst) :
    m'.lookup k = m.lookup k := by
  induction ps generalizing m with
  | nil =>
    rw [List.map_nil, run_nil_iff] at h
    rw [h]
  | cons p ps ih =>
    rw [List.map_cons, List.mem_cons, not_or] at hk
    rw [List.map_cons] at h
    cases h with
    | cons hstep hrest =>
      rw [ih hrest hk.2]
      cases hstep with
      | put => exact Finmap.lookup_insert_of_ne _ hk.1
      | keep => rfl

/-- A key that is absent or has the value already ends up with the value, if
    no other value is put there. -/
theorem run_puts_of_mem {ps : List (κ × υ)} (h : Run m (ps.map fun p => .put p.1 p.2) m')
    {k : κ} {v : υ} (hmem : (k, v) ∈ ps) (hall : ∀ p ∈ ps, p.1 = k → p.2 = v)
    (hm : m.lookup k = none ∨ m.lookup k = some v) : m'.lookup k = some v := by
  induction ps generalizing m with
  | nil => cases hmem
  | cons p ps ih =>
    rw [List.map_cons] at h
    cases h with
    | @cons _ m₁ _ _ _ hstep hrest =>
      by_cases hp : p.1 = k
      · -- after this command the value is there, whatever the store did
        have hv : p.2 = v := hall p List.mem_cons_self hp
        have hthere : m₁.lookup k = some v := by
          rw [hp, hv] at hstep
          cases hstep with
          | put => exact Finmap.lookup_insert m
          | keep _ _ w hw =>
            rcases hm with hnone | hsome
            · rw [hnone] at hw; cases hw
            · exact hsome
        by_cases hlater : (k, v) ∈ ps
        · exact ih hrest hlater (fun q hq => hall q (List.mem_cons_of_mem _ hq)) (Or.inr hthere)
        · have hnot : k ∉ ps.map Prod.fst := by
            intro hk
            obtain ⟨q, hq, hqk⟩ := List.mem_map.mp hk
            have hqv := hall q (List.mem_cons_of_mem _ hq) hqk
            exact hlater (hqk ▸ hqv ▸ hq)
          rw [run_puts_of_not_mem hrest hnot]
          exact hthere
      · have hother : m₁.lookup k = m.lookup k := by
          cases hstep with
          | put => exact Finmap.lookup_insert_of_ne _ (Ne.symm hp)
          | keep => rfl
        have hmem' : (k, v) ∈ ps := by
          rcases List.mem_cons.mp hmem with heq | hlater
          · exact absurd (congrArg Prod.fst heq).symm hp
          · exact hlater
        exact ih hrest hmem' (fun q hq => hall q (List.mem_cons_of_mem _ hq))
          (by rw [hother]; exact hm)

/-! ### Replacements -/

/-- Drop a key and put it again. -/
def replace (p : κ × υ) : List (Cmd κ υ) := [.drop p.1, .put p.1 p.2]

/-- A replacement is an assignment: the key is absent when it is put. -/
theorem run_replace {p : κ × υ} (h : Run m (replace p) m') (k : κ) :
    m'.lookup k = if k = p.1 then some p.2 else m.lookup k := by
  unfold replace at h
  cases h with
  | cons hdrop hrest =>
    cases hdrop
    cases hrest with
    | cons hput hnil =>
      cases hnil
      cases hput with
      | put =>
        rw [Dict.lookup_insert_eq, Dict.lookup_erase_eq]
        by_cases hk : k = p.1
        · rw [if_pos hk, if_pos hk]
        · rw [if_neg hk, if_neg hk, if_neg hk]
      | keep _ _ w hw =>
        rw [Finmap.lookup_erase] at hw
        cases hw

/-- A batch of replacements writes its keys and leaves the others alone. -/
theorem run_replaces {ps : List (κ × υ)} (h : Run m (ps.flatMap replace) m') (k : κ) :
    (k ∉ ps.map Prod.fst → m'.lookup k = m.lookup k) ∧
      ∀ v, (∀ p ∈ ps, p.1 = k → p.2 = v) →
        (k ∈ ps.map Prod.fst ∨ m.lookup k = some v) → m'.lookup k = some v := by
  induction ps generalizing m with
  | nil =>
    rw [List.flatMap_nil, run_nil_iff] at h
    rw [h]
    refine ⟨fun _ => rfl, fun v _ hv => ?_⟩
    rcases hv with hmem | hsome
    · cases hmem
    · exact hsome
  | cons p ps ih =>
    rw [List.flatMap_cons, run_append] at h
    obtain ⟨m₁, h₁, hrest⟩ := h
    have hone := run_replace h₁ k
    obtain ⟨ihskip, ihput⟩ := ih hrest
    constructor
    · intro hk
      rw [List.map_cons, List.mem_cons, not_or] at hk
      rw [ihskip hk.2, hone, if_neg hk.1]
    · intro v hall hv
      refine ihput v (fun q hq => hall q (List.mem_cons_of_mem _ hq)) ?_
      by_cases hk : k = p.1
      · rw [hone, if_pos hk, hall p List.mem_cons_self hk.symm]
        exact Or.inr rfl
      · rw [hone, if_neg hk]
        rcases hv with hmem | hsome
        · rw [List.map_cons, List.mem_cons] at hmem
          exact Or.inl (hmem.resolve_left hk)
        · exact Or.inr hsome

/-! ### Synchronising -/

/-- **A batch that synchronises.** A store that holds `old` is brought to
    `new` by replacements of entries of `new`, then drops, then puts of
    entries of `new`, provided that every entry that differs or is gone is
    dropped and every entry of `new` that was dropped or was not there is put.
    The replacements may concern any entries of `new`. -/
theorem run_sync {old new : Dict κ υ} {rs as : List (κ × υ)} {ks : List κ}
    (hrun : Run old (rs.flatMap replace ++ ks.map Cmd.drop ++ as.map fun p => .put p.1 p.2) m')
    (hrs : ∀ p ∈ rs, new.lookup p.1 = some p.2)
    (hks : ∀ k, old.lookup k ≠ none → old.lookup k ≠ new.lookup k → k ∈ ks)
    (has : ∀ p ∈ as, new.lookup p.1 = some p.2)
    (hcover : ∀ k v, new.lookup k = some v →
      (k, v) ∈ as ∨ (old.lookup k = some v ∧ k ∉ ks)) :
    m' = new := by
  rw [run_append] at hrun
  obtain ⟨m₂, hrun₂, hputs⟩ := hrun
  rw [run_append] at hrun₂
  obtain ⟨m₁, hreps, hdrops⟩ := hrun₂
  have hval : ∀ {l : List (κ × υ)}, (∀ p ∈ l, new.lookup p.1 = some p.2) →
      ∀ {k v}, new.lookup k = some v → ∀ p ∈ l, p.1 = k → p.2 = v := by
    intro l hl k v hv p hp hpk
    have hlook := hl p hp
    rw [hpk, hv] at hlook
    exact (Option.some.inj hlook).symm
  have habsent : ∀ {l : List (κ × υ)}, (∀ p ∈ l, new.lookup p.1 = some p.2) →
      ∀ {k}, new.lookup k = none → k ∉ l.map Prod.fst := by
    intro l hl k hk hmem
    obtain ⟨p, hp, hpk⟩ := List.mem_map.mp hmem
    rw [← hpk, hl p hp] at hk
    cases hk
  apply Finmap.ext_lookup
  intro k
  have h₂ := run_drops hdrops k
  obtain ⟨hskip, hset⟩ := run_replaces hreps k
  cases hnew : new.lookup k with
  | none =>
    -- the key is not in `new`: nothing puts it, and it is dropped if it was there
    rw [run_puts_of_not_mem hputs (habsent has hnew), h₂, hskip (habsent hrs hnew)]
    by_cases hk : k ∈ ks
    · rw [if_pos hk]
    · rw [if_neg hk]
      by_contra hne
      exact hk (hks k hne (by rw [hnew]; exact hne))
  | some v =>
    have hallRs := hval hrs hnew
    have hallAs := hval has hnew
    by_cases hin : (k, v) ∈ as
    · -- put again, after it was dropped if it was there with another value
      refine run_puts_of_mem hputs hin hallAs ?_
      rw [h₂]
      by_cases hk : k ∈ ks
      · exact Or.inl (if_pos hk)
      · rw [if_neg hk]
        by_cases hold : old.lookup k = some v
        · exact Or.inr (hset v hallRs (Or.inr hold))
        · have hnone : old.lookup k = none := by
            by_contra hne
            exact hk (hks k hne (by rw [hnew]; exact hold))
          by_cases hrep : k ∈ rs.map Prod.fst
          · exact Or.inr (hset v hallRs (Or.inl hrep))
          · exact Or.inl (by rw [hskip hrep, hnone])
    · -- unchanged: neither dropped nor put, and replacements agree with it
      obtain ⟨hold, hnotKs⟩ := (hcover k v hnew).resolve_left hin
      have hnotAs : k ∉ as.map Prod.fst := by
        intro hk
        obtain ⟨p, hp, hpk⟩ := List.mem_map.mp hk
        have hpv := hallAs p hp hpk
        exact hin (hpk ▸ hpv ▸ hp)
      rw [run_puts_of_not_mem hputs hnotAs, h₂, if_neg hnotKs]
      exact hset v hallRs (Or.inr hold)

end Keyed
