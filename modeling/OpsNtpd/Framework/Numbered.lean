import OpsNtpd.Framework.Keyed

/-! # Keyed Commands on Numbered Entries

  The store of `Keyed`, in which an entry also carries the number that it was
  given when it was made. No number is given twice, so an entry that has its
  number still is the same entry. A `put` on a key that is present may make a
  new entry, give the entry the value or leave it alone.

  - `Numbered`: the stores, with the invariant of their numbers.
  - `run_values`: less the numbers, a run is a run of the keyed store.
  - `run_entry_of_not_named`: an entry that no command names is kept.
  - `run_number_of_drop`: a key that is dropped loses its number for good.
-/

namespace Keyed

variable {κ υ : Type*} [DecidableEq κ]

/-- The key that a command names. -/
def Cmd.key : Cmd κ υ → κ
  | .put k _ => k
  | .drop k => k

/-- Numbered entries. The numbers from `next` on have not been given yet. -/
structure Numbered (κ υ : Type*) [DecidableEq κ] where
  entries : Dict κ (Nat × υ)
  next : Nat
  given : ∀ k e, entries.lookup k = some e → e.1 < next
  unique : ∀ k k' e e', entries.lookup k = some e → entries.lookup k' = some e' →
    e.1 = e'.1 → k = k'

namespace Numbered

/-- The store without entries. -/
def empty : Numbered κ υ where
  entries := ∅
  next := 0
  given := by
    intro k e h
    cases h
  unique := by
    intro k k' e e' h
    cases h

/-- The number of the entry of a key. -/
def number (s : Numbered κ υ) (k : κ) : Option Nat := (s.entries.lookup k).map Prod.fst

/-- The store less the numbers. -/
def values (s : Numbered κ υ) : Dict κ υ := Dict.mapValues Prod.snd s.entries

/-- Make a new entry for a key. -/
def make (s : Numbered κ υ) (k : κ) (v : υ) : Numbered κ υ where
  entries := s.entries.insert k (s.next, v)
  next := s.next + 1
  given := by
    intro k' e h
    rw [Dict.lookup_insert_eq] at h
    split at h
    · cases h
      exact Nat.lt_succ_self _
    · exact Nat.lt_succ_of_lt (s.given k' e h)
  unique := by
    intro k₁ k₂ e₁ e₂ h₁ h₂ heq
    rw [Dict.lookup_insert_eq] at h₁ h₂
    split at h₁ <;> split at h₂
    · next h h' => rw [h, h']
    · -- the new number is not that of an old entry
      cases h₁
      have hlt := s.given k₂ e₂ h₂
      rw [← heq] at hlt
      exact absurd hlt (Nat.lt_irrefl _)
    · cases h₂
      have hlt := s.given k₁ e₁ h₁
      rw [heq] at hlt
      exact absurd hlt (Nat.lt_irrefl _)
    · exact s.unique k₁ k₂ e₁ e₂ h₁ h₂ heq

/-- Give the entry of a key another value. -/
def overwrite (s : Numbered κ υ) {k : κ} {e : Nat × υ} (he : s.entries.lookup k = some e)
    (v : υ) : Numbered κ υ where
  entries := s.entries.insert k (e.1, v)
  next := s.next
  given := by
    intro k' e' h
    rw [Dict.lookup_insert_eq] at h
    split at h
    · cases h
      exact s.given k e he
    · exact s.given k' e' h
  unique := by
    intro k₁ k₂ e₁ e₂ h₁ h₂ heq
    rw [Dict.lookup_insert_eq] at h₁ h₂
    -- the entry that is overwritten has the number that it had
    split at h₁ <;> split at h₂
    · next h h' => rw [h, h']
    · next h _ =>
      cases h₁
      rw [h]
      exact s.unique k k₂ e e₂ he h₂ heq
    · next _ h =>
      cases h₂
      rw [h]
      exact s.unique k₁ k e₁ e h₁ he heq
    · exact s.unique k₁ k₂ e₁ e₂ h₁ h₂ heq

/-- Remove the entry of a key. -/
def remove (s : Numbered κ υ) (k : κ) : Numbered κ υ where
  entries := s.entries.erase k
  next := s.next
  given := by
    intro k' e h
    rw [Dict.lookup_erase_eq] at h
    split at h
    · cases h
    · exact s.given k' e h
  unique := by
    intro k₁ k₂ e₁ e₂ h₁ h₂ heq
    rw [Dict.lookup_erase_eq] at h₁ h₂
    split at h₁ <;> split at h₂
    · cases h₁
    · cases h₁
    · cases h₂
    · exact s.unique k₁ k₂ e₁ e₂ h₁ h₂ heq

/-- One command. -/
inductive Step (s : Numbered κ υ) : Cmd κ υ → Numbered κ υ → Prop where
  | make (k : κ) (v : υ) : Step s (.put k v) (s.make k v)
  | overwrite {k : κ} {e : Nat × υ} (he : s.entries.lookup k = some e) (v : υ) :
      Step s (.put k v) (s.overwrite he v)
  | keep {k : κ} {e : Nat × υ} (v : υ) : s.entries.lookup k = some e → Step s (.put k v) s
  | drop (k : κ) : Step s (.drop k) (s.remove k)

/-- A list of commands. -/
inductive Run : Numbered κ υ → List (Cmd κ υ) → Numbered κ υ → Prop where
  | nil (s : Numbered κ υ) : Run s [] s
  | cons {s s₁ s' : Numbered κ υ} {c : Cmd κ υ} {cs : List (Cmd κ υ)} :
      Step s c s₁ → Run s₁ cs s' → Run s (c :: cs) s'

section runs
variable {s s' : Numbered κ υ}

theorem number_eq_some {k : κ} {i : Nat} :
    s.number k = some i ↔ ∃ v, s.entries.lookup k = some (i, v) := by
  unfold number
  rw [Option.map_eq_some_iff]
  constructor
  · intro h
    obtain ⟨e, he, hi⟩ := h
    exact ⟨e.2, by rw [he, ← hi]⟩
  · intro h
    obtain ⟨v, hv⟩ := h
    exact ⟨(i, v), hv, rfl⟩

theorem lookup_values {k : κ} {v : υ} :
    s.values.lookup k = some v ↔ ∃ i, s.entries.lookup k = some (i, v) := by
  unfold values
  rw [Dict.lookup_mapValues, Option.map_eq_some_iff]
  constructor
  · intro h
    obtain ⟨e, he, hv⟩ := h
    exact ⟨e.1, by rw [he, ← hv]⟩
  · intro h
    obtain ⟨i, hi⟩ := h
    exact ⟨(i, v), hi, rfl⟩

/-- Inserting an entry inserts its value. -/
theorem mapValues_insert (m : Dict κ (Nat × υ)) (k : κ) (e : Nat × υ) :
    Dict.mapValues Prod.snd (m.insert k e) = (Dict.mapValues Prod.snd m).insert k e.2 := by
  apply Finmap.ext_lookup
  intro k'
  rw [Dict.lookup_mapValues, Dict.lookup_insert_eq, Dict.lookup_insert_eq, Dict.lookup_mapValues]
  split <;> rfl

/-- Erasing an entry erases its value. -/
theorem mapValues_erase (m : Dict κ (Nat × υ)) (k : κ) :
    Dict.mapValues Prod.snd (m.erase k) = (Dict.mapValues Prod.snd m).erase k := by
  apply Finmap.ext_lookup
  intro k'
  rw [Dict.lookup_mapValues, Dict.lookup_erase_eq, Dict.lookup_erase_eq, Dict.lookup_mapValues]
  split <;> rfl

/-- **Step.** Less the numbers, a step is one of the keyed store. -/
theorem step_values {c : Cmd κ υ} (h : Step s c s') : Keyed.Step s.values c s'.values := by
  cases h with
  | make k v =>
    rw [show (s.make k v).values = s.values.insert k v from mapValues_insert _ _ _]
    exact Keyed.Step.put k v
  | overwrite he v =>
    rw [show (s.overwrite he v).values = s.values.insert _ v from mapValues_insert _ _ _]
    exact Keyed.Step.put _ v
  | keep v he => exact Keyed.Step.keep _ v _ (lookup_values.mpr ⟨_, he⟩)
  | drop k =>
    rw [show (s.remove k).values = s.values.erase k from mapValues_erase _ _]
    exact Keyed.Step.drop k

/-- **Run.** Less the numbers, a run is one of the keyed store. -/
theorem run_values {cs : List (Cmd κ υ)} (h : Run s cs s') :
    Keyed.Run s.values cs s'.values := by
  induction h with
  | nil s => exact Keyed.Run.nil _
  | cons hstep _ ih => exact Keyed.Run.cons (step_values hstep) ih

/-- **Step.** An entry that the command does not name is kept. -/
theorem step_entry_of_ne {c : Cmd κ υ} (h : Step s c s') {k : κ} (hk : k ≠ c.key) :
    s'.entries.lookup k = s.entries.lookup k := by
  cases h with
  | make => exact Finmap.lookup_insert_of_ne _ hk
  | overwrite => exact Finmap.lookup_insert_of_ne _ hk
  | keep => rfl
  | drop => exact Finmap.lookup_erase_ne hk

/-- **Run.** An entry that no command names is kept, with its number. -/
theorem run_entry_of_not_named {cs : List (Cmd κ υ)} (h : Run s cs s') {k : κ}
    (hk : k ∉ cs.map Cmd.key) : s'.entries.lookup k = s.entries.lookup k := by
  induction h with
  | nil s => rfl
  | cons hstep _ ih =>
    rw [List.map_cons, List.mem_cons, not_or] at hk
    rw [ih hk.2, step_entry_of_ne hstep hk.1]

/-- The numbers below `b` have been given, and `k` does not have one of them. -/
structure Past (b : Nat) (k : κ) (s : Numbered κ υ) : Prop where
  given : b ≤ s.next
  number : ∀ e, s.entries.lookup k = some e → b ≤ e.1

/-- **Step.** A key does not get a number of the past. -/
theorem step_past {c : Cmd κ υ} (h : Step s c s') {b : Nat} {k : κ} (hp : Past b k s) :
    Past b k s' := by
  cases h with
  | make k' v =>
    refine { given := Nat.le_succ_of_le hp.given, number := ?_ }
    intro e he
    rw [show (s.make k' v).entries = s.entries.insert k' (s.next, v) from rfl,
      Dict.lookup_insert_eq] at he
    split at he
    · cases he
      exact hp.given
    · exact hp.number e he
  | @overwrite k' e' he' v =>
    refine { given := hp.given, number := ?_ }
    intro e he
    rw [show (s.overwrite he' v).entries = s.entries.insert k' (e'.1, v) from rfl,
      Dict.lookup_insert_eq] at he
    split at he
    · next heq =>
      cases he
      rw [← heq] at he'
      exact hp.number e' he'
    · exact hp.number e he
  | keep => exact hp
  | drop k' =>
    refine { given := hp.given, number := ?_ }
    intro e he
    rw [show (s.remove k').entries = s.entries.erase k' from rfl, Dict.lookup_erase_eq] at he
    split at he
    · cases he
    · exact hp.number e he

theorem run_past {cs : List (Cmd κ υ)} (h : Run s cs s') {b : Nat} {k : κ} (hp : Past b k s) :
    Past b k s' := by
  induction h with
  | nil s => exact hp
  | cons hstep _ ih => exact ih (step_past hstep hp)

/-- The numbers that have been given only grow. -/
theorem step_next_le {c : Cmd κ υ} (h : Step s c s') : s.next ≤ s'.next := by
  cases h with
  | make => exact Nat.le_succ _
  | overwrite => exact Nat.le_refl _
  | keep => exact Nat.le_refl _
  | drop => exact Nat.le_refl _

/-- **Run.** A key that a command drops does not have its number afterwards. -/
theorem run_number_of_drop {cs : List (Cmd κ υ)} (h : Run s cs s') {k : κ}
    (hk : Cmd.drop k ∈ cs) {i : Nat} (hi : i < s.next) : s'.number k ≠ some i := by
  -- the numbers given before the drop are of the past from the drop on
  have hpast : Past s.next k s' := by
    clear hi
    induction h with
    | nil s => cases hk
    | @cons s s₁ s' c cs hstep hrest ih =>
      rcases List.mem_cons.mp hk with heq | hmem
      · -- this command is the drop: the key has no entry after it
        rw [← heq] at hstep
        cases hstep
        refine run_past hrest { given := Nat.le_refl _, number := ?_ }
        intro e he
        rw [show (s.remove k).entries = s.entries.erase k from rfl, Finmap.lookup_erase] at he
        cases he
      · have hlater := ih hmem
        exact { given := Nat.le_trans (step_next_le hstep) hlater.given
                number := fun e he => Nat.le_trans (step_next_le hstep) (hlater.number e he) }
  intro hnum
  obtain ⟨v, hv⟩ := number_eq_some.mp hnum
  exact absurd (hpast.number _ hv) (Nat.not_le_of_lt hi)

end runs

end Numbered

end Keyed
