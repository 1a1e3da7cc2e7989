import Mathlib.Data.Finmap

/-! # Dictionaries and Their Iteration Orders

  A dictionary is a `Finmap`: a finite map whose iteration order is not part
  of its value. A loop over a dictionary or a set is modelled by a list of the
  keys in the order in which they come up, which `IterOrder` ties to the set
  of keys; a theorem about the loop quantifies over every such list.

  - `IterOrder`: a list enumerates a finite set.
  - `Dict.ofPairs`: the dictionary built by assigning pairs one after another.
  - `Dict.mapValues`: a function applied to every value.
-/

/-- A finite map from `κ` to `υ`. -/
abbrev Dict (κ υ : Type*) := Finmap (fun _ : κ => υ)

/-- `ks` lists the elements of `s`, each once: one order in which a loop may
    visit them. -/
def IterOrder {α : Type*} [DecidableEq α] (ks : List α) (s : Finset α) : Prop :=
  ks.Nodup ∧ ks.toFinset = s

instance {α : Type*} [DecidableEq α] (ks : List α) (s : Finset α) :
    Decidable (IterOrder ks s) := inferInstanceAs (Decidable (_ ∧ _))

/-- Every finite set can be enumerated. -/
theorem iterOrder_toList {α : Type*} [DecidableEq α] (s : Finset α) : IterOrder s.toList s :=
  ⟨s.nodup_toList, s.toList_toFinset⟩

namespace IterOrder

variable {α : Type*} [DecidableEq α] {ks : List α} {s : Finset α}

theorem mem_iff (h : IterOrder ks s) {a : α} : a ∈ ks ↔ a ∈ s := by
  rw [← h.2, List.mem_toFinset]

theorem eq_nil_iff (h : IterOrder ks s) : ks = [] ↔ s = ∅ := by
  rw [← h.2, List.toFinset_eq_empty_iff]

/-- Two orders of one set are permutations of each other. -/
theorem perm {ks' : List α} (h : IterOrder ks s) (h' : IterOrder ks' s) :
    ks.Perm ks' :=
  (List.perm_ext_iff_of_nodup h.1 h'.1).mpr fun _ => by rw [h.mem_iff, h'.mem_iff]

end IterOrder

namespace Dict

variable {κ υ : Type*} [DecidableEq κ]

@[simp] theorem mem_keys_iff {m : Dict κ υ} {k : κ} :
    k ∈ m.keys ↔ ∃ v, m.lookup k = some v := by
  rw [Finmap.mem_keys, Finmap.mem_iff]

theorem lookup_eq_none_of_not_mem_keys {m : Dict κ υ} {k : κ} (h : k ∉ m.keys) :
    m.lookup k = none := by
  rw [Finmap.lookup_eq_none, ← Finmap.mem_keys]; exact h

theorem keys_eq_empty_iff {m : Dict κ υ} : m.keys = ∅ ↔ m = ∅ := by
  constructor
  · intro h
    apply Finmap.ext_lookup
    intro k
    rw [lookup_eq_none_of_not_mem_keys (by rw [h]; simp), Finmap.lookup_empty]
  · rintro rfl; exact Finmap.keys_empty

theorem lookup_insert_eq (m : Dict κ υ) (k k' : κ) (v : υ) :
    (m.insert k v).lookup k' = if k' = k then some v else m.lookup k' := by
  by_cases h : k' = k
  · subst h; simp
  · rw [if_neg h, Finmap.lookup_insert_of_ne _ h]

theorem lookup_erase_eq (m : Dict κ υ) (k k' : κ) :
    (m.erase k).lookup k' = if k' = k then none else m.lookup k' := by
  by_cases h : k' = k
  · subst h; simp
  · rw [if_neg h, Finmap.lookup_erase_ne h]

theorem card_keys_insert_le (m : Dict κ υ) (k : κ) (v : υ) :
    (m.insert k v).keys.card ≤ m.keys.card + 1 := by
  have hsub : (m.insert k v).keys ⊆ insert k m.keys := by
    intro k' hk'
    rw [Finmap.mem_keys, Finmap.mem_insert] at hk'
    rw [Finset.mem_insert, Finmap.mem_keys]
    exact hk'
  exact (Finset.card_le_card hsub).trans (Finset.card_insert_le k m.keys)

/-! ### Assignment in sequence -/

/-- Assign the pairs one after another, so that the last one wins. -/
def ofPairs (l : List (κ × υ)) : Dict κ υ :=
  l.foldl (fun m p => m.insert p.1 p.2) ∅

theorem lookup_foldl_insert_of_not_mem (l : List (κ × υ)) (m : Dict κ υ) {k : κ}
    (h : k ∉ l.map Prod.fst) :
    (l.foldl (fun m p => m.insert p.1 p.2) m).lookup k = m.lookup k := by
  induction l generalizing m with
  | nil => rfl
  | cons p ps ih =>
    rw [List.map_cons, List.mem_cons, not_or] at h
    rw [List.foldl_cons, ih _ h.2, Finmap.lookup_insert_of_ne _ h.1]

theorem lookup_foldl_insert_of_mem (l : List (κ × υ)) (m : Dict κ υ) {k : κ} {v : υ}
    (hnd : (l.map Prod.fst).Nodup) (h : (k, v) ∈ l) :
    (l.foldl (fun m p => m.insert p.1 p.2) m).lookup k = some v := by
  induction l generalizing m with
  | nil => cases h
  | cons p ps ih =>
    rw [List.map_cons, List.nodup_cons] at hnd
    rw [List.foldl_cons]
    rcases List.mem_cons.mp h with heq | hmem
    · subst heq
      rw [lookup_foldl_insert_of_not_mem ps _ hnd.1, Finmap.lookup_insert]
    · exact ih _ hnd.2 hmem

/-- With pairwise different keys, the dictionary holds exactly the pairs. -/
theorem lookup_ofPairs {l : List (κ × υ)} (hnd : (l.map Prod.fst).Nodup) {k : κ} {v : υ} :
    (ofPairs l).lookup k = some v ↔ (k, v) ∈ l := by
  constructor
  · intro h
    by_cases hk : k ∈ l.map Prod.fst
    · obtain ⟨⟨k', w⟩, hmem, rfl⟩ := List.mem_map.mp hk
      have hw := lookup_foldl_insert_of_mem l ∅ hnd hmem
      rw [ofPairs, hw] at h
      rw [Option.some.inj h] at hmem
      exact hmem
    · rw [ofPairs, lookup_foldl_insert_of_not_mem l ∅ hk, Finmap.lookup_empty] at h
      cases h
  · exact lookup_foldl_insert_of_mem l ∅ hnd

/-- With pairwise different keys, the order of assignment does not matter. -/
theorem ofPairs_perm {l l' : List (κ × υ)} (hnd : (l.map Prod.fst).Nodup)
    (h : l.Perm l') : ofPairs l = ofPairs l' := by
  have hnd' : (l'.map Prod.fst).Nodup := (h.map Prod.fst).nodup_iff.mp hnd
  apply Finmap.ext_lookup
  intro k
  apply Option.ext
  intro v
  rw [lookup_ofPairs hnd, lookup_ofPairs hnd', h.mem_iff]

/-- Assigning the entries of a dictionary, in any order, builds it again. -/
theorem ofPairs_eq {l : List (κ × υ)} {m : Dict κ υ} (horder : IterOrder (l.map Prod.fst) m.keys)
    (hentries : ∀ p ∈ l, m.lookup p.1 = some p.2) : ofPairs l = m := by
  apply Finmap.ext_lookup
  intro k
  apply Option.ext
  intro v
  rw [lookup_ofPairs horder.1]
  constructor
  · intro hmem
    exact hentries (k, v) hmem
  · intro hv
    have hk : k ∈ l.map Prod.fst := horder.mem_iff.mpr (mem_keys_iff.mpr ⟨v, hv⟩)
    obtain ⟨⟨k', w⟩, hmem, rfl⟩ := List.mem_map.mp hk
    rw [hentries _ hmem] at hv
    rwa [← Option.some.inj hv]

theorem ofPairs_concat (l : List (κ × υ)) (p : κ × υ) :
    ofPairs (l ++ [p]) = (ofPairs l).insert p.1 p.2 := by
  unfold ofPairs
  rw [List.foldl_append]
  rfl

/-- A key has the value of the last pair that assigns it. -/
theorem lookup_ofPairs_reverse (l : List (κ × υ)) (k : κ) :
    (ofPairs l).lookup k = l.reverse.lookup k := by
  induction l using List.reverseRecOn with
  | nil => exact Finmap.lookup_empty k
  | append_singleton l p ih =>
    rw [ofPairs_concat, lookup_insert_eq, ih, List.reverse_append, List.reverse_singleton,
      List.singleton_append, List.lookup_cons]
    by_cases hk : k = p.1
    · rw [if_pos hk, beq_iff_eq.mpr hk]
    · rw [if_neg hk, beq_eq_false_iff_ne.mpr hk]

/-- Elements that are entered under their keys: a key has the value of the last
    element with this key. -/
theorem lookup_ofPairs_last {α : Type*} (key : α → κ) (value : α → υ) (xs : List α) {k : κ}
    {v : υ} :
    (ofPairs (xs.map fun x => (key x, value x))).lookup k = some v ↔
      ∃ before x after, xs = before ++ x :: after ∧ key x = k ∧ value x = v ∧
        ∀ y ∈ after, key y ≠ k := by
  rw [lookup_ofPairs_reverse, List.lookup_eq_some_iff]
  constructor
  · intro h
    obtain ⟨after, before, hsplit, hnot⟩ := h
    -- the first pair of the reversed list is the last of the list
    have hpairs : xs.map (fun x => (key x, value x)) =
        before.reverse ++ (k, v) :: after.reverse := by
      rw [← List.reverse_reverse (xs.map _), hsplit, List.reverse_append, List.reverse_cons,
        List.append_assoc]
      rfl
    obtain ⟨ys, rest, rfl, _, hrest⟩ := List.map_eq_append_iff.mp hpairs
    obtain ⟨x, ys', rfl, hx, hys'⟩ := List.map_eq_cons_iff.mp hrest
    rw [Prod.mk.injEq] at hx
    refine ⟨ys, x, ys', rfl, hx.1, hx.2, ?_⟩
    intro y hy heq
    have hmem : (key y, value y) ∈ after := by
      rw [← List.mem_reverse, ← hys']
      exact List.mem_map_of_mem hy
    exact absurd heq.symm (bne_iff_ne.mp (hnot _ hmem))
  · intro h
    obtain ⟨before, x, after, rfl, rfl, rfl, hnot⟩ := h
    refine ⟨(after.map fun y => (key y, value y)).reverse,
      (before.map fun y => (key y, value y)).reverse, ?_, ?_⟩
    · rw [List.map_append, List.map_cons, List.reverse_append, List.reverse_cons,
        List.append_assoc]
      rfl
    · intro p hp
      obtain ⟨y, hy, rfl⟩ := List.mem_map.mp (List.mem_reverse.mp hp)
      exact bne_iff_ne.mpr fun heq => hnot y hy heq.symm

theorem mem_keys_ofPairs {l : List (κ × υ)} {k : κ} :
    k ∈ (ofPairs l).keys ↔ k ∈ l.map Prod.fst := by
  induction l using List.reverseRecOn with
  | nil => simp [ofPairs]
  | append_singleton l p ih =>
    rw [ofPairs_concat, Finmap.mem_keys, Finmap.mem_insert, ← Finmap.mem_keys, ih, List.map_append,
      List.map_singleton, List.mem_append, List.mem_singleton, or_comm]

/-- The keys of a dictionary that is built from pairs. -/
theorem keys_ofPairs (l : List (κ × υ)) : (ofPairs l).keys = (l.map Prod.fst).toFinset := by
  ext k
  rw [mem_keys_ofPairs, List.mem_toFinset]

/-- A value comes from one of the pairs. -/
theorem mem_of_lookup_ofPairs {l : List (κ × υ)} {k : κ} {v : υ}
    (h : (ofPairs l).lookup k = some v) : (k, v) ∈ l := by
  rw [lookup_ofPairs_reverse] at h
  obtain ⟨before, after, hsplit, _⟩ := List.lookup_eq_some_iff.mp h
  rw [← List.mem_reverse, hsplit]
  exact List.mem_append_right _ List.mem_cons_self

/-- A key that is assigned has the value of its last assignment, whatever was there. -/
theorem lookup_foldl_insert_congr (l : List (κ × υ)) (m m' : Dict κ υ) {k : κ}
    (h : k ∈ l.map Prod.fst) :
    (l.foldl (fun m p => m.insert p.1 p.2) m).lookup k =
      (l.foldl (fun m p => m.insert p.1 p.2) m').lookup k := by
  induction l generalizing m m' with
  | nil => cases h
  | cons p ps ih =>
    rw [List.foldl_cons, List.foldl_cons]
    by_cases hmem : k ∈ ps.map Prod.fst
    · exact ih _ _ hmem
    · rw [lookup_foldl_insert_of_not_mem ps _ hmem, lookup_foldl_insert_of_not_mem ps _ hmem]
      have hk : k = p.1 := (List.mem_cons.mp h).resolve_right hmem
      rw [hk, Finmap.lookup_insert, Finmap.lookup_insert]

/-- Assignments whose keys are all assigned again do not matter. -/
theorem ofPairs_append_of_covered {l l' : List (κ × υ)}
    (h : ∀ k ∈ l.map Prod.fst, k ∈ l'.map Prod.fst) : ofPairs (l ++ l') = ofPairs l' := by
  apply Finmap.ext_lookup
  intro k
  unfold ofPairs
  rw [List.foldl_append]
  by_cases hk : k ∈ l'.map Prod.fst
  · exact lookup_foldl_insert_congr l' _ _ hk
  · rw [lookup_foldl_insert_of_not_mem l' _ hk, lookup_foldl_insert_of_not_mem l' _ hk,
      lookup_foldl_insert_of_not_mem l _ fun hmem => hk (h k hmem)]

/-! ### Mapping over the values -/

/-- Apply `f` to every value. -/
def mapValues {ω : Type*} (f : υ → ω) (m : Dict κ υ) : Dict κ ω :=
  Finmap.keysLookupEquiv.symm
    ⟨(m.keys, fun k => (m.lookup k).map f), fun k => by
      rw [Option.isSome_map, Finmap.lookup_isSome, Finmap.mem_keys]⟩

@[simp] theorem lookup_mapValues {ω : Type*} (f : υ → ω) (m : Dict κ υ) (k : κ) :
    (mapValues f m).lookup k = (m.lookup k).map f :=
  Finmap.keysLookupEquiv_symm_apply_lookup _ k

/-- A map that fixes every value changes nothing. -/
theorem mapValues_eq_self {f : υ → υ} {m : Dict κ υ}
    (h : ∀ k v, m.lookup k = some v → f v = v) : mapValues f m = m := by
  apply Finmap.ext_lookup
  intro k
  rw [lookup_mapValues]
  cases hk : m.lookup k with
  | none => rfl
  | some v => rw [Option.map_some, h k v hk]

/-- Erasing a key that is not there changes nothing. -/
theorem erase_eq_self {k : κ} {m : Dict κ υ} (h : m.lookup k = none) : m.erase k = m := by
  apply Finmap.ext_lookup
  intro k'
  rw [lookup_erase_eq]
  split
  · next heq => rw [heq, h]
  · rfl

end Dict
