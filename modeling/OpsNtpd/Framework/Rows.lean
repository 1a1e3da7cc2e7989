import OpsNtpd.Framework.Dict

/-! # Tables as Lists of Rows

  A table is the list of its rows in the order in which a loop meets them.
  The lemmas here are about tables in which one column is an index, that is,
  holds pairwise different values: `f` is the column.

  - `find_iff`: a search by index finds the row, if there is one.
  - `updateWhere`, `mem_updateWhere`: rewriting the rows with one index value.
  - `index`: the dictionary an indexed table stands for, and what insertion,
    update and deletion of a row do to it.
  - `filter_filterMap_eq`: the one result that an argument is responsible for.
  - `foldlM_index`: a loop over the index values that builds this dictionary.
-/

namespace Rows

variable {ρ κ : Type*} {f : ρ → κ} {rows : List ρ}

/-- In an indexed table a row is determined by its index value. -/
theorem eq_of_index (hnd : (rows.map f).Nodup) {r r' : ρ} (h : r ∈ rows) (h' : r' ∈ rows)
    (heq : f r = f r') : r = r' :=
  List.inj_on_of_nodup_map hnd h h' heq

variable [DecidableEq κ]

/-- A search by index finds the row that has the value. -/
theorem find_iff (hnd : (rows.map f).Nodup) {k : κ} {r : ρ} :
    rows.find? (fun r => f r = k) = some r ↔ r ∈ rows ∧ f r = k := by
  constructor
  · intro h
    exact ⟨List.mem_of_find?_eq_some h, by simpa using List.find?_some h⟩
  · rintro ⟨hmem, hk⟩
    cases hfind : rows.find? (fun r => f r = k) with
    | none =>
      have := List.find?_eq_none.mp hfind r hmem
      simp [hk] at this
    | some r' =>
      have hmem' := List.mem_of_find?_eq_some hfind
      have hk' : f r' = k := by simpa using List.find?_some hfind
      rw [eq_of_index hnd hmem' hmem (hk'.trans hk.symm)]

theorem find_none_iff {k : κ} :
    rows.find? (fun r => f r = k) = none ↔ k ∉ rows.map f := by
  rw [List.find?_eq_none]
  simp

/-- Rewrite by `g` the rows whose index value is `k`. -/
def updateWhere (f : ρ → κ) (k : κ) (g : ρ → ρ) (rows : List ρ) : List ρ :=
  rows.map fun r => if f r = k then g r else r

theorem mem_updateWhere {k : κ} {g : ρ → ρ} {r : ρ} :
    r ∈ updateWhere f k g rows ↔
      (r ∈ rows ∧ f r ≠ k) ∨ ∃ r₀ ∈ rows, f r₀ = k ∧ r = g r₀ := by
  unfold updateWhere
  rw [List.mem_map]
  constructor
  · rintro ⟨r₀, hmem, rfl⟩
    by_cases hk : f r₀ = k
    · rw [if_pos hk]; exact Or.inr ⟨r₀, hmem, hk, rfl⟩
    · rw [if_neg hk]; exact Or.inl ⟨hmem, hk⟩
  · rintro (⟨hmem, hk⟩ | ⟨r₀, hmem, hk, rfl⟩)
    · exact ⟨r, hmem, if_neg hk⟩
    · exact ⟨r₀, hmem, if_pos hk⟩

/-- A column that `g` leaves alone is the same after the update. -/
theorem map_updateWhere {σ : Type*} (col : ρ → σ) {k : κ} {g : ρ → ρ}
    (hg : ∀ r, col (g r) = col r) :
    (updateWhere f k g rows).map col = rows.map col := by
  unfold updateWhere
  rw [List.map_map]
  apply List.map_congr_left
  intro r _
  by_cases hk : f r = k
  · simp [hk, hg]
  · simp [hk]

@[simp] theorem length_updateWhere (k : κ) (g : ρ → ρ) :
    (updateWhere f k g rows).length = rows.length := by
  simp [updateWhere]

/-- Rewriting a row into itself changes nothing. -/
theorem updateWhere_eq_self {k : κ} {g : ρ → ρ} (h : ∀ r ∈ rows, f r = k → g r = r) :
    updateWhere f k g rows = rows := by
  unfold updateWhere
  calc rows.map (fun r => if f r = k then g r else r)
      = rows.map id := by
        apply List.map_congr_left
        intro r hr
        by_cases hk : f r = k
        · rw [if_pos hk, h r hr hk]; rfl
        · rw [if_neg hk]; rfl
    _ = rows := List.map_id rows

/-- Rewriting the row `r`, found by its identity, is rewriting the rows with
    its index value. -/
theorem updateWhere_ident {ι : Type*} [DecidableEq ι] {ident : ρ → ι} {g : ρ → ρ} {r : ρ}
    (hid : (rows.map ident).Nodup) (hnd : (rows.map f).Nodup) (hr : r ∈ rows) :
    updateWhere ident (ident r) g rows = updateWhere f (f r) g rows := by
  unfold updateWhere
  apply List.map_congr_left
  intro r' hr'
  by_cases hk : f r' = f r
  · rw [if_pos hk, eq_of_index hnd hr' hr hk, if_pos rfl]
  · have hident : ident r' ≠ ident r := fun h => hk (by rw [eq_of_index hid hr' hr h])
    rw [if_neg hk, if_neg hident]

/-- A row with a fresh identity keeps identities unique. -/
theorem nodup_cons_fresh {ident : ρ → Nat} {n : Nat} {r : ρ} (hid : (rows.map ident).Nodup)
    (hlt : ∀ r ∈ rows, ident r < n) (hr : ident r = n) : ((r :: rows).map ident).Nodup := by
  rw [List.map_cons, List.nodup_cons, List.mem_map]
  refine ⟨?_, hid⟩
  rintro ⟨r', hr', heq⟩
  have hfresh := hlt r' hr'
  omega

theorem nodup_map_filter {σ : Type*} (col : ρ → σ) (p : ρ → Bool)
    (hnd : (rows.map col).Nodup) : ((rows.filter p).map col).Nodup :=
  List.Nodup.sublist (List.Sublist.map col (List.filter_sublist)) hnd

/-! ### The dictionary of an indexed table -/

/-- The dictionary from the values of column `f` to those of `v`. -/
def index {υ : Type*} (f : ρ → κ) (v : ρ → υ) (rows : List ρ) : Dict κ υ :=
  Dict.ofPairs (rows.map fun r => (f r, v r))

variable {υ : Type*} {v : ρ → υ}

omit [DecidableEq κ] in
theorem map_fst_pairs : (rows.map fun r => (f r, v r)).map Prod.fst = rows.map f := by
  rw [List.map_map]; rfl

theorem lookup_index (hnd : (rows.map f).Nodup) {k : κ} {x : υ} :
    (index f v rows).lookup k = some x ↔ ∃ r ∈ rows, f r = k ∧ v r = x := by
  unfold index
  rw [Dict.lookup_ofPairs (by rw [map_fst_pairs]; exact hnd), List.mem_map]
  simp only [Prod.mk.injEq]

theorem lookup_index_of_mem (hnd : (rows.map f).Nodup) {r : ρ} (h : r ∈ rows) :
    (index f v rows).lookup (f r) = some (v r) :=
  (lookup_index hnd).mpr ⟨r, h, rfl, rfl⟩

theorem lookup_index_eq_none (hnd : (rows.map f).Nodup) {k : κ} :
    (index f v rows).lookup k = none ↔ k ∉ rows.map f := by
  rw [Option.eq_none_iff_forall_ne_some]
  simp only [ne_eq, lookup_index hnd, List.mem_map]
  constructor
  · rintro h ⟨r, hr, hk⟩
    exact h (v r) ⟨r, hr, hk, rfl⟩
  · rintro h x ⟨r, hr, hk, _⟩
    exact h ⟨r, hr, hk⟩

theorem keys_index (hnd : (rows.map f).Nodup) :
    (index f v rows).keys = (rows.map f).toFinset := by
  ext k
  rw [Dict.mem_keys_iff, List.mem_toFinset, List.mem_map]
  simp only [lookup_index hnd]
  constructor
  · rintro ⟨x, r, hr, hk, _⟩; exact ⟨r, hr, hk⟩
  · rintro ⟨r, hr, hk⟩; exact ⟨v r, r, hr, hk, rfl⟩

theorem card_index (hnd : (rows.map f).Nodup) :
    (index f v rows).keys.card = rows.length := by
  rw [keys_index hnd, List.toFinset_card_of_nodup hnd, List.length_map]

theorem index_perm {rows' : List ρ} (hnd : (rows.map f).Nodup) (h : rows.Perm rows') :
    index f v rows = index f v rows' :=
  Dict.ofPairs_perm (by rw [map_fst_pairs]; exact hnd) (h.map _)

/-- Inserting a row with a new index value. -/
theorem index_cons {r : ρ} (hnd : ((r :: rows).map f).Nodup) :
    index f v (r :: rows) = (index f v rows).insert (f r) (v r) := by
  have hnd' : (rows.map f).Nodup := (List.nodup_cons.mp hnd).2
  have hnew : f r ∉ rows.map f := (List.nodup_cons.mp hnd).1
  apply Finmap.ext_lookup
  intro k
  rw [Dict.lookup_insert_eq]
  by_cases hk : k = f r
  · rw [if_pos hk, hk]
    exact lookup_index_of_mem hnd List.mem_cons_self
  · rw [if_neg hk]
    apply Option.ext
    intro x
    rw [lookup_index hnd, lookup_index hnd']
    constructor
    · rintro ⟨r', hr', hk', hx⟩
      rcases List.mem_cons.mp hr' with rfl | hmem
      · exact absurd hk'.symm hk
      · exact ⟨r', hmem, hk', hx⟩
    · rintro ⟨r', hr', hk', hx⟩
      exact ⟨r', List.mem_cons_of_mem _ hr', hk', hx⟩

/-- Updating the row `r`, found by its identity, keeps the index column. -/
theorem index_updateWhere {ι : Type*} [DecidableEq ι] {ident : ρ → ι} {g : ρ → ρ} {r : ρ}
    (hid : (rows.map ident).Nodup) (hnd : (rows.map f).Nodup) (hr : r ∈ rows)
    (hg : ∀ r, f (g r) = f r) :
    index f v (updateWhere ident (ident r) g rows) =
      (index f v rows).insert (f r) (v (g r)) := by
  have hnd' : ((updateWhere ident (ident r) g rows).map f).Nodup := by
    rw [map_updateWhere f hg]; exact hnd
  apply Finmap.ext_lookup
  intro k
  rw [Dict.lookup_insert_eq]
  apply Option.ext
  intro x
  rw [lookup_index hnd']
  by_cases hk : k = f r
  · subst hk
    rw [if_pos rfl, Option.some_inj]
    have hmem : g r ∈ updateWhere ident (ident r) g rows :=
      mem_updateWhere.mpr (Or.inr ⟨r, hr, rfl, rfl⟩)
    constructor
    · rintro ⟨r', hr', hk', hx⟩
      rw [← hx, eq_of_index hnd' hr' hmem (hk'.trans (hg r).symm)]
    · intro hx
      exact ⟨g r, hmem, hg r, hx⟩
  · rw [if_neg hk, lookup_index hnd]
    constructor
    · rintro ⟨r', hr', hk', hx⟩
      rcases mem_updateWhere.mp hr' with ⟨hmem, _⟩ | ⟨r₀, hmem, hident, rfl⟩
      · exact ⟨r', hmem, hk', hx⟩
      · -- the rewritten row is `r`, whose index value is not `k`
        have hr₀ : r₀ = r := eq_of_index hid hmem hr hident
        rw [hg, hr₀] at hk'
        exact absurd hk'.symm hk
    · rintro ⟨r', hr', hk', hx⟩
      refine ⟨r', mem_updateWhere.mpr (Or.inl ⟨hr', ?_⟩), hk', hx⟩
      intro hident
      have hrr : r' = r := eq_of_index hid hr' hr hident
      rw [hrr] at hk'
      exact hk hk'.symm

/-- Deleting the row `r`, found by its identity. -/
theorem index_filter {ι : Type*} [DecidableEq ι] {ident : ρ → ι} {r : ρ}
    (hid : (rows.map ident).Nodup) (hnd : (rows.map f).Nodup) (hr : r ∈ rows) :
    index f v (rows.filter fun r' => ident r' ≠ ident r) = (index f v rows).erase (f r) := by
  have hnd' := nodup_map_filter f (fun r' => ident r' ≠ ident r) hnd
  apply Finmap.ext_lookup
  intro k
  rw [Dict.lookup_erase_eq]
  apply Option.ext
  intro x
  rw [lookup_index hnd']
  by_cases hk : k = f r
  · subst hk
    rw [if_pos rfl]
    constructor
    · rintro ⟨r', hr', hk', _⟩
      obtain ⟨hmem, hne⟩ := List.mem_filter.mp hr'
      have hrr : r' = r := eq_of_index hnd hmem hr hk'
      simp [hrr] at hne
    · intro h; cases h
  · rw [if_neg hk, lookup_index hnd]
    constructor
    · rintro ⟨r', hr', hk', hx⟩
      exact ⟨r', (List.mem_filter.mp hr').1, hk', hx⟩
    · rintro ⟨r', hr', hk', hx⟩
      refine ⟨r', List.mem_filter.mpr ⟨hr', ?_⟩, hk', hx⟩
      rw [decide_eq_true_eq]
      intro hident
      have hrr : r' = r := eq_of_index hid hr' hr hident
      rw [hrr] at hk'
      exact hk hk'.symm

/-- Rewriting every row, keeping the index column. -/
theorem index_map {ω : Type*} {v' : ρ → ω} {h : ρ → ρ} {φ : υ → ω} (hnd : (rows.map f).Nodup)
    (hf : ∀ r ∈ rows, f (h r) = f r) (hv : ∀ r ∈ rows, v' (h r) = φ (v r)) :
    index f v' (rows.map h) = Dict.mapValues φ (index f v rows) := by
  have hcol : (rows.map h).map f = rows.map f := by
    rw [List.map_map]
    exact List.map_congr_left hf
  apply Finmap.ext_lookup
  intro k
  apply Option.ext
  intro x
  rw [lookup_index (by rw [hcol]; exact hnd), Dict.lookup_mapValues, Option.map_eq_some_iff]
  simp only [lookup_index hnd, List.mem_map]
  constructor
  · rintro ⟨_, ⟨r, hr, rfl⟩, hk, hx⟩
    exact ⟨v r, ⟨r, hr, (hf r hr).symm.trans hk, rfl⟩, (hv r hr).symm.trans hx⟩
  · rintro ⟨_, ⟨r, hr, hk, rfl⟩, hx⟩
    exact ⟨h r, ⟨r, hr, rfl⟩, (hf r hr).trans hk, (hv r hr).trans hx⟩

/-- The dictionary depends only on the values at the rows of the table. -/
theorem index_congr {v' : ρ → υ} (hv : ∀ r ∈ rows, v' r = v r) :
    index f v' rows = index f v rows := by
  have hpairs : rows.map (fun r => (f r, v' r)) = rows.map (fun r => (f r, v r)) :=
    List.map_congr_left fun r hr => by rw [hv r hr]
  unfold index
  rw [hpairs]

/-- Tables with the same dictionary have the same pairs, up to their order. -/
theorem perm_of_index_eq {rows' : List ρ} {v' : ρ → υ} (hnd : (rows.map f).Nodup)
    (hnd' : (rows'.map f).Nodup) (h : index f v rows = index f v' rows') :
    (rows.map fun r => (f r, v r)).Perm (rows'.map fun r => (f r, v' r)) := by
  have hpairs : ∀ {l : List ρ} {w : ρ → υ}, (l.map f).Nodup →
      (l.map fun r => (f r, w r)).Nodup := by
    intro l w hl
    have hfst : ((l.map fun r => (f r, w r)).map Prod.fst).Nodup := by
      rw [map_fst_pairs]; exact hl
    exact List.Nodup.of_map _ hfst
  rw [List.perm_ext_iff_of_nodup (hpairs hnd) (hpairs hnd')]
  intro p
  obtain ⟨k, x⟩ := p
  have hl := lookup_index (v := v) hnd (k := k) (x := x)
  have hr := lookup_index (v := v') hnd' (k := k) (x := x)
  rw [h] at hl
  simp only [List.mem_map, Prod.mk.injEq]
  exact hl.symm.trans hr

/-! ### Functions that may fail -/

theorem mapM_cons_eq_some {α β : Type} {f : α → Option β} {x : α} {xs : List α} {ys : List β}
    (h : (x :: xs).mapM f = some ys) :
    ∃ y ys', f x = some y ∧ xs.mapM f = some ys' ∧ ys = y :: ys' := by
  rw [List.mapM_cons] at h
  obtain ⟨y, hy, hrest⟩ := Option.bind_eq_some_iff.mp h
  obtain ⟨ys', hys', heq⟩ := Option.bind_eq_some_iff.mp hrest
  exact ⟨y, ys', hy, hys', (Option.some.inj heq).symm⟩

theorem exists_of_mem_mapM {α β : Type} {f : α → Option β} {xs : List α} {ys : List β}
    (h : xs.mapM f = some ys) {y : β} (hy : y ∈ ys) : ∃ x ∈ xs, f x = some y := by
  induction xs generalizing ys with
  | nil => cases h; cases hy
  | cons x xs ih =>
    obtain ⟨y₀, ys', hy₀, hys', rfl⟩ := mapM_cons_eq_some h
    rcases List.mem_cons.mp hy with rfl | hmem
    · exact ⟨x, List.mem_cons_self, hy₀⟩
    · obtain ⟨x', hx', hfx'⟩ := ih hys' hmem
      exact ⟨x', List.mem_cons_of_mem _ hx', hfx'⟩

/-- A function that may fail succeeds on a list when it does on each element. -/
theorem exists_mapM_iff {α β : Type} {f : α → Option β} {xs : List α} :
    (∃ ys, xs.mapM f = some ys) ↔ ∀ x ∈ xs, ∃ y, f x = some y := by
  induction xs with
  | nil => exact iff_of_true ⟨[], rfl⟩ fun x hx => absurd hx List.not_mem_nil
  | cons x xs ih =>
    rw [List.forall_mem_cons, ← ih]
    constructor
    · intro hex
      obtain ⟨ys, hys⟩ := hex
      obtain ⟨y, ys', hy, hys', _⟩ := mapM_cons_eq_some hys
      exact ⟨⟨y, hy⟩, ys', hys'⟩
    · intro hand
      obtain ⟨⟨y, hy⟩, ys', hys'⟩ := hand
      refine ⟨y :: ys', ?_⟩
      rw [List.mapM_cons, hy, hys']
      rfl

theorem forall_of_mapM {α β : Type} {f : α → Option β} {xs : List α} {ys : List β}
    (h : xs.mapM f = some ys) : xs.length = ys.length ∧ ∀ x ∈ xs, ∃ y, f x = some y := by
  refine ⟨?_, exists_mapM_iff.mp ⟨ys, h⟩⟩
  induction xs generalizing ys with
  | nil =>
    cases h
    rfl
  | cons x xs ih =>
    obtain ⟨y, ys', _, hys', rfl⟩ := mapM_cons_eq_some h
    rw [List.length_cons, List.length_cons, ih hys']

/-- The results stand in the order of the arguments. -/
theorem getElem?_of_mapM {α β : Type} {f : α → Option β} {xs : List α} {ys : List β}
    (h : xs.mapM f = some ys) {i : Nat} {x : α} (hx : xs[i]? = some x) : ys[i]? = f x := by
  induction xs generalizing ys i with
  | nil => cases hx
  | cons x₀ xs ih =>
    obtain ⟨y, ys', hy, hys', rfl⟩ := mapM_cons_eq_some h
    cases i with
    | zero =>
      obtain rfl := Option.some.inj hx
      exact hy.symm
    | succ i => exact ih hys' hx

/-- A sequence succeeds if both of its parts do. -/
theorem bind_eq_ok {ε α β : Type} {x : Except ε α} {f : α → Except ε β} {b : β}
    (h : x.bind f = .ok b) : ∃ a, x = .ok a ∧ f a = .ok b := by
  cases x with
  | error e => cases h
  | ok a => exact ⟨a, rfl, h⟩

/-- What a loop has put together comes from its elements. -/
theorem exists_of_mem_mapM_ok {ε α β : Type} {f : α → Except ε β} {xs : List α} {ys : List β}
    (h : xs.mapM f = .ok ys) {y : β} (hy : y ∈ ys) : ∃ x ∈ xs, f x = .ok y := by
  induction xs generalizing ys with
  | nil =>
    obtain rfl := Except.ok.inj h
    cases hy
  | cons x xs ih =>
    rw [List.mapM_cons] at h
    obtain ⟨y₀, hy₀, hrest⟩ := bind_eq_ok h
    obtain ⟨ys', hys', heq⟩ := bind_eq_ok hrest
    obtain rfl := Except.ok.inj heq
    rcases List.mem_cons.mp hy with rfl | hmem
    · exact ⟨x, List.mem_cons_self, hy₀⟩
    · obtain ⟨x', hx', hfx'⟩ := ih hys' hmem
      exact ⟨x', List.mem_cons_of_mem _ hx', hfx'⟩

/-- Of the results of a function on different arguments, those that one
    argument is responsible for. -/
theorem filter_filterMap_eq {α β : Type} {f : α → Option β} {P : β → Bool} {xs : List α} {a : α}
    (hnd : xs.Nodup) (ha : a ∈ xs)
    (hP : ∀ x ∈ xs, ∀ y, f x = some y → (P y = true ↔ x = a)) :
    (xs.filterMap f).filter P = (f a).toList := by
  have hnone : ∀ l : List α, (∀ x ∈ l, x ∈ xs) → a ∉ l → (l.filterMap f).filter P = [] := by
    intro l hl hnot
    rw [List.filter_eq_nil_iff]
    intro y hy hPy
    obtain ⟨x, hx, hxy⟩ := List.mem_filterMap.mp hy
    rw [(hP x (hl x hx) y hxy).mp hPy] at hx
    exact hnot hx
  obtain ⟨before, after, rfl⟩ := List.append_of_mem ha
  obtain ⟨_, hafter, hdisjoint⟩ := List.nodup_append.mp hnd
  have hbefore : a ∉ before := fun hmem => hdisjoint a hmem a List.mem_cons_self rfl
  rw [List.filterMap_append, List.filter_append,
    hnone before (fun x hx => List.mem_append_left _ hx) hbefore, List.nil_append,
    List.filterMap_cons]
  have hrest := hnone after
    (fun x hx => List.mem_append_right _ (List.mem_cons_of_mem _ hx)) (List.nodup_cons.mp hafter).1
  cases hfa : f a with
  | none => exact hrest
  | some y =>
    have hPy : P y = true := (hP a ha y hfa).mpr rfl
    rw [List.filter_cons_of_pos hPy, hrest]
    rfl

/-- A loop that fails at some of its elements gives a result exactly when none
    of them comes up. -/
theorem mapM_ite_ok_iff {ε α β : Type} {p : α → Prop} [DecidablePred p] {f : α → β} {e : α → ε}
    {xs : List α} {ys : List β} :
    (xs.mapM fun x => if p x then (.ok (f x) : Except ε β) else .error (e x)) = .ok ys ↔
      (∀ x ∈ xs, p x) ∧ ys = xs.map f := by
  induction xs generalizing ys with
  | nil =>
    rw [List.mapM_nil, List.map_nil]
    constructor
    · intro h
      cases h
      exact ⟨fun x hx => absurd hx List.not_mem_nil, rfl⟩
    · intro h
      rw [h.2]
      rfl
  | cons x xs ih =>
    rw [List.mapM_cons, List.forall_mem_cons, List.map_cons]
    by_cases hx : p x
    · rw [if_pos hx]
      cases hxs : xs.mapM fun x => if p x then (.ok (f x) : Except ε β) else .error (e x) with
      | error err =>
        constructor
        · intro h
          cases h
        · intro h
          have hrest := (@ih (xs.map f)).mpr ⟨h.1.2, rfl⟩
          rw [hxs] at hrest
          cases hrest
      | ok zs =>
        obtain ⟨hall, rfl⟩ := ih.mp hxs
        constructor
        · intro h
          exact ⟨⟨hx, hall⟩, (Except.ok.inj h).symm⟩
        · intro h
          rw [h.2]
          rfl
    · rw [if_neg hx]
      constructor
      · intro h
        cases h
      · intro h
        exact absurd h.1.1 hx

/-! ### Loops that build a dictionary -/

/-- A loop that runs over the index values, in any order, and enters for each
    the value of its row, builds the dictionary of the table. -/
theorem foldlM_index {ε σ ω : Type} [DecidableEq ω] {g : ρ → σ} {k : ρ → ω} {υ : Type}
    {v : ρ → υ} {step : Dict ω υ → σ → Except ε (Dict ω υ)} (hnd : (rows.map k).Nodup)
    {keys : List σ} (hkeys : keys.Perm (rows.map g))
    (hstep : ∀ r ∈ rows, ∀ m, step m (g r) = .ok (m.insert (k r) (v r))) :
    keys.foldlM step ∅ = .ok (index k v rows) := by
  -- the keys are those of the rows in some order
  have hcomp : Relation.Comp (fun l rows' => l = rows'.map g) List.Perm keys rows := by
    rw [List.eq_map_comp_perm]
    exact hkeys
  obtain ⟨rows', rfl, hperm⟩ := hcomp
  have hloop : ∀ (l : List ρ) (m : Dict ω υ), (∀ r ∈ l, r ∈ rows) →
      (l.map g).foldlM step m =
        .ok ((l.map fun r => (k r, v r)).foldl (fun m p => m.insert p.1 p.2) m) := by
    intro l
    induction l with
    | nil => intro m _; rfl
    | cons r l ih =>
      intro m hl
      rw [List.map_cons, List.foldlM_cons, hstep r (hl r List.mem_cons_self) m]
      exact ih _ fun r' hr' => hl r' (List.mem_cons_of_mem _ hr')
  rw [hloop rows' ∅ fun r hr => hperm.mem_iff.mp hr]
  exact congrArg Except.ok (index_perm ((hperm.map k).nodup_iff.mpr hnd) hperm)

/-- What every iteration of a loop establishes, from what the earlier ones have
    established, holds of all that it has visited. -/
theorem foldlM_visited {ε σ δ : Type} {step : δ → σ → Except ε δ} {inv : List σ → δ → Prop}
    (hstep : ∀ done k m m', inv done m → step m k = .ok m' → inv (done ++ [k]) m')
    {keys : List σ} {m m' : δ} (hinit : inv [] m) (h : keys.foldlM step m = .ok m') :
    inv keys m' := by
  induction keys using List.reverseRecOn generalizing m' with
  | nil =>
    cases h
    exact hinit
  | append_singleton keys k ih =>
    rw [List.foldlM_append] at h
    cases hkeys : keys.foldlM step m with
    | error e =>
      rw [hkeys] at h
      cases h
    | ok m₁ =>
      rw [hkeys] at h
      have hlast : [k].foldlM step m₁ = .ok m' := h
      rw [List.foldlM_cons] at hlast
      cases hone : step m₁ k with
      | error e =>
        rw [hone] at hlast
        cases hlast
      | ok m₂ =>
        rw [hone] at hlast
        cases hlast
        exact hstep keys k m₁ _ (ih hkeys) hone

end Rows
