import Mathlib.Data.List.DropRight
import Mathlib.Data.List.Infix
import Mathlib.Data.List.TakeWhile
import Mathlib.Data.String.Basic

/-! # Text: Blanks, Fields and Decimal Numerals

  The string handling that C and Python share: the blanks of `isspace`,
  cutting a text into fields, and decimal numerals as `atoi` reads and `%d`
  writes them.

  - `fields`: maximal runs of non-separators, as `str.split()` returns them.
  - `rdropWhile_append_cons`, `dropWhile_append_cons`: trimming, as `str.strip()` does it.
  - `lines`: the lines of a text.
  - `separatedLen`: the bytes of the pieces between separators.
  - `words`: the blank-separated fields of a string.
  - `IsWord`: a non-empty string without blanks, that is, a single field.
  - `leadingInt`: the integer at the start of a text, of any size.
  - `atoi`: the C function, which returns a 32-bit `int`.
-/

namespace Text

/-! ### Blanks and words -/

/-- `isspace` in the C locale. -/
def isSpace (c : Char) : Bool :=
  c == ' ' || c == '\t' || c == '\n' || c == '\x0b' || c == '\x0c' || c == '\r'

/-- A whitespace-free word. -/
def IsWord (s : String) : Prop := s.toList ≠ [] ∧ ∀ c ∈ s.toList, isSpace c = false

-- decided by going through the characters of the text, not through all characters
instance (s : String) : Decidable (IsWord s) :=
  @instDecidableAnd _ _ inferInstance (List.decidableBAll (fun c => isSpace c = false) s.toList)

/-! ### Fields -/

/-- The maximal runs of characters that are not separators. -/
def fields (sep : Char → Bool) (cs : List Char) : List (List Char) :=
  (cs.splitOnP sep).filter (fun w => !w.isEmpty)

variable {sep : Char → Bool}

@[simp] theorem fields_nil : fields sep [] = [] := rfl

/-- Fields never cross a separator. -/
theorem fields_append_cons (xs ys : List Char) {c : Char} (hc : sep c = true) :
    fields sep (xs ++ c :: ys) = fields sep xs ++ fields sep ys := by
  unfold fields
  rw [List.splitOnP_append_cons xs ys hc, List.filter_append]

theorem fields_cons_sep (ys : List Char) {c : Char} (hc : sep c = true) :
    fields sep (c :: ys) = fields sep ys := by
  have h := fields_append_cons [] ys hc
  rwa [List.nil_append, fields_nil, List.nil_append] at h

/-- A non-empty text without separators is one field. -/
theorem fields_singleton {w : List Char} (hne : w ≠ []) (h : ∀ c ∈ w, sep c = false) :
    fields sep w = [w] := by
  unfold fields
  rw [List.splitOnP_eq_singleton h]
  cases w with
  | nil => exact absurd rfl hne
  | cons c cs => rfl

/-- A leading field followed by a separator. -/
theorem fields_word_cons {w : List Char} (hne : w ≠ []) (h : ∀ c ∈ w, sep c = false)
    (ys : List Char) {c : Char} (hc : sep c = true) :
    fields sep (w ++ c :: ys) = w :: fields sep ys := by
  rw [fields_append_cons w ys hc, fields_singleton hne h, List.singleton_append]

theorem not_sep_of_mem_splitOnP {cs w : List Char} (h : w ∈ cs.splitOnP sep) :
    ∀ c ∈ w, sep c = false := by
  induction cs generalizing w with
  | nil =>
    rw [List.splitOnP_nil, List.mem_singleton] at h
    rw [h]
    intro c hc
    cases hc
  | cons c cs ih =>
    rw [List.splitOnP_cons_eq_if_modifyHead] at h
    by_cases hsep : sep c = true
    · rw [if_pos hsep] at h
      rcases List.mem_cons.mp h with hw | hw
      · rw [hw]
        intro c' hc'
        cases hc'
      · exact ih hw
    · rw [if_neg hsep] at h
      -- the character joins the first piece of the rest
      obtain ⟨w₀, ws, hws⟩ := List.exists_cons_of_ne_nil (List.splitOnP_ne_nil sep cs)
      rw [hws, List.modifyHead_cons] at h
      rcases List.mem_cons.mp h with hw | hw
      · have hw₀ := ih (hws ▸ List.mem_cons_self : w₀ ∈ cs.splitOnP sep)
        rw [hw]
        intro c' hc'
        rcases List.mem_cons.mp hc' with hc' | hc'
        · rw [hc']; exact eq_false_of_ne_true hsep
        · exact hw₀ c' hc'
      · exact ih (by rw [hws]; exact List.mem_cons_of_mem _ hw)

/-- A field is not empty and has no separator. -/
theorem mem_fields {cs w : List Char} (h : w ∈ fields sep cs) :
    w ≠ [] ∧ ∀ c ∈ w, sep c = false := by
  obtain ⟨hmem, hne⟩ := List.mem_filter.mp h
  exact ⟨by simpa using hne, not_sep_of_mem_splitOnP hmem⟩

theorem subset_of_mem_splitOnP {cs w : List Char} (h : w ∈ cs.splitOnP sep) : w ⊆ cs := by
  induction cs generalizing w with
  | nil =>
    rw [List.splitOnP_nil, List.mem_singleton] at h
    rw [h]
    exact List.Subset.refl _
  | cons c cs ih =>
    rw [List.splitOnP_cons_eq_if_modifyHead] at h
    by_cases hsep : sep c = true
    · rw [if_pos hsep] at h
      rcases List.mem_cons.mp h with hw | hw
      · rw [hw]
        exact List.nil_subset _
      · exact List.subset_cons_of_subset c (ih hw)
    · rw [if_neg hsep] at h
      obtain ⟨w₀, ws, hws⟩ := List.exists_cons_of_ne_nil (List.splitOnP_ne_nil sep cs)
      rw [hws, List.modifyHead_cons] at h
      rcases List.mem_cons.mp h with hw | hw
      · rw [hw]
        exact List.cons_subset_cons c (ih (hws ▸ List.mem_cons_self : w₀ ∈ cs.splitOnP sep))
      · exact List.subset_cons_of_subset c (ih (by rw [hws]; exact List.mem_cons_of_mem _ hw))

/-- The characters of a field are characters of the text. -/
theorem subset_of_mem_fields {cs w : List Char} (h : w ∈ fields sep cs) : w ⊆ cs :=
  subset_of_mem_splitOnP (List.mem_filter.mp h).1

/-- Separators alone have no fields. -/
theorem fields_seps {xs : List Char} (h : ∀ c ∈ xs, sep c = true) : fields sep xs = [] := by
  induction xs with
  | nil => rfl
  | cons c cs ih =>
    rw [fields_cons_sep cs (h c List.mem_cons_self)]
    exact ih fun d hd => h d (List.mem_cons_of_mem _ hd)

/-- Separators before a text do not count. -/
theorem fields_seps_append {xs : List Char} (h : ∀ c ∈ xs, sep c = true) (ys : List Char) :
    fields sep (xs ++ ys) = fields sep ys := by
  induction xs with
  | nil => rfl
  | cons c cs ih =>
    rw [List.cons_append, fields_cons_sep _ (h c List.mem_cons_self)]
    exact ih fun d hd => h d (List.mem_cons_of_mem _ hd)

/-- Separators after a text do not count. -/
theorem fields_append_seps {ys : List Char} (h : ∀ c ∈ ys, sep c = true) (xs : List Char) :
    fields sep (xs ++ ys) = fields sep xs := by
  cases ys with
  | nil => rw [List.append_nil]
  | cons c cs =>
    rw [fields_append_cons xs cs (h c List.mem_cons_self),
      fields_seps fun d hd => h d (List.mem_cons_of_mem _ hd), List.append_nil]

theorem fields_rdropWhile (xs : List Char) : fields sep (xs.rdropWhile sep) = fields sep xs := by
  have htail : ∀ c ∈ xs.rtakeWhile sep, sep c = true := fun c hc => List.mem_rtakeWhile_imp hc
  have hsplit := fields_append_seps htail (xs.rdropWhile sep)
  rw [List.rdropWhile_append_rtakeWhile] at hsplit
  exact hsplit.symm

/-- Separators may be replaced by separators. -/
theorem fields_map {f : Char → Char} (hsep : ∀ c, sep c = true → sep (f c) = true)
    (hother : ∀ c, sep c = false → f c = c) (xs : List Char) :
    fields sep (xs.map f) = fields sep xs := by
  -- one field and its separator at a time
  induction hn : xs.length using Nat.strong_induction_on generalizing xs with
  | _ n ih =>
    have hword : ∀ w : List Char, (∀ c ∈ w, sep c = false) → w.map f = w := by
      intro w hw
      exact (List.map_congr_left fun c hc => hother c (hw c hc)).trans (List.map_id w)
    have htake : ∀ c ∈ xs.takeWhile (fun c => !sep c), sep c = false := by
      intro c hc
      simpa using List.mem_takeWhile_imp hc
    have hxs := List.takeWhile_append_dropWhile (p := fun c => !sep c) (l := xs)
    cases hdrop : xs.dropWhile (fun c => !sep c) with
    | nil =>
      rw [hdrop, List.append_nil] at hxs
      rw [hxs] at htake
      rw [hword xs htake]
    | cons c cs =>
      have hc : sep c = true := by
        have hhead := List.head_dropWhile_not (fun c => !sep c) (l := xs) (by rw [hdrop]; simp)
        simpa [hdrop] using hhead
      rw [hdrop] at hxs
      rw [← hxs, List.map_append, List.map_cons, hword _ htake, fields_append_cons _ _ (hsep c hc),
        fields_append_cons _ _ hc]
      refine congrArg (fields sep _ ++ ·) (ih cs.length ?_ cs rfl)
      rw [← hn, ← hxs, List.length_append, List.length_cons]
      omega

/-! ### Trimming -/

section trimming
variable {p : Char → Bool} {xs ys : List Char}

/-- Either some character is kept or all are trimmed. -/
theorem exists_or_forall (p : Char → Bool) (xs : List Char) :
    (∃ c ∈ xs, p c = false) ∨ ∀ c ∈ xs, p c = true := by
  by_cases hall : ∀ c ∈ xs, p c = true
  · exact Or.inr hall
  · rw [not_forall] at hall
    obtain ⟨c, hc⟩ := hall
    rw [Classical.not_imp] at hc
    exact Or.inl ⟨c, hc.1, eq_false_of_ne_true hc.2⟩

theorem rdropWhile_append_of_all (h : ∀ c ∈ ys, p c = true) :
    (xs ++ ys).rdropWhile p = xs.rdropWhile p := by
  induction ys using List.reverseRecOn with
  | nil => rw [List.append_nil]
  | append_singleton ys c ih =>
    rw [← List.append_assoc, List.rdropWhile_concat_pos _ _ _ (h c (by simp))]
    exact ih fun d hd => h d (List.mem_append_left _ hd)

theorem rdropWhile_append_of_exists (h : ∃ c ∈ ys, p c = false) :
    (xs ++ ys).rdropWhile p = xs ++ ys.rdropWhile p := by
  induction ys using List.reverseRecOn with
  | nil =>
    obtain ⟨c, hc, _⟩ := h
    cases hc
  | append_singleton ys c ih =>
    rw [← List.append_assoc]
    by_cases hc : p c = true
    · rw [List.rdropWhile_concat_pos _ _ _ hc, List.rdropWhile_concat_pos _ _ _ hc]
      refine ih ?_
      obtain ⟨d, hd, hpd⟩ := h
      refine ⟨d, ?_, hpd⟩
      rcases List.mem_append.mp hd with hmem | hlast
      · exact hmem
      · rw [List.mem_singleton.mp hlast, hc] at hpd
        cases hpd
    · rw [List.rdropWhile_concat_neg _ _ _ hc, List.rdropWhile_concat_neg _ _ _ hc,
        List.append_assoc]

theorem dropWhile_append_of_exists (h : ∃ c ∈ xs, p c = false) :
    (xs ++ ys).dropWhile p = xs.dropWhile p ++ ys := by
  have hne : (xs.dropWhile p).isEmpty = false := by
    rw [List.isEmpty_eq_false_iff, ne_eq, List.dropWhile_eq_nil_iff]
    intro hall
    obtain ⟨c, hc, hpc⟩ := h
    rw [hall c hc] at hpc
    cases hpc
  rw [List.dropWhile_append, hne]
  rfl

/-- Trimming stops at a character that is kept. -/
theorem rdropWhile_append_cons {c : Char} (hc : p c = false) :
    (xs ++ c :: ys).rdropWhile p = xs ++ c :: ys.rdropWhile p := by
  have hcons : xs ++ c :: ys = (xs ++ [c]) ++ ys := by rw [List.append_assoc]; rfl
  rcases exists_or_forall p ys with hsome | hall
  · rw [hcons, rdropWhile_append_of_exists hsome, List.append_assoc]
    rfl
  · have hkept : ¬ p c = true := by rw [hc]; exact Bool.false_ne_true
    rw [hcons, rdropWhile_append_of_all hall, List.rdropWhile_concat_neg _ _ _ hkept,
      List.rdropWhile_eq_nil_iff.mpr hall]

theorem dropWhile_append_cons {c : Char} (hc : p c = false) :
    (xs ++ c :: ys).dropWhile p = xs.dropWhile p ++ c :: ys := by
  rw [List.dropWhile_append]
  split
  · next hnil =>
    rw [List.isEmpty_iff] at hnil
    rw [hnil, List.dropWhile_cons_of_neg (by rw [hc]; exact Bool.false_ne_true)]
    rfl
  · rfl

end trimming

/-- Mapping the characters of a joined text. -/
theorem map_intercalate (f : Char → Char) (sep : List Char) (ls : List (List Char)) :
    (sep.intercalate ls).map f = (sep.map f).intercalate (ls.map (List.map f)) := by
  induction ls with
  | nil => rfl
  | cons l ls ih =>
    by_cases hnil : ls = []
    · rw [hnil, List.intercalate_singleton]
      exact (List.intercalate_singleton).symm
    · have hnil' : ls.map (List.map f) ≠ [] := fun h => hnil (List.map_eq_nil_iff.mp h)
      rw [List.intercalate_cons_of_ne_nil hnil, List.map_append, List.map_append, ih,
        List.map_cons, List.intercalate_cons_of_ne_nil hnil']

/-! ### Lines -/

/-- The lines of a text. -/
def lines (s : String) : List (List Char) := s.toList.splitOn '\n'

/-- The first line ends at the first line feed. -/
theorem lines_append {a : String} (h : '\n' ∉ a.toList) (b : String) :
    lines (a ++ "\n" ++ b) = a.toList :: lines b := by
  unfold lines
  rw [String.toList_append, String.toList_append, List.append_assoc]
  exact List.splitOn_append_cons_self_of_not_mem h b.toList

/-- A line, and more lines that each come after a line feed. -/
theorem splitOn_lines {l : List Char} {ls : List (List Char)} (hl : '\n' ∉ l)
    (hls : ∀ l' ∈ ls, '\n' ∉ l') :
    (l ++ ls.flatMap fun l' => '\n' :: l').splitOn '\n' = l :: ls := by
  induction ls generalizing l with
  | nil => rw [List.flatMap_nil, List.append_nil, List.splitOn_eq_singleton hl]
  | cons l' ls ih =>
    rw [List.flatMap_cons, List.cons_append, List.splitOn_append_cons_self_of_not_mem hl,
      ih (hls l' List.mem_cons_self) fun l'' hl'' => hls l'' (List.mem_cons_of_mem _ hl'')]

/-- Lines that are joined by line feeds, with one more before the rest. -/
theorem lines_intercalate_append {ls : List String} (hne : ls ≠ [])
    (h : ∀ l ∈ ls, '\n' ∉ l.toList) (rest : String) :
    lines ("\n".intercalate ls ++ "\n" ++ rest) = ls.map String.toList ++ lines rest := by
  induction ls with
  | nil => exact absurd rfl hne
  | cons l ls ih =>
    have hl := h l List.mem_cons_self
    by_cases hnil : ls = []
    · rw [hnil, String.intercalate_singleton, lines_append hl]
      rfl
    · have hrest := ih hnil fun l' hl' => h l' (List.mem_cons_of_mem _ hl')
      rw [String.intercalate_cons_of_ne_nil hnil, String.append_assoc, String.append_assoc,
        lines_append hl, ← String.append_assoc, hrest]
      rfl

/-- Lines that are joined by line feeds, with one more at the end. -/
theorem lines_intercalate {ls : List String} (hne : ls ≠ []) (h : ∀ l ∈ ls, '\n' ∉ l.toList) :
    lines ("\n".intercalate ls ++ "\n") = ls.map String.toList ++ [[]] := by
  have hall := lines_intercalate_append hne h ""
  rw [String.append_empty] at hall
  exact hall

/-! ### Pieces -/

section pieces
variable {s : Char} {cs : List Char}

/-- The bytes of some pieces, with one more for a separator after each. -/
def separatedLen : List (List Char) → Nat
  | [] => 0
  | p :: ps => String.utf8Len p + 1 + separatedLen ps

theorem separatedLen_append (ps qs : List (List Char)) :
    separatedLen (ps ++ qs) = separatedLen ps + separatedLen qs := by
  induction ps with
  | nil => exact (Nat.zero_add _).symm
  | cons p ps ih =>
    rw [List.cons_append, separatedLen, separatedLen, ih]
    omega

theorem separatedLen_le {ps : List (List Char)} {n : Nat}
    (h : ∀ p ∈ ps, String.utf8Len p + 1 ≤ n) : separatedLen ps ≤ ps.length * n := by
  induction ps with
  | nil => exact Nat.zero_le _
  | cons p ps ih =>
    have hp := h p List.mem_cons_self
    have hps := ih fun q hq => h q (List.mem_cons_of_mem _ hq)
    rw [separatedLen, List.length_cons, Nat.succ_mul]
    omega

/-- A text is its pieces with a separator after each but the last. -/
theorem separatedLen_splitOn (hs : s.utf8Size = 1) (cs : List Char) :
    separatedLen (cs.splitOn s) = String.utf8Len cs + 1 := by
  induction cs with
  | nil => rfl
  | cons c cs ih =>
    rw [List.splitOn_cons_eq_if_modifyHead, String.utf8Len_cons]
    by_cases hc : (c == s) = true
    · have hnil : String.utf8Len ([] : List Char) = 0 := rfl
      rw [if_pos hc, separatedLen, ih, eq_of_beq hc, hs, hnil]
      omega
    · rw [if_neg hc]
      obtain ⟨p, ps, hps⟩ := List.exists_cons_of_ne_nil (List.splitOn_ne_nil s cs)
      rw [hps, separatedLen] at ih
      rw [hps, List.modifyHead_cons, separatedLen, String.utf8Len_cons]
      omega

theorem mem_splitOn_of_ne {c : Char} (hc : c ∈ cs) (hne : c ≠ s) :
    ∃ p ∈ cs.splitOn s, c ∈ p := by
  induction cs with
  | nil => cases hc
  | cons d cs ih =>
    rw [List.splitOn_cons_eq_if_modifyHead]
    obtain ⟨p, ps, hps⟩ := List.exists_cons_of_ne_nil (List.splitOn_ne_nil s cs)
    by_cases hd : (d == s) = true
    · rw [if_pos hd]
      have hcs : c ∈ cs := by
        rcases List.mem_cons.mp hc with heq | hmem
        · exact absurd (heq.trans (eq_of_beq hd)) hne
        · exact hmem
      obtain ⟨q, hq, hcq⟩ := ih hcs
      exact ⟨q, List.mem_cons_of_mem _ hq, hcq⟩
    · rw [if_neg hd, hps, List.modifyHead_cons]
      rcases List.mem_cons.mp hc with heq | hmem
      · exact ⟨d :: p, List.mem_cons_self, by rw [heq]; exact List.mem_cons_self⟩
      · obtain ⟨q, hq, hcq⟩ := ih hmem
        rw [hps] at hq
        rcases List.mem_cons.mp hq with hqp | hq'
        · exact ⟨d :: p, List.mem_cons_self, List.mem_cons_of_mem _ (hqp ▸ hcq)⟩
        · exact ⟨q, List.mem_cons_of_mem _ hq', hcq⟩

end pieces

/-! ### Words of a string -/

/-- The blank-separated words of a string. -/
def words (s : String) : List String := (fields isSpace s.toList).map String.ofList

theorem words_of_isWord {s : String} (h : IsWord s) : words s = [s] := by
  rw [words, fields_singleton h.1 h.2, List.map_singleton, String.ofList_toList]

theorem isWord_of_mem_words {s w : String} (h : w ∈ words s) : IsWord w := by
  obtain ⟨cs, hcs, rfl⟩ := List.mem_map.mp h
  obtain ⟨hne, hblank⟩ := mem_fields hcs
  refine ⟨by rw [String.toList_ofList]; exact hne, ?_⟩
  rw [String.toList_ofList]
  exact hblank

/-- Words do not run across a blank at the end of the first string. -/
theorem words_append_of_getLast {a : String} (h : a.toList.getLast? = some ' ') (b : String) :
    words (a ++ b) = words a ++ words b := by
  obtain ⟨xs, hxs⟩ := List.getLast?_eq_some_iff.mp h
  have hblank : isSpace ' ' = true := rfl
  unfold words
  rw [String.toList_append, hxs, List.append_assoc, List.singleton_append,
    fields_append_cons xs _ hblank, fields_append_cons xs [] hblank, fields_nil, List.append_nil,
    List.map_append]

/-- Nor across a blank at the start of the second one. -/
theorem words_append_of_head {b : String} (h : b.toList.head? = some ' ') (a : String) :
    words (a ++ b) = words a ++ words b := by
  obtain ⟨ys, hys⟩ := List.head?_eq_some_iff.mp h
  have hblank : isSpace ' ' = true := rfl
  unfold words
  rw [String.toList_append, hys, fields_append_cons _ ys hblank, fields_cons_sep ys hblank,
    List.map_append]

/-- Words that are joined by blanks. -/
theorem words_intercalate {ws : List String} (h : ∀ w ∈ ws, IsWord w) :
    words (" ".intercalate ws) = ws := by
  induction ws with
  | nil => rfl
  | cons w ws ih =>
    obtain ⟨hw, hws⟩ := List.forall_mem_cons.mp h
    by_cases hnil : ws = []
    · rw [hnil, String.intercalate_singleton, words_of_isWord hw]
    · have hlast : (w ++ " ").toList.getLast? = some ' ' := by
        rw [String.toList_append]
        exact List.getLast?_concat
      have hblank : words " " = [] := by decide
      rw [String.intercalate_cons_of_ne_nil hnil, words_append_of_getLast hlast, ih hws,
        words_append_of_head (by decide), words_of_isWord hw, hblank]
      rfl

/-- A word between a text that ends in a blank and one that starts with one. -/
theorem words_append_blank_append {b : String} (hhead : b.toList.head? = some ' ')
    (hlast : b.toList.getLast? = some ' ') (a c : String) :
    words (a ++ b ++ c) = words a ++ words b ++ words c := by
  have hend : (a ++ b).toList.getLast? = some ' ' := by
    rw [String.toList_append, List.getLast?_append, hlast, Option.some_or]
  rw [words_append_of_getLast hend, words_append_of_head hhead]

/-- A part of a text that is empty or starts with a blank. -/
theorem words_append_part {b : String} (h : b = "" ∨ b.toList.head? = some ' ') (a : String) :
    words (a ++ b) = words a ++ words b := by
  rcases h with hempty | hhead
  · rw [hempty, String.append_empty]
    exact (List.append_nil _).symm
  · exact words_append_of_head hhead a

/-! ### Search words -/

section searchWords
variable {α : Type*} {p pre sep : List α}

/-- A search word that neither occurs in `pre` nor begins at its end is found
    in what comes after `pre`. -/
theorem infix_after (hnot : ¬ p <:+: pre) (hcross : ∀ q ∈ p.inits, q ≠ [] → ¬ q <:+ pre)
    (xs : List α) : p <:+: pre ++ xs ↔ p <:+: xs := by
  constructor
  · intro hinfix
    rcases List.infix_append_iff_ne_nil.mp hinfix with hpre | hxs | ⟨q, q', hq, _, hp, hsuf, _⟩
    · exact absurd hpre hnot
    · exact hxs
    · have hmem : q ∈ p.inits := (List.mem_inits q p).mpr ⟨q', hp.symm⟩
      exact absurd hsuf (hcross q hmem hq)
  · intro hxs; exact List.infix_append_of_infix_right hxs

/-- A search word does not reach into a separator that does not fit what is
    left of the word. -/
theorem infix_around (hcross : ∀ q ∈ p.tails, q ≠ [] → q ≠ p → ¬ q <+: sep ∧ ¬ sep <+: q)
    (xs ys : List α) : p <:+: xs ++ (sep ++ ys) ↔ p <:+: xs ∨ p <:+: sep ++ ys := by
  constructor
  · intro hinfix
    rcases List.infix_append_iff_ne_nil.mp hinfix with hxs | hys | ⟨q, q', hq, hq', hp, _, hpre⟩
    · exact Or.inl hxs
    · exact Or.inr hys
    · have hmem : q' ∈ p.tails := (List.mem_tails q' p).mpr ⟨q, hp.symm⟩
      have hne : q' ≠ p := by
        intro heq
        rw [heq] at hp
        exact hq (List.self_eq_append_left.mp hp)
      obtain ⟨hnot, hnot'⟩ := hcross q' hmem hq' hne
      rcases List.prefix_or_prefix_of_prefix hpre (List.prefix_append sep ys) with hfit | hfit
      · exact absurd hfit hnot
      · exact absurd hfit hnot'
  · rintro (hxs | hys)
    · exact List.infix_append_of_infix_left hxs
    · exact List.infix_append_of_infix_right hys

end searchWords

/-! ### Decimal numerals -/

/-- A decimal numeral: one digit or more, and nothing else. -/
def IsNumeral (s : String) : Prop := s.toList ≠ [] ∧ ∀ c ∈ s.toList, c.isDigit = true

instance (s : String) : Decidable (IsNumeral s) :=
  @instDecidableAnd _ _ inferInstance (List.decidableBAll (fun c => c.isDigit = true) s.toList)

/-- The value of the leading digits of a text. -/
def leadingNat (cs : List Char) : Nat :=
  Nat.ofDigitChars 10 (cs.takeWhile Char.isDigit) 0

/-- The integer at the start of a text: skip blanks, take an optional sign,
    read the leading digits. -/
def leadingInt (s : String) : Int :=
  match s.toList.dropWhile isSpace with
  | '-' :: cs => -(leadingNat cs : Int)
  | '+' :: cs => leadingNat cs
  | cs => leadingNat cs

/-- `strtol` in base ten, where `long` has 64 bits: a number that does not fit
    gives the nearest one that does. -/
def strtol (s : String) : Int :=
  max (-9223372036854775808) (min 9223372036854775807 (leadingInt s))

/-- `atoi`: the result of `strtol`, cut down to the 32 bits of an `int`. -/
@[irreducible] def atoi (s : String) : Int := (strtol s).bmod 4294967296

/-- A number that fits an `int` is read as it stands. -/
theorem atoi_eq_leadingInt {s : String} (hmin : -2147483648 ≤ leadingInt s)
    (hmax : leadingInt s ≤ 2147483647) : atoi s = leadingInt s := by
  have hlong : strtol s = leadingInt s := by
    unfold strtol
    omega
  unfold atoi
  rw [hlong]
  exact Int.bmod_eq_of_le (by omega) (by omega)

/-- A number that is too large comes out as another one. -/
example : atoi "4294967303" = 7 ∧ atoi "99999999999999999999" = -1 := by decide +kernel

theorem isSpace_of_isDigit {c : Char} (h : c.isDigit = true) : isSpace c = false := by
  have hne : ∀ d : Char, d.isDigit = false → (c == d) = false := by
    intro d hd
    rw [beq_eq_false_iff_ne]
    rintro rfl
    rw [h] at hd; cases hd
  simp [isSpace, hne ' ' rfl, hne '\t' rfl, hne '\n' rfl, hne '\x0b' rfl, hne '\x0c' rfl,
    hne '\r' rfl]

/-- On a numeral it is the value of the digits. -/
theorem leadingInt_of_isNumeral {s : String} (h : IsNumeral s) :
    leadingInt s = (Nat.ofDigitChars 10 s.toList 0 : Nat) := by
  obtain ⟨hne, hdig⟩ := h
  obtain ⟨c, cs, hcs⟩ := List.exists_cons_of_ne_nil hne
  have hc : c.isDigit = true := hdig c (by rw [hcs]; exact List.mem_cons_self)
  have hdrop : s.toList.dropWhile isSpace = s.toList := by
    rw [hcs, List.dropWhile_cons_of_neg (by rw [isSpace_of_isDigit hc]; simp)]
  have htake : s.toList.takeWhile Char.isDigit = s.toList :=
    List.takeWhile_eq_self_iff.mpr hdig
  have hminus : c ≠ '-' := by rintro rfl; cases hc
  have hplus : c ≠ '+' := by rintro rfl; cases hc
  unfold leadingInt
  rw [hdrop]
  split
  · next heq => rw [hcs] at heq; exact absurd (List.cons.inj heq).1 hminus
  · next heq => rw [hcs] at heq; exact absurd (List.cons.inj heq).1 hplus
  · rw [leadingNat, htake]

theorem isNumeral_toString (n : Nat) : IsNumeral (toString n) := by
  have hlist : (toString n).toList = Nat.toDigits 10 n := Nat.toList_repr
  refine ⟨?_, ?_⟩
  · rw [hlist]; exact Nat.toDigits_ne_nil
  · rw [hlist]
    intro c hc
    exact Nat.isDigit_of_mem_toDigits (by decide) (by decide) hc

/-- What `%d` writes is read back. -/
theorem leadingInt_toString {n : Int} (h : 0 ≤ n) : leadingInt (toString n) = n := by
  obtain ⟨m, rfl⟩ := Int.eq_ofNat_of_zero_le h
  have htext : toString (m : Int) = toString m := rfl
  have hlist : (toString m).toList = Nat.toDigits 10 m := Nat.toList_repr
  rw [htext, leadingInt_of_isNumeral (isNumeral_toString m), hlist, Nat.ofDigitChars_ten_toDigits]

/-- So does `atoi`, if the number fits. -/
theorem atoi_toString {n : Int} (h : 0 ≤ n) (hmax : n ≤ 2147483647) : atoi (toString n) = n := by
  have hread := leadingInt_toString h
  rw [atoi_eq_leadingInt (by omega) (by omega), hread]

theorem isNumeral_toString_int {n : Int} (h : 0 ≤ n) : IsNumeral (toString n) := by
  obtain ⟨m, rfl⟩ := Int.eq_ofNat_of_zero_le h
  exact isNumeral_toString m

theorem IsNumeral.isWord {s : String} (h : IsNumeral s) : IsWord s :=
  ⟨h.1, fun c hc => isSpace_of_isDigit (h.2 c hc)⟩

/-- A numeral with a leading `3` and a value below 30 is `3` itself. -/
theorem eq_three_of_leading {s : String} (h : IsNumeral s) (hhead : s.toList.head? = some '3')
    (hval : leadingInt s < 30) : s = "3" := by
  obtain ⟨cs, hcs⟩ := List.head?_eq_some_iff.mp hhead
  rw [leadingInt_of_isNumeral h, hcs, Nat.ofDigitChars_cons,
    Nat.ofDigitChars_eq_ofDigitChars_zero] at hval
  -- every further digit multiplies the value by ten
  have hlen : cs = [] := by
    cases cs with
    | nil => rfl
    | cons c cs' =>
      have hpow : 10 ≤ 10 ^ (c :: cs').length := Nat.le_self_pow (by simp) 10
      have hthree : 10 * 0 + ('3'.toNat - '0'.toNat) = 3 := rfl
      rw [hthree] at hval
      omega
  rw [← String.toList_inj, hcs, hlen]
  rfl

/-- ASCII characters take one byte each. -/
theorem utf8Len_of_ascii {cs : List Char} (h : ∀ c ∈ cs, c.toNat ≤ 127) :
    String.utf8Len cs = cs.length := by
  induction cs with
  | nil => rfl
  | cons c cs ih =>
    have hc : c.utf8Size = 1 :=
      Char.utf8Size_eq_one_iff.mpr (UInt32.le_iff_toNat_le.mpr (h c List.mem_cons_self))
    rw [String.utf8Len_cons, List.length_cons, hc, ih fun d hd => h d (List.mem_cons_of_mem _ hd)]

theorem toNat_of_isDigit {c : Char} (h : c.isDigit = true) : 48 ≤ c.toNat ∧ c.toNat ≤ 57 := by
  rw [Char.isDigit, Bool.and_eq_true, decide_eq_true_eq, decide_eq_true_eq] at h
  exact ⟨UInt32.le_iff_toNat_le.mp h.1, UInt32.le_iff_toNat_le.mp h.2⟩

/-- Digits take one byte each. -/
theorem IsNumeral.utf8ByteSize {s : String} (h : IsNumeral s) :
    s.utf8ByteSize = s.toList.length := by
  rw [← String.utf8Len_toList]
  refine utf8Len_of_ascii fun c hc => ?_
  have hdigit := toNat_of_isDigit (h.2 c hc)
  omega

/-- Digits without a leading zero whose value has at most `n` places are at
    most `n` digits. -/
theorem length_le_of_ofDigitChars_lt {c : Char} {cs : List Char} {n : Nat}
    (hc : c.isDigit = true) (hzero : c ≠ '0') (hval : Nat.ofDigitChars 10 (c :: cs) 0 < 10 ^ n) :
    (c :: cs).length ≤ n := by
  have hdigit := toNat_of_isDigit hc
  have hne : c.toNat ≠ 48 := by
    intro heq
    exact hzero (Char.toNat_inj.mp heq)
  have hone : 1 ≤ 10 * 0 + (c.toNat - '0'.toNat) := by
    have h48 : '0'.toNat = 48 := rfl
    omega
  rw [Nat.ofDigitChars_cons, Nat.ofDigitChars_eq_ofDigitChars_zero] at hval
  -- the first digit counts for as many places as come after it
  have hpow : 10 ^ cs.length * 1 ≤ 10 ^ cs.length * (10 * 0 + (c.toNat - '0'.toNat)) :=
    Nat.mul_le_mul_left _ hone
  have hlt : 10 ^ cs.length < 10 ^ n := by omega
  exact (Nat.pow_lt_pow_iff_right (by decide)).mp hlt

theorem length_toString_le {n : Int} (hn : 0 ≤ n) (hlt : n < 100000) :
    (toString n).toList.length ≤ 5 := by
  obtain ⟨m, rfl⟩ := Int.eq_ofNat_of_zero_le hn
  have hm : m < 10 ^ 5 := by omega
  have hlist : (toString (m : Int)).toList = Nat.toDigits 10 m := Nat.toList_repr
  rw [hlist]
  exact (Nat.length_toDigits_le_iff (by decide) (by decide)).mpr hm

end Text
