import OpsNtpd.Framework.Text
import Mathlib.Data.List.Forall2

/-! # Texts in Columns

  What `printf` does with `%8s`: a text is filled up with blanks on its left,
  and a text that is longer than its column pushes the others to the right.
  A line is a list of columns with a text for each.

  - `layout`, `readCells`: writing a line and reading it by its columns.
  - `readCells_layout`: texts that fit are read back.
  - `length_layout_iff`: a line has the width of its columns exactly if all fit.
  - `bytes`: the bytes of a string, which is what widths count.
  - `tableLines`: the lines between the header of a table and its last ruler.
-/

namespace Columns

/-! ## Section 1: Lines -/

section layout
variable {α : Type} (blank : α)

/-- A column: what separates it from the one before, and its width. -/
structure Column (α : Type) where
  sep : List α
  width : Nat

/-- `%Ns` -/
def padLeft (n : Nat) (t : List α) : List α := List.replicate (n - t.length) blank ++ t

/-- The line with these texts in its columns. -/
def layout : List (Column α) → List (List α) → List α
  | c :: cs, t :: ts => c.sep ++ (padLeft blank c.width t ++ layout cs ts)
  | _, _ => []

/-- The width of a line. -/
def lineWidth : List (Column α) → Nat
  | [] => 0
  | c :: cs => c.sep.length + c.width + lineWidth cs

/-- What stands in the columns of a line, less the blanks in front. -/
def readCells [DecidableEq α] : List (Column α) → List α → List (List α)
  | [], _ => []
  | c :: cs, line =>
      ((line.drop c.sep.length).take c.width).dropWhile (fun x => x = blank) ::
        readCells cs (line.drop (c.sep.length + c.width))

/-- The text fits its column. -/
def Fits (c : Column α) (t : List α) : Prop := t.length ≤ c.width

variable {blank}

theorem length_padLeft (n : Nat) (t : List α) : (padLeft blank n t).length = max n t.length := by
  rw [padLeft, List.length_append, List.length_replicate]
  omega

theorem mem_padLeft {n : Nat} {t : List α} {x : α} (h : x ∈ padLeft blank n t) :
    x = blank ∨ x ∈ t := by
  rcases List.mem_append.mp h with hblank | hin
  · exact Or.inl (List.mem_replicate.mp hblank).2
  · exact Or.inr hin

theorem dropWhile_padLeft [DecidableEq α] (n : Nat) (t : List α) :
    (padLeft blank n t).dropWhile (fun x => x = blank) = t.dropWhile fun x => x = blank := by
  unfold padLeft
  refine List.dropWhile_append_of_pos fun x hx => ?_
  exact decide_eq_true (List.mem_replicate.mp hx).2

/-- A line is at least as wide as its columns. -/
theorem lineWidth_le {cs : List (Column α)} {ts : List (List α)} (h : cs.length = ts.length) :
    lineWidth cs ≤ (layout blank cs ts).length := by
  induction cs generalizing ts with
  | nil => exact Nat.zero_le _
  | cons c cs ih =>
    cases ts with
    | nil => cases h
    | cons t ts =>
      have hrest := ih (Nat.succ.inj h)
      rw [layout, lineWidth, List.length_append, List.length_append, length_padLeft]
      omega

/-- **Width.** A line has the width of its columns exactly if all texts fit. -/
theorem length_layout_iff {cs : List (Column α)} {ts : List (List α)} (h : cs.length = ts.length) :
    (layout blank cs ts).length = lineWidth cs ↔ List.Forall₂ Fits cs ts := by
  induction cs generalizing ts with
  | nil =>
    cases ts with
    | nil => exact iff_of_true rfl List.Forall₂.nil
    | cons t ts => cases h
  | cons c cs ih =>
    cases ts with
    | nil => cases h
    | cons t ts =>
      have hrest : cs.length = ts.length := Nat.succ.inj h
      have hle := @lineWidth_le _ blank _ _ hrest
      rw [layout, lineWidth, List.length_append, List.length_append, length_padLeft,
        List.forall₂_cons, ← ih hrest]
      unfold Fits
      omega

/-- **Round trip.** Texts that fit are read back, less the blanks in front. -/
theorem readCells_layout [DecidableEq α] {cs : List (Column α)} {ts : List (List α)}
    (h : List.Forall₂ Fits cs ts) :
    readCells blank cs (layout blank cs ts) =
      ts.map fun t => t.dropWhile fun x => x = blank := by
  induction h with
  | nil => rfl
  | @cons c t cs ts hfit _ ih =>
    have hlen : (padLeft blank c.width t).length = c.width := by
      rw [length_padLeft]
      exact max_eq_left hfit
    have hcell : ((c.sep ++ (padLeft blank c.width t ++ layout blank cs ts)).drop
        c.sep.length).take c.width = padLeft blank c.width t := by
      rw [List.drop_left, List.take_left' hlen]
    have hrest : (c.sep ++ (padLeft blank c.width t ++ layout blank cs ts)).drop
        (c.sep.length + c.width) = layout blank cs ts := by
      rw [← List.drop_drop, List.drop_left, List.drop_left' hlen]
    rw [layout, readCells, hcell, hrest, ih, dropWhile_padLeft, List.map_cons]

/-- Only separators, blanks and the texts make up a line. -/
theorem mem_layout {cs : List (Column α)} {ts : List (List α)} {x : α}
    (h : x ∈ layout blank cs ts) : x = blank ∨ (∃ c ∈ cs, x ∈ c.sep) ∨ ∃ t ∈ ts, x ∈ t := by
  induction cs generalizing ts with
  | nil => cases h
  | cons c cs ih =>
    cases ts with
    | nil => cases h
    | cons t ts =>
      rw [layout, List.mem_append, List.mem_append] at h
      rcases h with hsep | hpad | hrest
      · exact Or.inr (Or.inl ⟨c, List.mem_cons_self, hsep⟩)
      · rcases mem_padLeft hpad with hblank | hin
        · exact Or.inl hblank
        · exact Or.inr (Or.inr ⟨t, List.mem_cons_self, hin⟩)
      · rcases ih hrest with hblank | ⟨c', hc', hin⟩ | ⟨t', ht', hin⟩
        · exact Or.inl hblank
        · exact Or.inr (Or.inl ⟨c', List.mem_cons_of_mem _ hc', hin⟩)
        · exact Or.inr (Or.inr ⟨t', List.mem_cons_of_mem _ ht', hin⟩)

end layout

/-! ## Section 2: Bytes -/

/-- The bytes of a string. -/
def bytes (s : String) : List UInt8 := s.toList.flatMap String.utf8EncodeChar

/-- The byte of a blank. -/
def blankByte : UInt8 := 32

/-- The byte of a line feed. -/
def lineFeed : UInt8 := 10

theorem toByteArray_bytes (s : String) : (bytes s).toByteArray = s.toByteArray :=
  String.utf8Encode_toList

theorem length_bytes (s : String) : (bytes s).length = s.utf8ByteSize := by
  rw [String.utf8ByteSize, ← toByteArray_bytes]
  simp

/-- Lines, each with its line feed. -/
def unlines (ls : List (List UInt8)) : List UInt8 := ls.flatMap fun l => l ++ [lineFeed]

/-- The lines of a table, after its header and before the ruler that ends it. -/
def tableLines (header : Nat) (text : List UInt8) : List (List UInt8) :=
  ((text.splitOn lineFeed).drop header).dropLast.dropLast

theorem splitOn_unlines {ls : List (List UInt8)} (h : ∀ l ∈ ls, lineFeed ∉ l) :
    (unlines ls).splitOn lineFeed = ls ++ [[]] := by
  induction ls with
  | nil => exact List.splitOn_nil lineFeed
  | cons l ls ih =>
    rw [unlines, List.flatMap_cons, List.append_assoc, List.singleton_append,
      List.splitOn_append_cons_self_of_not_mem (h l List.mem_cons_self), List.cons_append]
    exact congrArg (List.cons l) (ih fun l' hl' => h l' (List.mem_cons_of_mem _ hl'))

/-- **Round trip.** The lines of a table are read back. -/
theorem tableLines_unlines {header body : List (List UInt8)} {ruler : List UInt8}
    (hheader : ∀ l ∈ header, lineFeed ∉ l) (hbody : ∀ l ∈ body, lineFeed ∉ l)
    (hruler : lineFeed ∉ ruler) :
    tableLines header.length (unlines (header ++ body ++ [ruler])) = body := by
  have hall : ∀ l ∈ header ++ body ++ [ruler], lineFeed ∉ l := by
    intro l hl
    rcases List.mem_append.mp hl with hl | hl
    · rcases List.mem_append.mp hl with hl | hl
      · exact hheader l hl
      · exact hbody l hl
    · rw [List.mem_singleton.mp hl]
      exact hruler
  rw [tableLines, splitOn_unlines hall, List.append_assoc, List.append_assoc, List.drop_left,
    ← List.append_assoc, List.dropLast_concat, List.dropLast_concat]

/-- A byte below 128 is a character. -/
theorem mem_of_mem_bytes {s : String} {c : Char} (hc : c.toNat < 128) {b : UInt8}
    (hb : b.toNat = c.toNat) (h : b ∈ bytes s) : c ∈ s.toList := by
  obtain ⟨d, hd, hmem⟩ := List.mem_flatMap.mp h
  have hsame : d.toNat = c.toNat := by
    have hval : d.val.toNat = d.toNat := rfl
    simp only [String.utf8EncodeChar, hval] at hmem
    split at hmem
    · rw [List.mem_singleton.mp hmem, UInt8.toNat_ofNat'] at hb
      omega
    · exfalso
      -- the bytes of a longer encoding are all at least 128
      split at hmem
      · simp only [List.mem_cons, List.not_mem_nil, or_false] at hmem
        rcases hmem with rfl | rfl <;> rw [UInt8.toNat_ofNat'] at hb <;> omega
      · split at hmem
        · simp only [List.mem_cons, List.not_mem_nil, or_false] at hmem
          rcases hmem with rfl | rfl | rfl <;> rw [UInt8.toNat_ofNat'] at hb <;> omega
        · simp only [List.mem_cons, List.not_mem_nil, or_false] at hmem
          rcases hmem with rfl | rfl | rfl | rfl <;> rw [UInt8.toNat_ofNat'] at hb <;> omega
  have heq : d = c := Char.toNat_inj.mp hsame
  rw [← heq]
  exact hd

/-- The bytes of a word have no blank and no line feed among them. -/
theorem not_mem_bytes_of_isWord {s : String} (h : Text.IsWord s) {b : UInt8}
    (hb : b = blankByte ∨ b = lineFeed) : b ∉ bytes s := by
  intro hmem
  rcases hb with rfl | rfl
  · have hblank := mem_of_mem_bytes (show ' '.toNat < 128 by decide) rfl hmem
    exact absurd (h.2 _ hblank) (by decide)
  · have hfeed := mem_of_mem_bytes (show '\n'.toNat < 128 by decide) rfl hmem
    exact absurd (h.2 _ hfeed) (by decide)

end Columns
