import Mathlib.Data.String.Basic

/-! # JSON Texts of Strings and Objects

  The part of JSON whose values are strings and objects, written as
  `json.dumps` does by default and read as `json.loads` does: an encoder that
  keeps to printable ASCII and a decoder by recursive descent, which skips
  white space between the tokens and refuses what is not of this part.

  - `dumps`: the text of a value.
  - `loads`: the value of a text, if it has one.
  - `loads_dumps`: a value is read back from its text.
-/

/-- A value. The members of an object are in the order of the text. -/
inductive Json where
  | str (s : String)
  | obj (members : List (String × Json))

namespace Json

/-! ### Characters in strings -/

/-- The characters with an escape of their own. -/
def shortEscapes : List (Char × Char) :=
  [('"', '"'), ('\\', '\\'), ('\n', 'n'), ('\r', 'r'), ('\t', 't'), ('\x08', 'b'), ('\x0c', 'f')]

/-- Four hexadecimal digits. -/
def hex4 (n : Nat) : List Char :=
  [Nat.digitChar (n / 4096 % 16), Nat.digitChar (n / 256 % 16), Nat.digitChar (n / 16 % 16),
   Nat.digitChar (n % 16)]

/-- The escape of a UTF-16 code unit. -/
def escapeUnit (u : Nat) : List Char := '\\' :: 'u' :: hex4 u

/-- A character as it stands in a string. -/
def escapeChar (c : Char) : List Char :=
  match shortEscapes.lookup c with
  | some e => ['\\', e]
  | none =>
    if ' ' ≤ c ∧ c ≤ '~' then [c]
    else if c.toNat < 0x10000 then escapeUnit c.toNat
    else
      -- a character outside the first plane is a pair of surrogates
      escapeUnit (0xd800 + (c.toNat - 0x10000) / 1024) ++
        escapeUnit (0xdc00 + (c.toNat - 0x10000) % 1024)

/-- The value of a hexadecimal digit. -/
def hexValue (c : Char) : Option Nat :=
  if '0' ≤ c ∧ c ≤ '9' then some (c.toNat - 48)
  else if 'a' ≤ c ∧ c ≤ 'f' then some (c.toNat - 87)
  else if 'A' ≤ c ∧ c ≤ 'F' then some (c.toNat - 55)
  else none

/-- A code unit, and the text after it. -/
def scanUnit : List Char → Option (Nat × List Char)
  | a :: b :: c :: d :: rest =>
      (hexValue a).bind fun a => (hexValue b).bind fun b => (hexValue c).bind fun c =>
        (hexValue d).map fun d => (4096 * a + 256 * b + 16 * c + d, rest)
  | _ => none

/-- What a letter after a backslash stands for. -/
def unescape (e : Char) : Option Char :=
  if e = '/' then some '/' else (shortEscapes.find? fun p => p.2 = e).map Prod.fst

/-- One character of a string, and the text after it. A surrogate on its own
    stands for no character. -/
def scanChar : List Char → Option (Char × List Char)
  | [] => none
  | '\\' :: 'u' :: rest =>
      (scanUnit rest).bind fun p =>
        if 0xd800 ≤ p.1 ∧ p.1 < 0xdc00 then
          match p.2 with
          | '\\' :: 'u' :: rest =>
              (scanUnit rest).bind fun q =>
                if 0xdc00 ≤ q.1 ∧ q.1 < 0xe000 then
                  some (Char.ofNat (0x10000 + 1024 * (p.1 - 0xd800) + (q.1 - 0xdc00)), q.2)
                else none
          | _ => none
        else if 0xdc00 ≤ p.1 ∧ p.1 < 0xe000 then none
        else some (Char.ofNat p.1, p.2)
  | '\\' :: e :: rest => (unescape e).map fun c => (c, rest)
  | c :: rest => if c.toNat < 32 then none else some (c, rest)

/-- The characters up to the closing quote, at most `fuel` of them. -/
def scanChars : Nat → List Char → Option (List Char × List Char)
  | 0, _ => none
  | _ + 1, '"' :: rest => some ([], rest)
  | fuel + 1, cs =>
      (scanChar cs).bind fun p => (scanChars fuel p.2).map fun q => (p.1 :: q.1, q.2)

/-- A string, after its opening quote. -/
def scanString (cs : List Char) : Option (String × List Char) :=
  (scanChars cs.length cs).map fun p => (String.ofList p.1, p.2)

/-! ### Values -/

/-- A string between quotes. -/
def quote (s : String) : List Char := '"' :: (s.toList.flatMap escapeChar ++ ['"'])

mutual

/-- `json.dumps` -/
def dumps : Json → List Char
  | .str s => quote s
  | .obj members => '\x7b' :: (dumpsMembers members ++ ['\x7d'])

/-- The members of an object. -/
def dumpsMembers : List (String × Json) → List Char
  | [] => []
  | [(key, v)] => quote key ++ ':' :: ' ' :: dumps v
  | (key, v) :: m :: ms =>
      quote key ++ ':' :: ' ' :: (dumps v ++ ',' :: ' ' :: dumpsMembers (m :: ms))

end

/-- White space between tokens. -/
def skip (cs : List Char) : List Char :=
  cs.dropWhile fun c => c == ' ' || c == '\t' || c == '\n' || c == '\r'

mutual

/-- A value, and the text after it. `fuel` bounds the depth of the recursion. -/
def scan : Nat → List Char → Option (Json × List Char)
  | 0, _ => none
  | fuel + 1, cs =>
      match cs with
      | '"' :: rest => (scanString rest).map fun p => (.str p.1, p.2)
      | '\x7b' :: rest =>
        match skip rest with
        | '\x7d' :: rest => some (.obj [], rest)
        | rest => (scanMembers fuel rest).map fun p => (.obj p.1, p.2)
      | _ => none

/-- The members of an object and its closing brace, and the text after it. -/
def scanMembers : Nat → List Char → Option (List (String × Json) × List Char)
  | 0, _ => none
  | fuel + 1, cs =>
      match cs with
      | '"' :: rest =>
        (scanString rest).bind fun key =>
          match skip key.2 with
          | ':' :: rest =>
            (scan fuel (skip rest)).bind fun v =>
              match skip v.2 with
              | '\x7d' :: rest => some ([(key.1, v.1)], rest)
              | ',' :: rest =>
                (scanMembers fuel (skip rest)).map fun ms => ((key.1, v.1) :: ms.1, ms.2)
              | _ => none
          | _ => none
      | _ => none

end

/-- `json.loads`. Every level of the recursion takes a character, so the length
    of the text is fuel enough. -/
def loads (cs : List Char) : Option Json :=
  (scan cs.length (skip cs)).bind fun p => if skip p.2 = [] then some p.1 else none

/-! ### Reading strings back -/

theorem hexValue_digitChar : ∀ d < 16, hexValue (Nat.digitChar d) = some d := by
  decide

theorem scanUnit_hex4 {n : Nat} (h : n < 0x10000) (rest : List Char) :
    scanUnit (hex4 n ++ rest) = some (n, rest) := by
  have hdigit : ∀ m : Nat, hexValue (Nat.digitChar (m % 16)) = some (m % 16) :=
    fun m => hexValue_digitChar _ (Nat.mod_lt _ (by decide))
  have hsum : 4096 * (n / 4096 % 16) + 256 * (n / 256 % 16) + 16 * (n / 16 % 16) + n % 16 = n := by
    omega
  unfold hex4 scanUnit
  simp only [List.cons_append, List.nil_append, hdigit, Option.bind_some, Option.map_some, hsum]

/-- A code unit that is not a surrogate is its character. -/
theorem scanChar_escapeUnit {c : Char} (h : c.toNat < 0x10000) (rest : List Char) :
    scanChar (escapeUnit c.toNat ++ rest) = some (c, rest) := by
  have hvalid : c.toNat < 0xd800 ∨ 0xdfff < c.toNat := by
    rcases c.valid with hlow | hhigh
    · exact Or.inl hlow
    · exact Or.inr hhigh.1
  unfold escapeUnit scanChar
  simp only [List.cons_append]
  rw [scanUnit_hex4 h, Option.bind_some, if_neg (by omega), if_neg (by omega), Char.ofNat_toNat]

/-- A pair of surrogates is its character. -/
theorem scanChar_surrogates {c : Char} (h : ¬ c.toNat < 0x10000) (rest : List Char) :
    scanChar (escapeUnit (0xd800 + (c.toNat - 0x10000) / 1024) ++
      escapeUnit (0xdc00 + (c.toNat - 0x10000) % 1024) ++ rest) = some (c, rest) := by
  have hbound : c.toNat < 0x110000 := by
    rcases c.valid with hlow | hhigh
    · exact Nat.lt_trans hlow (by decide)
    · exact hhigh.2
  have hcode : 0x10000 + 1024 * (0xd800 + (c.toNat - 0x10000) / 1024 - 0xd800) +
      (0xdc00 + (c.toNat - 0x10000) % 1024 - 0xdc00) = c.toNat := by omega
  unfold escapeUnit scanChar
  simp only [List.cons_append, List.append_assoc]
  rw [scanUnit_hex4 (by omega), Option.bind_some, if_pos (by omega)]
  simp only []
  rw [scanUnit_hex4 (by omega), Option.bind_some, if_pos (by omega), hcode, Char.ofNat_toNat]

/-- The letters of the escapes are read back, and none of them is that of a
    code unit. -/
theorem unescape_shortEscapes :
    ∀ p ∈ shortEscapes, p.2 ≠ 'u' ∧ unescape p.2 = some p.1 := by
  decide

/-- **Step.** A character is read back. -/
theorem scanChar_escapeChar (c : Char) (rest : List Char) :
    scanChar (escapeChar c ++ rest) = some (c, rest) := by
  unfold escapeChar
  split
  · next e he =>
    obtain ⟨l₁, l₂, hsplit, _⟩ := List.lookup_eq_some_iff.mp he
    have hmem : (c, e) ∈ shortEscapes := by rw [hsplit]; simp
    obtain ⟨hne, hback⟩ := unescape_shortEscapes (c, e) hmem
    simp only [List.cons_append, List.nil_append]
    rw [scanChar.eq_3 e rest hne, hback]
    rfl
  · next hnone =>
    have hplain : c ≠ '\\' := by
      rintro rfl
      exact absurd hnone (by decide)
    split
    · next hrange =>
      have hlow : ¬ c.toNat < 32 := Nat.not_lt.mpr hrange.1
      simp only [List.cons_append, List.nil_append]
      rw [scanChar.eq_4 c rest (by simp [hplain]) (by simp [hplain]), if_neg hlow]
    · split
      · next hfirst => exact scanChar_escapeUnit hfirst rest
      · next hother => exact scanChar_surrogates hother rest

/-- No character is written with a bare quote at its start. -/
theorem escapeChar_head (c : Char) : ∃ d ds, escapeChar c = d :: ds ∧ d ≠ '"' := by
  unfold escapeChar
  split
  · exact ⟨_, _, rfl, by decide⟩
  · next hnone =>
    have hplain : c ≠ '"' := by
      rintro rfl
      exact absurd hnone (by decide)
    split
    · exact ⟨_, _, rfl, hplain⟩
    · split
      · exact ⟨_, _, rfl, by decide⟩
      · exact ⟨_, _, rfl, by decide⟩

/-- **Run.** The characters of a string are read back up to the closing quote. -/
theorem scanChars_flatMap (cs rest : List Char) {fuel : Nat} (h : cs.length < fuel) :
    scanChars fuel (cs.flatMap escapeChar ++ '"' :: rest) = some (cs, rest) := by
  induction cs generalizing fuel with
  | nil =>
    obtain ⟨n, rfl⟩ := Nat.exists_eq_add_one_of_ne_zero (Nat.ne_of_gt h)
    rfl
  | cons c cs ih =>
    obtain ⟨n, rfl⟩ := Nat.exists_eq_add_one_of_ne_zero (Nat.ne_of_gt (Nat.zero_lt_of_lt h))
    have hrest := ih (Nat.lt_of_succ_lt_succ h)
    obtain ⟨d, ds, hhead, hne⟩ := escapeChar_head c
    have hstep := scanChar_escapeChar c (cs.flatMap escapeChar ++ '"' :: rest)
    rw [List.flatMap_cons, List.append_assoc]
    rw [hhead, List.cons_append] at hstep ⊢
    -- what is written for a character is not taken for the closing quote
    rw [scanChars.eq_3 _ _ (fun _ heq => hne (List.cons.inj heq).1), hstep, Option.bind_some,
      hrest]
    rfl

theorem length_le_flatMap_escapeChar (cs : List Char) :
    cs.length ≤ (cs.flatMap escapeChar).length := by
  induction cs with
  | nil => exact Nat.le_refl _
  | cons c cs ih =>
    obtain ⟨d, ds, hhead, _⟩ := escapeChar_head c
    rw [List.flatMap_cons, List.length_append, List.length_cons, hhead, List.length_cons]
    omega

/-- A string is read back from what stands after its opening quote. -/
theorem scanString_quoted (s : String) (rest : List Char) :
    scanString (s.toList.flatMap escapeChar ++ '"' :: rest) = some (s, rest) := by
  have hlen := length_le_flatMap_escapeChar s.toList
  unfold scanString
  rw [scanChars_flatMap s.toList rest (by
    rw [List.length_append, List.length_cons]
    omega)]
  exact congrArg some (Prod.ext (String.ofList_toList) rfl)

theorem quote_append (s : String) (rest : List Char) :
    quote s ++ rest = '"' :: (s.toList.flatMap escapeChar ++ '"' :: rest) := by
  simp [quote]

theorem two_le_length_quote (s : String) : 2 ≤ (quote s).length := by
  simp [quote]

/-! ### Reading values back -/

/-- White space is skipped up to a token. -/
theorem skip_cons {c : Char} (h : (c == ' ' || c == '\t' || c == '\n' || c == '\r') = false)
    (rest : List Char) : skip (c :: rest) = c :: rest := by
  rw [skip, List.dropWhile_cons_of_neg (by simp only [h]; decide)]

theorem skip_space (rest : List Char) : skip (' ' :: rest) = skip rest := rfl

/-- Every value begins with a token. -/
theorem skip_dumps (v : Json) (rest : List Char) : skip (dumps v ++ rest) = dumps v ++ rest := by
  cases v with
  | str s =>
    rw [dumps, quote_append]
    exact skip_cons (by decide) _
  | obj members =>
    rw [dumps, List.cons_append]
    exact skip_cons (by decide) _

theorem dumpsMembers_head (m : String × Json) (ms : List (String × Json)) :
    ∃ rest, dumpsMembers (m :: ms) = '"' :: rest := by
  cases ms with
  | nil => exact ⟨_, by rw [dumpsMembers, quote_append]⟩
  | cons m' ms => exact ⟨_, by rw [dumpsMembers, quote_append]⟩

/-- **Step.** One member is read back; what comes next is up to the text after
    it. -/
theorem scanMembers_member {key : String} {v : Json} {fuel : Nat} {tail : List Char}
    (hv : scan fuel (dumps v ++ tail) = some (v, tail)) :
    scanMembers (fuel + 1) (quote key ++ ':' :: ' ' :: (dumps v ++ tail)) =
      match skip tail with
      | '\x7d' :: rest => some ([(key, v)], rest)
      | ',' :: rest =>
        (scanMembers fuel (skip rest)).map fun ms => ((key, v) :: ms.1, ms.2)
      | _ => none := by
  have hcolon : ∀ cs, skip (':' :: ' ' :: cs) = ':' :: ' ' :: cs := fun cs => skip_cons (by decide) _
  rw [quote_append, scanMembers]
  simp only [scanString_quoted, Option.bind_some, hcolon, skip_space, skip_dumps, hv]

mutual

/-- A value is read back, whatever comes after it. -/
theorem scan_dumps : ∀ (v : Json) (fuel : Nat) (rest : List Char),
    (dumps v).length ≤ fuel → scan fuel (dumps v ++ rest) = some (v, rest)
  | .str s, fuel, rest, h => by
    rw [dumps] at h ⊢
    have hlen := two_le_length_quote s
    obtain ⟨n, rfl⟩ := Nat.exists_eq_add_one_of_ne_zero (by omega : fuel ≠ 0)
    rw [quote_append, scan]
    simp only [scanString_quoted, Option.map_some]
  | .obj [], fuel, rest, h => by
    rw [dumps, dumpsMembers] at h
    obtain ⟨n, rfl⟩ := Nat.exists_eq_add_one_of_ne_zero
      (by rw [List.length_cons] at h; omega : fuel ≠ 0)
    rfl
  | .obj (m :: ms), fuel, rest, h => by
    rw [dumps, List.length_cons, List.length_append] at h
    obtain ⟨n, rfl⟩ := Nat.exists_eq_add_one_of_ne_zero (by omega : fuel ≠ 0)
    have hmembers := scanMembers_dumps (m :: ms) n rest (List.cons_ne_nil m ms) (by omega)
    -- an object with members is not the empty one, for its text goes on with a quote
    obtain ⟨tail, htail⟩ := dumpsMembers_head m ms
    have hshape : dumps (.obj (m :: ms)) ++ rest =
        '\x7b' :: '"' :: (tail ++ '\x7d' :: rest) := by
      rw [dumps, htail]
      simp
    have hskip : skip ('"' :: (tail ++ '\x7d' :: rest)) = '"' :: (tail ++ '\x7d' :: rest) :=
      skip_cons (by decide) _
    rw [htail, List.cons_append] at hmembers
    rw [hshape, scan]
    simp only [hskip]
    show (scanMembers n ('"' :: (tail ++ '\x7d' :: rest))).map _ = _
    rw [hmembers]
    rfl

theorem scanMembers_dumps : ∀ (ms : List (String × Json)) (fuel : Nat) (rest : List Char),
    ms ≠ [] → (dumpsMembers ms).length ≤ fuel →
      scanMembers fuel (dumpsMembers ms ++ '\x7d' :: rest) = some (ms, rest)
  | [], _, _, hne, _ => absurd rfl hne
  | [(key, v)], fuel, rest, _, h => by
    rw [dumpsMembers, List.length_append, List.length_cons, List.length_cons] at h
    obtain ⟨n, rfl⟩ := Nat.exists_eq_add_one_of_ne_zero (by omega : fuel ≠ 0)
    have hv := scan_dumps v n ('\x7d' :: rest) (by omega)
    rw [dumpsMembers, List.append_assoc, List.cons_append, List.cons_append,
      scanMembers_member hv, skip_cons (by decide)]
    rfl
  | (key, v) :: m :: ms, fuel, rest, _, h => by
    rw [dumpsMembers, List.length_append, List.length_cons, List.length_cons, List.length_append,
      List.length_cons, List.length_cons] at h
    obtain ⟨n, rfl⟩ := Nat.exists_eq_add_one_of_ne_zero (by omega : fuel ≠ 0)
    have hv := scan_dumps v n (',' :: ' ' :: (dumpsMembers (m :: ms) ++ '\x7d' :: rest)) (by omega)
    have hms := scanMembers_dumps (m :: ms) n rest (List.cons_ne_nil m ms) (by omega)
    obtain ⟨tail, htail⟩ := dumpsMembers_head m ms
    have hskip : skip (' ' :: (dumpsMembers (m :: ms) ++ '\x7d' :: rest)) =
        dumpsMembers (m :: ms) ++ '\x7d' :: rest := by
      rw [skip_space, htail, List.cons_append, skip_cons (by decide)]
    rw [dumpsMembers, List.append_assoc, List.cons_append, List.cons_append, List.append_assoc,
      List.cons_append, List.cons_append, scanMembers_member hv, skip_cons (by decide)]
    simp only [hskip, hms, Option.map_some]

end

/-- **Round trip.** -/
theorem loads_dumps (v : Json) : loads (dumps v) = some v := by
  have hskip := skip_dumps v []
  have hscan := scan_dumps v (dumps v).length [] (Nat.le_refl _)
  rw [List.append_nil] at hskip hscan
  rw [loads, hskip, hscan]
  rfl

end Json
