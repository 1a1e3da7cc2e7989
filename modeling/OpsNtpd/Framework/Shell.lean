import Mathlib.Data.List.Chain

/-! # Shell Words

  How a POSIX shell cuts a command text into words: one state and one step per
  character. The reader covers texts that are one simple command made of
  literal characters, quotes and escapes. It has no result when the shell
  would do something else with the text: an operator or a line feed, an
  expansion, a substitution, an assignment, a reserved word, an open quote.
  A `$` that begins no expansion has an unspecified meaning and counts as one.

  - `simpleCommand`: the words of the command.
  - `Literal`: the texts that stand for themselves between double quotes.
  - `simpleCommand_iff`: a command whose arguments are put between double
    quotes has these arguments exactly when all of them are literal.
-/

namespace Shell

/-! ### The reader -/

/-- What the quotes and escapes read so far make of the next character. -/
inductive Mode where
  | unquoted
  | escaped
  | single
  | double
  | doubleEscaped
  | comment
  deriving DecidableEq, Repr

/-- The word that is being read, if one has begun, and those before it. -/
structure State where
  mode : Mode
  word : Option (List Char)
  words : List (List Char)
  deriving DecidableEq, Repr

def State.start : State := { mode := .unquoted, word := none, words := [] }

/-- Continue in another mode. -/
def State.enter (s : State) (mode : Mode) : State := { s with mode := mode }

/-- Begin a word, unless one has begun. -/
def State.openWord (s : State) : State := { s with word := some (s.word.getD []) }

/-- Characters that belong to the word. -/
def State.push (s : State) (cs : List Char) : State :=
  { s with word := some (s.word.getD [] ++ cs) }

/-- The word is complete. -/
def State.endWord (s : State) : State :=
  match s.word with
  | none => s
  | some w => { s with word := none, words := s.words ++ [w] }

/-- The characters that are special between double quotes. -/
def expansions : List Char := ['$', '\x60']

/-- The characters that a backslash between double quotes takes the meaning
    from; before any other it stands for itself. -/
def escapable : List Char := ['$', '\x60', '"', '\\', '\n']

/-- The unquoted characters that end a simple command or are expanded. -/
def active : List Char :=
  ['|', '&', ';', '<', '>', '(', ')', '\n', '$', '\x60', '*', '?', '[']

/-- Read one character. -/
def step (s : State) (c : Char) : Option State :=
  match s.mode with
  | .unquoted =>
    if c = ' ' ∨ c = '\t' then some s.endWord
    else if c ∈ active then none
    -- a home directory, and an assignment before the command
    else if c = '~' ∧ s.word = none then none
    else if c = '=' ∧ s.words = [] then none
    else if c = '#' ∧ s.word = none then some (s.enter .comment)
    else if c = '\\' then some (s.enter .escaped)
    else if c = '\'' then some (s.openWord.enter .single)
    else if c = '"' then some (s.openWord.enter .double)
    else some (s.push [c])
  | .escaped =>
    -- an escaped line break joins the lines
    if c = '\n' then some (s.enter .unquoted) else some ((s.push [c]).enter .unquoted)
  | .single => if c = '\'' then some (s.enter .unquoted) else some (s.push [c])
  | .double =>
    if c = '"' then some (s.enter .unquoted)
    else if c ∈ expansions then none
    else if c = '\\' then some (s.enter .doubleEscaped)
    else some (s.push [c])
  | .doubleEscaped =>
    if c = '\n' then some (s.enter .double)
    else if c ∈ escapable then some ((s.push [c]).enter .double)
    else some ((s.push ['\\', c]).enter .double)
  | .comment => if c = '\n' then none else some s

/-- Read a text. -/
def run (s : State) (cs : List Char) : Option State := cs.foldlM step s

/-- The reserved words. -/
def reserved : List String :=
  ["!", "\x7b", "\x7d", "case", "do", "done", "elif", "else", "esac", "fi", "for", "if", "in", "then",
   "until", "while"]

/-- The words at the end of the text. -/
def State.finish (s : State) : Option (List String) :=
  let ws := s.endWord.words.map String.ofList
  if (s.mode = .unquoted ∨ s.mode = .comment) ∧ (ws.head?.all fun w => w ∉ reserved) then some ws
  else none

/-- The words of the simple command that the text is. -/
def simpleCommand (text : String) : Option (List String) :=
  (run State.start text.toList).bind State.finish

example : simpleCommand "echo 'a b'\"c \\$d\"e" = some ["echo", "a bc $de"] := by decide

example : simpleCommand "echo \"$(reboot)\"" = none := by decide

theorem run_cons (s : State) (c : Char) (cs : List Char) :
    run s (c :: cs) = (step s c).bind fun s' => run s' cs := rfl

theorem run_append (s : State) (cs ds : List Char) :
    run s (cs ++ ds) = (run s cs).bind fun s' => run s' ds := List.foldlM_append

/-! ### Literal texts -/

/-- A backslash that stands for itself: the next character is not escapable. -/
def Follows (c d : Char) : Prop := c = '\\' → d ∉ escapable

instance (c d : Char) : Decidable (Follows c d) := inferInstanceAs (Decidable (_ → _))

/-- A text that stands for itself between double quotes: it has no quote and
    no expansion, and no backslash of it escapes a character or the closing
    quote. -/
structure Literal (cs : List Char) : Prop where
  plain : ∀ c ∈ cs, c ∉ expansions ∧ c ≠ '"'
  backslashes : (cs ++ ['"']).IsChain Follows

/-- Between double quotes a literal text becomes part of the word, and the
    closing quote closes it. -/
theorem run_literal {cs w : List Char} {ws : List (List Char)}
    (hplain : ∀ c ∈ cs, c ∉ expansions ∧ c ≠ '"') :
    ((cs ++ ['"']).IsChain Follows →
      run ⟨.double, some w, ws⟩ (cs ++ ['"']) = some ⟨.unquoted, some (w ++ cs), ws⟩) ∧
    (('\\' :: (cs ++ ['"'])).IsChain Follows →
      run ⟨.doubleEscaped, some w, ws⟩ (cs ++ ['"']) =
        some ⟨.unquoted, some (w ++ '\\' :: cs), ws⟩) := by
  induction cs generalizing w with
  | nil =>
    constructor
    · intro _
      rw [List.append_nil]
      rfl
    · intro hchain
      -- the quote would be escaped
      have hfollows : Follows '\\' '"' := (List.isChain_cons_cons.mp hchain).1
      exact absurd (hfollows rfl) (by decide)
  | cons c cs ih =>
    obtain ⟨⟨hexp, hquote⟩, hrest⟩ := List.forall_mem_cons.mp hplain
    have ih := fun w => ih (w := w) hrest
    constructor
    · intro hchain
      rw [List.cons_append] at hchain ⊢
      rw [run_cons]
      by_cases hc : c = '\\'
      · have hstep : step ⟨.double, some w, ws⟩ c = some ⟨.doubleEscaped, some w, ws⟩ := by
          rw [hc]
          rfl
        rw [hstep, Option.bind_some, (ih w).2 (hc ▸ hchain), hc]
      · have hstep : step ⟨.double, some w, ws⟩ c = some ⟨.double, some (w ++ [c]), ws⟩ := by
          simp [step, hquote, hexp, hc, State.push]
        rw [hstep, Option.bind_some, (ih (w ++ [c])).1 hchain.tail, List.append_assoc]
        rfl
    · intro hchain
      rw [List.cons_append] at hchain ⊢
      obtain ⟨hfollows, hchain'⟩ := List.isChain_cons_cons.mp hchain
      have hesc : c ∉ escapable := hfollows rfl
      have hnl : c ≠ '\n' := fun heq => hesc (heq ▸ by decide)
      have hstep : step ⟨.doubleEscaped, some w, ws⟩ c =
          some ⟨.double, some (w ++ ['\\', c]), ws⟩ := by
        simp [step, hnl, hesc, State.push, State.enter]
      rw [run_cons, hstep, Option.bind_some, (ih _).1 hchain'.tail, List.append_assoc]
      rfl

/-! ### What is read is accounted for -/

/-- The characters of all words. -/
def State.chars (s : State) : List Char := s.words.flatten ++ s.word.getD []

@[simp] theorem chars_enter (s : State) (mode : Mode) : (s.enter mode).chars = s.chars := rfl

@[simp] theorem chars_openWord (s : State) : s.openWord.chars = s.chars := rfl

@[simp] theorem chars_push (s : State) (cs : List Char) : (s.push cs).chars = s.chars ++ cs := by
  simp [State.chars, State.push]

@[simp] theorem chars_endWord (s : State) : s.endWord.chars = s.chars := by
  unfold State.endWord
  cases hword : s.word with
  | none => rfl
  | some w => simp [State.chars, hword]

@[simp] theorem mode_enter (s : State) (mode : Mode) : (s.enter mode).mode = mode := rfl

@[simp] theorem mode_push (s : State) (cs : List Char) : (s.push cs).mode = s.mode := rfl

@[simp] theorem mode_endWord (s : State) : s.endWord.mode = s.mode := by
  unfold State.endWord
  cases s.word <;> rfl

/-- Special neither in a word nor between double quotes. -/
def Ordinary (c : Char) : Prop := c ∉ expansions ∧ c ≠ '"' ∧ c ≠ '\\'

instance (c : Char) : Decidable (Ordinary c) := inferInstanceAs (Decidable (_ ∧ _ ∧ _))

theorem mem_escapable_of_not_ordinary {c : Char} (h : ¬ Ordinary c) : c ∈ escapable := by
  have hsub : ∀ x ∈ expansions, x ∈ escapable := by simp [expansions, escapable]
  by_contra hesc
  refine h ⟨fun hexp => hesc (hsub c hexp), ?_, ?_⟩
  · intro heq
    exact hesc (heq ▸ by decide)
  · intro heq
    exact hesc (heq ▸ by decide)

/-- `Emits m c out m'`: in mode `m` the character `c` adds `out` to the words
    and leads to mode `m'`. -/
inductive Emits : Mode → Char → List Char → Mode → Prop where
  | delimiter {c : Char} : c ≠ '\\' → c ≠ '\'' → Emits .unquoted c [] .unquoted
  | hash : Emits .unquoted '#' [] .comment
  | escape : Emits .unquoted '\\' [] .escaped
  | openSingle : Emits .unquoted '\'' [] .single
  | openDouble : Emits .unquoted '"' [] .double
  | word {c : Char} : Ordinary c → Emits .unquoted c [c] .unquoted
  | continuation : Emits .escaped '\n' [] .unquoted
  | escaped (c : Char) : Emits .escaped c [c] .unquoted
  | closeSingle : Emits .single '\'' [] .unquoted
  | inSingle (c : Char) : Emits .single c [c] .single
  | closeDouble : Emits .double '"' [] .unquoted
  | backslash : Emits .double '\\' [] .doubleEscaped
  | inDouble {c : Char} : Ordinary c → Emits .double c [c] .double
  | doubleContinuation : Emits .doubleEscaped '\n' [] .double
  | doubleEscaped {c : Char} : c ∈ escapable → Emits .doubleEscaped c [c] .double
  | literalBackslash {c : Char} : c ∉ escapable → Emits .doubleEscaped c ['\\', c] .double
  | inComment (c : Char) : Emits .comment c [] .comment

/-- What a step does, in one of these ways. -/
theorem step_emits {s s' : State} {c : Char} (h : step s c = some s') :
    ∃ out, Emits s.mode c out s'.mode ∧ s'.chars = s.chars ++ out := by
  unfold step at h
  cases hmode : s.mode with
  | unquoted =>
    simp only [hmode] at h
    -- blanks, then what is refused, then comments, escapes, quotes, and words
    split at h
    · next hblank =>
      cases h
      refine ⟨[], ?_, by simp⟩
      rw [mode_endWord, hmode]
      rcases hblank with heq | heq <;> rw [heq] <;> exact .delimiter (by decide) (by decide)
    · split at h
      · cases h
      · next hactive =>
        split at h
        · cases h
        · split at h
          · cases h
          · split at h
            · next hhash =>
              cases h
              rw [hhash.1]
              exact ⟨[], .hash, by simp⟩
            · split at h
              · next heq => cases h; rw [heq]; exact ⟨[], .escape, by simp⟩
              · next hback =>
                split at h
                · next heq => cases h; rw [heq]; exact ⟨[], .openSingle, by simp⟩
                · split at h
                  · next heq => cases h; rw [heq]; exact ⟨[], .openDouble, by simp⟩
                  · next hquote =>
                    cases h
                    refine ⟨[c], ?_, by simp⟩
                    rw [mode_push, hmode]
                    -- an expansion would have been refused as active
                    refine .word ⟨fun hexp => hactive ?_, hquote, hback⟩
                    have hsub : ∀ x ∈ expansions, x ∈ active := by simp [expansions, active]
                    exact hsub c hexp
  | escaped =>
    simp only [hmode] at h
    split at h
    · next heq => cases h; rw [heq]; exact ⟨[], .continuation, by simp⟩
    · cases h; exact ⟨[c], .escaped c, by simp⟩
  | single =>
    simp only [hmode] at h
    split at h
    · next heq => cases h; rw [heq]; exact ⟨[], .closeSingle, by simp⟩
    · cases h
      refine ⟨[c], ?_, by simp⟩
      rw [mode_push, hmode]
      exact .inSingle c
  | double =>
    simp only [hmode] at h
    split at h
    · next heq => cases h; rw [heq]; exact ⟨[], .closeDouble, by simp⟩
    · next hquote =>
      split at h
      · cases h
      · next hexp =>
        split at h
        · next heq => cases h; rw [heq]; exact ⟨[], .backslash, by simp⟩
        · next hback =>
          cases h
          refine ⟨[c], ?_, by simp⟩
          rw [mode_push, hmode]
          exact .inDouble ⟨hexp, hquote, hback⟩
  | doubleEscaped =>
    simp only [hmode] at h
    split at h
    · next heq => cases h; rw [heq]; exact ⟨[], .doubleContinuation, by simp⟩
    · split at h
      · next hesc => cases h; exact ⟨[c], .doubleEscaped hesc, by simp⟩
      · next hesc => cases h; exact ⟨['\\', c], .literalBackslash hesc, by simp⟩
  | comment =>
    simp only [hmode] at h
    split at h
    · cases h
    · cases h
      refine ⟨[], ?_, by simp⟩
      rw [hmode]
      exact .inComment c

/-- A backslash between double quotes is pending until its next character is
    known. -/
def pending (m : Mode) (x : Char) : Nat := if m = .doubleEscaped ∧ x = '\\' then 1 else 0

/-- A character adds itself at most once. -/
theorem emits_count {m m' : Mode} {c : Char} {out : List Char} (h : Emits m c out m') (x : Char) :
    out.count x + pending m' x ≤ pending m x + [c].count x := by
  unfold pending
  cases h with
  | backslash =>
    by_cases hx : x = '\\'
    · simp [hx]
    · simp [hx]
  | literalBackslash hesc =>
    by_cases hx : x = '\\'
    · rw [hx, List.count_cons_self, if_neg (by simp), if_pos ⟨rfl, rfl⟩]
      omega
    · rw [List.count_cons]
      have hne : ¬ '\\' = x := fun heq => hx heq.symm
      simp [hx, hne]
  | _ => simp

/-- When no backslash and no single quote is lost, nothing is escaped or put
    between single quotes: expansions and double quotes are never added, and
    no backslash is followed by an escapable character. -/
theorem emits_tight {m m' : Mode} {c : Char} {out : List Char} (h : Emits m c out m')
    (hm : m ≠ .escaped ∧ m ≠ .single)
    (hback : pending m '\\' + [c].count '\\' ≤ out.count '\\' + pending m' '\\')
    (hsingle : [c].count '\'' ≤ out.count '\'') :
    (m' ≠ .escaped ∧ m' ≠ .single) ∧ (∀ x, ¬ Ordinary x → x ≠ '\\' → out.count x = 0) ∧
      (m = .doubleEscaped → c ∉ escapable) ∧ (c = '\\' → m' = .doubleEscaped) := by
  unfold pending at hback
  have hword : Ordinary c → ∀ x, ¬ Ordinary x → [c].count x = 0 := by
    intro hord x hx
    rw [List.count_eq_zero, List.mem_singleton]
    intro heq
    exact hx (heq ▸ hord)
  -- `hback` and `hsingle` rule out the transitions that lose a character
  cases h with
  | delimiter hb _ => simp [hb]
  | hash => simp
  | escape => simp at hback
  | openSingle => simp at hsingle
  | openDouble => simp
  | word hord =>
    exact ⟨by simp, fun x hx _ => hword hord x hx, by simp, fun heq => absurd heq hord.2.2⟩
  | continuation => exact absurd rfl hm.1
  | escaped => exact absurd rfl hm.1
  | closeSingle => exact absurd rfl hm.2
  | inSingle => exact absurd rfl hm.2
  | closeDouble => simp
  | backslash => simp
  | inDouble hord =>
    exact ⟨by simp, fun x hx _ => hword hord x hx, by simp, fun heq => absurd heq hord.2.2⟩
  | doubleContinuation => simp at hback
  | doubleEscaped hesc =>
    -- the pending backslash would be lost
    simp only [reduceCtorEq, false_and, true_and, if_false, if_true] at hback
    omega
  | literalBackslash hesc =>
    refine ⟨by simp, ?_, fun _ => hesc, ?_⟩
    · intro x hx hback'
      have hne : c ≠ x := fun heq => hesc (heq ▸ mem_escapable_of_not_ordinary hx)
      rw [List.count_eq_zero]
      simp [hne.symm, hback']
    · intro heq
      exact absurd (heq ▸ by decide) hesc
  | inComment =>
    refine ⟨by simp, fun _ _ _ => List.count_nil, by simp, ?_⟩
    intro heq
    simp [heq] at hback

/-- How often `x` has been read into words. -/
def State.count (x : Char) (s : State) : Nat := s.chars.count x + pending s.mode x

theorem step_count {s s' : State} {c : Char} (h : step s c = some s') (x : Char) :
    s'.count x ≤ s.count x + [c].count x := by
  obtain ⟨out, hemits, hchars⟩ := step_emits h
  have hone := emits_count hemits x
  unfold State.count
  rw [hchars, List.count_append]
  omega

theorem count_cons_eq (c x : Char) (cs : List Char) :
    (c :: cs).count x = [c].count x + cs.count x := by
  rw [← List.singleton_append, List.count_append]

/-- **Run.** A text adds each of its characters at most once. -/
theorem run_count {s s' : State} {cs : List Char} (h : run s cs = some s') (x : Char) :
    s'.count x ≤ s.count x + cs.count x := by
  induction cs generalizing s with
  | nil =>
    cases h
    exact Nat.le_add_right _ _
  | cons c cs ih =>
    rw [run_cons] at h
    obtain ⟨s₁, hstep, hrest⟩ := Option.bind_eq_some_iff.mp h
    have hone := step_count hstep x
    have hmany := ih hrest
    rw [count_cons_eq]
    omega

/-- **Run.** When no backslash and no single quote is lost, expansions and
    double quotes never become part of a word, and no backslash is followed
    by an escapable character. -/
theorem run_tight {s s' : State} {cs : List Char} (h : run s cs = some s')
    (hm : s.mode ≠ .escaped ∧ s.mode ≠ .single)
    (hback : s.count '\\' + cs.count '\\' ≤ s'.count '\\')
    (hsingle : s.count '\'' + cs.count '\'' ≤ s'.count '\'') :
    (∀ x, ¬ Ordinary x → x ≠ '\\' → s'.count x = s.count x) ∧
      (if s.mode = .doubleEscaped then '\\' :: cs else cs).IsChain Follows := by
  induction cs generalizing s with
  | nil =>
    cases h
    refine ⟨fun _ _ _ => rfl, ?_⟩
    split
    · exact List.isChain_singleton _
    · exact List.IsChain.nil
  | cons c cs ih =>
    rw [run_cons] at h
    obtain ⟨s₁, hstep, hrest⟩ := Option.bind_eq_some_iff.mp h
    -- nothing is lost in this step, nor in the rest of the run
    have hstepCount := step_count hstep
    have hrestCount := run_count hrest
    obtain ⟨out, hemits, hchars⟩ := step_emits hstep
    have hcount : ∀ x, s₁.count x = s.chars.count x + out.count x + pending s₁.mode x := by
      intro x
      rw [State.count, hchars, List.count_append]
    have hback₁ := hstepCount '\\'
    have hsingle₁ := hstepCount '\''
    have hback₂ := hrestCount '\\'
    have hsingle₂ := hrestCount '\''
    rw [count_cons_eq] at hback hsingle
    have hone : pending s.mode '\\' + [c].count '\\' ≤ out.count '\\' + pending s₁.mode '\\' := by
      have heq := hcount '\\'
      have hdef : s.count '\\' = s.chars.count '\\' + pending s.mode '\\' := rfl
      omega
    have hnone : ∀ m, pending m '\'' = 0 := fun m => if_neg fun hand => absurd hand.2 (by decide)
    have hquote : [c].count '\'' ≤ out.count '\'' := by
      have heq := hcount '\''
      have hdef : s.count '\'' = s.chars.count '\'' + pending s.mode '\'' := rfl
      rw [hnone] at heq hdef
      omega
    obtain ⟨hm₁, hzero, hesc, hpending⟩ := emits_tight hemits hm hone hquote
    obtain ⟨hsame, hchain⟩ := ih hrest hm₁ (by omega) (by omega)
    constructor
    · intro x hx hne
      have hzero' := hzero x hx hne
      have hno : ∀ m, pending m x = 0 := fun m => if_neg fun hand => hne hand.2
      rw [hsame x hx hne, hcount, State.count, hzero', hno, hno]
    · -- the tail is a chain, and `c` is a backslash only if the next step checks it
      have hchain' : (c :: cs).IsChain Follows := by
        by_cases hc : c = '\\'
        · rw [if_pos (hpending hc)] at hchain
          rw [hc]
          exact hchain
        · refine List.isChain_cons.mpr ⟨fun _ _ heq => absurd heq hc, ?_⟩
          split at hchain
          · exact (List.isChain_cons.mp hchain).2
          · exact hchain
      split
      · next hmode => exact List.isChain_cons_cons.mpr ⟨fun _ => hesc hmode, hchain'⟩
      · exact hchain'

/-! ### Arguments between double quotes -/

/-- For each argument ` opt "argument"`. -/
def quoteArgs (opt : List Char) (args : List (List Char)) : List Char :=
  args.flatMap fun a => ' ' :: opt ++ [' ', '"'] ++ (a ++ ['"'])

/-- The option `opt` is a word that needs no quotes. -/
def BareOption (opt : List Char) : Prop :=
  ∀ w ws, run ⟨.unquoted, some w, ws⟩ (' ' :: opt ++ [' ', '"']) =
    some ⟨.double, some [], ws ++ [w, opt]⟩

section arguments
variable {opt : List Char} {args : List (List Char)} {w : List Char} {ws : List (List Char)}

variable (w ws) in
/-- Literal arguments are read as they are. -/
theorem run_quoteArgs (hopt : BareOption opt) (hargs : ∀ a ∈ args, Literal a) :
    ∃ s, run ⟨.unquoted, some w, ws⟩ (quoteArgs opt args) = some s ∧ s.mode = .unquoted ∧
      s.endWord.words = ws ++ w :: args.flatMap fun a => [opt, a] := by
  induction args generalizing w ws with
  | nil => exact ⟨_, rfl, rfl, rfl⟩
  | cons a args ih =>
    obtain ⟨hlit, hrest⟩ := List.forall_mem_cons.mp hargs
    obtain ⟨s, hrun, hmode, hwords⟩ := ih a (ws ++ [w, opt]) hrest
    refine ⟨s, ?_, hmode, ?_⟩
    · rw [quoteArgs, List.flatMap_cons, run_append, run_append, hopt, Option.bind_some,
        (run_literal hlit.plain).1 hlit.backslashes, Option.bind_some]
      exact hrun
    · rw [hwords]
      simp

/-- The characters of the arguments and options, without blanks and quotes. -/
theorem count_quoteArgs {x : Char} (hblank : x ≠ ' ') (hquote : x ≠ '"') :
    (quoteArgs opt args).count x = (args.flatMap fun a => opt ++ a).count x := by
  unfold quoteArgs
  rw [List.count_flatMap, List.count_flatMap]
  congr 1
  apply List.map_congr_left
  intro a _
  simp only [Function.comp, List.count_append, List.count_cons, List.count_nil, beq_iff_eq,
    hblank.symm, hquote.symm, if_false]
  omega

/-- The text ends with these words, and the first is not reserved. -/
theorem finish_eq_some {s : State} {first : List Char} {rest : List (List Char)} :
    s.finish = some ((first :: rest).map String.ofList) ↔
      (s.mode = .unquoted ∨ s.mode = .comment) ∧ s.endWord.words = first :: rest ∧
        String.ofList first ∉ reserved := by
  unfold State.finish
  rw [Option.ite_none_right_eq_some, Option.some_inj]
  constructor
  · intro hand
    obtain ⟨⟨hmode, hres⟩, hmap⟩ := hand
    rw [hmap] at hres
    have hwords : s.endWord.words = first :: rest :=
      List.map_injective_iff.mpr (fun _ _ => String.ofList_injective) hmap
    exact ⟨hmode, hwords, by simpa using hres⟩
  · intro hand
    obtain ⟨hmode, hwords, hres⟩ := hand
    rw [hwords]
    exact ⟨⟨hmode, by simpa using hres⟩, rfl⟩

variable (args) in
/-- **Quoted arguments.** A command whose last arguments are put between double
    quotes is one simple command with exactly these arguments if and only if
    all of them are literal. -/
theorem simpleCommand_iff {pre first : List Char}
    (hpre : run State.start pre = some ⟨.unquoted, some w, first :: ws⟩) (hopt : BareOption opt)
    (hfirst : String.ofList first ∉ reserved) :
    simpleCommand (String.ofList (pre ++ quoteArgs opt args)) =
        some ((first :: (ws ++ w :: args.flatMap fun a => [opt, a])).map String.ofList) ↔
      ∀ a ∈ args, Literal a := by
  unfold simpleCommand
  rw [String.toList_ofList, run_append, hpre, Option.bind_some]
  constructor
  · intro h
    obtain ⟨s, hrun, hfinish⟩ := Option.bind_eq_some_iff.mp h
    obtain ⟨hmode, hwords, _⟩ := finish_eq_some.mp hfinish
    -- every character of the arguments has been read, so nothing was lost
    have hnone : ∀ x, pending s.mode x = 0 := by
      intro x
      refine if_neg fun hand => ?_
      rw [hand.1] at hmode
      exact hmode.elim (by decide) (by decide)
    have hcount : ∀ x, s.count x = State.count x ⟨.unquoted, some w, first :: ws⟩ +
        (args.flatMap fun a => opt ++ a).count x := by
      intro x
      have hpairs : (args.flatMap fun a => [opt, a]).flatten = args.flatMap fun a => opt ++ a := by
        simp [List.flatMap_def, List.flatten_flatten, Function.comp_def]
      have hchars : s.chars = (first :: ws).flatten ++ w ++ args.flatMap fun a => opt ++ a := by
        rw [← chars_endWord]
        have hend : s.endWord.word = none := by
          unfold State.endWord
          cases hw : s.word with
          | none => exact hw
          | some _ => rfl
        unfold State.chars
        rw [hend, hwords, ← hpairs]
        simp
      unfold State.count
      rw [hchars, hnone, List.count_append]
      rfl
    obtain ⟨hsame, hchain⟩ := run_tight hrun ⟨by simp, by simp⟩
      (by rw [hcount, count_quoteArgs (by decide) (by decide)])
      (by rw [hcount, count_quoteArgs (by decide) (by decide)])
    rw [if_neg (by simp)] at hchain
    intro a ha
    refine { plain := ?_, backslashes := ?_ }
    · -- a special character occurs, but none has become part of a word
      intro c hc
      have hmem : c ∈ args.flatMap fun a => opt ++ a :=
        List.mem_flatMap.mpr ⟨a, ha, List.mem_append_right _ hc⟩
      by_contra hspecial
      have hord : ¬ Ordinary c := fun hord => hspecial ⟨hord.1, hord.2.1⟩
      have hne : c ≠ '\\' := by
        intro heq
        rw [heq] at hspecial
        exact hspecial (by decide)
      have hzero := hsame c hord hne
      rw [hcount] at hzero
      have hpos := List.count_pos_iff.mpr hmem
      omega
    · -- the argument and its closing quote are a part of the chain
      refine hchain.infix ?_
      obtain ⟨before, after, hsplit⟩ := List.append_of_mem ha
      refine ⟨quoteArgs opt before ++ (' ' :: opt ++ [' ', '"']), quoteArgs opt after, ?_⟩
      rw [hsplit]
      simp [quoteArgs]
  · intro hargs
    obtain ⟨s, hrun, hmode, hwords⟩ := run_quoteArgs w (first :: ws) hopt hargs
    rw [hrun, Option.bind_some]
    exact finish_eq_some.mpr ⟨Or.inl hmode, hwords, hfirst⟩

end arguments

end Shell
