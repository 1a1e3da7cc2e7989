import OpsNtpd.Cli.Sanitize

/-! # REST: The Validator of Server Addresses

  `NtpAssociationValidator` checks the address of an `NTP_Association` row that
  is written over REST, with `ipaddress.is_valid_ip_address`, a function of
  another package. The command line checks the same column in its own way.

  - `isIpLiteral`: the well-formed IP address literals.
  - `validateModification`: the validator.
  - `sameVerdict_iff`: the addresses on which the two sides agree.
-/

namespace OpsNtpd.Rest

open Text Cli

/-! ## Section 1: IP address literals -/

def isHexDigit (c : Char) : Bool :=
  c.isDigit || (97 ≤ c.toNat && c.toNat ≤ 102) || (65 ≤ c.toNat && c.toNat ≤ 70)

/-- A group of an IPv6 address: one to four hexadecimal digits. -/
def isGroup (cs : List Char) : Bool := !cs.isEmpty && decide (cs.length ≤ 4) && cs.all isHexDigit

/-- How many groups the pieces between colons stand for. The last piece may be
    a dotted quad, which stands for two. -/
def groupCount : List (List Char) → Option Nat
  | [] => none
  | [p] =>
    if isGroup p then some 1
    else if (inetPton (String.ofList p)).isSome then some 2 else none
  | p :: q :: ps => if isGroup p then (groupCount (q :: ps)).map (· + 1) else none

/-- The pieces before `::`. -/
def countBefore (ps : List (List Char)) : Option Nat :=
  if ps = [[]] then some 0
  else if ps ≠ [] ∧ ps.all isGroup then some ps.length else none

/-- The pieces after `::`. -/
def countAfter (ps : List (List Char)) : Option Nat :=
  if ps = [[]] then some 0 else groupCount ps

/-- An IPv6 address: eight groups, or fewer with one `::`. -/
def isIpv6 (s : String) : Bool :=
  let pieces := s.toList.splitOn ':'
  decide (groupCount pieces = some 8) ||
    (List.range pieces.length).any fun i =>
      decide (pieces[i]? = some []) &&
        match countBefore (pieces.take i), countAfter (pieces.drop (i + 1)) with
        | some m, some n => decide (m + n ≤ 7)
        | _, _ => false

/-- The well-formed IP address literals. -/
def isIpLiteral (s : String) : Bool := (inetPton s).isSome || isIpv6 s

example : isIpLiteral "2001:db8::1" = true ∧ isIpLiteral "::ffff:10.0.0.1" = true ∧
    isIpLiteral "1:::2" = false ∧ isIpLiteral "time.example" = false := by decide +kernel

/-! ## Section 2: The validator -/

/-- The codes of `opsvalidator.error`. -/
inductive ErrorCode where
  | verificationFailed
  deriving DecidableEq, Repr

structure ValidationError where
  code : ErrorCode
  details : String
  deriving DecidableEq, Repr

/-- `validation_args.resource_row`. -/
structure ResourceRow where
  address : Option String

/-- `NtpAssociationValidator.validate_modification` -/
def validateModification (isValidIpAddress : String → Bool) (row : ResourceRow) :
    Except ValidationError Unit :=
  match row.address with
  | none => .ok ()
  | some ipAddress =>
    if ¬ isValidIpAddress ipAddress then
      .error ⟨.verificationFailed, "Invalid IP address " ++ ipAddress ++ "."⟩
    else .ok ()

theorem validateModification_ok_iff {isValidIpAddress : String → Bool} {address : String} :
    validateModification isValidIpAddress ⟨some address⟩ = .ok () ↔
      isValidIpAddress address = true := by
  unfold validateModification
  by_cases hvalid : isValidIpAddress address = true
  · simp [hvalid]
  · simp [hvalid]

/-! ## Section 3: The literals and the checks of the command line -/

/-- Loopback, multicast, experimental and broadcast addresses. -/
def Reserved (addr : Nat) : Prop :=
  addr / 2 ^ 24 = 127 ∨ addr / 2 ^ 28 = 14 ∨ addr / 2 ^ 28 = 15 ∨ addr = 2 ^ 32 - 1

instance (addr : Nat) : Decidable (Reserved addr) := inferInstanceAs (Decidable (_ ∨ _))

/-- Some character is neither a digit nor punctuation. -/
def HasLetter (name : String) : Prop :=
  ∃ c ∈ name.toList, isPunct c = false ∧ c.isDigit = false

theorem hasAllDigits_eq_false_iff {name : String} :
    ntpInternalHasAllDigits name = false ↔ HasLetter name := by
  unfold ntpInternalHasAllDigits HasLetter
  rw [List.all_eq_false]
  simp

/-- A group takes at most four bytes. -/
theorem utf8Len_group {cs : List Char} (h : isGroup cs = true) : String.utf8Len cs ≤ 4 := by
  unfold isGroup at h
  rw [Bool.and_eq_true, Bool.and_eq_true, decide_eq_true_eq] at h
  have hascii : ∀ c ∈ cs, c.toNat ≤ 127 := by
    intro c hc
    have hhex := List.all_eq_true.mp h.2 c hc
    simp only [isHexDigit, Bool.or_eq_true, Bool.and_eq_true, decide_eq_true_eq] at hhex
    rcases hhex with (hdigit | hlower) | hupper
    · have hle := toNat_of_isDigit hdigit
      omega
    · omega
    · omega
  rw [utf8Len_of_ascii hascii]
  exact h.1.2

theorem octet_eq_some {cs : List Char} {n : Nat} (h : octet cs = some n) :
    (∀ c ∈ cs, c.isDigit = true) ∧ cs.length ≤ 3 := by
  unfold octet at h
  split at h
  · next hif =>
    obtain ⟨hne, hdigits, hzero, hval⟩ := hif
    have hall := List.all_eq_true.mp hdigits
    refine ⟨hall, ?_⟩
    rcases hzero with rfl | hhead
    · decide
    · obtain ⟨c, cs', rfl⟩ := List.exists_cons_of_ne_nil hne
      have hc : c ≠ '0' := fun heq => hhead (by rw [heq]; rfl)
      have hlt : Nat.ofDigitChars 10 (c :: cs') 0 < 10 ^ 3 := by omega
      exact length_le_of_ofDigitChars_lt (hall c List.mem_cons_self) hc hlt
  · cases h

/-- A dotted quad has four pieces of one to three digits. -/
theorem inetPton_pieces {s : String} {addr : Nat} (h : inetPton s = some addr) :
    (s.toList.splitOn '.').length = 4 ∧
      ∀ p ∈ s.toList.splitOn '.', (∀ c ∈ p, c.isDigit = true) ∧ p.length ≤ 3 := by
  unfold inetPton at h
  split at h
  · next a b c d hmap =>
    obtain ⟨hlen, hall⟩ := Rows.forall_of_mapM hmap
    refine ⟨hlen, fun p hp => ?_⟩
    obtain ⟨n, hn⟩ := hall p hp
    exact octet_eq_some hn
  · cases h

/-- A dotted quad takes at most fifteen bytes. -/
theorem utf8Len_quad {s : String} {addr : Nat} (h : inetPton s = some addr) :
    String.utf8Len s.toList ≤ 15 := by
  obtain ⟨hfour, hpieces⟩ := inetPton_pieces h
  have hsum := separatedLen_splitOn (s := '.') rfl s.toList
  have hle : ∀ p ∈ s.toList.splitOn '.', String.utf8Len p + 1 ≤ 4 := by
    intro p hp
    obtain ⟨hdigits, hlen⟩ := hpieces p hp
    have hascii : ∀ c ∈ p, c.toNat ≤ 127 := by
      intro c hc
      have hdigit := toNat_of_isDigit (hdigits c hc)
      omega
    rw [utf8Len_of_ascii hascii]
    omega
  have hbound := separatedLen_le hle
  rw [hfour] at hbound
  omega

theorem not_hasLetter_quad {s : String} {addr : Nat} (h : inetPton s = some addr) :
    ¬ HasLetter s := by
  intro hletter
  obtain ⟨c, hc, hpunct, hdigit⟩ := hletter
  have hdot : c ≠ '.' := by
    rintro rfl
    exact absurd hpunct (by decide)
  obtain ⟨p, hp, hcp⟩ := mem_splitOn_of_ne hc hdot
  rw [((inetPton_pieces h).2 p hp).1 c hcp] at hdigit
  cases hdigit

/-- Pieces that stand for `n` groups: a group takes five bytes with its colon,
    a quad at most sixteen. -/
theorem utf8Len_groupCount {ps : List (List Char)} {n : Nat} (h : groupCount ps = some n) :
    separatedLen ps ≤ 5 * n + 6 := by
  induction ps generalizing n with
  | nil => cases h
  | cons p ps ih =>
    rw [separatedLen]
    cases ps with
    | nil =>
      rw [separatedLen]
      unfold groupCount at h
      split at h
      · next hgroup =>
        have hle := utf8Len_group hgroup
        omega
      · split at h
        · next hquad =>
          obtain ⟨addr, haddr⟩ := Option.isSome_iff_exists.mp hquad
          have hle := utf8Len_quad haddr
          rw [String.toList_ofList] at hle
          cases h
          omega
        · cases h
    | cons q ps =>
      unfold groupCount at h
      split at h
      · next hgroup =>
        obtain ⟨m, hm, rfl⟩ := Option.map_eq_some_iff.mp h
        have hle := utf8Len_group hgroup
        have hrest := ih hm
        omega
      · cases h

theorem utf8Len_countBefore {ps : List (List Char)} {m : Nat} (h : countBefore ps = some m) :
    separatedLen ps ≤ 5 * m + 1 := by
  unfold countBefore at h
  split at h
  · next hnil =>
    rw [hnil]
    exact Nat.le_add_left 1 _
  · split at h
    · next hgroups =>
      cases h
      have hle : ∀ p ∈ ps, String.utf8Len p + 1 ≤ 5 := by
        intro p hp
        have hgroup := utf8Len_group (List.all_eq_true.mp hgroups.2 p hp)
        omega
      have hbound := separatedLen_le hle
      omega
    · cases h

theorem utf8Len_countAfter {ps : List (List Char)} {n : Nat} (h : countAfter ps = some n) :
    separatedLen ps ≤ 5 * n + 6 := by
  unfold countAfter at h
  split at h
  · next hnil =>
    rw [hnil]
    exact Nat.le_trans (show 1 ≤ 6 by decide) (Nat.le_add_left 6 _)
  · exact utf8Len_groupCount h

/-- An IPv6 address takes at most forty-five bytes. -/
theorem utf8Len_ipv6 {s : String} (h : isIpv6 s = true) : s.utf8ByteSize ≤ 45 := by
  rw [← String.utf8Len_toList]
  have hsum := separatedLen_splitOn (s := ':') rfl s.toList
  simp only [isIpv6, Bool.or_eq_true, decide_eq_true_eq, List.any_eq_true, Bool.and_eq_true,
    List.mem_range] at h
  rcases h with hfull | ⟨i, hi, hempty, hsides⟩
  · -- eight groups and a quad instead of the last two
    have hle := utf8Len_groupCount hfull
    omega
  · split at hsides
    · next m n hbefore hafter =>
      have hm := utf8Len_countBefore hbefore
      have hn := utf8Len_countAfter hafter
      -- the empty piece is the one between the two colons of `::`
      have hpieces : s.toList.splitOn ':' = (s.toList.splitOn ':').take i ++
          [] :: (s.toList.splitOn ':').drop (i + 1) := by
        rw [List.getElem?_eq_getElem hi, Option.some.injEq] at hempty
        rw [← hempty, List.getElem_cons_drop, List.take_append_drop]
      rw [hpieces, separatedLen_append, separatedLen] at hsum
      have hseven := of_decide_eq_true hsides
      have hzero : String.utf8Len ([] : List Char) = 0 := rfl
      omega
    · cases hsides

/-! ## Section 4: Where the two sides agree -/

/-- The addresses that REST and the command line both admit or both refuse:
    dotted quads outside 0.0.0.0/8 that are not reserved, IPv6 addresses with
    a hexadecimal letter, and what is no literal but too long or without a
    letter. A host name of the usual kind is none of these. -/
inductive SameVerdict (address : String) : Prop where
  | quad {addr : Nat} : inetPton address = some addr → address.toList.head? ≠ some '0' →
      ¬ Reserved addr → SameVerdict address
  | ipv6 : isIpv6 address = true → HasLetter address → SameVerdict address
  | other : isIpLiteral address = false →
      (¬ HasLetter address ∨ maxCharsInNtpServerName < address.utf8ByteSize) → SameVerdict address

section verdicts
variable {isValidIpAddress : String → Bool} {isValidIpv4 : Nat → Bool} {address : String}

/-- What the command line accepts, when `IS_VALID_IPV4` excludes the reserved addresses. -/
theorem validServerName_iff (hv4 : ∀ addr, isValidIpv4 addr = true ↔ ¬ Reserved addr) :
    validServerName isValidIpv4 address ↔
      address.utf8ByteSize ≤ maxCharsInNtpServerName ∧
        (HasLetter address ∨ ∃ addr, inetPton address = some addr ∧
          address.toList.head? ≠ some '0' ∧ ¬ Reserved addr) := by
  unfold validServerName ntpInternalIsValidServerName
  refine and_congr_right fun _ => ?_
  cases hall : ntpInternalHasAllDigits address with
  | false =>
    rw [if_neg Bool.false_ne_true]
    exact iff_of_true rfl (Or.inl (hasAllDigits_eq_false_iff.mp hall))
  | true =>
    have hno : ¬ HasLetter address := by
      rw [← hasAllDigits_eq_false_iff, hall]
      exact Bool.true_eq_false_eq_False
    rw [if_pos rfl, or_iff_right hno, ntpInternalIsValidIpv4Address]
    cases hquad : inetPton address with
    | none => simp
    | some addr =>
      by_cases hhead : address.toList.head? = some '0'
      · simp [hhead]
      · simp [hhead, hv4]

/-- A quad has no letter, so it is up to the reserved addresses. -/
theorem sameVerdict_quad {addr : Nat} (hquad : inetPton address = some addr) :
    SameVerdict address ↔ address.toList.head? ≠ some '0' ∧ ¬ Reserved addr := by
  constructor
  · intro h
    cases h with
    | quad hquad' hhead hfree =>
      rw [hquad, Option.some.injEq] at hquad'
      rw [hquad']
      exact ⟨hhead, hfree⟩
    | ipv6 _ hletter => exact absurd hletter (not_hasLetter_quad hquad)
    | other hnot _ =>
      rw [isIpLiteral, hquad] at hnot
      cases hnot
  · intro h
    exact .quad hquad h.1 h.2

/-- An IPv6 address is taken for a name by the scan for letters if it has one. -/
theorem sameVerdict_ipv6 (hquad : inetPton address = none) (hsix : isIpv6 address = true) :
    SameVerdict address ↔ HasLetter address := by
  constructor
  · intro h
    cases h with
    | quad hquad' _ _ =>
      rw [hquad] at hquad'
      cases hquad'
    | ipv6 _ hletter => exact hletter
    | other hnot _ =>
      rw [isIpLiteral, hsix, Bool.or_true] at hnot
      cases hnot
  · intro hletter
    exact .ipv6 hsix hletter

/-- What is no literal has to be refused by the command line too. -/
theorem sameVerdict_other (hnot : isIpLiteral address = false) :
    SameVerdict address ↔
      ¬ HasLetter address ∨ maxCharsInNtpServerName < address.utf8ByteSize := by
  constructor
  · intro h
    cases h with
    | quad hquad _ _ =>
      rw [isIpLiteral, hquad] at hnot
      cases hnot
    | ipv6 hsix _ =>
      rw [isIpLiteral, hsix, Bool.or_true] at hnot
      cases hnot
    | other _ hor => exact hor
  · intro hor
    exact .other hnot hor

/-- **REST and the command line.** When `is_valid_ip_address` accepts the
    literals and `IS_VALID_IPV4` excludes the reserved addresses, the two sides
    have the same verdict on an address exactly if it is of one of the three
    kinds. -/
theorem sameVerdict_iff (hip : ∀ s, isValidIpAddress s = true ↔ isIpLiteral s = true)
    (hv4 : ∀ addr, isValidIpv4 addr = true ↔ ¬ Reserved addr) (address : String) :
    (validateModification isValidIpAddress ⟨some address⟩ = .ok () ↔
      sanitizeServerName isValidIpv4 address = .ok ()) ↔ SameVerdict address := by
  rw [validateModification_ok_iff, hip, sanitizeServerName_ok_iff, validServerName_iff hv4]
  cases hquad : inetPton address with
  | some addr =>
    have hliteral : isIpLiteral address = true := by rw [isIpLiteral, hquad]; rfl
    have hfits : address.utf8ByteSize ≤ maxCharsInNtpServerName := by
      have hle := utf8Len_quad hquad
      rw [String.utf8Len_toList] at hle
      exact Nat.le_trans hle (by decide)
    rw [iff_true_left hliteral, and_iff_right hfits, or_iff_right (not_hasLetter_quad hquad),
      sameVerdict_quad hquad]
    simp only [Option.some.injEq, exists_eq_left']
  | none =>
    -- the IPv4 part of the command line's check is out
    have hquads : ¬ ∃ addr, none = some addr ∧ address.toList.head? ≠ some '0' ∧
        ¬ Reserved addr := by
      intro hex
      obtain ⟨_, heq, _⟩ := hex
      cases heq
    have hliteral : isIpLiteral address = isIpv6 address := by
      rw [isIpLiteral, hquad]
      rfl
    rw [or_iff_left hquads, hliteral]
    cases hsix : isIpv6 address with
    | true =>
      have hfits : address.utf8ByteSize ≤ maxCharsInNtpServerName :=
        Nat.le_trans (utf8Len_ipv6 hsix) (by decide)
      rw [iff_true_left rfl, and_iff_right hfits, sameVerdict_ipv6 hquad hsix]
    | false =>
      rw [iff_false_left Bool.false_ne_true, not_and_or, Nat.not_le,
        sameVerdict_other (hliteral.trans hsix)]
      exact or_comm

end verdicts

/-- `IS_VALID_IPV4` as the library has it. -/
def isValidIpv4 (addr : Nat) : Bool := decide (¬ Reserved addr)

/-- Both admit an address of a host. -/
theorem sameVerdict_iff_host :
    validateModification isIpLiteral ⟨some "10.0.0.1"⟩ = .ok () ↔
      sanitizeServerName isValidIpv4 "10.0.0.1" = .ok () :=
  (sameVerdict_iff (fun _ => Iff.rfl) (fun _ => decide_eq_true_iff) "10.0.0.1").mpr
    (.quad (show inetPton "10.0.0.1" = some 167772161 by decide) (by decide) (by decide))

/-- REST refuses a host name and admits loopback and multicast addresses; the
    command line does the opposite. -/
theorem hostName_refused_loopback_admitted :
    validateModification isIpLiteral ⟨some "time.example"⟩ =
        .error ⟨.verificationFailed, "Invalid IP address time.example."⟩ ∧
      sanitizeServerName isValidIpv4 "time.example" = .ok () ∧
      (∀ address ∈ ["127.0.0.1", "224.0.0.1"],
        validateModification isIpLiteral ⟨some address⟩ = .ok () ∧
        sanitizeServerName isValidIpv4 address =
          .error ⟨.errNothingToDo, "Invalid IP address\n"⟩) := by
  decide +kernel

end OpsNtpd.Rest
