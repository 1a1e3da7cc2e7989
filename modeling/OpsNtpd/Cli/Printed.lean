import OpsNtpd.Cli.Refinement
import OpsNtpd.Cli.RunningConfig

/-! # CLI: Printed Lines Parse

  - Section 1: the texts in the tables that entered lines build are words and
    version numerals.
  - Section 2: a printed line parses to the command it was printed for.
-/

namespace OpsNtpd.Cli

open Text

variable {isValidIpv4 : Nat → Bool} {db : Db}

/-! ## Section 1: Texts in the tables -/

/-- A printed key id is read back. -/
theorem atoi_keyId {key : Int} (h : keyIdInRange key) : atoi (toString key) = key := by
  obtain ⟨hmin, hmax⟩ := h
  rw [ntpKeyKeyIdMin] at hmin
  rw [ntpKeyKeyIdMax] at hmax
  exact atoi_toString (by omega) (by omega)

theorem keyToken_toString {key : Int} (h : keyIdInRange key) : keyToken (toString key) := by
  have hpos : 0 ≤ key := by
    have hmin : ntpKeyKeyIdMin ≤ key := h.1
    rw [ntpKeyKeyIdMin] at hmin
    omega
  refine ⟨isNumeral_toString_int hpos, ?_⟩
  rw [leadingInt_toString hpos]
  exact h

/-- The words after a server name give options that match their tokens. -/
theorem parseServerOptions_tokens {ws : List String} {o o' : ServerOptions}
    (hv : ∀ v ∈ o.version, versionToken v) (hk : ∀ k ∈ o.keyId, keyToken k)
    (h : parseServerOptions o ws = some o') :
    (∀ v ∈ o'.version, versionToken v) ∧ ∀ k ∈ o'.keyId, keyToken k := by
  induction o, ws using parseServerOptions.induct with
  | case1 o =>
    rw [parseServerOptions, Option.some_inj] at h
    subst h
    exact ⟨hv, hk⟩
  | case2 o w hw =>
    rw [parseServerOptions, if_pos hw, Option.some_inj] at h
    subst h
    exact ⟨hv, hk⟩
  | case3 o w hw =>
    rw [parseServerOptions, if_neg hw] at h
    cases h
  | case4 o w w' ws hw ih =>
    rw [parseServerOptions, if_pos hw] at h
    exact ih hv hk h
  | case5 o w w' ws hw hver ih =>
    rw [parseServerOptions, if_neg hw, if_pos hver] at h
    exact ih (by simpa using hver.2.2) hk h
  | case6 o w w' ws hw hver hkey ih =>
    rw [parseServerOptions, if_neg hw, if_neg hver, if_pos hkey] at h
    exact ih hv (by simpa using hkey.2.2) h
  | case7 o w w' ws hw hver hkey =>
    rw [parseServerOptions, if_neg hw, if_neg hver, if_neg hkey] at h
    cases h

/-- What a line parses to has arguments that match their tokens. -/
theorem parseLine_tokens {line : String} {c : Command} (h : parseLine line = some c) :
    c.Tokens := by
  have hwords : ∀ w ∈ words line, IsWord w := fun w hw => isWord_of_mem_words hw
  unfold parseLine at h
  revert h hwords
  generalize words line = ws
  intro h hwords
  unfold parseWords at h
  split at h
  · next name ws =>
    obtain ⟨o, ho, rfl⟩ := Option.map_eq_some_iff.mp h
    have htok := parseServerOptions_tokens (by simp [ServerOptions.none])
      (by simp [ServerOptions.none]) ho
    exact ⟨hwords name (by simp), htok.1, htok.2⟩
  · next name =>
    cases h
    exact hwords name (by simp)
  · cases h; trivial
  · cases h; trivial
  · next key md5 =>
    split at h
    · next hkey => cases h; exact ⟨hkey, hwords md5 (by simp)⟩
    · cases h
  · next key =>
    split at h
    · next hkey => cases h; exact hkey
    · cases h
  · next key =>
    split at h
    · next hkey => cases h; exact hkey
    · cases h
  · next key =>
    split at h
    · next hkey => cases h; exact hkey
    · cases h
  · cases h

/-- The texts of a configuration can stand in a command line. -/
structure Config.Printable (m : Config) : Prop where
  passwords : ∀ key p, m.keys.lookup key = some p → IsWord p.1
  names : ∀ name e, m.servers.lookup name = some e → IsWord name
  versions : ∀ name e, m.servers.lookup name = some e → versionToken e.version

theorem Config.printable_empty : Config.empty.Printable := by
  constructor <;> simp [Config.empty]

theorem Config.Printable.insertServer {m : Config} (h : m.Printable) {name : String}
    {e : ServerEntry} (hname : IsWord name) (he : versionToken e.version) :
    { m with servers := m.servers.insert name e }.Printable := by
  refine { passwords := h.passwords, names := ?_, versions := ?_ }
  · intro name' e' hlook
    simp only [Dict.lookup_insert_eq] at hlook
    split at hlook
    · next heq => rw [heq]; exact hname
    · exact h.names name' e' hlook
  · intro name' e' hlook
    simp only [Dict.lookup_insert_eq] at hlook
    split at hlook
    · cases hlook; exact he
    · exact h.versions name' e' hlook

theorem Config.Printable.insertKey {m : Config} (h : m.Printable) {key : Int} {pwd : String}
    {trust : Bool} (hpwd : IsWord pwd) :
    { m with keys := m.keys.insert key (pwd, trust) }.Printable := by
  refine { passwords := ?_, names := h.names, versions := h.versions }
  intro key' p hlook
  simp only [Dict.lookup_insert_eq] at hlook
  split at hlook
  · cases hlook; exact hpwd
  · exact h.passwords key' p hlook

theorem Config.Printable.setTrust {m : Config} (h : m.Printable) (key : Int) (trust : Bool) :
    (m.setTrust key trust).Printable := by
  unfold Config.setTrust
  cases hlook : m.keys.lookup key with
  | none => exact h
  | some p => exact h.insertKey (h.passwords key p hlook)

/-- **Step.** Commands with proper arguments keep the texts printable. -/
theorem Config.Printable.step {m : Config} (h : m.Printable) {c : Command} (hc : c.Tokens) :
    (m.step isValidIpv4 c).Printable := by
  cases c with
  | ntpServer name prefer version keyId =>
    obtain ⟨hname, hver, _⟩ := hc
    have hupdate : ∀ e : ServerEntry, versionToken e.version →
        versionToken (e.update prefer version keyId).version := by
      intro e he
      cases hv : version with
      | none => exact he
      | some v => exact hver v hv
    rw [Config.step]
    split
    · exact h
    · cases hlook : m.servers.lookup name with
      | some e => exact h.insertServer hname (hupdate e (h.versions name e hlook))
      | none =>
        simp only
        split
        · exact h
        · exact h.insertServer hname (hupdate _ (by decide))
  | noNtpServer name =>
    refine { passwords := h.passwords, names := ?_, versions := ?_ }
    · intro name' e hlook
      simp only [Config.step, Dict.lookup_erase_eq] at hlook
      split at hlook
      · cases hlook
      · exact h.names name' e hlook
    · intro name' e hlook
      simp only [Config.step, Dict.lookup_erase_eq] at hlook
      split at hlook
      · cases hlook
      · exact h.versions name' e hlook
  | ntpAuthenticationEnable => exact h
  | noNtpAuthenticationEnable => exact h
  | ntpAuthenticationKey key md5 =>
    rw [Config.step]
    split
    · exact h
    · exact h.insertKey hc.2
  | noNtpAuthenticationKey key =>
    refine { passwords := ?_, names := ?_, versions := ?_ }
    · intro key' p hlook
      simp only [Config.step, Dict.lookup_erase_eq] at hlook
      split at hlook
      · cases hlook
      · exact h.passwords key' p hlook
    · intro name e hlook
      simp only [Config.step, Dict.lookup_mapValues] at hlook
      obtain ⟨e₀, he₀, _⟩ := Option.map_eq_some_iff.mp hlook
      exact h.names name e₀ he₀
    · intro name e hlook
      simp only [Config.step, Dict.lookup_mapValues] at hlook
      obtain ⟨e₀, he₀, rfl⟩ := Option.map_eq_some_iff.mp hlook
      have hversion : (ServerEntry.dropKey (atoi key) e₀).version = e₀.version := by
        unfold ServerEntry.dropKey
        split <;> rfl
      rw [hversion]
      exact h.versions name e₀ he₀
  | ntpTrustedKey key => exact h.setTrust (atoi key) true
  | noNtpTrustedKey key => exact h.setTrust (atoi key) false

theorem wellFormed_enterLine (h : WellFormed isValidIpv4 db) (hp : (configOf db).Printable)
    (line : String) :
    WellFormed isValidIpv4 (enterLine isValidIpv4 db line) ∧
      (configOf (enterLine isValidIpv4 db line)).Printable := by
  unfold enterLine
  cases hparse : parseLine line with
  | none => exact ⟨h, hp⟩
  | some c =>
    refine ⟨wellFormed_exec h c, ?_⟩
    show (configOf (c.exec isValidIpv4 db)).Printable
    rw [configOf_exec h c]
    exact hp.step (parseLine_tokens hparse)

/-- **Run.** The tables that entered lines build are well formed and printable. -/
theorem wellFormed_enterLines (h : WellFormed isValidIpv4 db) (hp : (configOf db).Printable)
    (input : List String) :
    WellFormed isValidIpv4 (enterLines isValidIpv4 db input) ∧
      (configOf (enterLines isValidIpv4 db input)).Printable := by
  induction input generalizing db with
  | nil => exact ⟨h, hp⟩
  | cons line input ih =>
    obtain ⟨h', hp'⟩ := wellFormed_enterLine h hp line
    exact ih h' hp'

/-! ## Section 2: Printed lines parse -/

/-- The command that a key is printed for. -/
def authenticationKeyCommand (row : NtpKeyRow) : Command :=
  .ntpAuthenticationKey (toString row.keyId) row.keyPassword

/-- The command that the trust of a key is printed for. -/
def trustedKeyCommand (row : NtpKeyRow) : Command := .ntpTrustedKey (toString row.keyId)

/-- The command that a server with the options `e` is printed for: options
    equal to their default are left out. -/
def serverCommand (address : String) (e : ServerEntry) : Command :=
  .ntpServer address e.prefer (if e.version = "3" then none else some e.version)
    (e.key.map toString)

theorem parseLine_authenticationKey {row : NtpKeyRow} (hkey : keyIdInRange row.keyId)
    (hpwd : IsWord row.keyPassword) :
    parseLine ("ntp authentication-key " ++ toString row.keyId ++ " md5 " ++ row.keyPassword) =
      some (authenticationKeyCommand row) := by
  have htok := keyToken_toString hkey
  have hwords : words ("ntp authentication-key " ++ toString row.keyId ++ " md5 " ++
      row.keyPassword) = ["ntp", "authentication-key", toString row.keyId, "md5",
        row.keyPassword] := by
    rw [words_append_blank_append (by decide) (by decide), words_of_isWord hpwd,
      words_append_of_getLast (by decide), words_of_isWord htok.1.isWord]
    rfl
  rw [parseLine, hwords]
  show (if keyToken (toString row.keyId) then some (authenticationKeyCommand row) else none) = _
  rw [if_pos htok]

theorem parseLine_trustedKey {row : NtpKeyRow} (hkey : keyIdInRange row.keyId) :
    parseLine ("ntp trusted-key " ++ toString row.keyId) = some (trustedKeyCommand row) := by
  have htok := keyToken_toString hkey
  have hwords : words ("ntp trusted-key " ++ toString row.keyId) =
      ["ntp", "trusted-key", toString row.keyId] := by
    rw [words_append_of_getLast (by decide), words_of_isWord htok.1.isWord]
    rfl
  rw [parseLine, hwords]
  show (if keyToken (toString row.keyId) then some (trustedKeyCommand row) else none) = _
  rw [if_pos htok]

/-- The text of a key in range has five digits at most, and `snprintf` cuts
    nothing. -/
theorem printKeyId_of_range {row : NtpAssociationRow}
    (hkeys : ∀ key, db.keyOf row = some key → keyIdInRange key) :
    printKeyId db row = (match db.keyOf row with
        | none => ""
        | some key => " key-id " ++ toString key) ∧
      ∀ key, db.keyOf row = some key → keyToken (toString key) ∧
        (toString key).toList.length ≤ 5 := by
  unfold printKeyId
  unfold Db.keyOf at hkeys ⊢
  cases hkey : row.keyId.bind db.keyRow with
  | none => exact ⟨rfl, fun key hk => by cases hk⟩
  | some kr =>
    have hrange : keyIdInRange kr.keyId := hkeys kr.keyId (by rw [hkey]; rfl)
    have hlen : (toString kr.keyId).toList.length ≤ 5 := by
      have hmin : ntpKeyKeyIdMin ≤ kr.keyId := hrange.1
      have hmax : kr.keyId ≤ ntpKeyKeyIdMax := hrange.2
      rw [ntpKeyKeyIdMin] at hmin
      rw [ntpKeyKeyIdMax] at hmax
      exact length_toString_le (by omega) (by omega)
    refine ⟨?_, ?_⟩
    · show snprintfStrTemp (" key-id " ++ toString kr.keyId) = " key-id " ++ toString kr.keyId
      unfold snprintfStrTemp
      rw [List.take_of_length_le, String.ofList_toList]
      have hlit : " key-id ".toList.length = 8 := by decide
      rw [String.toList_append, List.length_append, hlit, strTempSize]
      omega
    · intro key hk
      rw [← Option.some.inj hk]
      exact ⟨keyToken_toString hrange, hlen⟩

theorem WellFormed.keyOf_inRange (h : WellFormed isValidIpv4 db) {row : NtpAssociationRow}
    {key : Int} (hkey : db.keyOf row = some key) : keyIdInRange key := by
  obtain ⟨kr, hmem, _, hid⟩ := (Db.keyOf_eq_some h.keyUuids).mp hkey
  rw [← hid]
  exact (h.keyValid kr hmem).1

theorem printKeyId_eq (h : WellFormed isValidIpv4 db) (row : NtpAssociationRow) :
    printKeyId db row = (match db.keyOf row with
        | none => ""
        | some key => " key-id " ++ toString key) ∧
      ∀ key, db.keyOf row = some key → keyToken (toString key) ∧
        (toString key).toList.length ≤ 5 :=
  printKeyId_of_range fun _ hkey => h.keyOf_inRange hkey

/-- The key part alone fits the buffer. -/
theorem printKeyId_fits (h : WellFormed isValidIpv4 db) (row : NtpAssociationRow) :
    (printKeyId db row).utf8ByteSize < strTempSize := by
  obtain ⟨heq, hkeys⟩ := printKeyId_eq h row
  rw [heq, strTempSize]
  cases hkey : db.keyOf row with
  | none => decide
  | some key =>
    obtain ⟨htok, hlen⟩ := hkeys key hkey
    have hlit : " key-id ".utf8ByteSize = 8 := by decide
    show (" key-id " ++ toString key).utf8ByteSize < 80
    rw [String.utf8ByteSize_append, hlit, htok.1.utf8ByteSize]
    omega

/-- The three option parts are empty or start with a blank, and have these words. -/
theorem words_printKeyId (h : WellFormed isValidIpv4 db) (row : NtpAssociationRow) :
    (printKeyId db row = "" ∨ (printKeyId db row).toList.head? = some ' ') ∧
      words (printKeyId db row) =
        match db.keyOf row with
        | none => []
        | some key => ["key-id", toString key] := by
  obtain ⟨heq, hkeys⟩ := printKeyId_eq h row
  rw [heq]
  cases hkey : db.keyOf row with
  | none => exact ⟨Or.inl rfl, rfl⟩
  | some key =>
    refine ⟨Or.inr ?_, ?_⟩
    · show (" key-id " ++ toString key).toList.head? = some ' '
      rw [String.toList_append, List.head?_append]
      rfl
    · show words (" key-id " ++ toString key) = _
      rw [words_append_of_getLast (by decide), words_of_isWord (hkeys key hkey).1.1.isWord]
      rfl

/-- Only the default version itself is left out. -/
theorem versionText_eq {row : NtpAssociationRow} {version : String} {prefer : Bool}
    (hattr : row.associationAttributes = assocAttribs version prefer)
    (hver : versionToken version) :
    versionText row = if version = "3" then "" else " version " ++ version := by
  unfold versionText
  rw [hattr, lookup_version_assocAttribs]
  show ite _ "" (" version " ++ version) = _
  by_cases hpre : hasPrefix version ntpAssocAttribVersionDefault = true
  · -- a version in range that starts like the default is the default
    have hhead : version.toList.head? = some '3' := by
      have htake : version.toList.take 1 = ['3'] := by
        simpa [hasPrefix, ntpAssocAttribVersionDefault] using hpre
      obtain ⟨cs, hcs⟩ : ∃ cs, version.toList = '3' :: cs := by
        rw [← List.take_append_drop 1 version.toList, htake]
        exact ⟨_, rfl⟩
      rw [hcs]
      rfl
    have hthree : version = "3" :=
      eq_three_of_leading hver.1 hhead (by have hle := hver.2.2; omega)
    rw [if_pos hpre, if_pos hthree]
  · have hthree : version ≠ "3" := by
      intro heq
      rw [heq] at hpre
      exact hpre (by decide)
    rw [if_neg hpre, if_neg hthree]

theorem preferText_eq {row : NtpAssociationRow} {version : String} {prefer : Bool}
    (hattr : row.associationAttributes = assocAttribs version prefer) :
    preferText row = if prefer then " prefer" else "" := by
  have hbool : smapGetBool row.associationAttributes ntpAssocAttribPrefer = prefer := by
    unfold smapGetBool
    rw [hattr, lookup_prefer_assocAttribs]
    cases prefer <;> decide
  unfold preferText
  rw [hbool]

theorem words_versionText {row : NtpAssociationRow} {version : String} {prefer : Bool}
    (hattr : row.associationAttributes = assocAttribs version prefer)
    (hver : versionToken version) :
    (versionText row = "" ∨ (versionText row).toList.head? = some ' ') ∧
      words (versionText row) = if version = "3" then [] else ["version", version] := by
  rw [versionText_eq hattr hver]
  by_cases hthree : version = "3"
  · rw [if_pos hthree, if_pos hthree]
    exact ⟨Or.inl rfl, rfl⟩
  · rw [if_neg hthree, if_neg hthree]
    refine ⟨Or.inr ?_, ?_⟩
    · rw [String.toList_append, List.head?_append]
      rfl
    · rw [words_append_of_getLast (by decide), words_of_isWord hver.1.isWord]
      rfl

theorem words_preferText {row : NtpAssociationRow} {version : String} {prefer : Bool}
    (hattr : row.associationAttributes = assocAttribs version prefer) :
    (preferText row = "" ∨ (preferText row).toList.head? = some ' ') ∧
      words (preferText row) = if prefer then ["prefer"] else [] := by
  rw [preferText_eq hattr]
  cases prefer with
  | true => exact ⟨Or.inr (by decide), by decide⟩
  | false => exact ⟨Or.inl rfl, rfl⟩

/-- The words of the options parse to the options. -/
theorem parseServerOptions_printed {e : ServerEntry} (hver : versionToken e.version)
    (hkey : ∀ key, e.key = some key → keyIdInRange key) :
    parseServerOptions .none
        ((match e.key with
          | none => []
          | some key => ["key-id", toString key]) ++
        (if e.version = "3" then [] else ["version", e.version]) ++
        (if e.prefer then ["prefer"] else [])) =
      some ⟨e.prefer, if e.version = "3" then none else some e.version, e.key.map toString⟩ := by
  obtain ⟨version, prefer, key⟩ := e
  have hver' : versionToken version := hver
  cases key with
  | none =>
    by_cases hthree : version = "3"
    · cases prefer <;> simp [parseServerOptions, ServerOptions.none, hthree]
    · cases prefer <;> simp [parseServerOptions, ServerOptions.none, hthree, hver']
  | some key =>
    have htok : keyToken key.repr := keyToken_toString (hkey key rfl)
    by_cases hthree : version = "3"
    · cases prefer <;> simp [parseServerOptions, ServerOptions.none, hthree, htok]
    · cases prefer <;> simp [parseServerOptions, ServerOptions.none, hthree, hver', htok]

/-- What a well-formed and printable server row is. -/
theorem serverRow_valid (h : WellFormed isValidIpv4 db) (hp : (configOf db).Printable)
    {row : NtpAssociationRow} (hrow : row ∈ db.ntpAssociation) :
    IsWord row.address ∧ versionToken (serverEntry db row).version ∧
      (∀ key, (serverEntry db row).key = some key → keyIdInRange key) ∧
      row.associationAttributes =
        assocAttribs (serverEntry db row).version (serverEntry db row).prefer := by
  have hlook := lookup_configOf_servers h hrow
  refine ⟨hp.names _ _ hlook, hp.versions _ _ hlook, ?_, ?_⟩
  · intro key hkey
    obtain ⟨kr, hkr, _, hid⟩ := (Db.keyOf_eq_some h.keyUuids).mp hkey
    rw [← hid]
    exact (h.keyValid kr hkr).1
  · obtain ⟨version, prefer, _, hattr⟩ := h.assocAttributes row hrow
    rw [hattr]
    cases prefer <;> simp [serverEntry, hattr]

theorem parseLine_server (h : WellFormed isValidIpv4 db) (hp : (configOf db).Printable)
    {row : NtpAssociationRow} (hrow : row ∈ db.ntpAssociation) {line : String}
    (hline : printServer db row = some line) :
    parseLine line = some (serverCommand row.address (serverEntry db row)) := by
  obtain ⟨haddr, hver, hkey, hattr⟩ := serverRow_valid h hp hrow
  obtain ⟨t, ht, hlineEq⟩ := Option.map_eq_some_iff.mp hline
  obtain ⟨hk, hkw⟩ := words_printKeyId h row
  obtain ⟨hv, hvw⟩ := words_versionText hattr hver
  obtain ⟨hf, hfw⟩ := words_preferText hattr
  have hwords : words line = "ntp" :: "server" :: row.address ::
      ((match (serverEntry db row).key with
        | none => []
        | some key => ["key-id", toString key]) ++
      (if (serverEntry db row).version = "3" then []
        else ["version", (serverEntry db row).version]) ++
      (if (serverEntry db row).prefer then ["prefer"] else [])) := by
    rw [← hlineEq, optionText_eq_some ht, ← String.append_assoc, ← String.append_assoc,
      words_append_part hf, words_append_part hv, words_append_part hk,
      words_append_of_getLast (by decide), words_of_isWord haddr, hkw, hvw, hfw]
    simp [serverEntry]
    rfl
  rw [parseLine, hwords, parseWords, parseServerOptions_printed hver hkey]
  rfl

end OpsNtpd.Cli
