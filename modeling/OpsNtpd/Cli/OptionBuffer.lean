import OpsNtpd.Cli.RoundTrip

/-! # CLI: The Option Buffer of the Printer

  `vtysh_config_context_ntp_clientcallback` assembles the options of a server
  in the 80 bytes of `str_temp`. The key is written by `snprintf`, which keeps
  to the buffer; the version and the preference are appended by `strcat`,
  which does not. The value of a version is checked when it is entered, its
  length is not, and `003` is as good as `3`.
-/

namespace OpsNtpd.Cli

open Text

variable {isValidIpv4 : Nat → Bool} {db : Db}

/-- A server row as the CLI writes it: its version is any numeral that the
    token accepts, and its key, if it has one, is in range. -/
structure CliRow (db : Db) (row : NtpAssociationRow) (version : String) (prefer : Bool)
    (key : Option Int) : Prop where
  attributes : row.associationAttributes = assocAttribs version prefer
  token : versionToken version
  keyOf : db.keyOf row = key
  keyRange : ∀ k ∈ key, keyIdInRange k

/-- The servers of a database that users have built up are such rows. -/
theorem Configured.cliRow (h : Configured isValidIpv4 db) {row : NtpAssociationRow}
    (hrow : row ∈ db.ntpAssociation) :
    ∃ version prefer, CliRow db row version prefer (db.keyOf row) := by
  obtain ⟨hwf, hprintable⟩ := h.wellFormed
  obtain ⟨version, prefer, _, hattr⟩ := hwf.assocAttributes row hrow
  have hversion := hprintable.versions row.address _ (lookup_configOf_servers hwf hrow)
  have hentry : (serverEntry db row).version = version := by simp [serverEntry, hattr]
  rw [hentry] at hversion
  exact ⟨version, prefer, { attributes := hattr, token := hversion, keyOf := rfl
                            keyRange := fun _ hk => hwf.keyOf_inRange hk }⟩

/-- The bytes that the key takes. -/
def keyWidth : Option Int → Nat
  | none => 0
  | some key => 8 + (toString key).toList.length

/-- The bytes that the preference takes. -/
def preferWidth (prefer : Bool) : Nat := if prefer then 7 else 0

section widths
variable {row : NtpAssociationRow} {version : String} {prefer : Bool} {key : Option Int}

theorem CliRow.keyWidth_eq (h : CliRow db row version prefer key) :
    (printKeyId db row).utf8ByteSize = keyWidth key ∧ keyWidth key ≤ 13 := by
  obtain ⟨heq, hkeys⟩ := printKeyId_of_range fun k hk => h.keyRange k (h.keyOf ▸ hk)
  rw [heq, h.keyOf]
  cases hkey : key with
  | none => exact ⟨by decide, by decide⟩
  | some k =>
    obtain ⟨htok, hlen⟩ := hkeys k (h.keyOf.trans hkey)
    have hlit : " key-id ".utf8ByteSize = 8 := by decide
    show (" key-id " ++ toString k).utf8ByteSize = 8 + (toString k).toList.length ∧
      8 + (toString k).toList.length ≤ 13
    rw [String.utf8ByteSize_append, hlit, htok.1.utf8ByteSize]
    omega

theorem CliRow.preferWidth_eq (h : CliRow db row version prefer key) :
    (preferText row).utf8ByteSize = preferWidth prefer := by
  rw [preferText_eq h.attributes]
  cases prefer with
  | true => decide
  | false => decide

theorem CliRow.versionWidth_eq (h : CliRow db row version prefer key) :
    (versionText row).utf8ByteSize =
      if version = "3" then 0 else 9 + version.toList.length := by
  rw [versionText_eq h.attributes h.token]
  by_cases hthree : version = "3"
  · rw [if_pos hthree, if_pos hthree]
    decide
  · have hlit : " version ".utf8ByteSize = 9 := by decide
    rw [if_neg hthree, if_neg hthree, String.utf8ByteSize_append, hlit,
      h.token.1.utf8ByteSize]

/-- The options fit the buffer if the key, the preference and the version do. -/
theorem CliRow.optionText_iff (h : CliRow db row version prefer key) :
    (∃ t, optionText db row = some t) ↔
      version.toList.length + keyWidth key + preferWidth prefer ≤ 70 := by
  obtain ⟨hkey, hbound⟩ := h.keyWidth_eq
  have hprefer : preferWidth prefer ≤ 7 := by
    unfold preferWidth
    split <;> omega
  have hfits : (printKeyId db row).utf8ByteSize < strTempSize := by
    rw [hkey, strTempSize]
    omega
  rw [optionText_fits hfits, OptionsFit, String.utf8ByteSize_append, String.utf8ByteSize_append,
    hkey, h.versionWidth_eq, h.preferWidth_eq, strTempSize]
  by_cases hthree : version = "3"
  · -- the default version is not printed, and is short
    have hlen : version.toList.length = 1 := by rw [hthree]; rfl
    rw [if_pos hthree]
    omega
  · rw [if_neg hthree]
    omega

/-- The assembly of the options never leaves the buffer if and only if the
    version, with the key and the preference, has at most 70 characters. -/
theorem optionText_iff_versionLength (h : CliRow db row version prefer key) :
    (∃ t, optionText db row = some t) ↔
      version.toList.length + keyWidth key + preferWidth prefer ≤ 70 :=
  h.optionText_iff

/-- A configuration that users have built up is printed if and only if this
    holds for each of its servers. -/
theorem Configured.printed_iff (h : Configured isValidIpv4 db) :
    (∃ lines, vtyshConfigContextNtpClientcallback db = some lines) ↔
      ∀ row ∈ db.ntpAssociation, ∀ version prefer,
        row.associationAttributes = assocAttribs version prefer →
          version.toList.length + keyWidth (db.keyOf row) + preferWidth prefer ≤ 70 := by
  rw [exists_lines_iff]
  constructor
  · intro hall row hrow version prefer hattr
    obtain ⟨version', prefer', hcli⟩ := h.cliRow hrow
    -- the attributes give the version and the preference
    have hsame : assocAttribs version' prefer' = assocAttribs version prefer :=
      hcli.attributes.symm.trans hattr
    have hversion := congrArg (Finmap.lookup ntpAssocAttribVersion) hsame
    have hprefer := congrArg (Finmap.lookup ntpAssocAttribPrefer) hsame
    rw [lookup_version_assocAttribs, lookup_version_assocAttribs] at hversion
    rw [lookup_prefer_assocAttribs, lookup_prefer_assocAttribs] at hprefer
    obtain rfl : version' = version := Option.some.inj hversion
    obtain rfl : prefer' = prefer := by
      revert hprefer
      cases prefer' <;> cases prefer <;> decide
    exact hcli.optionText_iff.mp (hall row hrow)
  · intro hall row hrow
    obtain ⟨version, prefer, hcli⟩ := h.cliRow hrow
    exact hcli.optionText_iff.mpr (hall row hrow version prefer hcli.attributes)

end widths

/-- A version numeral with 70 leading zeros. -/
def longVersion : String :=
  "00000000000000000000000000000000000" ++ "00000000000000000000000000000000000" ++ "4"

/-- A server with this version number. -/
def oneServerWith (version : String) : Db :=
  enterLines (fun _ => true) (emptyTables 1 0 []) ["ntp server 10.0.0.1 version " ++ version]

theorem optionText_iff_versionLength_four :
    ∃ row ∈ (oneServerWith "4").ntpAssociation,
      (∃ t, optionText (oneServerWith "4") row = some t) ↔
        "4".toList.length + keyWidth none + preferWidth false ≤ 70 := by
  have hrow : CliRow (oneServerWith "4")
      ⟨1, "10.0.0.1", some 0, none, assocAttribs "4" false,
        Dict.ofPairs (ntpAssocStatusKeys.map fun k => (k, "-"))⟩ "4" false none :=
    { attributes := rfl, token := by decide, keyOf := rfl, keyRange := fun _ hk => by cases hk }
  exact ⟨_, by decide +kernel, optionText_iff_versionLength hrow⟩

/-- The CLI accepts the long version, and its text leaves the buffer. -/
theorem longVersion_overflows :
    Configured (fun _ => true) (oneServerWith longVersion) ∧
      ∃ row ∈ (oneServerWith longVersion).ntpAssociation,
        CliRow (oneServerWith longVersion) row longVersion false none ∧
          optionText (oneServerWith longVersion) row = none := by
  refine ⟨⟨1, 0, [], _, rfl⟩, ⟨1, "10.0.0.1", some 0, none, assocAttribs longVersion false,
    Dict.ofPairs (ntpAssocStatusKeys.map fun k => (k, "-"))⟩, by decide +kernel, ?_,
    by decide +kernel⟩
  exact { attributes := rfl, token := by decide +kernel, keyOf := rfl
          keyRange := fun _ hk => by cases hk }

end OpsNtpd.Cli
