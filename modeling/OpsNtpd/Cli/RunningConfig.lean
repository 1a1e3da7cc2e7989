import OpsNtpd.Cli.Vtysh

/-! # CLI: The Running Configuration

  `vtysh_config_context_ntp_clientcallback` of `vtysh_ovsdb_ntp_context.c`
  prints the commands that make up the configuration: for each key its
  `ntp authentication-key` and, if it is trusted, its `ntp trusted-key`; then
  for each server its `ntp server` with the options that differ from their
  defaults. The option text is assembled in the buffer `str_temp`; a text that
  does not fit is undefined behaviour, and the printer has no result.
-/

namespace OpsNtpd.Cli

open Text

/-! ## Section 1: The option buffer -/

/-- `sizeof(str_temp)` -/
def strTempSize : Nat := 80

/-- `snprintf(str_temp, sizeof(str_temp), ..)` of an ASCII text: cut to the buffer. -/
def snprintfStrTemp (s : String) : String := String.ofList (s.toList.take (strTempSize - 1))

/-- `strcat(str_temp, ..)`, which needs room for the text and its NUL. -/
def strcatStrTemp (strTemp s : String) : Option String :=
  if (strTemp ++ s).utf8ByteSize < strTempSize then some (strTemp ++ s) else none

/-- `strncmp(buf, default, strlen(default)) == 0`: `default` is a prefix. -/
def hasPrefix (buf default : String) : Bool :=
  buf.toList.take default.toList.length = default.toList

/-- `smap_get_bool(.., false)`: true exactly on "true", whatever its case. -/
def smapGetBool (m : Smap) (key : String) : Bool :=
  match m.lookup key with
  | none => false
  | some value => value.toList.map Char.toLower = "true".toList

/-- The key part of the options. -/
def printKeyId (db : Db) (row : NtpAssociationRow) : String :=
  match row.keyId.bind db.keyRow with
  -- the buffer has been cleared
  | none => ""
  | some keyRow => snprintfStrTemp (" key-id " ++ toString keyRow.keyId)

/-- Append the version unless it starts like the default. -/
def printVersion (row : NtpAssociationRow) (strTemp : String) : Option String :=
  match row.associationAttributes.lookup ntpAssocAttribVersion with
  | none => some strTemp
  | some buf =>
    -- `strncmp` compares as many characters as the default has
    if hasPrefix buf ntpAssocAttribVersionDefault then some strTemp
    else (strcatStrTemp strTemp " version ").bind fun s => strcatStrTemp s buf

/-- Append the preference unless it is the default. -/
def printPrefer (row : NtpAssociationRow) (strTemp : String) : Option String :=
  if smapGetBool row.associationAttributes ntpAssocAttribPrefer then
    strcatStrTemp strTemp " prefer"
  else some strTemp

/-- The option text of a server. -/
def optionText (db : Db) (row : NtpAssociationRow) : Option String :=
  (printVersion row (printKeyId db row)).bind (printPrefer row)

/-! ## Section 2: The lines -/

/-- The lines of a key. -/
def printKey (row : NtpKeyRow) : List String :=
  ("ntp authentication-key " ++ toString row.keyId ++ " md5 " ++ row.keyPassword) ::
    (if row.trustEnable then ["ntp trusted-key " ++ toString row.keyId] else [])

/-- The line of a server. -/
def printServer (db : Db) (row : NtpAssociationRow) : Option String :=
  (optionText db row).map fun strTemp => "ntp server " ++ row.address ++ strTemp

/-- `vtysh_config_context_ntp_clientcallback` -/
def vtyshConfigContextNtpClientcallback (db : Db) : Option (List String) :=
  -- the `System` table, and with it `authentication_enable`, is not printed
  (db.ntpAssociation.mapM (printServer db)).map fun servers =>
    db.ntpKey.flatMap printKey ++ servers

/-! ## Section 3: The text that fits -/

theorem strcatStrTemp_eq_some {a b t : String} (h : strcatStrTemp a b = some t) :
    t = a ++ b := by
  unfold strcatStrTemp at h
  split at h
  · exact (Option.some.inj h).symm
  · cases h

/-- The version part of the options, as it stands in the text. -/
def versionText (row : NtpAssociationRow) : String :=
  match row.associationAttributes.lookup ntpAssocAttribVersion with
  | none => ""
  | some buf => if hasPrefix buf ntpAssocAttribVersionDefault then "" else " version " ++ buf

/-- The preference part of the options, as it stands in the text. -/
def preferText (row : NtpAssociationRow) : String :=
  if smapGetBool row.associationAttributes ntpAssocAttribPrefer then " prefer" else ""

theorem printVersion_eq_some {row : NtpAssociationRow} {a t : String}
    (h : printVersion row a = some t) : t = a ++ versionText row := by
  unfold printVersion at h
  unfold versionText
  cases hver : row.associationAttributes.lookup ntpAssocAttribVersion with
  | none =>
    rw [hver] at h
    rw [← Option.some.inj h, String.append_empty]
  | some buf =>
    simp only [hver] at h
    show t = a ++ if hasPrefix buf ntpAssocAttribVersionDefault then "" else " version " ++ buf
    by_cases hpre : hasPrefix buf ntpAssocAttribVersionDefault = true
    · rw [if_pos hpre] at h ⊢
      rw [← Option.some.inj h, String.append_empty]
    · rw [if_neg hpre] at h ⊢
      obtain ⟨s, hs, ht⟩ := Option.bind_eq_some_iff.mp h
      rw [strcatStrTemp_eq_some ht, strcatStrTemp_eq_some hs, String.append_assoc]

theorem printPrefer_eq_some {row : NtpAssociationRow} {a t : String}
    (h : printPrefer row a = some t) : t = a ++ preferText row := by
  unfold printPrefer at h
  unfold preferText
  by_cases hpref : smapGetBool row.associationAttributes ntpAssocAttribPrefer = true
  · rw [if_pos hpref] at h ⊢
    exact strcatStrTemp_eq_some h
  · rw [if_neg hpref] at h ⊢
    rw [← Option.some.inj h, String.append_empty]

/-- When nothing overflows, the option text is its three parts in sequence. -/
theorem optionText_eq_some {db : Db} {row : NtpAssociationRow} {t : String}
    (h : optionText db row = some t) :
    t = printKeyId db row ++ versionText row ++ preferText row := by
  obtain ⟨s, hs, ht⟩ := Option.bind_eq_some_iff.mp h
  rw [printPrefer_eq_some ht, printVersion_eq_some hs]

/-- The option text of a server fits the buffer. -/
def OptionsFit (db : Db) (row : NtpAssociationRow) : Prop :=
  (printKeyId db row ++ versionText row ++ preferText row).utf8ByteSize < strTempSize

theorem printVersion_fits {row : NtpAssociationRow} {a : String}
    (ha : a.utf8ByteSize < strTempSize) :
    printVersion row a = some (a ++ versionText row) ↔
      (a ++ versionText row).utf8ByteSize < strTempSize := by
  unfold printVersion versionText
  cases row.associationAttributes.lookup ntpAssocAttribVersion with
  | none => simp [ha]
  | some buf =>
    simp only
    by_cases hpre : hasPrefix buf ntpAssocAttribVersionDefault = true
    · simp [hpre, ha]
    · simp only [if_neg hpre, strcatStrTemp, ← String.append_assoc]
      by_cases hfits : (a ++ " version " ++ buf).utf8ByteSize < strTempSize
      · -- a prefix of a text that fits, fits
        have hprefix : (a ++ " version ").utf8ByteSize < strTempSize := by
          rw [String.utf8ByteSize_append] at hfits
          omega
        rw [if_pos hprefix, Option.bind_some, if_pos hfits]
        exact iff_of_true rfl hfits
      · refine iff_of_false ?_ hfits
        intro h
        obtain ⟨s, hs, ht⟩ := Option.bind_eq_some_iff.mp h
        split at hs
        · cases hs
          rw [if_neg hfits] at ht
          cases ht
        · cases hs

theorem printPrefer_fits {row : NtpAssociationRow} {a : String}
    (ha : a.utf8ByteSize < strTempSize) :
    printPrefer row a = some (a ++ preferText row) ↔
      (a ++ preferText row).utf8ByteSize < strTempSize := by
  unfold printPrefer preferText
  by_cases hpref : smapGetBool row.associationAttributes ntpAssocAttribPrefer = true
  · rw [if_pos hpref, if_pos hpref, strcatStrTemp]
    split
    · next hfits => exact iff_of_true rfl hfits
    · next hfits => exact iff_of_false (fun h => by cases h) hfits
  · rw [if_neg hpref, if_neg hpref, String.append_empty]
    exact iff_of_true rfl ha

/-- The options are printed exactly when their text fits, given that the key
    part does. -/
theorem optionText_fits {db : Db} {row : NtpAssociationRow}
    (hkey : (printKeyId db row).utf8ByteSize < strTempSize) :
    (∃ t, optionText db row = some t) ↔ OptionsFit db row := by
  unfold OptionsFit
  constructor
  · intro hex
    obtain ⟨t, ht⟩ := hex
    obtain ⟨s, hs, ht⟩ := Option.bind_eq_some_iff.mp ht
    have hsplit : s = printKeyId db row ++ versionText row := printVersion_eq_some hs
    rw [hsplit] at hs ht
    have hsize := (printVersion_fits hkey).mp hs
    rw [printPrefer_eq_some ht] at ht
    exact (printPrefer_fits hsize).mp ht
  · intro hfits
    have hsize : (printKeyId db row ++ versionText row).utf8ByteSize < strTempSize := by
      rw [String.utf8ByteSize_append] at hfits
      omega
    refine ⟨printKeyId db row ++ versionText row ++ preferText row, ?_⟩
    unfold optionText
    rw [(printVersion_fits hkey).mpr hsize, Option.bind_some]
    exact (printPrefer_fits hsize).mpr hfits

/-- The printer succeeds exactly when every option text fits, and then prints
    the lines of the rows in their order. -/
theorem vtyshConfigContextNtpClientcallback_eq_some {db : Db} {lines : List String} :
    vtyshConfigContextNtpClientcallback db = some lines ↔
      ∃ servers, db.ntpAssociation.mapM (printServer db) = some servers ∧
        lines = db.ntpKey.flatMap printKey ++ servers := by
  unfold vtyshConfigContextNtpClientcallback
  rw [Option.map_eq_some_iff]
  apply exists_congr
  intro servers
  rw [eq_comm (a := lines)]

/-- It is printed exactly when the options of every server are. -/
theorem exists_lines_iff {db : Db} :
    (∃ lines, vtyshConfigContextNtpClientcallback db = some lines) ↔
      ∀ row ∈ db.ntpAssociation, ∃ t, optionText db row = some t := by
  have hrow : ∀ row, (∃ line, printServer db row = some line) ↔
      ∃ t, optionText db row = some t := by
    intro row
    simp [printServer]
  simp only [← hrow, ← Rows.exists_mapM_iff]
  constructor
  · intro hex
    obtain ⟨lines, hlines⟩ := hex
    obtain ⟨servers, hservers, _⟩ := vtyshConfigContextNtpClientcallback_eq_some.mp hlines
    exact ⟨servers, hservers⟩
  · intro hex
    obtain ⟨servers, hservers⟩ := hex
    exact ⟨_, vtyshConfigContextNtpClientcallback_eq_some.mpr ⟨servers, hservers, rfl⟩⟩

end OpsNtpd.Cli
