import OpsNtpd.Cli.RoundTrip
import OpsNtpd.Framework.Columns

/-! # CLI: What the Show Commands Print

  The five `show ntp` functions of `ntp_vty.c`. A function is given the tables
  in the order in which its loop meets the rows, and its result is the bytes
  that it hands to `vty_out`.

  - `smap_get` may find nothing. Two columns are then given to `snprintf` as
    they are, which is undefined behaviour: the printer has no result.
  - The words for the state and the type of a peer are those that
    `ops_ntpd.py` writes to the same columns; the header that names them for
    the C code is not part of the repository.
  - The `System` table of the model has no `timezone`, which is a parameter.
-/

namespace OpsNtpd.Cli

open Text Columns

/-! ## Section 1: Keys -/

/-- A line of `n` dashes. -/
def ruler (n : Nat) : List UInt8 := List.replicate n 45

/-- `vtysh_ovsdb_show_ntp_trusted_keys` -/
def vtyshOvsdbShowNtpTrustedKeys (db : Db) : List UInt8 :=
  unlines ([ruler 12, bytes "Trusted-keys", ruler 12] ++
    (db.ntpKey.filter NtpKeyRow.trustEnable).map (fun r => bytes (toString r.keyId)) ++
    [ruler 12])

/-- `"%8ld   %16s\n"` -/
def authKeyColumns : List (Column UInt8) := [⟨[], 8⟩, ⟨bytes "   ", 16⟩]

/-- `vtysh_ovsdb_show_ntp_authentication_keys` -/
def vtyshOvsdbShowNtpAuthenticationKeys (db : Db) : List UInt8 :=
  unlines ([ruler 27, layout blankByte authKeyColumns [bytes "Auth-key", bytes "MD5 password"],
      ruler 27] ++
    db.ntpKey.map (fun r =>
      layout blankByte authKeyColumns [bytes (toString r.keyId), bytes r.keyPassword]) ++
    [ruler 27])

/-! ## Section 2: Associations -/

/-- `sizeof(ser_name)` -/
def serNameSize : Nat := 39

/-- `sizeof(rem_info)` -/
def remInfoSize : Nat := 16

/-- `snprintf(buf, size, "%s", s)` -/
def snprintfBuf (size : Nat) (s : String) : List UInt8 := (bytes s).take (size - 1)

/-- The columns of a line: the tally, `"%3d"`, and then each after two blanks. -/
def assocColumns : List (Column UInt8) :=
  [⟨[], 1⟩, ⟨[], 3⟩] ++
    [39, 15, 3, 5, 15, 2, 1, 4, 4, 5, 7, 6, 6].map fun width => ⟨bytes "  ", width⟩

def assocHeader : List String :=
  [" ", "ID", "NAME", "REMOTE", "VER", "KEYID", "REF-ID", "ST", "T", "LAST", "POLL", "REACH",
   "DELAY", "OFFSET", "JITTER"]

/-- The `if` chain over `peer_status_word`. -/
def tallyCodes : List (String × String) :=
  [("reject", " "), ("falsetick", "x"), ("excess", "."), ("outlier", "-"), ("candidate", "+"),
   ("backup", "#"), ("system_peer", "*"), ("pps_peer", "o")]

/-- The `if` chain over `peer_type`. -/
def typeCodes : List (String × String) :=
  [("uni_or_many_cast", "U"), ("bcast_or_mcast_client", "b"), ("local_ref_clock", "L"),
   ("symm_peer", "S"), ("manycast_server", "m"), ("bcast_server", "B"), ("mcast_server", "M")]

/-- What is printed for a word, if there is one. -/
def codeOf (codes : List (String × String)) (default : String) (word : Option String) : String :=
  (word.bind fun w => codes.lookup w).getD default

/-- The texts of the line of a server, the `i`-th. -/
def assocCells (db : Db) (i : Nat) (row : NtpAssociationRow) : Option (List (List UInt8)) :=
  let status := fun key => row.associationStatus.lookup key
  -- these two are copied without a check for NULL
  (status "remote_peer_address").bind fun remote =>
  (status "remote_peer_ref_id").map fun refId =>
    [bytes (codeOf tallyCodes " " (status "peer_status_word")),
     bytes (toString i),
     snprintfBuf serNameSize row.address,
     snprintfBuf remInfoSize remote,
     bytes ((row.associationAttributes.lookup ntpAssocAttribVersion).getD ""),
     bytes (((db.keyOf row).map toString).getD "-"),
     snprintfBuf remInfoSize refId,
     bytes ((status "stratum").getD ""),
     bytes (codeOf typeCodes "-" (status "peer_type")),
     bytes ((status "last_polled").getD ""),
     bytes ((status "polling_interval").getD ""),
     bytes ((status "reachability_register").getD ""),
     bytes ((status "network_delay").getD ""),
     bytes ((status "time_offset").getD ""),
     bytes ((status "jitter").getD "")]

/-- `vtysh_ovsdb_show_ntp_associations` -/
def vtyshOvsdbShowNtpAssociations (db : Db) : Option (List UInt8) :=
  ((db.ntpAssociation.zipIdx 1).mapM fun p => assocCells db p.2 p.1).map fun rows =>
    unlines ([ruler 142, layout blankByte assocColumns (assocHeader.map bytes), ruler 142] ++
      rows.map (layout blankByte assocColumns) ++ [ruler 142])

/-! ## Section 3: Status and statistics -/

/-- What both functions print without a `System` row. -/
def noSystemTable : List UInt8 := unlines [bytes "Could not access the System Table"]

/-- The lines for a server, if ntpd has selected it. -/
def synchronizedLines (timezone : String) (row : NtpAssociationRow) : List String :=
  let status := fun key => row.associationStatus.lookup key
  if status "peer_status_word" = some "system_peer" then
    ["Synchronized to NTP Server " ++ row.address ++ " at stratum " ++ (status "stratum").getD "",
     "Poll interval = " ++ (status "polling_interval").getD "" ++ " seconds",
     "Time accuracy is within " ++ (status "time_offset").getD "" ++ " seconds",
     "Reference time: " ++ (status "reference_time").getD "" ++ " as per " ++ timezone ++
       " timezone"]
  else []

/-- `vtysh_ovsdb_show_ntp_status` -/
def vtyshOvsdbShowNtpStatus (timezone : String) (db : Db) : List UInt8 :=
  match db.system.head? with
  | none => noSystemTable
  | some ovsSystem =>
    let status := smapGetBool ovsSystem.ntpConfig systemNtpConfigAuthenticationEnable
    unlines
      ((["NTP is enabled",
         "NTP authentication is " ++ (if status then "enabled" else "disabled"),
         "Uptime: " ++ (ovsSystem.ntpStatus.lookup "uptime").getD "-" ++ " second(s)"] ++
        db.ntpAssociation.flatMap (synchronizedLines timezone)).map bytes)

/-- The columns of `ntp_statistics` in the order of the lines, with their labels. -/
def statisticsLines : List (String × String) :=
  [("ntp_pkts_received", "Rx-pkts"),
   ("ntp_pkts_with_current_version", "Cur Ver Rx-pkts"),
   ("ntp_pkts_with_older_version", "Old Ver Rx-pkts"),
   ("ntp_pkts_with_bad_length_or_format", "Error pkts"),
   ("ntp_pkts_with_auth_failed", "Auth-failed pkts"),
   ("ntp_pkts_declined", "Declined pkts"),
   ("ntp_pkts_restricted", "Restricted pkts"),
   ("ntp_pkts_rate_limited", "Rate-limited pkts"),
   ("ntp_pkts_kod_responses", "KOD pkts")]

/-- `"%20s    %s\n"` -/
def statisticsLine (label value : String) : List UInt8 :=
  padLeft blankByte 20 (bytes label) ++ bytes "    " ++ bytes value

/-- `vtysh_ovsdb_show_ntp_statistics` -/
def vtyshOvsdbShowNtpStatistics (db : Db) : List UInt8 :=
  match db.system.head? with
  | none => noSystemTable
  | some ovsSystem =>
    unlines (statisticsLines.map fun p =>
      statisticsLine p.2 ((ovsSystem.ntpStatistics.lookup p.1).getD "-"))

/-! ## Section 4: Reading the tables -/

/-- No line feed gets into a line. -/
theorem lineFeed_not_mem_layout {cs : List (Column UInt8)} {ts : List (List UInt8)}
    (hsep : ∀ c ∈ cs, lineFeed ∉ c.sep) (hts : ∀ t ∈ ts, lineFeed ∉ t) :
    lineFeed ∉ layout blankByte cs ts := by
  intro hmem
  rcases mem_layout hmem with hblank | ⟨c, hc, hin⟩ | ⟨t, ht, hin⟩
  · exact absurd hblank (by decide)
  · exact hsep c hc hin
  · exact hts t ht hin

theorem lineFeed_not_mem_word {w : String} (h : IsWord w) : lineFeed ∉ bytes w :=
  not_mem_bytes_of_isWord h (Or.inr rfl)

/-- A word in a column is read as it is. -/
theorem dropWhile_bytes {w : String} (h : IsWord w) :
    ((bytes w).dropWhile fun x => x = blankByte) = bytes w := by
  rw [List.dropWhile_eq_self_iff]
  intro hlt hblank
  have heq : (bytes w)[0] = blankByte := of_decide_eq_true hblank
  refine not_mem_bytes_of_isWord h (Or.inl rfl) ?_
  rw [← heq]
  exact List.getElem_mem hlt

theorem isWord_toString {key : Int} (h : keyIdInRange key) : IsWord (toString key) :=
  (isNumeral_toString_int (le_trans (by decide) h.1)).isWord

theorem length_bytes_toString {key : Int} (h : keyIdInRange key) :
    (bytes (toString key)).length ≤ 5 := by
  have hnonneg : 0 ≤ key := le_trans (by decide) h.1
  have hlt : key < 100000 := lt_of_le_of_lt h.2 (by decide)
  rw [length_bytes, (isNumeral_toString_int hnonneg).utf8ByteSize]
  exact length_toString_le hnonneg hlt

section keys
variable {isValidIpv4 : Nat → Bool} {db : Db}

/-- The key table is read back. -/
theorem readCells_authenticationKeys (h : WellFormed isValidIpv4 db) (hp : (configOf db).Printable) :
    (tableLines 3 (vtyshOvsdbShowNtpAuthenticationKeys db)).map (readCells blankByte authKeyColumns) =
      db.ntpKey.map fun r => [bytes (toString r.keyId), bytes r.keyPassword] := by
  have hwords : ∀ r ∈ db.ntpKey, IsWord (toString r.keyId) ∧ IsWord r.keyPassword := by
    intro r hr
    exact ⟨isWord_toString (h.keyValid r hr).1, hp.passwords _ _ (lookup_configOf_keys h hr)⟩
  have hbody : tableLines 3 (vtyshOvsdbShowNtpAuthenticationKeys db) = db.ntpKey.map fun r =>
      layout blankByte authKeyColumns [bytes (toString r.keyId), bytes r.keyPassword] := by
    refine @tableLines_unlines [_, _, _] _ _ (by decide) ?_ (by decide)
    intro l hl
    obtain ⟨r, hr, rfl⟩ := List.mem_map.mp hl
    refine lineFeed_not_mem_layout (by decide) ?_
    intro t ht
    rcases List.mem_pair.mp ht with rfl | rfl
    · exact lineFeed_not_mem_word (hwords r hr).1
    · exact lineFeed_not_mem_word (hwords r hr).2
  rw [hbody, List.map_map]
  refine List.map_congr_left fun r hr => ?_
  obtain ⟨hkey, hlen⟩ := h.keyValid r hr
  have hfits : List.Forall₂ Fits authKeyColumns [bytes (toString r.keyId), bytes r.keyPassword] := by
    -- five digits in eight columns, and at most sixteen bytes in sixteen
    refine .cons (le_trans (length_bytes_toString hkey) (by decide)) (.cons ?_ .nil)
    show (bytes r.keyPassword).length ≤ 16
    rw [length_bytes]
    exact hlen.2
  show readCells blankByte authKeyColumns (layout blankByte authKeyColumns _) = _
  rw [readCells_layout hfits, List.map_cons, List.map_cons, List.map_nil,
    dropWhile_bytes (hwords r hr).1, dropWhile_bytes (hwords r hr).2]

/-- The lines between the rulers are the ids of the trusted keys. -/
theorem tableLines_trustedKeys (h : WellFormed isValidIpv4 db) :
    tableLines 3 (vtyshOvsdbShowNtpTrustedKeys db) =
      (db.ntpKey.filter NtpKeyRow.trustEnable).map fun r => bytes (toString r.keyId) := by
  refine @tableLines_unlines [_, _, _] _ _ (by decide) ?_ (by decide)
  intro l hl
  obtain ⟨r, hr, rfl⟩ := List.mem_map.mp hl
  exact lineFeed_not_mem_word (isWord_toString (h.keyValid r (List.mem_filter.mp hr).1).1)

end keys

end OpsNtpd.Cli
