import OpsNtpd.Framework.Text
import OpsNtpd.Ovsdb

/-! # CLI: Parameters and Their Validation

  The parameter records of `ntp_vty.h` and the checks that `ntp_vty.c` makes
  before it opens a transaction. `IS_VALID_IPV4` is a macro of the `vtysh`
  library: it is a parameter here, a predicate on the host-order address.
-/

namespace OpsNtpd.Cli

open Text

/-! ## Section 1: Constants and results -/

/-- `NTP_KEY_KEY_ID_MIN` -/
def ntpKeyKeyIdMin : Int := 1

/-- `NTP_KEY_KEY_ID_MAX` -/
def ntpKeyKeyIdMax : Int := 65534

/-- `NTP_KEY_KEY_PASSWORD_LEN_MIN` -/
def ntpKeyKeyPasswordLenMin : Nat := 8

/-- `NTP_KEY_KEY_PASSWORD_LEN_MAX` -/
def ntpKeyKeyPasswordLenMax : Nat := 16

/-- `NTP_ASSOC_ATTRIB_VERSION_3` -/
def ntpAssocAttribVersion3 : String := "3"

/-- `NTP_ASSOC_ATTRIB_VERSION_4` -/
def ntpAssocAttribVersion4 : String := "4"

/-- `NTP_ASSOC_ATTRIB_VERSION_DEFAULT` -/
def ntpAssocAttribVersionDefault : String := "3"

/-- `NTP_ASSOC_MAX_SERVERS` -/
def ntpAssocMaxServers : Nat := 8

/-- `MAX_CHARS_IN_NTP_SERVER_NAME` -/
def maxCharsInNtpServerName : Nat := 57

/-- `DEFAULT_VRF_NAME` -/
def defaultVrfName : String := "vrf_default"

/-- The return codes of the command handlers. -/
inductive CmdCode where
  | success
  | warning
  | errNothingToDo
  | ovsdbFailure
  deriving DecidableEq, Repr

/-- A check that failed: the code returned and the text printed. -/
structure Refusal where
  code : CmdCode
  out : String
  deriving DecidableEq, Repr

/-- `ntp_cli_ntp_server_params_t`, less the out-parameter `key_row`. -/
structure NtpServerParams where
  noForm : Bool
  vrfName : String
  serverName : String
  prefer : Bool
  version : Option String
  keyid : Option String

/-- `ntp_cli_ntp_auth_key_params_t` -/
structure NtpAuthKeyParams where
  noForm : Bool
  key : String
  md5Pwd : Option String

/-- `ntp_cli_ntp_trusted_key_params_t` -/
structure NtpTrustedKeyParams where
  noForm : Bool
  key : String

/-- `ntp_cli_ntp_auth_enable_params_t` -/
structure NtpAuthEnableParams where
  noForm : Bool

/-! ## Section 2: Server names -/

/-- `ispunct` in the C locale: printable, and neither alphanumeric nor blank. -/
def isPunct (c : Char) : Bool :=
  (33 ≤ c.toNat && c.toNat ≤ 47) || (58 ≤ c.toNat && c.toNat ≤ 64) ||
  (91 ≤ c.toNat && c.toNat ≤ 96) || (123 ≤ c.toNat && c.toNat ≤ 126)

/-- `ntp_internal_has_all_digits` -/
def ntpInternalHasAllDigits (name : String) : Bool :=
  name.toList.all fun c => isPunct c || c.isDigit

/-- One octet of a dotted quad: no leading zeros, at most 255. -/
def octet (cs : List Char) : Option Nat :=
  if cs ≠ [] ∧ cs.all Char.isDigit ∧ (cs = ['0'] ∨ cs.head? ≠ some '0') ∧
      Nat.ofDigitChars 10 cs 0 ≤ 255 then
    some (Nat.ofDigitChars 10 cs 0)
  else none

/-- `inet_pton(AF_INET, ..)`, with the address in host byte order. -/
def inetPton (s : String) : Option Nat :=
  match (s.toList.splitOn '.').mapM octet with
  | some [a, b, c, d] => some (a * 2 ^ 24 + b * 2 ^ 16 + c * 2 ^ 8 + d)
  | _ => none

variable (isValidIpv4 : Nat → Bool)

/-- `ntp_internal_is_valid_ipv4_address` -/
def ntpInternalIsValidIpv4Address (name : String) : Bool :=
  match inetPton name with
  | none => false
  | some addr =>
    -- 0.0.0.0 - 0.255.255.255 are not valid host addresses
    if name.toList.head? = some '0' then false else isValidIpv4 addr

/-- `ntp_internal_is_valid_server_name` -/
def ntpInternalIsValidServerName (name : String) : Bool :=
  if ntpInternalHasAllDigits name then ntpInternalIsValidIpv4Address isValidIpv4 name
  else true

/-! ## Section 3: Sanitizing -/

/-- `ntp_ovsrec_get_auth_key` -/
def ntpOvsrecGetAuthKey (db : Db) (key : Int) : Option NtpKeyRow :=
  db.ntpKey.find? fun r => r.keyId = key

/-- The range check of `ntp_sanitize_auth_key`. -/
def keyIdInRange (key : Int) : Prop := ntpKeyKeyIdMin ≤ key ∧ key ≤ ntpKeyKeyIdMax

instance (key : Int) : Decidable (keyIdInRange key) := inferInstanceAs (Decidable (_ ∧ _))

/-- The length check of `ntp_sanitize_auth_key`. -/
def passwordLenInRange (password : String) : Prop :=
  ntpKeyKeyPasswordLenMin ≤ password.utf8ByteSize ∧
  password.utf8ByteSize ≤ ntpKeyKeyPasswordLenMax

instance (password : String) : Decidable (passwordLenInRange password) :=
  inferInstanceAs (Decidable (_ ∧ _))

/-- The key part of `ntp_sanitize_auth_key`; `wantRow` says whether the caller
    passed a row pointer. -/
def sanitizeKey (db : Db) (wantRow : Bool) (pkey : Option String) :
    Except Refusal (Option NtpKeyRow) :=
  match pkey with
  | none => .ok none
  | some key =>
    if ¬ keyIdInRange (atoi key) then
      .error ⟨.errNothingToDo, "KeyID should lie between [1-65534]\n"⟩
    else if wantRow then
      match ntpOvsrecGetAuthKey db (atoi key) with
      | none => .error ⟨.ovsdbFailure, "This key does not exist\n"⟩
      | some row => .ok (some row)
    else .ok none

/-- `ntp_sanitize_auth_key` -/
def ntpSanitizeAuthKey (db : Db) (pkey : Option String) (wantRow : Bool)
    (password : Option String) : Except Refusal (Option NtpKeyRow) :=
  match sanitizeKey db wantRow pkey with
  | .error e => .error e
  | .ok row =>
    match password with
    | none => .ok row
    | some pwd =>
      if ¬ passwordLenInRange pwd then
        .error ⟨.errNothingToDo, "Password length should be between 8 & 16 chars\n"⟩
      else .ok row

/-- The version check of `ntp_server_sanitize_parameters`. -/
def versionInRange (version : String) : Prop :=
  atoi ntpAssocAttribVersion3 ≤ atoi version ∧ atoi version ≤ atoi ntpAssocAttribVersion4

instance (version : String) : Decidable (versionInRange version) :=
  inferInstanceAs (Decidable (_ ∧ _))

/-- The server-name checks of `ntp_server_sanitize_parameters`. -/
def sanitizeServerName (name : String) : Except Refusal Unit :=
  if name.utf8ByteSize > maxCharsInNtpServerName then
    .error ⟨.errNothingToDo, "NTP server name should be less than 57 characters\n"⟩
  else if ¬ ntpInternalIsValidServerName isValidIpv4 name then
    .error ⟨.errNothingToDo, "Invalid IP address\n"⟩
  else .ok ()

/-- `ntp_server_sanitize_parameters`; the result is `key_row`. -/
def ntpServerSanitizeParameters (db : Db) (p : NtpServerParams) :
    Except Refusal (Option NtpKeyRow) :=
  match sanitizeServerName isValidIpv4 p.serverName with
  | .error e => .error e
  | .ok () =>
    match ntpSanitizeAuthKey db p.keyid true none with
    | .error e => .error e
    | .ok keyRow =>
      match p.version with
      | none => .ok keyRow
      | some version =>
        if ¬ versionInRange version then
          .error ⟨.errNothingToDo, "NTP version should lie between [3-4]\n"⟩
        else .ok keyRow

/-! ## Section 4: What the checks accept -/

/-- The server names that pass. -/
def validServerName (name : String) : Prop :=
  name.utf8ByteSize ≤ maxCharsInNtpServerName ∧
  ntpInternalIsValidServerName isValidIpv4 name = true

instance (name : String) : Decidable (validServerName isValidIpv4 name) :=
  inferInstanceAs (Decidable (_ ∧ _))

theorem sanitizeServerName_ok_iff {name : String} :
    sanitizeServerName isValidIpv4 name = .ok () ↔ validServerName isValidIpv4 name := by
  unfold sanitizeServerName validServerName
  by_cases hlen : name.utf8ByteSize > maxCharsInNtpServerName
  · simp [hlen]
  · rw [if_neg hlen]
    have hle : name.utf8ByteSize ≤ maxCharsInNtpServerName := by omega
    by_cases hname : ntpInternalIsValidServerName isValidIpv4 name = true
    · simp [hname, hle]
    · simp [hname]

/-- With a row wanted, the key check returns the row that has the key. -/
theorem sanitizeKey_true_ok_iff {db : Db} {pkey : Option String} {row : Option NtpKeyRow} :
    sanitizeKey db true pkey = .ok row ↔
      match pkey with
      | none => row = none
      | some key => keyIdInRange (atoi key) ∧
          ∃ r, ntpOvsrecGetAuthKey db (atoi key) = some r ∧ row = some r := by
  unfold sanitizeKey
  cases pkey with
  | none => simp [eq_comm]
  | some key =>
    by_cases hrange : keyIdInRange (atoi key)
    · cases hrow : ntpOvsrecGetAuthKey db (atoi key) with
      | none => simp [hrange, hrow]
      | some r => simp [hrange, hrow, eq_comm]
    · simp [hrange]

/-- What `ntp server` accepts, and the key row it hands on. -/
theorem ntpServerSanitizeParameters_ok_iff {db : Db} {p : NtpServerParams}
    {row : Option NtpKeyRow} :
    ntpServerSanitizeParameters isValidIpv4 db p = .ok row ↔
      validServerName isValidIpv4 p.serverName ∧
      sanitizeKey db true p.keyid = .ok row ∧
      (∀ v ∈ p.version, versionInRange v) := by
  unfold ntpServerSanitizeParameters ntpSanitizeAuthKey
  rw [← sanitizeServerName_ok_iff]
  cases hname : sanitizeServerName isValidIpv4 p.serverName with
  | error e => simp
  | ok u =>
    cases hkey : sanitizeKey db true p.keyid with
    | error e => simp
    | ok r =>
      cases hver : p.version with
      | none => simp
      | some v =>
        by_cases hrange : versionInRange v
        · simp [hrange]
        · simp [hrange]

end OpsNtpd.Cli
