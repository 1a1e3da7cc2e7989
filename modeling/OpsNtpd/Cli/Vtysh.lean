import OpsNtpd.Cli.Handlers

/-! # CLI: Command Lines

  The grammar of the `DEFUN` headers of `ntp_vty.c` and what `vtysh` does with
  a line: split it at blanks, match it against a header, run the command.

  - A `WORD` is any word, a `<lo-hi>` any decimal numeral with a value in the
    range.
  - The options in braces come in any order, each at most once.
-/

namespace OpsNtpd.Cli

open Text

/-! ## Section 1: Tokens -/

/-- The token `<lo-hi>`. -/
def rangeToken (lo hi : Int) (s : String) : Prop :=
  IsNumeral s ∧ lo ≤ leadingInt s ∧ leadingInt s ≤ hi

instance (lo hi : Int) (s : String) : Decidable (rangeToken lo hi s) :=
  inferInstanceAs (Decidable (_ ∧ _))

/-- The number of a token fits an `int`. -/
theorem atoi_of_rangeToken {lo hi : Int} {s : String} (hlo : -2147483648 ≤ lo)
    (hhi : hi ≤ 2147483647) (h : rangeToken lo hi s) : atoi s = leadingInt s :=
  atoi_eq_leadingInt (hlo.trans h.2.1) (h.2.2.trans hhi)

/-- The token `<1-65534>`. -/
abbrev keyToken (s : String) : Prop := rangeToken 1 65534 s

/-- The token `<3-4>`. -/
abbrev versionToken (s : String) : Prop := rangeToken 3 4 s

/-- A version that the token accepts passes the handler's check. -/
theorem versionInRange_of_token {version : String} (h : versionToken version) :
    versionInRange version := by
  have hthree : atoi ntpAssocAttribVersion3 = 3 := by decide +kernel
  have hfour : atoi ntpAssocAttribVersion4 = 4 := by decide +kernel
  unfold versionInRange
  rw [hthree, hfour, atoi_of_rangeToken (by decide) (by decide) h]
  exact h.2

/-- The arguments of a command match the tokens of its header. -/
def Command.Tokens : Command → Prop
  | .ntpServer name _ version keyId =>
      IsWord name ∧ (∀ v ∈ version, versionToken v) ∧ ∀ k ∈ keyId, keyToken k
  | .noNtpServer name => IsWord name
  | .ntpAuthenticationEnable => True
  | .noNtpAuthenticationEnable => True
  | .ntpAuthenticationKey key md5 => keyToken key ∧ IsWord md5
  | .noNtpAuthenticationKey key => keyToken key
  | .ntpTrustedKey key => keyToken key
  | .noNtpTrustedKey key => keyToken key

/-! ## Section 2: Parsing -/

/-- The options of `ntp server`: `{prefer | version <3-4> | key-id <1-65534>}`. -/
structure ServerOptions where
  prefer : Bool
  version : Option String
  keyId : Option String
  deriving DecidableEq

def ServerOptions.none : ServerOptions := { prefer := false, version := .none, keyId := .none }

/-- Match the words after the server name. -/
def parseServerOptions (o : ServerOptions) : List String → Option ServerOptions
  -- each keyword may come once, in any order
  | [] => some o
  | [w] => if w = "prefer" ∧ o.prefer = false then some { o with prefer := true } else .none
  | w :: w' :: ws =>
      if w = "prefer" ∧ o.prefer = false then
        parseServerOptions { o with prefer := true } (w' :: ws)
      else if w = "version" ∧ o.version = .none ∧ versionToken w' then
        parseServerOptions { o with version := some w' } ws
      else if w = "key-id" ∧ o.keyId = .none ∧ keyToken w' then
        parseServerOptions { o with keyId := some w' } ws
      else .none

/-- Match the words of a line against the headers. -/
def parseWords : List String → Option Command
  | "ntp" :: "server" :: name :: ws =>
      (parseServerOptions .none ws).map fun o => .ntpServer name o.prefer o.version o.keyId
  | ["no", "ntp", "server", name] => some (.noNtpServer name)
  | ["ntp", "authentication", "enable"] => some .ntpAuthenticationEnable
  | ["no", "ntp", "authentication", "enable"] => some .noNtpAuthenticationEnable
  | ["ntp", "authentication-key", key, "md5", md5] =>
      if keyToken key then some (.ntpAuthenticationKey key md5) else none
  | ["no", "ntp", "authentication-key", key] =>
      if keyToken key then some (.noNtpAuthenticationKey key) else none
  | ["ntp", "trusted-key", key] => if keyToken key then some (.ntpTrustedKey key) else none
  | ["no", "ntp", "trusted-key", key] =>
      if keyToken key then some (.noNtpTrustedKey key) else none
  | _ => none

/-- The command of a line. -/
def parseLine (line : String) : Option Command := parseWords (words line)

/-! ## Section 3: Executing lines -/

variable (isValidIpv4 : Nat → Bool)

/-- Execute a line: the database after it, or nothing when no header matches
    or the command does not return `CMD_SUCCESS`. -/
def executeLine (db : Db) (line : String) : Option Db :=
  match parseLine line with
  | none => none
  | some c =>
    match c.run isValidIpv4 .committed db with
    | (.success, db') => some db'
    | (_, _) => none

/-- Execute lines, all of which must be accepted. -/
def executeLines (db : Db) (lines : List String) : Option Db :=
  lines.foldlM (executeLine isValidIpv4) db

/-- What a user session does with a line: a line that is refused leaves the
    database as it is. -/
def enterLine (db : Db) (line : String) : Db :=
  match parseLine line with
  | none => db
  | some c => c.exec isValidIpv4 db

/-- The database after a user has entered lines. -/
def enterLines (db : Db) (lines : List String) : Db := lines.foldl (enterLine isValidIpv4) db

end OpsNtpd.Cli
