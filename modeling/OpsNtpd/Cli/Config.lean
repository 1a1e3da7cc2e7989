import OpsNtpd.Cli.Handlers

/-! # CLI: The Configuration as a Pair of Finite Maps

  What the configuration commands are for, apart from tables and
  transactions: a configuration is a map from key ids to passwords with a
  trust flag and a map from server addresses to their options. A command that
  is not acceptable leaves it alone.
-/

namespace OpsNtpd.Cli

open Text

/-- The options of a configured server. -/
structure ServerEntry where
  version : String
  prefer : Bool
  key : Option Int
  deriving DecidableEq, Repr

/-- A configuration: keys and servers. -/
structure Config where
  keys : Dict Int (String × Bool)
  servers : Dict String ServerEntry
  deriving DecidableEq

/-- Nothing is configured. -/
def Config.empty : Config := { keys := ∅, servers := ∅ }

/-- A new server, before the options of the command. -/
def ServerEntry.default : ServerEntry := { version := "3", prefer := false, key := none }

/-- Change the options that the command names. -/
def ServerEntry.update (e : ServerEntry) (prefer : Bool) (version keyId : Option String) :
    ServerEntry :=
  { version := version.getD e.version
    prefer := prefer || e.prefer
    key := (keyId.map atoi).or e.key }

/-- The server no longer uses the key. -/
def ServerEntry.dropKey (key : Int) (e : ServerEntry) : ServerEntry :=
  if e.key = some key then { e with key := none } else e

/-- The arguments of `ntp server` are acceptable: a valid name, a configured
    key and a supported version. -/
def Config.acceptable (isValidIpv4 : Nat → Bool) (m : Config) (name : String)
    (version keyId : Option String) : Prop :=
  validServerName isValidIpv4 name ∧
  (∀ k ∈ keyId, keyIdInRange (atoi k) ∧ atoi k ∈ m.keys.keys) ∧
  (∀ v ∈ version, versionInRange v)

instance (isValidIpv4 : Nat → Bool) (m : Config) (name : String)
    (version keyId : Option String) :
    Decidable (m.acceptable isValidIpv4 name version keyId) :=
  inferInstanceAs (Decidable (_ ∧ _ ∧ _))

/-- Set the trust flag of an existing key. -/
def Config.setTrust (m : Config) (key : Int) (trust : Bool) : Config :=
  match m.keys.lookup key with
  | none => m
  | some (pwd, _) => { m with keys := m.keys.insert key (pwd, trust) }

/-- The effect of a command. -/
def Config.step (isValidIpv4 : Nat → Bool) (m : Config) : Command → Config
  | .ntpServer name prefer version keyId =>
      if ¬ m.acceptable isValidIpv4 name version keyId then m
      else
        match m.servers.lookup name with
        | some e => { m with servers := m.servers.insert name (e.update prefer version keyId) }
        | none =>
          if m.servers.keys.card ≥ ntpAssocMaxServers then m
          else
            { m with servers :=
                m.servers.insert name (ServerEntry.default.update prefer version keyId) }
  | .noNtpServer name => { m with servers := m.servers.erase name }
  | .ntpAuthenticationKey key md5 =>
      if ¬ (keyIdInRange (atoi key) ∧ passwordLenInRange md5) then m
      else
        -- an existing key keeps its trust flag
        let trust := ((m.keys.lookup (atoi key)).map Prod.snd).getD false
        { m with keys := m.keys.insert (atoi key) (md5, trust) }
  | .noNtpAuthenticationKey key =>
      { keys := m.keys.erase (atoi key)
        servers := Dict.mapValues (ServerEntry.dropKey (atoi key)) m.servers }
  | .ntpTrustedKey key => m.setTrust (atoi key) true
  | .noNtpTrustedKey key => m.setTrust (atoi key) false
  | .ntpAuthenticationEnable => m
  | .noNtpAuthenticationEnable => m

/-- The effect of a sequence of commands. -/
def Config.run (isValidIpv4 : Nat → Bool) (m : Config) (cs : List Command) : Config :=
  cs.foldl (Config.step isValidIpv4) m

/-! ## The configuration that the tables stand for -/

/-- The options of a server row; the key is given by its id. -/
def serverEntry (db : Db) (row : NtpAssociationRow) : ServerEntry :=
  { version := (row.associationAttributes.lookup ntpAssocAttribVersion).getD ""
    prefer := row.associationAttributes.lookup ntpAssocAttribPrefer = some "true"
    key := db.keyOf row }

/-- The configuration that the two tables represent. -/
def configOf (db : Db) : Config :=
  { keys := Rows.index NtpKeyRow.keyId (fun r => (r.keyPassword, r.trustEnable)) db.ntpKey
    servers := Rows.index NtpAssociationRow.address (serverEntry db) db.ntpAssociation }

end OpsNtpd.Cli
