import OpsNtpd.Cli.Sanitize

/-! # CLI: The Command Handlers

  The configuration handlers of `ntp_vty.c`. A handler looks at the session's
  replica and either returns at once or issues the operations of a
  transaction; the macros `START_DB_TXN`, `ERRONEOUS_DB_TXN` and `END_DB_TXN`
  return from the handler, so every path ends in one of these two.

  What the `ovsdb` library does with the transaction is in `Txn`; the results
  about committed runs use `Txn.committed`.
-/

namespace OpsNtpd.Cli

open Text

/-! ## Section 1: Transactions -/

/-- `enum ovsdb_idl_txn_status` -/
inductive TxnStatus where
  | uncommitted
  | unchanged
  | incomplete
  | aborted
  | success
  | tryAgain
  | notLocked
  | error
  deriving DecidableEq, Repr

/-- `config_finish_result` -/
def configFinishResult (status : TxnStatus) : CmdCode :=
  if status = .success ∨ status = .unchanged then .success else .warning

/-- What the library answers during one command: whether
    `cli_do_config_start` and the row insertion succeed, and the status
    `cli_do_config_finish` ends with. -/
structure Txn where
  created : Bool
  inserted : Bool
  status : TxnStatus

/-- A transaction that commits. -/
def Txn.committed : Txn := { created := true, inserted := true, status := .success }

/-- How a handler leaves: with a code and no operations, or through
    `END_DB_TXN` with the operations it issued. `out` is the printed text. -/
inductive Verdict where
  | done (code : CmdCode) (out : String)
  | endDbTxn (ops : List DbOp) (out : String)

/-- `START_DB_TXN` (the printed text less file and line) -/
def startDbTxn (txn : Txn) (body : Verdict) : Verdict :=
  if txn.created then body else .done .ovsdbFailure "ovsdb_idl_txn_create failed\n"

/-- `ERRONEOUS_DB_TXN` (the printed text less file and line) -/
def erroneousDbTxn (message : String) : Verdict :=
  .done .warning ("database transaction failed: " ++ message ++ "\n")

/-- The return code of a handler and the database after it. -/
def Verdict.run (txn : Txn) (db : Db) : Verdict → CmdCode × Db
  | .done code _ => (code, db)
  | .endDbTxn ops _ =>
      (configFinishResult txn.status,
        if configFinishResult txn.status = .success then db.commit ops else db)

/-! ## Section 2: Authentication -/

/-- `vtysh_ovsdb_ntp_auth_enable_set` -/
def vtyshOvsdbNtpAuthEnableSet (txn : Txn) (db : Db) (p : NtpAuthEnableParams) : Verdict :=
  startDbTxn txn <|
    match db.system.head? with
    | none => erroneousDbTxn "Could not access the System Table"
    | some sys =>
      .endDbTxn
        [.updateSystem sys.uuid
          (sys.ntpConfig.insert systemNtpConfigAuthenticationEnable
            (if p.noForm then "false" else "true"))] ""

/-- `ntp_auth_key_replace_parameters` -/
def ntpAuthKeyReplaceParameters (p : NtpAuthKeyParams) (keyExists : Bool) : NtpKeyWrites :=
  { -- key_id is immutable. Set it only during row creation
    keyId := if keyExists then none else some (atoi p.key)
    keyPassword := some (p.md5Pwd.getD "")
    trustEnable := none }

/-- `vtysh_ovsdb_ntp_auth_key_set` -/
def vtyshOvsdbNtpAuthKeySet (txn : Txn) (db : Db) (p : NtpAuthKeyParams) : Verdict :=
  match ntpSanitizeAuthKey db (some p.key) false p.md5Pwd with
  | .error e => .done e.code e.out
  | .ok _ =>
    -- the sanitizer is not asked for the row, so that a new key passes
    startDbTxn txn <|
      match ntpOvsrecGetAuthKey db (atoi p.key) with
      | none =>
        if p.noForm then .endDbTxn [] "This key does not exist\n"
        else if ¬ txn.inserted then
          erroneousDbTxn "Could not insert a row into the NTP Keys Table"
        else .endDbTxn [.insertKey (ntpAuthKeyReplaceParameters p false)] ""
      | some row =>
        if p.noForm then .endDbTxn [.deleteKey row.uuid] ""
        else .endDbTxn [.updateKey row.uuid (ntpAuthKeyReplaceParameters p true)] ""

/-- `vtysh_ovsdb_ntp_trusted_key_set` -/
def vtyshOvsdbNtpTrustedKeySet (txn : Txn) (db : Db) (p : NtpTrustedKeyParams) : Verdict :=
  match ntpSanitizeAuthKey db (some p.key) true none with
  | .error e => .done e.code e.out
  | .ok row =>
    startDbTxn txn <|
      match row with
      -- cannot be: without a row the sanitizer has refused
      | none => .endDbTxn [] "This key does not exist\n"
      | some row =>
        .endDbTxn
          [.updateKey row.uuid
            { keyId := none, keyPassword := none, trustEnable := some (!p.noForm) }] ""

/-! ## Section 3: Servers -/

/-- `get_ovsrec_vrf_with_name`: the first VRF row, whatever the name. -/
def getOvsrecVrfWithName (db : Db) (_name : String) : Option VrfRow := db.vrf.head?

/-- `ntp_ovsrec_get_assoc` -/
def ntpOvsrecGetAssoc (db : Db) (vrfName serverName : String) : Option NtpAssociationRow :=
  db.ntpAssociation.find? fun r =>
    serverName = r.address ∧ ∃ v ∈ r.vrf.bind db.vrfRow, v.name = vrfName

/-- The status columns a new server starts with. -/
def ntpAssocStatusKeys : List String :=
  ["remote_peer_address", "remote_peer_ref_id", "stratum", "peer_type", "last_polled",
   "polling_interval", "reachability_register", "network_delay", "time_offset", "jitter",
   "root_dispersion", "reference_time", "peer_status_word", "associd"]

/-- The attributes after the defaults of a new row have been filled in. -/
def defaultAssocAttribs (attribs : Smap) : Smap :=
  ((attribs.insert ntpAssocAttribRefClockId "-").insert ntpAssocAttribPrefer "false").insert
    ntpAssocAttribVersion ntpAssocAttribVersionDefault

/-- The attributes after the options of the command have been filled in. -/
def optionAssocAttribs (p : NtpServerParams) (attribs : Smap) : Smap :=
  let attribs := if p.prefer then attribs.insert ntpAssocAttribPrefer "true" else attribs
  match p.version with
  | none => attribs
  | some version => attribs.insert ntpAssocAttribVersion version

/-- `ntp_server_replace_parameters`: the columns written to the row, whose
    attributes are `attribs` before. -/
def ntpServerReplaceParameters (db : Db) (attribs : Smap) (p : NtpServerParams)
    (keyRow : Option NtpKeyRow) (serverExists : Bool) : NtpAssociationWrites :=
  -- the reference is written only when `key-id` was given
  let key : Option (Option Uuid) := p.keyid.map fun _ => keyRow.map NtpKeyRow.uuid
  if serverExists then
    { address := none
      vrf := none
      keyId := key
      associationAttributes := some (optionAssocAttribs p attribs)
      associationStatus := none }
  else
    -- The following are immutable fields. Set them only the 1st time
    { address := some p.serverName
      vrf := some ((getOvsrecVrfWithName db p.vrfName).map VrfRow.uuid)
      keyId := some (key.getD none)
      associationAttributes := some (optionAssocAttribs p (defaultAssocAttribs attribs))
      associationStatus := some (Dict.ofPairs (ntpAssocStatusKeys.map fun k => (k, "-"))) }

/-- `ntp_server_check_max_number_of_servers` -/
def ntpServerCheckMaxNumberOfServers (db : Db) (p : NtpServerParams) : Except Refusal Unit :=
  if ¬ p.noForm ∧ db.ntpAssociation.length ≥ ntpAssocMaxServers then
    .error ⟨.errNothingToDo, "Maximum number of configurable NTP server limit has been reached\n"⟩
  else .ok ()

variable (isValidIpv4 : Nat → Bool)

/-- `vtysh_ovsdb_ntp_server_set` -/
def vtyshOvsdbNtpServerSet (txn : Txn) (db : Db) (p : NtpServerParams) : Verdict :=
  match ntpServerSanitizeParameters isValidIpv4 db p with
  | .error e => .done e.code e.out
  | .ok keyRow =>
    startDbTxn txn <|
      match ntpOvsrecGetAssoc db p.vrfName p.serverName with
      | none =>
        if p.noForm then .endDbTxn [] "This server does not exist\n"
        else
          match ntpServerCheckMaxNumberOfServers db p with
          -- END_DB_TXN returns, so the code of the check is never returned
          | .error e => .endDbTxn [] e.out
          | .ok () =>
            if ¬ txn.inserted then
              erroneousDbTxn "Could not insert a row into the NTP Assoc Table"
            else
              .endDbTxn
                [.insertAssociation (ntpServerReplaceParameters db ∅ p keyRow false)] ""
      | some row =>
        if p.noForm then .endDbTxn [.deleteAssociation row.uuid] ""
        else
          .endDbTxn
            [.updateAssociation row.uuid
              (ntpServerReplaceParameters db row.associationAttributes p keyRow true)] ""

/-! ## Section 4: Commands -/

/-- A configuration command with its arguments, as `vtysh` hands them to the
    `DEFUN` bodies. -/
inductive Command where
  /-- `ntp server WORD {prefer | version <3-4> | key-id <1-65534>}` -/
  | ntpServer (name : String) (prefer : Bool) (version keyId : Option String)
  /-- `no ntp server WORD` -/
  | noNtpServer (name : String)
  /-- `ntp authentication enable` -/
  | ntpAuthenticationEnable
  /-- `no ntp authentication enable` -/
  | noNtpAuthenticationEnable
  /-- `ntp authentication-key <1-65534> md5 WORD` -/
  | ntpAuthenticationKey (key md5 : String)
  /-- `no ntp authentication-key <1-65534>` -/
  | noNtpAuthenticationKey (key : String)
  /-- `ntp trusted-key <1-65534>` -/
  | ntpTrustedKey (key : String)
  /-- `no ntp trusted-key <1-65534>` -/
  | noNtpTrustedKey (key : String)
  deriving DecidableEq, Repr

/-- The parameters of `ntp server`. -/
def ntpServerParams (name : String) (prefer : Bool) (version keyId : Option String) :
    NtpServerParams :=
  { noForm := false, vrfName := defaultVrfName, serverName := name, prefer := prefer,
    version := version, keyid := keyId }

/-- The parameters of `no ntp server`. -/
def noNtpServerParams (name : String) : NtpServerParams :=
  { noForm := true, vrfName := defaultVrfName, serverName := name, prefer := false,
    version := none, keyid := none }

/-- The `DEFUN` bodies: fill in the parameters and call the handler. -/
def Command.verdict (txn : Txn) (db : Db) : Command → Verdict
  | .ntpServer name prefer version keyId =>
      vtyshOvsdbNtpServerSet isValidIpv4 txn db (ntpServerParams name prefer version keyId)
  | .noNtpServer name =>
      vtyshOvsdbNtpServerSet isValidIpv4 txn db (noNtpServerParams name)
  | .ntpAuthenticationEnable => vtyshOvsdbNtpAuthEnableSet txn db { noForm := false }
  | .noNtpAuthenticationEnable => vtyshOvsdbNtpAuthEnableSet txn db { noForm := true }
  | .ntpAuthenticationKey key md5 =>
      vtyshOvsdbNtpAuthKeySet txn db { noForm := false, key := key, md5Pwd := some md5 }
  | .noNtpAuthenticationKey key =>
      vtyshOvsdbNtpAuthKeySet txn db { noForm := true, key := key, md5Pwd := none }
  | .ntpTrustedKey key => vtyshOvsdbNtpTrustedKeySet txn db { noForm := false, key := key }
  | .noNtpTrustedKey key => vtyshOvsdbNtpTrustedKeySet txn db { noForm := true, key := key }

/-- One command: its return code and the database after it. -/
def Command.run (txn : Txn) (db : Db) (c : Command) : CmdCode × Db :=
  (c.verdict isValidIpv4 txn db).run txn db

/-- The database after a command whose transaction commits. -/
def Command.exec (db : Db) (c : Command) : Db := (c.run isValidIpv4 .committed db).2

/-- The database after a sequence of commands whose transactions commit. -/
def execAll (db : Db) (cs : List Command) : Db := cs.foldl (Command.exec isValidIpv4) db

@[simp] theorem execAll_cons (db : Db) (c : Command) (cs : List Command) :
    execAll isValidIpv4 db (c :: cs) = execAll isValidIpv4 (c.exec isValidIpv4 db) cs := rfl

end OpsNtpd.Cli
