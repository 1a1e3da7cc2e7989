import OpsNtpd.Daemon.CommandLine
import OpsNtpd.Daemon.KeysFile
import OpsNtpd.Daemon.MainLoop
import OpsNtpd.Daemon.Processes

/-! # Daemon: Start-up Files and Logins

  `ops_ntpd_setup_ntpd_default_config` writes the files that ntpd starts from,
  and the daemon then talks to ntpd through `ntpdc` and `ntpq`, which log in
  with a key id and a password on their command lines.

  - Section 1: the files, and the command line for `ntpdc`.
  - Section 2: what ntpd takes from its configuration file, and what the tools
    take from their arguments.
  - Section 3: ntpd starts as the main loop has it, and the logins are those
    of the control key.

  The directory `/etc/ntp/` is made and its mode set by two shell commands that
  are left out.
-/

namespace OpsNtpd.Daemon

open Text

/-! ## Section 1: What is written -/

/-- `ops_ntpd_update_content_buffer` -/
def opsNtpdUpdateContentBuffer (fileBuffer : List String) (line : String) : List String :=
  fileBuffer ++ [line ++ "\n"]

/-- `ops_ntpd_set_file_contents`: the text that `writelines` leaves in the file. -/
def opsNtpdSetFileContents (contents : List String) : String := "".intercalate contents

/-- `ops_ntpd_setup_ntpd_default_config_file`: the file and its contents. -/
def opsNtpdSetupNtpdDefaultConfigFile (ntpWorkingDirPath : String) : String × String :=
  let conf := []
  let conf := opsNtpdUpdateContentBuffer conf "#This is generated from ops-ntpd"
  let conf := opsNtpdUpdateContentBuffer conf "tinker panic 0"
  let conf := opsNtpdUpdateContentBuffer conf ("trustedkey " ++ toString controlkey)
  let conf := opsNtpdUpdateContentBuffer conf ("requestkey " ++ toString controlkey)
  let conf := opsNtpdUpdateContentBuffer conf ("controlkey " ++ toString controlkey)
  let conf := opsNtpdUpdateContentBuffer conf "enable mode7"
  (ntpWorkingDirPath ++ "ops_ntp.conf", opsNtpdSetFileContents conf)

/-- `ops_ntpd_setup_ntpd_default_keys_file` -/
def opsNtpdSetupNtpdDefaultKeysFile (ntpWorkingDirPath secret : String) : String × String :=
  let keysInfo := opsNtpdUpdateContentBuffer [] (defaultKeysFileContent secret)
  (ntpWorkingDirPath ++ "ops_ntp.keys", opsNtpdSetFileContents keysInfo)

/-- `ops_ntpd_setup_ntpd_default_log_file` -/
def opsNtpdSetupNtpdDefaultLogFile (ntpWorkingDirPath : String) : String :=
  ntpWorkingDirPath ++ "ops_ntp.log"

/-- `ops_ntpd_setup_ntpd_default_config`: `ntpd_info`. -/
def opsNtpdSetupNtpdDefaultConfig (secret : String) : NtpdInfo :=
  let ntpDirPath := "/etc/ntp/"
  { confFile := (opsNtpdSetupNtpdDefaultConfigFile ntpDirPath).1
    keysFile := (opsNtpdSetupNtpdDefaultKeysFile ntpDirPath secret).1
    logFile := opsNtpdSetupNtpdDefaultLogFile ntpDirPath }

/-- The command for `ntpdc`. The string literal goes on in the next line of the
    source, whose indentation is part of it. -/
def ntpdcCommand (secret : String) : String :=
  "ntpdc -c \"keyid " ++ toString controlkey ++ "\" -c \"passwd             " ++ secret ++
    "\" -c \"readkeys\""

/-! ## Section 2: What is read -/

/-- What ntpd takes from its configuration file. -/
structure NtpdConf where
  tinkerPanic : Option Int
  trusted : Finset Int
  requestkey : Option Int
  controlkey : Option Int
  mode7 : Bool
  deriving DecidableEq

def NtpdConf.initial : NtpdConf :=
  { tinkerPanic := none, trusted := ∅, requestkey := none, controlkey := none, mode7 := false }

/-- One line. A `#` ends it. -/
def NtpdConf.readLine (conf : NtpdConf) (line : List Char) : NtpdConf :=
  match (fields isSpace (line.takeWhile fun c => c ≠ '#')).map String.ofList with
  | ["tinker", "panic", value] => { conf with tinkerPanic := some (leadingInt value) }
  | "trustedkey" :: keys => { conf with trusted := conf.trusted ∪ (keys.map leadingInt).toFinset }
  | ["requestkey", key] => { conf with requestkey := some (leadingInt key) }
  | ["controlkey", key] => { conf with controlkey := some (leadingInt key) }
  | ["enable", "mode7"] => { conf with mode7 := true }
  | _ => conf

def readConf (text : String) : NtpdConf := (lines text).foldl NtpdConf.readLine .initial

/-- ntpd after it has read its files. -/
def Ntpd.start (conf : NtpdConf) (keysFile : String) : Ntpd :=
  { servers := ∅, trusted := conf.trusted, keyStore := keysFile }

/-- The commands that the `-c` options of `ntpq` and `ntpdc` give. -/
def optionCommands : List String → List String
  | [] => []
  | [_] => []
  | a :: b :: args => if a = "-c" then b :: optionCommands args else optionCommands (b :: args)

/-- The key id and the password that a tool signs its requests with. -/
structure Login where
  keyid : Option Int
  passwd : Option String
  deriving DecidableEq

/-- One command of the tool. -/
def Login.step (l : Login) (command : String) : Login :=
  match words command with
  | ["keyid", key] => { l with keyid := some (leadingInt key) }
  | ["passwd", password] => { l with passwd := some password }
  | _ => l

/-- The login after the commands of the options. -/
def loginOf (argv : List String) : Login :=
  (optionCommands argv).foldl Login.step { keyid := none, passwd := none }

/-- ntpd accepts requests that are signed with the key: it trusts the key, and
    its key store has one entry for it, with this secret. -/
structure Accepts (n : Ntpd) (key : Int) (secret : String) : Prop where
  trusted : key ∈ n.trusted
  entry : (readKeysFile n.keyStore).filter (fun e => e.id = key) = [md5Entry key secret]

instance (n : Ntpd) (key : Int) (secret : String) : Decidable (Accepts n key secret) :=
  decidable_of_iff
    (key ∈ n.trusted ∧
      (readKeysFile n.keyStore).filter (fun e => e.id = key) = [md5Entry key secret])
    ⟨fun h => ⟨h.1, h.2⟩, fun h => ⟨h.trusted, h.entry⟩⟩

/-- ntpd takes the requests of a tool with this login, which must be that of
    the key `key` of the configuration file. -/
def Ntpd.Takes (n : Ntpd) (key : Option Int) (l : Login) : Prop :=
  ∃ k secret, key = some k ∧ l = { keyid := some k, passwd := some secret } ∧ Accepts n k secret

/-! ## Section 3: Starting and logging in -/

section logins
variable {secret : String}

/-- The files of a start have the default paths. -/
theorem setupNtpdDefaultConfig_eq (secret : String) :
    opsNtpdSetupNtpdDefaultConfig secret = defaultNtpdInfo := by
  have hpaths : "/etc/ntp/" ++ "ops_ntp.conf" = "/etc/ntp/ops_ntp.conf" ∧
      "/etc/ntp/" ++ "ops_ntp.keys" = "/etc/ntp/ops_ntp.keys" ∧
      "/etc/ntp/" ++ "ops_ntp.log" = "/etc/ntp/ops_ntp.log" := by decide
  exact NtpdInfo.mk.injEq .. ▸ hpaths

/-- The shell runs `ntpd` with the paths of these files. -/
theorem simpleCommand_ntpdCommand (secret : String) :
    let info := opsNtpdSetupNtpdDefaultConfig secret
    Shell.simpleCommand (ntpdCommand info) = some
      ["ntpd", "-I", "eth0", "-c", info.confFile, "-k", info.keysFile, "-l", info.logFile] := by
  rw [setupNtpdDefaultConfig_eq]
  decide +kernel

/-- What ntpd takes from the configuration file of a start. -/
theorem readConf_default (path : String) :
    readConf (opsNtpdSetupNtpdDefaultConfigFile path).2 =
      { tinkerPanic := some 0, trusted := {controlkey}, requestkey := some controlkey
        controlkey := some controlkey, mode7 := true } := by
  have htext : (opsNtpdSetupNtpdDefaultConfigFile path).2 =
      (opsNtpdSetupNtpdDefaultConfigFile "").2 := rfl
  rw [htext]
  decide +kernel

/-- ntpd starts as the main loop has it. -/
theorem start_default (path secret : String) :
    Ntpd.start (readConf (opsNtpdSetupNtpdDefaultConfigFile path).2)
        (opsNtpdSetupNtpdDefaultKeysFile path secret).2 = Ntpd.fresh secret := by
  have hfile : (opsNtpdSetupNtpdDefaultKeysFile path secret).2 =
      defaultKeysFileContent secret ++ "\n" := by
    show "".intercalate [defaultKeysFileContent secret ++ "\n"] = _
    rw [String.intercalate_singleton]
  rw [readConf_default, hfile]
  rfl

/-- The arguments of `ntpdc`. -/
def ntpdcArgv (secret : String) : List String :=
  ["ntpdc", "-c", "keyid 65535", "-c", "passwd             " ++ secret, "-c", "readkeys"]

/-- The shell runs `ntpdc` with these arguments. -/
theorem simpleCommand_ntpdcCommand (hsecret : ControlkeyAnswer secret) :
    Shell.simpleCommand (ntpdcCommand secret) = some (ntpdcArgv secret) := by
  have hlit := hsecret.literal
  let start := "ntpdc -c \"keyid 65535\" -c \"passwd             "
  -- the secret is the only part of the command that is not fixed
  have hpre : Shell.run Shell.State.start start.toList =
      some ⟨.double, some "passwd             ".toList,
        ["ntpdc".toList, "-c".toList, "keyid 65535".toList, "-c".toList]⟩ := by decide
  have hrun : Shell.run Shell.State.start (start.toList ++ (secret.toList ++ ['"'])) =
      some ⟨.unquoted, some ("passwd             " ++ secret).toList,
        ["ntpdc".toList, "-c".toList, "keyid 65535".toList, "-c".toList]⟩ := by
    rw [Shell.run_append, hpre, Option.bind_some, (Shell.run_literal hlit.plain).1 hlit.backslashes,
      String.toList_append]
  have hreadkeys : ∀ a ∈ ["readkeys".toList], Shell.Literal a := by
    intro a ha
    rw [List.mem_singleton.mp ha]
    exact literal_of_allOrdinary (by decide)
  have hiff := Shell.simpleCommand_iff ["readkeys".toList] hrun bareOption_c (by decide)
  have htext : (ntpdcCommand secret).toList = start.toList ++ (secret.toList ++ ['"']) ++
      Shell.quoteArgs "-c".toList ["readkeys".toList] := by
    have hstart : "ntpdc -c \"keyid " ++ toString controlkey ++ "\" -c \"passwd             " =
        start := by decide
    have hend : "\" -c \"readkeys\"".toList =
        '"' :: Shell.quoteArgs "-c".toList ["readkeys".toList] := by decide
    unfold ntpdcCommand
    rw [hstart, String.toList_append, String.toList_append, hend]
    simp
  rw [← htext, String.ofList_toList] at hiff
  rw [hiff.mpr hreadkeys]
  simp only [ntpdcArgv, List.map_cons, List.map_nil, List.cons_append,
    List.nil_append, List.flatMap_cons, List.flatMap_nil, String.ofList_toList]

/-- The words of a command to ntpd start with `:config`. -/
theorem words_render (c : ConfigCmd) : ∃ ws, words c.render = ":config" :: ws := by
  have happend : ∀ {a : String} (b : String), (∃ rest, a = ":config " ++ rest) →
      ∃ rest, a ++ b = ":config " ++ rest := by
    intro a b hrest
    obtain ⟨rest, rfl⟩ := hrest
    exact ⟨rest ++ b, String.append_assoc ..⟩
  obtain ⟨rest, hrest⟩ : ∃ rest, c.render = ":config " ++ rest := by
    cases c with
    | association c =>
      cases c with
      | put address o =>
        show ∃ rest, ":config server " ++ address ++ " version " ++ o.version ++ _ ++ _ = _
        exact happend _ (happend _ (happend _ (happend _ (happend _ ⟨"server ", by decide⟩))))
      | drop address => exact happend address ⟨"unconfig ", by decide⟩
    | trustedkey keys => exact happend (joinKeys keys) ⟨"trustedkey ", by decide⟩
    | unconfigTrustedkey keys =>
      exact happend (joinKeys keys) ⟨"unconfig trustedkey ", by decide⟩
  have hword : words ":config " = [":config"] := by decide
  refine ⟨words rest, ?_⟩
  rw [hrest, words_append_of_getLast (by decide), hword, List.singleton_append]

/-- A command to ntpd does not change the login. -/
theorem Login.step_render (l : Login) (c : ConfigCmd) : l.step c.render = l := by
  obtain ⟨ws, hws⟩ := words_render c
  unfold Login.step
  rw [hws]
  split
  · next heq => exact absurd (List.cons.inj heq).1 (by decide)
  · next heq => exact absurd (List.cons.inj heq).1 (by decide)
  · rfl

/-- The login that both tools get from the daemon. -/
def controlLogin (secret : String) : Login := { keyid := some controlkey, passwd := some secret }

theorem words_passwd (hsecret : ControlkeyAnswer secret) {gap : String}
    (hlast : gap.toList.getLast? = some ' ') (hgap : words gap = ["passwd"]) :
    words (gap ++ secret) = ["passwd", secret] := by
  rw [words_append_of_getLast hlast, hgap, words_of_isWord hsecret.plain.1]
  rfl

theorem Login.step_keyid (l : Login) :
    l.step "keyid 65535" = { l with keyid := some controlkey } := by
  have hwords : words "keyid 65535" = ["keyid", "65535"] := by decide
  unfold Login.step
  rw [hwords]
  rfl

theorem Login.step_passwd (l : Login) {command : String} (h : words command = ["passwd", secret]) :
    l.step command = { l with passwd := some secret } := by
  unfold Login.step
  rw [h]
  rfl

/-- `ntpdc` logs in with the control key. -/
theorem loginOf_ntpdcArgv (hsecret : ControlkeyAnswer secret) :
    loginOf (ntpdcArgv secret) = controlLogin secret := by
  have hreadkeys : ∀ l : Login, l.step "readkeys" = l := by
    intro l
    have hwords : words "readkeys" = ["readkeys"] := by decide
    unfold Login.step
    rw [hwords]
    rfl
  show Login.step (Login.step (Login.step _ _) _) "readkeys" = _
  rw [hreadkeys, Login.step_passwd _ (words_passwd hsecret (by decide) (by decide)),
    Login.step_keyid]
  rfl

/-- `ntpq` logs in with the control key, whatever the commands to ntpd are. -/
theorem loginOf_ntpqArgv (hsecret : ControlkeyAnswer secret) (configs : List ConfigCmd) :
    loginOf (ntpqArgv secret configs) = controlLogin secret := by
  have hoptions : ∀ configs : List ConfigCmd,
      optionCommands (configs.flatMap fun c => ["-c", c.render]) =
        configs.map ConfigCmd.render := by
    intro configs
    induction configs with
    | nil => rfl
    | cons c configs ih =>
      rw [List.flatMap_cons, List.map_cons, ← ih]
      rfl
  -- the login comes first, and no command after it is a `keyid` or a `passwd`
  have hconfigs : ∀ (configs : List ConfigCmd) (l : Login),
      (configs.map ConfigCmd.render).foldl Login.step l = l := by
    intro configs
    induction configs with
    | nil => exact fun _ => rfl
    | cons c configs ih =>
      intro l
      rw [List.map_cons, List.foldl_cons, l.step_render c]
      exact ih l
  have hkeyid : "keyid " ++ toString controlkey = "keyid 65535" := by decide
  have hcommands : optionCommands (ntpqArgv secret configs) =
      ["keyid 65535", "passwd " ++ secret] ++ configs.map ConfigCmd.render := by
    rw [← hoptions, ← hkeyid]
    rfl
  unfold loginOf
  rw [hcommands, List.foldl_append, hconfigs, List.foldl_cons, List.foldl_cons, List.foldl_nil,
    Login.step_passwd _ (words_passwd hsecret (by decide) (by decide)), Login.step_keyid]
  rfl

/-- The id of a key that is read from its line, whatever the password. -/
theorem id_of_readKeyLine {key : Int} (hkey : 0 ≤ key) {password : String} {e : KeyEntry}
    (h : readKeyLine (keyLine key password).toList = some e) : e.id = key := by
  have hid := plain_toString hkey
  have hsep : ∀ c ∈ (toString key).toList, isBlankOrTab c = false :=
    fun c hc => isBlankOrTab_of_not_isSpace (hid.1.2 c hc)
  -- a `#` of the password comes after the id
  have hcut : ∃ rest, (keyLine key password).toList.takeWhile (fun c => c ≠ '#') =
      ' ' :: ((toString key).toList ++ ' ' :: rest) := by
    have hhead : ∀ c ∈ ' ' :: ((toString key).toList ++ [' ']), decide (c ≠ '#') = true := by
      intro c hc
      rw [decide_eq_true_eq]
      intro heq
      rw [heq] at hc
      rcases List.mem_cons.mp hc with hblank | hin
      · exact absurd hblank (by decide)
      · rcases List.mem_append.mp hin with hin | hin
        · exact hid.2 hin
        · exact absurd hin (by decide)
    refine ⟨("MD5".toList ++ ' ' :: password.toList).takeWhile (fun c => c ≠ '#'), ?_⟩
    have hsplit : (keyLine key password).toList =
        (' ' :: ((toString key).toList ++ [' '])) ++ ("MD5".toList ++ ' ' :: password.toList) := by
      rw [toList_keyLine]
      simp
    rw [hsplit, List.takeWhile_append_of_pos hhead]
    simp
  obtain ⟨rest, hrest⟩ := hcut
  have htokens : ∃ ws, keyTokens (keyLine key password).toList = (toString key).toList :: ws := by
    refine ⟨fields isBlankOrTab rest, ?_⟩
    rw [keyTokens, hrest, fields_cons_sep _ (by decide),
      fields_word_cons hid.1.1 hsep _ (by decide)]
  obtain ⟨ws, hws⟩ := htokens
  unfold readKeyLine at h
  rw [hws] at h
  split at h
  · next heq =>
    obtain rfl := Option.some.inj h
    rw [← (List.cons.inj heq).1]
    show leadingInt (String.ofList (toString key).toList) = key
    rw [String.ofList_toList, leadingInt_toString hkey]
  · cases h

/-- The keys file of a pass has one entry for the control key, whatever the
    passwords are. -/
theorem entry_keysFileContent (hsecret : ControlkeyAnswer secret) {l : KeyMap} (hl : FromCli l)
    (is : List Int) :
    (readKeysFile (keysFileContent secret l is)).filter (fun e => e.id = controlkey) =
      [md5Entry controlkey secret] := by
  have hcontrol : decide ((md5Entry controlkey secret).id = controlkey) = true := decide_eq_true rfl
  -- the control key is the first line, and the ids of the others are in the range of the CLI
  rw [readKeysFile_keysFileContent hsecret hl, List.filter_cons, if_pos hcontrol]
  congr 1
  rw [List.filter_eq_nil_iff]
  intro e he
  obtain ⟨key, _, hkey⟩ := List.mem_filterMap.mp he
  obtain ⟨v, hv, hread⟩ := Option.bind_eq_some_iff.mp hkey
  obtain ⟨⟨hlow, hhigh⟩, _⟩ := hl key v hv
  have hmin : (1 : Int) ≤ key := hlow
  have hmax : key ≤ 65534 := hhigh
  have hid := id_of_readKeyLine (by omega) hread
  have hne : e.id ≠ controlkey := by
    show e.id ≠ 65535
    omega
  simpa using hne

end logins

end OpsNtpd.Daemon
