import OpsNtpd.Switch
import OpsNtpd.Daemon.StartFiles

/-! # Diagnostics

  `ops_ntpd_diagnostics_handler` answers a request for diagnostics with the texts
  of ntpd's files, and one of them is the keys file.

  - Section 1: the handler, and the keys section of what it answers.
  - Section 2: the lines of the answer.
  - Section 3: what it tells of a running switch.
-/

namespace OpsNtpd

open Cli Daemon Text Transition

/-! ## Section 1: The handler -/

/-- `readlines`: the lines with their line feeds. -/
def Daemon.readlines : List Char → List (List Char)
  | [] => []
  | c :: cs =>
    if c = '\n' then [c] :: readlines cs
    else
      match readlines cs with
      | [] => [[c]]
      | l :: ls => (c :: l) :: ls

/-- The underlining of a heading. -/
def Daemon.dumpRuler : String := "==============================================="

/-- `ops_ntpd_diagnostics_handler`, over the texts of the files of `ntpd_info`. -/
def Daemon.opsNtpdDiagnosticsHandler (argv : List String) (confFile keysFile logFile : String) :
    Option String := do
  -- `argv.pop()` raises on an empty list
  let feature ← argv.getLast?
  let buff := "Diagnostic dump for " ++ feature ++ ".\n"
  let fbuff := ["NTPD configuration file\n"]
  let fbuff := fbuff ++ [dumpRuler ++ "\n"]
  let fbuff := fbuff ++ (readlines confFile.toList).map String.ofList
  let fbuff := fbuff ++ ["NTPD keys file\n"]
  let fbuff := fbuff ++ [dumpRuler ++ "\n"]
  let fbuff := fbuff ++ (readlines keysFile.toList).map String.ofList
  let fbuff := fbuff ++ ["NTPD log file\n"]
  let fbuff := fbuff ++ [dumpRuler ++ "\n"]
  let fbuff := fbuff ++ (readlines logFile.toList).map String.ofList
  return fbuff.foldl (fun buff x => buff ++ x) buff

/-- The lines between the heading of the keys file and that of the log file. -/
def keysSection (dump : String) : List String :=
  ((((lines dump).map String.ofList).dropWhile fun l => l ≠ "NTPD keys file").drop 2).takeWhile
    fun l => l ≠ "NTPD log file"

/-! ## Section 2: The lines of the answer -/

section dump
variable {secret : String}

theorem flatten_readlines (cs : List Char) : (readlines cs).flatten = cs := by
  induction cs with
  | nil => rfl
  | cons c cs ih =>
    unfold readlines
    split
    · rw [List.flatten_cons, ih]
      rfl
    · split
      · next hnil =>
        rw [hnil] at ih
        rw [← ih]
        rfl
      · next l ls hcons =>
        rw [hcons] at ih
        rw [← ih]
        rfl

/-- Reading a file line by line loses nothing. -/
theorem foldl_readlines (buff text : String) :
    ((readlines text.toList).map String.ofList).foldl (fun buff x => buff ++ x) buff =
      buff ++ text := by
  have hall : ∀ (ls : List (List Char)) (buff : String),
      (ls.map String.ofList).foldl (fun buff x => buff ++ x) buff =
        buff ++ String.ofList ls.flatten := by
    intro ls
    induction ls with
    | nil => exact fun _ => (String.append_empty).symm
    | cons l ls ih =>
      intro buff
      rw [List.map_cons, List.foldl_cons, ih, List.flatten_cons, String.ofList_append,
        String.append_assoc]
  rw [hall, flatten_readlines, String.ofList_toList]

/-- The answer. -/
theorem diagnosticsHandler_eq {argv : List String} {feature : String}
    (hfeature : argv.getLast? = some feature) (conf keys log : String) :
    opsNtpdDiagnosticsHandler argv conf keys log =
      some ("Diagnostic dump for " ++ feature ++ "." ++ "\n" ++
        ("NTPD configuration file" ++ "\n" ++ (dumpRuler ++ "\n" ++ (conf ++
          ("NTPD keys file" ++ "\n" ++ (dumpRuler ++ "\n" ++ (keys ++
            ("NTPD log file" ++ "\n" ++ (dumpRuler ++ "\n" ++ log))))))))) := by
  have hdot : ".\n" = "." ++ "\n" := by decide
  have hconf : "NTPD configuration file\n" = "NTPD configuration file" ++ "\n" := by decide
  have hkeys : "NTPD keys file\n" = "NTPD keys file" ++ "\n" := by decide
  have hlog : "NTPD log file\n" = "NTPD log file" ++ "\n" := by decide
  unfold opsNtpdDiagnosticsHandler
  rw [hfeature]
  simp only [Option.bind_eq_bind, Option.bind_some, Option.pure_def, List.foldl_append,
    foldl_readlines, List.foldl_cons, List.foldl_nil]
  rw [hdot, hconf, hkeys, hlog]
  simp only [String.append_assoc]

/-- The lines of the configuration file of a start. -/
def confLines : List String :=
  ["#This is generated from ops-ntpd", "tinker panic 0", "trustedkey 65535", "requestkey 65535",
    "controlkey 65535", "enable mode7"]

theorem lines_defaultConf (path rest : String) :
    lines ((opsNtpdSetupNtpdDefaultConfigFile path).2 ++ rest) =
      confLines.map String.toList ++ lines rest := by
  have htext : (opsNtpdSetupNtpdDefaultConfigFile path).2 = "\n".intercalate confLines ++ "\n" := by
    show (opsNtpdSetupNtpdDefaultConfigFile "").2 = _
    decide +kernel
  rw [htext]
  exact lines_intercalate_append (by decide) (by decide) rest

/-- The lines of a keys file of a pass. -/
def keysFileLines (secret : String) (l : KeyMap) (is : List Int) : List String :=
  let entries := is.filterMap fun key => (l.lookup key).map fun v => keyLine key v.1
  "#This is generated from ops-ntpd" :: keyLine controlkey secret ::
    (if entries = [] then [""] else entries)

theorem keysFileContent_eq (secret : String) (l : KeyMap) (is : List Int) :
    keysFileContent secret l is = "\n".intercalate (keysFileLines secret l is) ++ "\n" := by
  have hheader : "#This is generated from ops-ntpd\n" =
      "#This is generated from ops-ntpd" ++ "\n" := by decide
  have hline : keyLine controlkey secret = " " ++ toString controlkey ++ " MD5 " ++ secret := rfl
  have hentries : ∀ entries : List String, "\n".intercalate entries =
      "\n".intercalate (if entries = [] then [""] else entries) := by
    intro entries
    split
    · next hnil => rw [hnil]; rfl
    · rfl
  have hne : ∀ entries : List String, (if entries = [] then [""] else entries) ≠ [] := by
    intro entries
    split
    · exact List.cons_ne_nil _ _
    · assumption
  unfold keysFileContent defaultKeysFileContent keysFileLines
  rw [String.intercalate_cons_of_ne_nil (List.cons_ne_nil _ _),
    String.intercalate_cons_of_ne_nil (hne _), ← hentries, hheader, hline]
  simp only [String.append_assoc]

theorem mem_keysFileLines {l : KeyMap} {is : List Int} (his : IterOrder is l.keys) {line : String}
    (hline : line ≠ "") :
    line ∈ keysFileLines secret l is ↔ line = "#This is generated from ops-ntpd" ∨
      line = keyLine controlkey secret ∨
      ∃ key v, l.lookup key = some v ∧ line = keyLine key v.1 := by
  have hentries : line ∈ (is.filterMap fun key => (l.lookup key).map fun v => keyLine key v.1) ↔
      ∃ key v, l.lookup key = some v ∧ line = keyLine key v.1 := by
    constructor
    · intro h
      obtain ⟨key, _, hkey⟩ := List.mem_filterMap.mp h
      obtain ⟨v, hv, rfl⟩ := Option.map_eq_some_iff.mp hkey
      exact ⟨key, v, hv, rfl⟩
    · intro h
      obtain ⟨key, v, hv, rfl⟩ := h
      have hkey : key ∈ is := his.mem_iff.mpr (Dict.mem_keys_iff.mpr ⟨v, hv⟩)
      exact List.mem_filterMap.mpr ⟨key, hkey, by rw [hv]; rfl⟩
  unfold keysFileLines
  dsimp only
  rw [List.mem_cons, List.mem_cons, ← hentries]
  refine or_congr Iff.rfl (or_congr Iff.rfl ?_)
  split
  · next hnil =>
    rw [hnil, List.mem_singleton]
    exact iff_of_false hline List.not_mem_nil
  · rfl

/-- No line of a keys file has a line feed or is the heading of the log file. -/
theorem of_mem_keysFileLines (hsecret : ControlkeyAnswer secret) {l : KeyMap} (hl : FromCli l)
    {is : List Int} {line : String} (hline : line ∈ keysFileLines secret l is) :
    '\n' ∉ line.toList ∧ line ≠ "NTPD log file" := by
  have hkeyLine : ∀ (key : Int) (password : String), 0 ≤ key → IsWord password →
      '\n' ∉ (keyLine key password).toList ∧ keyLine key password ≠ "NTPD log file" := by
    intro key password hkey hpwd
    refine ⟨newline_not_mem_keyLine hkey hpwd, ?_⟩
    intro heq
    -- a line of a key starts with a blank
    have hchars := toList_keyLine key password
    rw [heq] at hchars
    exact absurd (List.cons.inj hchars).1 (by decide)
  unfold keysFileLines at hline
  rcases List.mem_cons.mp hline with rfl | hline
  · exact ⟨by decide, by decide⟩
  rcases List.mem_cons.mp hline with rfl | hline
  · exact hkeyLine controlkey secret (by decide) hsecret.plain.1
  split at hline
  · rw [List.mem_singleton.mp hline]
    exact ⟨by decide, by decide⟩
  · obtain ⟨key, _, hkey⟩ := List.mem_filterMap.mp hline
    obtain ⟨v, hv, rfl⟩ := Option.map_eq_some_iff.mp hkey
    obtain ⟨⟨hlow, _⟩, _, hword⟩ := hl key v hv
    have hmin : (1 : Int) ≤ key := hlow
    exact hkeyLine key v.1 (by omega) hword

theorem lines_keysFileContent (hsecret : ControlkeyAnswer secret) {l : KeyMap} (hl : FromCli l)
    (is : List Int) (rest : String) :
    lines (keysFileContent secret l is ++ rest) =
      (keysFileLines secret l is).map String.toList ++ lines rest := by
  rw [keysFileContent_eq]
  exact lines_intercalate_append (List.cons_ne_nil _ _)
    (fun _ hline => (of_mem_keysFileLines hsecret hl hline).1) rest

/-- The lines between two headings are found again. -/
theorem takeWhile_dropWhile_heading {front body rest : List String} {start ruler stop : String}
    (hfront : ∀ l ∈ front, l ≠ start) (hbody : ∀ l ∈ body, l ≠ stop) :
    (((front ++ start :: ruler :: (body ++ stop :: rest)).dropWhile fun l => l ≠ start).drop
      2).takeWhile (fun l => l ≠ stop) = body := by
  rw [List.dropWhile_append_of_pos fun l hl => decide_eq_true (hfront l hl),
    List.dropWhile_cons_of_neg (by simp), List.drop_succ_cons, List.drop_succ_cons, List.drop_zero,
    List.takeWhile_append_of_pos fun l hl => decide_eq_true (hbody l hl),
    List.takeWhile_cons_of_neg (by simp), List.append_nil]

/-- **The keys section.** It is the keys file, line for line. -/
theorem keysSection_eq (hsecret : ControlkeyAnswer secret) {l : KeyMap} (hl : FromCli l)
    (is : List Int) {argv : List String} {feature : String}
    (hfeature : argv.getLast? = some feature) (honeLine : '\n' ∉ feature.toList) (path log : String) :
    (opsNtpdDiagnosticsHandler argv (opsNtpdSetupNtpdDefaultConfigFile path).2
      (keysFileContent secret l is) log).map keysSection = some (keysFileLines secret l is) := by
  let title := "Diagnostic dump for " ++ feature ++ "."
  have htitle : title.toList = "Diagnostic dump for ".toList ++ feature.toList ++ ['.'] := by
    rw [String.toList_append, String.toList_append]
    rfl
  have htitleLine : '\n' ∉ title.toList := by
    rw [htitle]
    intro hmem
    rcases List.mem_append.mp hmem with hmem | hmem
    · rcases List.mem_append.mp hmem with hmem | hmem
      · exact absurd hmem (by decide)
      · exact honeLine hmem
    · exact absurd hmem (by decide)
  have hfront : ∀ line ∈ title :: "NTPD configuration file" :: dumpRuler :: confLines,
      line ≠ "NTPD keys file" := by
    intro line hline
    rcases List.mem_cons.mp hline with rfl | hline
    · intro heq
      have hhead : title.toList.head? = some 'D' := by rw [htitle]; rfl
      rw [heq] at hhead
      exact absurd hhead (by decide)
    · have hfixed : ∀ line ∈ "NTPD configuration file" :: dumpRuler :: confLines,
          line ≠ "NTPD keys file" := by decide
      exact hfixed line hline
  rw [diagnosticsHandler_eq hfeature, Option.map_some, keysSection, lines_append htitleLine,
    lines_append (by decide), lines_append (by decide), lines_defaultConf, lines_append (by decide),
    lines_append (by decide), lines_keysFileContent hsecret hl, lines_append (by decide)]
  have hmap : ∀ ls : List String, (ls.map String.toList).map String.ofList = ls := by
    intro ls
    simp
  have hstop : ∀ line ∈ keysFileLines secret l is, line ≠ "NTPD log file" :=
    fun line hline => (of_mem_keysFileLines hsecret hl hline).2
  -- what the log file has after its heading is cut off unread
  simp only [List.map_cons, List.map_append, hmap, String.ofList_toList]
  exact congrArg some (@takeWhile_dropWhile_heading
    (title :: "NTPD configuration file" :: dumpRuler :: confLines) _ _ _ _ _ hfront hstop)

end dump

/-! ## Section 3: What it tells of a running switch -/

section results
variable {isValidIpv4 : Nat → Bool} {secret : String} {nextUuid vrf sys : Uuid} {curCfg : Int}
variable {s : SwitchState} {tr : List (SwitchState × SwitchLabel)}

/-- **Disclosure.** Whatever the users have entered and in whatever order the
    processes have run: when the daemon is idle, the keys section of a dump
    gives away the secret of the control key and the passwords of exactly the
    keys that the entered commands make trusted. -/
theorem dump_tells (hsecret : ControlkeyAnswer secret)
    (h : (switch isValidIpv4 secret (factoryDefault nextUuid vrf sys curCfg)).Trace tr s)
    (hidle : Idle s.daemon) {argv : List String} {feature : String}
    (hfeature : argv.getLast? = some feature) (honeLine : '\n' ∉ feature.toList) (log : String) :
    ∃ dump, opsNtpdDiagnosticsHandler argv (opsNtpdSetupNtpdDefaultConfigFile "/etc/ntp/").2
        s.daemon.ntpd.keyStore log = some dump ∧
      ∀ line, line ≠ "" → (line ∈ keysSection dump ↔
        line = "#This is generated from ops-ntpd" ∨ line = " 65535 MD5 " ++ secret ∨
          ∃ key pwd, (Intent.empty.run isValidIpv4 (entered tr)).Trusts key pwd ∧
            line = " " ++ toString key ++ " MD5 " ++ pwd) := by
  obtain ⟨hinv, hintent⟩ := switchInv_run h
  obtain ⟨hwell, hprintable, hreplica⟩ := hinv.replica_of_idle hidle
  have hproper := hinv.main.replica.proper
  have hl := fromCli_demandedKeys hwell hproper hprintable
  -- the file on the disk is the one that ntpd has read last
  obtain ⟨is, his, hstore⟩ :=
    (hinv.main.converged hidle.loop hidle.seen).keysFile hinv.main.replica.proper
  have hsection := keysSection_eq hsecret hl is hfeature honeLine "/etc/ntp/" log
  rw [← hstore] at hsection
  obtain ⟨dump, hdump, hlines⟩ := Option.map_eq_some_iff.mp hsection
  refine ⟨dump, hdump, ?_⟩
  intro line hline
  have hcontrol : keyLine controlkey secret = " 65535 MD5 " ++ secret := by
    have hid : " " ++ toString controlkey ++ " MD5 " = " 65535 MD5 " := by decide
    rw [keyLine, hid]
  rw [hlines, mem_keysFileLines his hline, hcontrol, ← hintent, ← hreplica]
  refine or_congr Iff.rfl (or_congr Iff.rfl ?_)
  constructor
  · intro hex
    obtain ⟨key, v, hv, rfl⟩ := hex
    exact ⟨key, v.1, ((lookup_demandedKeys_intent hwell hproper).mp hv).1, rfl⟩
  · intro hex
    obtain ⟨key, pwd, hpwd, rfl⟩ := hex
    exact ⟨key, (pwd, true), (lookup_demandedKeys_intent hwell hproper).mpr ⟨hpwd, rfl⟩, rfl⟩

end results

theorem dump_tells_site :
    ∃ tr s dump, (switch (fun _ => true) "0123456789abcdef" newDb).Trace tr s ∧
      entered tr = siteCommands ∧
      opsNtpdDiagnosticsHandler ["basic", "ntp"] (opsNtpdSetupNtpdDefaultConfigFile "/etc/ntp/").2
        s.daemon.ntpd.keyStore "" = some dump ∧
      ∀ line, line ≠ "" → (line ∈ keysSection dump ↔
        line = "#This is generated from ops-ntpd" ∨ line = " 65535 MD5 0123456789abcdef" ∨
          line = " 7 MD5 password") := by
  obtain ⟨tr, s, htrace, hentered, _, hphase, hflight, hseen, _⟩ := trace_site_pass
  have hfeature : ["basic", "ntp"].getLast? = some "ntp" := rfl
  obtain ⟨dump, hdump, hlines⟩ :=
    dump_tells (by decide) htrace ⟨hflight, Or.inl hphase, hseen⟩ hfeature (by decide) ""
  refine ⟨tr, s, dump, htrace, hentered, hdump, ?_⟩
  intro line hline
  rw [hlines line hline, hentered]
  have hcontrol : " 65535 MD5 " ++ "0123456789abcdef" = " 65535 MD5 0123456789abcdef" := by decide
  have hkey : " " ++ toString (7 : Int) ++ " MD5 " ++ "password" = " 7 MD5 password" := by decide
  rw [hcontrol]
  refine or_congr Iff.rfl (or_congr Iff.rfl ?_)
  constructor
  · intro hex
    obtain ⟨key, pwd, ⟨_, hlook⟩, rfl⟩ := hex
    obtain ⟨rfl, hv⟩ := lookup_siteKeys.mp hlook
    rw [(Prod.mk.inj hv).1]
    exact hkey
  · rintro rfl
    exact ⟨7, "password", ⟨by decide +kernel, lookup_siteKeys.mpr ⟨rfl, rfl⟩⟩, hkey.symm⟩

end OpsNtpd
