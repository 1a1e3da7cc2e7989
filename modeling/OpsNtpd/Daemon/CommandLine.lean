import OpsNtpd.Cli.Vtysh
import OpsNtpd.Daemon.Updates
import OpsNtpd.Framework.Shell

/-! # Daemon: The Command Line for ntpq

  `ops_ntpd_sync_updates_to_ntpd` puts every command for ntpd between double
  quotes into one text and has a shell run it. Whether the shell hands each
  command to `ntpq` as it is depends on the addresses in them.
-/

namespace OpsNtpd.Daemon

open Text

/-! ## Section 1: The text and the arguments it stands for -/

/-- `cmdline_str` -/
def cmdlineStr (secret : String) : String :=
  "ntpq -c \"keyid " ++ toString controlkey ++ "\" -c \"passwd " ++ secret ++ "\""

/-- `command`, which is run with `shell=True`. -/
def ntpqCommand (secret : String) (configs : List ConfigCmd) : String :=
  configs.foldl (fun command config => command ++ " -c \"" ++ config.render ++ "\"")
    (cmdlineStr secret)

/-- The arguments that `ntpq` is to be run with. -/
def ntpqArgv (secret : String) (configs : List ConfigCmd) : List String :=
  ["ntpq", "-c", "keyid " ++ toString controlkey, "-c", "passwd " ++ secret] ++
    configs.flatMap fun config => ["-c", config.render]

/-- The commands for associations and keys that the CLI accepts. -/
def ConfigCmd.FromCli (isValidIpv4 : Nat → Bool) : ConfigCmd → Prop
  | .association (.put address o) =>
      IsWord address ∧ Cli.validServerName isValidIpv4 address ∧ Cli.versionToken o.version ∧
        ∀ key ∈ o.key, Cli.keyToken key
  | .association (.drop address) => IsWord address ∧ Cli.validServerName isValidIpv4 address
  | .trustedkey keys => ∀ key ∈ keys, Cli.keyIdInRange key
  | .unconfigTrustedkey keys => ∀ key ∈ keys, Cli.keyIdInRange key

instance (isValidIpv4 : Nat → Bool) : (c : ConfigCmd) → Decidable (c.FromCli isValidIpv4)
  | .association (.put _ _) => inferInstanceAs (Decidable (_ ∧ _ ∧ _ ∧ _))
  | .association (.drop _) => inferInstanceAs (Decidable (_ ∧ _))
  | .trustedkey keys => inferInstanceAs (Decidable (∀ key ∈ keys, _))
  | .unconfigTrustedkey keys => inferInstanceAs (Decidable (∀ key ∈ keys, _))

/-- An address that stands for itself in the middle of a quoted text. -/
structure SafeAddress (address : String) : Prop where
  plain : ∀ c ∈ address.toList, c ∉ Shell.expansions ∧ c ≠ '"'
  backslashes : address.toList.IsChain Shell.Follows

instance (address : String) : Decidable (SafeAddress address) :=
  have := List.decidableBAll (fun c => c ∉ Shell.expansions ∧ c ≠ '"') address.toList
  decidable_of_iff
    ((∀ c ∈ address.toList, c ∉ Shell.expansions ∧ c ≠ '"') ∧
      address.toList.IsChain Shell.Follows)
    ⟨fun h => ⟨h.1, h.2⟩, fun h => ⟨h.plain, h.backslashes⟩⟩

/-- The addresses of the command are safe. A deleted address is the last thing
    in its quotes and must not end with a backslash either. -/
def ConfigCmd.ShellSafe : ConfigCmd → Prop
  | .association (.put address _) => SafeAddress address
  | .association (.drop address) => SafeAddress address ∧ address.toList.getLast? ≠ some '\\'
  | .trustedkey _ => True
  | .unconfigTrustedkey _ => True

instance : (c : ConfigCmd) → Decidable c.ShellSafe
  | .association (.put address _) => inferInstanceAs (Decidable (SafeAddress address))
  | .association (.drop _) => inferInstanceAs (Decidable (_ ∧ _))
  | .trustedkey _ => inferInstanceAs (Decidable True)
  | .unconfigTrustedkey _ => inferInstanceAs (Decidable True)

/-! ## Section 2: The rendered commands -/

/-- The text has no character that is special between double quotes. -/
def AllOrdinary (cs : List Char) : Prop := ∀ c ∈ cs, Shell.Ordinary c

instance (cs : List Char) : Decidable (AllOrdinary cs) := List.decidableBAll Shell.Ordinary cs

theorem AllOrdinary.append {cs ds : List Char} (h : AllOrdinary cs) (h' : AllOrdinary ds) :
    AllOrdinary (cs ++ ds) := by
  intro c hc
  rcases List.mem_append.mp hc with hin | hin
  · exact h c hin
  · exact h' c hin

theorem AllOrdinary.isChain {cs : List Char} (h : AllOrdinary cs) : cs.IsChain Shell.Follows := by
  rw [List.isChain_iff_forall_rel_of_append_cons_cons]
  intro c d before after heq hback
  have hmem : c ∈ cs := by
    rw [heq]
    simp
  exact absurd hback (h c hmem).2.2

/-- Ordinary text before and after an address: only the character that comes
    after the address matters. -/
theorem literal_around {pre address post : List Char} (hpre : AllOrdinary pre)
    (hpost : AllOrdinary post) :
    Shell.Literal (pre ++ address ++ post) ↔
      (∀ c ∈ address, c ∉ Shell.expansions ∧ c ≠ '"') ∧ address.IsChain Shell.Follows ∧
        ∀ c ∈ address.getLast?, ∀ d ∈ (post ++ ['"']).head?, Shell.Follows c d := by
  have hchain : (pre ++ address ++ post ++ ['"']).IsChain Shell.Follows ↔
      address.IsChain Shell.Follows ∧
        ∀ c ∈ address.getLast?, ∀ d ∈ (post ++ ['"']).head?, Shell.Follows c d := by
    have htail : (post ++ ['"']).IsChain Shell.Follows := by
      refine List.isChain_append.mpr ⟨hpost.isChain, List.isChain_singleton _, ?_⟩
      intro c hc _ _ hback
      exact absurd hback (hpost c (List.mem_of_getLast? hc)).2.2
    rw [List.append_assoc, List.append_assoc, List.isChain_append, List.isChain_append]
    constructor
    · intro hand
      exact ⟨hand.2.1.1, hand.2.1.2.2⟩
    · intro hand
      refine ⟨hpre.isChain, ⟨hand.1, htail, hand.2⟩, ?_⟩
      intro c hc _ _ hback
      exact absurd hback (hpre c (List.mem_of_getLast? hc)).2.2
  constructor
  · intro hlit
    refine ⟨fun c hc => hlit.plain c ?_, hchain.mp hlit.backslashes⟩
    simp [hc]
  · intro hand
    refine { plain := ?_, backslashes := hchain.mpr hand.2 }
    intro c hc
    rcases List.mem_append.mp hc with hin | hin
    · rcases List.mem_append.mp hin with hin | hin
      · exact ⟨(hpre c hin).1, (hpre c hin).2.1⟩
      · exact hand.1 c hin
    · exact ⟨(hpost c hin).1, (hpost c hin).2.1⟩

theorem literal_of_allOrdinary {cs : List Char} (h : AllOrdinary cs) : Shell.Literal cs := by
  have hempty : AllOrdinary [] := fun c hc => absurd hc List.not_mem_nil
  have hlit : Shell.Literal (cs ++ [] ++ []) ↔ _ := literal_around h hempty
  rw [List.append_nil, List.append_nil] at hlit
  refine hlit.mpr ⟨fun c hc => absurd hc List.not_mem_nil, List.IsChain.nil, ?_⟩
  intro c hc
  cases hc

theorem allOrdinary_of_isNumeral {s : String} (h : IsNumeral s) : AllOrdinary s.toList := by
  intro c hc
  have hdigit := h.2 c hc
  refine ⟨?_, ?_, ?_⟩
  · intro hexp
    have hno : ∀ x ∈ Shell.expansions, x.isDigit = false := by simp [Shell.expansions]
    rw [hno c hexp] at hdigit
    cases hdigit
  · intro heq
    rw [heq] at hdigit
    cases hdigit
  · intro heq
    rw [heq] at hdigit
    cases hdigit

theorem allOrdinary_toString {key : Int} (h : Cli.keyIdInRange key) :
    AllOrdinary (toString key).toList := by
  have hmin : (1 : Int) ≤ key := h.1
  exact allOrdinary_of_isNumeral (isNumeral_toString_int (by omega))

theorem allOrdinary_joinKeys {keys : List Int} (h : ∀ key ∈ keys, Cli.keyIdInRange key) :
    AllOrdinary (joinKeys keys).toList := by
  have hblank : AllOrdinary " ".toList := by decide
  unfold joinKeys
  induction keys with
  | nil => exact fun c hc => absurd hc List.not_mem_nil
  | cons key keys ih =>
    obtain ⟨hkey, hrest⟩ := List.forall_mem_cons.mp h
    by_cases hnil : keys = []
    · rw [hnil]
      exact allOrdinary_toString hkey
    · have hne : keys.map toString ≠ [] := by simpa using hnil
      rw [List.map_cons, String.intercalate_cons_of_ne_nil hne, String.toList_append,
        String.toList_append]
      exact ((allOrdinary_toString hkey).append hblank).append (ih hrest)

/-- What comes after the address in a server command is ordinary and begins
    with a blank. -/
theorem render_server (address : String) {o : ServerOpts} (hver : Cli.versionToken o.version)
    (hkey : ∀ key ∈ o.key, Cli.keyToken key) :
    ∃ post, AllOrdinary post ∧ post.head? = some ' ' ∧
      (ConfigCmd.server address o).render.toList =
        ":config server ".toList ++ address.toList ++ post := by
  have hlabel : AllOrdinary " version ".toList := by decide
  have hversion := hlabel.append (allOrdinary_of_isNumeral hver.1)
  have hprefer : AllOrdinary (if o.prefer then " prefer" else "").toList := by
    cases o.prefer <;> decide
  unfold ConfigCmd.server ConfigCmd.render
  cases hk : o.key with
  | none =>
    refine ⟨_, hversion.append hprefer, rfl, ?_⟩
    simp only [hk, String.toList_append, String.append_empty, List.append_assoc]
  | some key =>
    have hkeyLabel : AllOrdinary " key ".toList := by decide
    have hkeyText := hkeyLabel.append (allOrdinary_of_isNumeral (hkey key hk).1)
    refine ⟨_, (hversion.append hkeyText).append hprefer, rfl, ?_⟩
    simp only [hk, String.toList_append, List.append_assoc]

/-- A rendered command stands for itself between double quotes exactly when it
    is safe. -/
theorem literal_render_iff {isValidIpv4 : Nat → Bool} {c : ConfigCmd}
    (hcli : c.FromCli isValidIpv4) : Shell.Literal c.render.toList ↔ c.ShellSafe := by
  cases c with
  | association c =>
    cases c with
    | put address o =>
      obtain ⟨_, _, hver, hkey⟩ := hcli
      obtain ⟨post, hpost, hhead, hrender⟩ := render_server address hver hkey
      have hpre : AllOrdinary ":config server ".toList := by decide
      show Shell.Literal (ConfigCmd.server address o).render.toList ↔ SafeAddress address
      rw [hrender, literal_around hpre hpost, List.head?_append, hhead]
      constructor
      · intro hand
        exact ⟨hand.1, hand.2.1⟩
      · intro hsafe
        refine ⟨hsafe.plain, hsafe.backslashes, ?_⟩
        intro c _ d hd _
        rw [← Option.some.inj hd]
        decide
    | drop address =>
      have hpre : AllOrdinary ":config unconfig ".toList := by decide
      have hempty : AllOrdinary [] := fun c hc => absurd hc List.not_mem_nil
      have hrender : (ConfigCmd.unconfig address).render.toList =
          ":config unconfig ".toList ++ address.toList ++ [] := by
        rw [List.append_nil, ← String.toList_append]
        rfl
      show Shell.Literal (ConfigCmd.unconfig address).render.toList ↔
        SafeAddress address ∧ address.toList.getLast? ≠ some '\\'
      rw [hrender, literal_around hpre hempty]
      -- the closing quote comes after the address
      constructor
      · intro hand
        refine ⟨⟨hand.1, hand.2.1⟩, ?_⟩
        intro hlast
        exact hand.2.2 _ hlast '"' rfl rfl (by decide)
      · intro hand
        refine ⟨hand.1.plain, hand.1.backslashes, ?_⟩
        intro c hc d _ hback
        rw [hback] at hc
        exact absurd hc hand.2
  | trustedkey keys =>
    have hpre : AllOrdinary ":config trustedkey ".toList := by decide
    refine iff_of_true ?_ trivial
    show Shell.Literal (":config trustedkey " ++ joinKeys keys).toList
    rw [String.toList_append]
    exact literal_of_allOrdinary (hpre.append (allOrdinary_joinKeys hcli))
  | unconfigTrustedkey keys =>
    have hpre : AllOrdinary ":config unconfig trustedkey ".toList := by decide
    refine iff_of_true ?_ trivial
    show Shell.Literal (":config unconfig trustedkey " ++ joinKeys keys).toList
    rw [String.toList_append]
    exact literal_of_allOrdinary (hpre.append (allOrdinary_joinKeys hcli))

/-! ## Section 3: The whole command line -/

section commandLine
variable {secret : String} {configs : List ConfigCmd}

theorem toList_ntpqCommand : (ntpqCommand secret configs).toList =
    (cmdlineStr secret).toList ++
      Shell.quoteArgs "-c".toList (configs.map fun c => c.render.toList) := by
  have hloop : ∀ (configs : List ConfigCmd) (command : String),
      (configs.foldl (fun command config => command ++ " -c \"" ++ config.render ++ "\"")
        command).toList = command.toList ++
          Shell.quoteArgs "-c".toList (configs.map fun c => c.render.toList) := by
    intro configs
    induction configs with
    | nil => intro command; exact (List.append_nil _).symm
    | cons c configs ih =>
      intro command
      rw [List.foldl_cons, ih]
      simp [Shell.quoteArgs]
  exact hloop configs (cmdlineStr secret)

/-- The secret stands for itself. -/
theorem ControlkeyAnswer.literal (hsecret : ControlkeyAnswer secret) :
    Shell.Literal secret.toList := by
  have hhex : AllOrdinary "0123456789abcdef".toList := by decide
  exact literal_of_allOrdinary fun c hc => hhex c (hsecret.hex c hc)

/-- The first part of the command line is read as it is meant. -/
theorem run_cmdlineStr (hsecret : ControlkeyAnswer secret) :
    Shell.run Shell.State.start (cmdlineStr secret).toList =
      some ⟨.unquoted, some ("passwd " ++ secret).toList,
        ["ntpq".toList, "-c".toList, "keyid 65535".toList, "-c".toList]⟩ := by
  have hlit := hsecret.literal
  have hsplit : (cmdlineStr secret).toList =
      "ntpq -c \"keyid 65535\" -c \"passwd ".toList ++ (secret.toList ++ ['"']) := by
    have hpre : "ntpq -c \"keyid " ++ toString controlkey ++ "\" -c \"passwd " =
        "ntpq -c \"keyid 65535\" -c \"passwd " := by decide
    unfold cmdlineStr
    rw [hpre, String.toList_append, String.toList_append, List.append_assoc]
    rfl
  have hpre : Shell.run Shell.State.start "ntpq -c \"keyid 65535\" -c \"passwd ".toList =
      some ⟨.double, some "passwd ".toList,
        ["ntpq".toList, "-c".toList, "keyid 65535".toList, "-c".toList]⟩ := by decide
  rw [hsplit, Shell.run_append, hpre, Option.bind_some,
    (Shell.run_literal hlit.plain).1 hlit.backslashes, String.toList_append]

theorem bareOption_c : Shell.BareOption "-c".toList := by
  have hchars : "-c".toList = ['-', 'c'] := by decide
  rw [hchars]
  intro w ws
  have hrun : Shell.run ⟨.unquoted, some w, ws⟩ [' ', '-', 'c', ' ', '"'] =
      some ⟨.double, some [], ws ++ [w] ++ [['-', 'c']]⟩ := rfl
  rw [List.append_assoc] at hrun
  exact hrun

/-- The shell runs one simple command with the intended arguments if and only if
    every rendered command stands for itself. -/
theorem simpleCommand_ntpqCommand (hsecret : ControlkeyAnswer secret) :
    Shell.simpleCommand (ntpqCommand secret configs) = some (ntpqArgv secret configs) ↔
      ∀ c ∈ configs, Shell.Literal c.render.toList := by
  have hiff := Shell.simpleCommand_iff (configs.map fun c => c.render.toList)
    (run_cmdlineStr hsecret) bareOption_c (by decide)
  rw [← toList_ntpqCommand, String.ofList_toList] at hiff
  have hargv : ntpqArgv secret configs = ("ntpq".toList ::
      (["-c".toList, "keyid 65535".toList, "-c".toList] ++ ("passwd " ++ secret).toList ::
        (configs.map fun c => c.render.toList).flatMap fun a => ["-c".toList, a])).map
      String.ofList := by
    have hkeyid : "keyid " ++ toString controlkey = "keyid 65535" := by decide
    unfold ntpqArgv
    rw [hkeyid]
    simp only [List.map_cons, List.map_append, List.map_nil, String.ofList_toList,
      List.flatMap_map, List.map_flatMap]
    rfl
  rw [hargv, hiff, List.forall_mem_map]

/-- **The command line.** For commands that the CLI accepts, the shell runs one
    simple command with exactly the intended arguments if and only if every
    address in the commands is safe. -/
theorem ntpqCommand_iff (isValidIpv4 : Nat → Bool) (hsecret : ControlkeyAnswer secret)
    (hcli : ∀ c ∈ configs, c.FromCli isValidIpv4) :
    Shell.simpleCommand (ntpqCommand secret configs) = some (ntpqArgv secret configs) ↔
      ∀ c ∈ configs, c.ShellSafe := by
  rw [simpleCommand_ntpqCommand hsecret]
  constructor
  · intro hall c hc
    exact (literal_render_iff (hcli c hc)).mp (hall c hc)
  · intro hall c hc
    exact (literal_render_iff (hcli c hc)).mpr (hall c hc)

end commandLine

theorem ntpqCommand_plain_addresses :
    Shell.simpleCommand (ntpqCommand "0123456789abcdef"
        [.server "time.example" ⟨"4", some "7", true⟩, .unconfig "10.0.0.1", .trustedkey [7]]) =
      some (ntpqArgv "0123456789abcdef"
        [.server "time.example" ⟨"4", some "7", true⟩, .unconfig "10.0.0.1", .trustedkey [7]]) :=
  (ntpqCommand_iff (fun _ => true) (by decide) (by decide)).mpr (by decide)

/-- A server name that has a command run: it is a word that the CLI accepts. -/
theorem command_in_server_name :
    let configs : List ConfigCmd := [.server "a$(reboot)" ⟨"3", none, false⟩]
    ControlkeyAnswer "0123456789abcdef" ∧ (∀ c ∈ configs, c.FromCli fun _ => true) ∧
      Shell.simpleCommand (ntpqCommand "0123456789abcdef" configs) ≠
        some (ntpqArgv "0123456789abcdef" configs) :=
  ⟨by decide, by decide, by decide⟩

end OpsNtpd.Daemon
