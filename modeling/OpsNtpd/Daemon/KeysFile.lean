import OpsNtpd.Cli.Sanitize
import OpsNtpd.Daemon.Updates

/-! # Daemon: The Keys File Read Back

  The keys file is written in pieces: the header with the control key, one
  line per trusted key, a final line feed. ntpd reads it line by line: tokens
  are separated by blanks and tabs, `#` ends the line, and the first three
  tokens are the id, the type and the secret of a key.
-/

namespace OpsNtpd.Daemon

open Text

/-! ## Section 1: Reading -/

structure KeyEntry where
  id : Int
  type : String
  secret : String
  deriving DecidableEq, Repr

/-- What separates the tokens of a line. -/
def isBlankOrTab (c : Char) : Bool := c == ' ' || c == '\t'

/-- The tokens of a line: `#` ends a token and the line. -/
def keyTokens (line : List Char) : List (List Char) :=
  fields isBlankOrTab (line.takeWhile fun c => c ≠ '#')

/-- The key of a line, if there is one. -/
def readKeyLine (line : List Char) : Option KeyEntry :=
  match keyTokens line with
  | id :: type :: secret :: _ =>
      some { id := leadingInt (String.ofList id), type := String.ofList type
             secret := String.ofList secret }
  | _ => none

/-- The keys that ntpd reads from the text of a keys file. -/
def readKeysFile (content : String) : List KeyEntry := (lines content).filterMap readKeyLine

/-- The maps of trusted keys that the CLI produces: ids in the range, and
    passwords that are words of an accepted length. -/
def FromCli (l : KeyMap) : Prop :=
  ∀ key v, l.lookup key = some v →
    Cli.keyIdInRange key ∧ Cli.passwordLenInRange v.1 ∧ IsWord v.1

/-- The entry that is written for a key. -/
def md5Entry (key : Int) (secret : String) : KeyEntry := { id := key, type := "MD5", secret }

/-- Reading the file gives exactly the control key and the keys of the map,
    each once and with its password. -/
structure ReadsBack (secret : String) (l : KeyMap) (content : String) : Prop where
  entries : ∀ e, e ∈ readKeysFile content ↔
    e = md5Entry controlkey secret ∨ ∃ key v, l.lookup key = some v ∧ e = md5Entry key v.1
  once : ((readKeysFile content).map KeyEntry.id).Nodup

/-! ## Section 2: One line -/

/-- A token that a line can hold: no character of it ends it. -/
def Plain (s : String) : Prop := IsWord s ∧ '#' ∉ s.toList

theorem ControlkeyAnswer.plain {secret : String} (h : ControlkeyAnswer secret) : Plain secret := by
  have hword : IsWord "0123456789abcdef" := by decide
  have hhash : '#' ∉ "0123456789abcdef".toList := by decide
  refine ⟨⟨?_, fun c hc => hword.2 c (h.hex c hc)⟩, fun hc => hhash (h.hex _ hc)⟩
  intro hnil
  have hlen := h.length
  rw [hnil] at hlen
  cases hlen

theorem isBlankOrTab_of_not_isSpace {c : Char} (h : isSpace c = false) :
    isBlankOrTab c = false := by
  unfold isSpace at h
  unfold isBlankOrTab
  simp only [Bool.or_eq_false_iff] at h ⊢
  exact ⟨h.1.1.1.1.1, h.1.1.1.1.2⟩

theorem newline_not_mem_of_isWord {s : String} (h : IsWord s) : '\n' ∉ s.toList := by
  intro hmem
  exact absurd (h.2 _ hmem) (by decide)

theorem plain_toString {key : Int} (h : 0 ≤ key) : Plain (toString key) := by
  have hnum := isNumeral_toString_int h
  refine ⟨hnum.isWord, fun hmem => ?_⟩
  exact absurd (hnum.2 _ hmem) (by decide)

theorem toList_keyLine (key : Int) (password : String) :
    (keyLine key password).toList =
      ' ' :: ((toString key).toList ++ ' ' :: ("MD5".toList ++ ' ' :: password.toList)) := by
  have hmd5 : " MD5 ".toList = ' ' :: ("MD5".toList ++ [' ']) := by decide
  have hblank : " ".toList = [' '] := by decide
  unfold keyLine
  rw [String.toList_append, String.toList_append, String.toList_append, hmd5, hblank]
  simp

theorem mem_keyLine {key : Int} {password : String} {c : Char}
    (h : c ∈ (keyLine key password).toList) :
    c ∈ " MD5".toList ∨ c ∈ (toString key).toList ∨ c ∈ password.toList := by
  have hmd5 : " MD5".toList = ' ' :: "MD5".toList := by decide
  rw [toList_keyLine] at h
  rw [hmd5]
  simp only [List.mem_cons, List.mem_append] at h ⊢
  tauto

theorem newline_not_mem_keyLine {key : Int} (hkey : 0 ≤ key) {password : String}
    (hpwd : IsWord password) : '\n' ∉ (keyLine key password).toList := by
  intro hmem
  rcases mem_keyLine hmem with hmd5 | hid | hword
  · exact absurd hmd5 (by decide)
  · exact newline_not_mem_of_isWord (plain_toString hkey).1 hid
  · exact newline_not_mem_of_isWord hpwd hword

/-- A line with a plain password is read back. -/
theorem readKeyLine_keyLine {key : Int} (hkey : 0 ≤ key) {password : String}
    (hpwd : Plain password) :
    readKeyLine (keyLine key password).toList = some (md5Entry key password) := by
  have hid := plain_toString hkey
  have hsep : ∀ {s : String}, Plain s → ∀ c ∈ s.toList, isBlankOrTab c = false :=
    fun hs c hc => isBlankOrTab_of_not_isSpace (hs.1.2 c hc)
  have hmd5 : Plain "MD5" := ⟨by decide, by decide⟩
  -- nothing is cut off, and the tokens are the three texts
  have hwhole : (keyLine key password).toList.takeWhile (fun c => c ≠ '#') =
      (keyLine key password).toList := by
    rw [List.takeWhile_eq_self_iff]
    intro c hc
    rw [decide_eq_true_eq]
    intro heq
    rw [heq] at hc
    rcases mem_keyLine hc with hin | hin | hin
    · exact absurd hin (by decide)
    · exact hid.2 hin
    · exact hpwd.2 hin
  have htokens : keyTokens (keyLine key password).toList =
      [(toString key).toList, "MD5".toList, password.toList] := by
    unfold keyTokens
    rw [hwhole, toList_keyLine, fields_cons_sep _ (by decide),
      fields_word_cons hid.1.1 (hsep hid) _ (by decide),
      fields_word_cons hmd5.1.1 (hsep hmd5) _ (by decide),
      fields_singleton hpwd.1.1 (hsep hpwd)]
  unfold readKeyLine
  rw [htokens]
  simp only [String.ofList_toList, leadingInt_toString hkey, md5Entry]

/-- No secret that is read contains a `#`. -/
theorem hash_not_mem_secret {line : List Char} {e : KeyEntry} (h : readKeyLine line = some e) :
    '#' ∉ e.secret.toList := by
  unfold readKeyLine at h
  split at h
  · next id type secret rest htokens =>
    have hmem : secret ∈ keyTokens line := by rw [htokens]; simp
    have heq : e.secret = String.ofList secret := by
      rw [← Option.some.inj h]
    rw [heq, String.toList_ofList]
    intro hin
    have hcut := subset_of_mem_fields hmem hin
    exact absurd (List.mem_takeWhile_imp hcut) (by decide)
  · cases h

/-! ## Section 3: The whole file -/

section file
variable {secret : String} {l : KeyMap} {is : List Int}

/-- The file is its header, the line of the control key and those of the keys. -/
theorem readKeysFile_keysFileContent (hsecret : ControlkeyAnswer secret) (hl : FromCli l) :
    readKeysFile (keysFileContent secret l is) =
      md5Entry controlkey secret ::
        is.filterMap fun key => (l.lookup key).bind fun v => readKeyLine (keyLine key v.1).toList := by
  let keyLines := is.filterMap fun key => (l.lookup key).map fun v => keyLine key v.1
  have hshape : keysFileContent secret l is =
      "#This is generated from ops-ntpd" ++ "\n" ++
        (keyLine controlkey secret ++ "\n" ++ ("\n".intercalate keyLines ++ "\n")) := by
    have hheader : "#This is generated from ops-ntpd\n" =
        "#This is generated from ops-ntpd" ++ "\n" := by decide
    have hline : keyLine controlkey secret =
        " " ++ toString controlkey ++ " MD5 " ++ secret := rfl
    unfold keysFileContent defaultKeysFileContent
    rw [hheader, hline]
    simp only [String.append_assoc]
    rfl
  have hplain : ∀ line ∈ keyLines, '\n' ∉ line.toList := by
    intro line hline
    obtain ⟨key, _, hkey⟩ := List.mem_filterMap.mp hline
    obtain ⟨v, hv, rfl⟩ := Option.map_eq_some_iff.mp hkey
    obtain ⟨⟨hlow, _⟩, _, hword⟩ := hl key v hv
    have hmin : (1 : Int) ≤ key := hlow
    exact newline_not_mem_keyLine (by omega) hword
  have hrest : (lines ("\n".intercalate keyLines ++ "\n")).filterMap readKeyLine =
      keyLines.filterMap fun line => readKeyLine line.toList := by
    by_cases hnil : keyLines = []
    · rw [hnil]
      rfl
    · rw [lines_intercalate hnil hplain, List.filterMap_append, List.filterMap_map]
      exact List.append_nil _
  have hcontrol : (0 : Int) ≤ controlkey := by decide
  unfold readKeysFile
  rw [hshape, lines_append (by decide),
    lines_append (newline_not_mem_keyLine hcontrol hsecret.plain.1),
    List.filterMap_cons_none (by rfl),
    List.filterMap_cons_some (readKeyLine_keyLine hcontrol hsecret.plain), hrest,
    List.filterMap_filterMap]
  congr 1
  apply List.filterMap_congr
  intro key _
  cases l.lookup key <;> rfl

/-- Every key with a plain password is read back, and nothing else is. -/
theorem readsBack_of_plain (hsecret : ControlkeyAnswer secret) (hl : FromCli l)
    (his : IterOrder is l.keys) (hplain : ∀ key v, l.lookup key = some v → '#' ∉ v.1.toList) :
    ReadsBack secret l (keysFileContent secret l is) := by
  have hread : readKeysFile (keysFileContent secret l is) = md5Entry controlkey secret ::
      is.filterMap fun key => (l.lookup key).map fun v => md5Entry key v.1 := by
    rw [readKeysFile_keysFileContent hsecret hl]
    congr 1
    apply List.filterMap_congr
    intro key _
    cases hv : l.lookup key with
    | none => rfl
    | some v =>
      obtain ⟨⟨hlow, _⟩, _, hword⟩ := hl key v hv
      have hmin : (1 : Int) ≤ key := hlow
      exact readKeyLine_keyLine (by omega) ⟨hword, hplain key v hv⟩
  have hids : (is.filterMap fun key => (l.lookup key).map fun v => md5Entry key v.1).map
      KeyEntry.id = is := by
    rw [List.map_filterMap]
    refine Eq.trans (List.filterMap_congr ?_) List.filterMap_some
    intro key hkey
    obtain ⟨v, hv⟩ := Dict.mem_keys_iff.mp (his.mem_iff.mp hkey)
    rw [hv]
    rfl
  refine { entries := ?_, once := ?_ }
  · intro e
    rw [hread, List.mem_cons, List.mem_filterMap]
    refine or_congr Iff.rfl ?_
    constructor
    · intro hex
      obtain ⟨key, _, he⟩ := hex
      obtain ⟨v, hv, heq⟩ := Option.map_eq_some_iff.mp he
      exact ⟨key, v, hv, heq.symm⟩
    · intro hex
      obtain ⟨key, v, hv, heq⟩ := hex
      refine ⟨key, his.mem_iff.mpr (Dict.mem_keys_iff.mpr ⟨v, hv⟩), ?_⟩
      rw [hv, heq]
      rfl
  · rw [hread, List.map_cons, hids]
    refine List.nodup_cons.mpr ⟨?_, his.1⟩
    intro hmem
    obtain ⟨v, hv⟩ := Dict.mem_keys_iff.mp (his.mem_iff.mp hmem)
    have hhigh : controlkey ≤ Cli.ntpKeyKeyIdMax := (hl _ v hv).1.2
    exact absurd hhigh (by decide)

/-- **The keys file is read back exactly when no password contains a `#`.** -/
theorem keysFile_readsBack_iff (hsecret : ControlkeyAnswer secret) (hl : FromCli l) {g : KeyMap}
    {us ts : List Int} (h : KeyOrders l g us ts is) :
    ReadsBack secret l (checkUpdatesWithNtpKeys secret l g us ts is).keysFileContent ↔
      ∀ key v, l.lookup key = some v → '#' ∉ v.1.toList := by
  rw [(checkUpdatesWithNtpKeys_eq secret h).2.2]
  constructor
  · intro hback key v hv
    have hmem := (hback.entries _).mpr (Or.inr ⟨key, v, hv, rfl⟩)
    obtain ⟨line, _, hline⟩ := List.mem_filterMap.mp hmem
    exact hash_not_mem_secret hline
  · intro hplain
    exact readsBack_of_plain hsecret hl h.entries hplain

end file

theorem fromCli_singleton {key : Int} {password : String} (hkey : Cli.keyIdInRange key)
    (hlen : Cli.passwordLenInRange password) (hword : IsWord password) :
    FromCli ((∅ : KeyMap).insert key (password, true)) := by
  intro k v hv
  rw [Dict.lookup_insert_eq] at hv
  by_cases hk : k = key
  · rw [if_pos hk, Option.some_inj] at hv
    rw [hk, ← hv]
    exact ⟨hkey, hlen, hword⟩
  · rw [if_neg hk, Finmap.lookup_empty] at hv
    cases hv

theorem keysFile_readsBack_topsecret :
    ReadsBack "0123456789abcdef" ((∅ : KeyMap).insert 7 ("topsecret", true))
      (checkUpdatesWithNtpKeys "0123456789abcdef" ((∅ : KeyMap).insert 7 ("topsecret", true)) ∅
        [] [7] [7]).keysFileContent := by
  refine (keysFile_readsBack_iff (by decide) ?_ ?_).mpr ?_
  · exact fromCli_singleton (by decide) (by decide) (by decide)
  · exact ⟨by decide, by decide, by decide⟩
  · intro key v hv
    rw [Dict.lookup_insert_eq] at hv
    split at hv
    · rw [← Option.some.inj hv]
      decide
    · cases hv

/-- The rest of a password after a `#` is lost. -/
theorem password_with_hash :
    let l : KeyMap := Finmap.insert 7 ("pass#word", true) ∅
    let content := (checkUpdatesWithNtpKeys "0123456789abcdef" l ∅ [] [7] [7]).keysFileContent
    ControlkeyAnswer "0123456789abcdef" ∧ FromCli l ∧ KeyOrders l ∅ [] [7] [7] ∧
      readKeysFile content = [md5Entry 65535 "0123456789abcdef", md5Entry 7 "pass"] ∧
      ¬ ReadsBack "0123456789abcdef" l content := by
  intro l content
  have hread : readKeysFile content =
      [md5Entry 65535 "0123456789abcdef", md5Entry 7 "pass"] := by decide
  refine ⟨by decide, fromCli_singleton (by decide) (by decide) (by decide),
    ⟨by decide, by decide, by decide⟩, hread, ?_⟩
  intro hback
  have hmem := (hback.entries (md5Entry 7 "pass#word")).mpr
    (Or.inr ⟨7, ("pass#word", true), Finmap.lookup_insert _, rfl⟩)
  rw [hread] at hmem
  exact absurd hmem (by decide)

end OpsNtpd.Daemon
