import OpsNtpd.Switch
import OpsNtpd.Cli.Show

/-! # What the Users See

  The show commands on the running switch. A session prints the tables in the
  order in which its loops meet the rows, so the results hold for every order.

  - The key tables are those that the users' commands ask for.
  - A line of the server table is that of a configured server, and tells of its
    peer what one poll has read from ntpq, with ntpq's own codes, or nothing.
  - The lines of status and statistics are those of one poll as well.
-/

namespace OpsNtpd

open Cli Daemon Text Transition Columns

/-! ## Section 1: What is read from ntpq -/

/-- The columns of a line of `apeers`. -/
def Daemon.PeerEntry.texts (e : PeerEntry) : List String :=
  [e.remote, e.refid, e.associd, e.st, e.t, e.when, e.poll, e.reach, e.delay, e.offset, e.jitter]

theorem isWord_of_parseApeersLine {line : List Char} {e : PeerEntry}
    (h : parseApeersLine line = .ok e) : ∀ w ∈ e.texts, IsWord w := by
  have hwords : ∀ w ∈ (fields isSpace line).map String.ofList, IsWord w := by
    intro w hw
    refine @isWord_of_mem_words (String.ofList line) w ?_
    rw [words, String.toList_ofList]
    exact hw
  unfold parseApeersLine at h
  split at h
  · next hfields =>
    obtain rfl := Except.ok.inj h
    rw [hfields] at hwords
    intro w hw
    exact hwords w (List.mem_append_left _ hw)
  · cases h

/-- The columns are words. -/
theorem isWord_of_parseApeers {output : String} {entries : List PeerEntry}
    (h : parseApeers output = .ok entries) {e : PeerEntry} (he : e ∈ entries) :
    ∀ w ∈ e.texts, IsWord w := by
  obtain ⟨line, _, hline⟩ := Rows.exists_of_mem_mapM_ok h he
  exact isWord_of_parseApeersLine hline

theorem mem_of_first {α : Type} {xs : List α} {x : α} (h : first xs = .ok x) : x ∈ xs := by
  cases xs with
  | nil => cases h
  | cons y ys =>
    obtain rfl := Except.ok.inj h
    exact List.mem_cons_self

/-- The reference id of `rv` has no line feed, as those of the output are made
    blanks. -/
theorem refId_of_parseRv {output : String} {v : PeerVars} (h : parseRv output = .ok v) :
    '\n' ∉ v.refId.toList := by
  obtain ⟨_, _, h⟩ := Rows.bind_eq_ok h
  obtain ⟨_, _, h⟩ := Rows.bind_eq_ok h
  obtain ⟨_, _, h⟩ := Rows.bind_eq_ok h
  obtain ⟨_, _, h⟩ := Rows.bind_eq_ok h
  obtain ⟨_, _, h⟩ := Rows.bind_eq_ok h
  obtain ⟨_, _, h⟩ := Rows.bind_eq_ok h
  -- `refid` is the last of the variables that are looked up
  cases hrefId : valueWith "refid" (rvItems output) with
  | error e =>
    simp only [hrefId, Except.map] at h
    cases h
  | ok refId =>
    simp only [hrefId, Except.map] at h
    obtain rfl := Except.ok.inj h
    obtain ⟨item, hitem, hvalue⟩ := Rows.bind_eq_ok hrefId
    have hmem := (List.mem_filter.mp (mem_of_first hitem)).1
    have hstrip : strip item ⊆ item := by
      intro c hc
      have hc := List.dropWhile_subset _ (List.mem_reverse.mp hc)
      exact List.dropWhile_subset _ (List.mem_reverse.mp hc)
    have hsub : refId ⊆ strip item :=
      subset_of_mem_splitOnP (List.drop_subset 1 _ (mem_of_first hvalue))
    intro hfeed
    rw [String.toList_ofList] at hfeed
    -- the text was cut from one without line feeds
    have hin := subset_of_mem_splitOnP hmem (hstrip (hsub hfeed))
    obtain ⟨c, _, hc⟩ := List.mem_map.mp hin
    split at hc
    · exact absurd hc (by decide)
    · next hne => exact hne hc

/-! ## Section 2: A peer on the screen -/

/-- What a line of the table says of a peer. -/
structure PeerView where
  tally : String
  remote : String
  refId : String
  stratum : String
  type : String
  last : String
  poll : String
  reach : String
  delay : String
  offset : String
  jitter : String

/-- Nothing is known of the peer yet. -/
def PeerView.unknown : PeerView :=
  { tally := " ", remote := "-", refId := "-", stratum := "-", type := "-", last := "-"
    poll := "-", reach := "-", delay := "-", offset := "-", jitter := "-" }

/-- The tally codes, by ntpq's words for the state of a peer. -/
def tallyOfWord : List (String × String) :=
  [("sel_reject", " "), ("sel_falsetick", "x"), ("sel_excess", "."), ("sel_outlier", "-"),
   ("sel_candidate", "+"), ("sel_backup", "#"), ("sel_sys.peer", "*"), ("sel_pps.peer", "o")]

/-- The type codes, by ntpq's letters. -/
def typeOfLetter : List (String × String) :=
  [("u", "U"), ("b", "b"), ("l", "L"), ("s", "S"), ("A", "m"), ("B", "B"), ("M", "M")]

/-- What ntpq has printed of a peer: a line of `apeers` and the output of `rv`. -/
def PeerView.ofPrinted (e : PeerEntry) (v : PeerVars) : PeerView :=
  { tally := (tallyOfWord.lookup v.peerStatusWord).getD " "
    remote := v.srcadr
    refId := if e.refid.toList.head? = some '.' then e.refid else v.refId
    stratum := e.st
    type := (typeOfLetter.lookup e.t).getD "-"
    last := e.when
    poll := e.poll
    reach := e.reach
    delay := e.delay
    offset := e.offset
    jitter := e.jitter }

/-- The texts of a line: the `i`-th server, its address, its options and its peer. -/
def serverCells (i : Nat) (address : String) (entry : ServerEntry) (p : PeerView) :
    List (List UInt8) :=
  [bytes p.tally, bytes (toString i), (bytes address).take 38, (bytes p.remote).take 15,
   bytes entry.version, bytes ((entry.key.map toString).getD "-"), (bytes p.refId).take 15,
   bytes p.stratum, bytes p.type, bytes p.last, bytes p.poll, bytes p.reach, bytes p.delay,
   bytes p.offset, bytes p.jitter]

/-- The words that the daemon writes have the codes of the words that it reads. -/
theorem codeOf_translate {table codes direct : List (String × String)} {default key word : String}
    (hall : ∀ p ∈ table, codeOf codes default (some p.2) = (direct.lookup p.1).getD default)
    (h : Daemon.translate table key = .ok word) :
    codeOf codes default (some word) = (direct.lookup key).getD default := by
  unfold Daemon.translate at h
  cases hlook : table.lookup key with
  | none =>
    rw [hlook] at h
    cases h
  | some w =>
    rw [hlook] at h
    obtain rfl := Except.ok.inj h
    obtain ⟨before, after, rfl, _⟩ := List.lookup_eq_some_iff.mp hlook
    exact hall (key, w) (by simp)

/-- The columns of a status as the screen shows them. -/
structure Views (status : Smap) (p : PeerView) : Prop where
  tally : codeOf tallyCodes " " (status.lookup "peer_status_word") = p.tally
  remote : status.lookup "remote_peer_address" = some p.remote
  refId : status.lookup "remote_peer_ref_id" = some p.refId
  stratum : status.lookup "stratum" = some p.stratum
  type : codeOf typeCodes "-" (status.lookup "peer_type") = p.type
  last : status.lookup "last_polled" = some p.last
  poll : status.lookup "polling_interval" = some p.poll
  reach : status.lookup "reachability_register" = some p.reach
  delay : status.lookup "network_delay" = some p.delay
  offset : status.lookup "time_offset" = some p.offset
  jitter : status.lookup "jitter" = some p.jitter

theorem views_initialStatus : Views initialStatus .unknown := by
  have hlook : ∀ key ∈ ntpAssocStatusKeys, initialStatus.lookup key = some "-" := by
    intro key hkey
    refine (Dict.lookup_ofPairs (by decide)).mpr ?_
    exact List.mem_map_of_mem hkey
  have hword := hlook "peer_status_word" (by decide)
  have htype := hlook "peer_type" (by decide)
  refine { tally := ?_, remote := hlook _ (by decide), refId := hlook _ (by decide)
           stratum := hlook _ (by decide), type := ?_, last := hlook _ (by decide)
           poll := hlook _ (by decide), reach := hlook _ (by decide)
           delay := hlook _ (by decide), offset := hlook _ (by decide)
           jitter := hlook _ (by decide) }
  · rw [hword]
    rfl
  · rw [htype]
    rfl

/-- What the daemon fills in for a peer. -/
def statusPairs (p : PeerInfo) (type word : String) : List (String × String) :=
  [("remote_peer_address", p.entry.remote), ("remote_peer_ref_id", p.entry.refid),
   ("stratum", p.entry.st), ("peer_type", type), ("last_polled", p.entry.when),
   ("polling_interval", p.entry.poll), ("reachability_register", p.entry.reach),
   ("network_delay", p.entry.delay), ("time_offset", p.entry.offset),
   ("jitter", p.entry.jitter), ("root_dispersion", p.rootDispersion),
   ("peer_status_word", word), ("associd", p.entry.associd), ("reference_time", p.referenceTime)]

theorem lookup_assocInfo {p : PeerInfo} {status : Smap} (h : assocInfo p = .ok status) :
    ∃ type word, Daemon.translate translatePeerType p.entry.t = .ok type ∧
      Daemon.translate translatePeerStatusWord p.peerStatusWord = .ok word ∧
      ∀ q ∈ statusPairs p type word, status.lookup q.1 = some q.2 := by
  obtain ⟨type, htype, h⟩ := Rows.bind_eq_ok h
  cases hword : Daemon.translate translatePeerStatusWord p.peerStatusWord with
  | error e =>
    rw [hword] at h
    cases h
  | ok word =>
    rw [hword] at h
    obtain rfl := Except.ok.inj h
    refine ⟨type, word, htype, rfl, ?_⟩
    intro q hq
    -- the defaults are all overwritten
    beta_reduce
    rw [Dict.ofPairs_append_of_covered (by simp [defaultAssocInfo])]
    exact (Dict.lookup_ofPairs (by simp)).mpr hq

/-- The status that the daemon makes of a peer is shown as ntpq has printed it. -/
theorem views_assocInfo {e : PeerEntry} {v : PeerVars} {status : Smap}
    (h : assocInfo (peerInfo e v) = .ok status) : Views status (.ofPrinted e v) := by
  obtain ⟨type, word, htype, hword, hlook⟩ := lookup_assocInfo h
  have hwordLook := hlook ("peer_status_word", word) (by simp [statusPairs])
  have htypeLook := hlook ("peer_type", type) (by simp [statusPairs])
  refine { tally := ?_, type := ?_
           remote := hlook ("remote_peer_address", v.srcadr) (by simp [statusPairs, peerInfo])
           refId := hlook ("remote_peer_ref_id", _) (by simp [statusPairs, peerInfo]; rfl)
           stratum := hlook ("stratum", e.st) (by simp [statusPairs, peerInfo])
           last := hlook ("last_polled", e.when) (by simp [statusPairs, peerInfo])
           poll := hlook ("polling_interval", e.poll) (by simp [statusPairs, peerInfo])
           reach := hlook ("reachability_register", e.reach) (by simp [statusPairs, peerInfo])
           delay := hlook ("network_delay", e.delay) (by simp [statusPairs, peerInfo])
           offset := hlook ("time_offset", e.offset) (by simp [statusPairs, peerInfo])
           jitter := hlook ("jitter", e.jitter) (by simp [statusPairs, peerInfo]) }
  · rw [hwordLook]
    exact codeOf_translate (by decide) hword
  · rw [htypeLook]
    exact codeOf_translate (by decide) htype

/-- A line is made of these texts. -/
theorem assocCells_eq {row : NtpAssociationRow} {p : PeerView} (h : Views row.associationStatus p)
    (db : Db) (i : Nat) :
    assocCells db i row = some (serverCells i row.address (serverEntry db row) p) := by
  simp only [assocCells, h.remote, h.refId, h.tally, h.type, h.stratum, h.last, h.poll, h.reach,
    h.delay, h.offset, h.jitter, Option.bind_some, Option.map_some, Option.getD_some]
  rfl

/-! ## Section 3: Sessions -/

/-- A poll of the run has read this line of `apeers` and these variables for the
    peer at this address. -/
def PolledPeer (tr : List (SwitchState × SwitchLabel)) (a : String) (e : PeerEntry)
    (v : PeerVars) : Prop :=
  ∃ q ∈ tr, ∃ out msg entries, q.2 = .poll out ∧ Polls out msg ∧
    parseApeers out.apeers = .ok entries ∧ e ∈ entries ∧
    parseRv (out.rv e.associd) = .ok v ∧ v.srcadr = a

/-- Nothing is known of the peer at this address, or what one poll has read. -/
def KnownPeer (tr : List (SwitchState × SwitchLabel)) (a : String) (p : PeerView) : Prop :=
  p = .unknown ∨ ∃ e v, PolledPeer tr a e v ∧ p = .ofPrinted e v

/-- The tables as a session meets them, after a run of the switch. -/
structure SessionDb (isValidIpv4 : Nat → Bool) (tr : List (SwitchState × SwitchLabel)) (m : Intent)
    (db : Db) : Prop where
  wellFormed : WellFormed isValidIpv4 db
  printable : (configOf db).Printable
  intent : intentOf db = m
  servers : ∀ r ∈ db.ntpAssociation, OwnStatus (Reported tr) r
  globals : ∃ row, db.system = [row] ∧ OneReport (Reported tr) row

section sessions
variable {isValidIpv4 : Nat → Bool} {secret : String} {nextUuid vrf sys : Uuid} {curCfg : Int}
variable {s : SwitchState} {tr : List (SwitchState × SwitchLabel)} {m : Intent} {db : Db}

theorem sessionDb_of_trace
    (h : (switch isValidIpv4 secret (factoryDefault nextUuid vrf sys curCfg)).Trace tr s)
    (hre : s.db.Reorders db) :
    SessionDb isValidIpv4 tr (Intent.empty.run isValidIpv4 (entered tr)) db := by
  obtain ⟨hinv, hintent⟩ := switchInv_run h
  obtain ⟨hsystem, hsame⟩ := intentOf_reorders hinv hre
  obtain ⟨row, hrow⟩ := hinv.oneSystem
  refine { wellFormed := hinv.wellFormed.reorders hre, printable := ?_
           intent := hsame.trans hintent, servers := ?_, globals := ⟨row, hsystem.trans hrow, ?_⟩ }
  · rw [configOf_reorders hinv.wellFormed hre]
    exact hinv.printable
  · intro r hr
    exact hinv.servers r (hre.ntpAssociation.mem_iff.mp hr)
  · exact hinv.globals row (by rw [hrow]; exact List.mem_cons_self)

/-- A status comes from a line of `apeers` and the variables of its peer. -/
theorem OwnStatus.cases {r : NtpAssociationRow} (h : OwnStatus (Reported tr) r) :
    r.associationStatus = initialStatus ∨
      ∃ e v, PolledPeer tr r.address e v ∧ assocInfo (peerInfo e v) = .ok r.associationStatus := by
  rcases h with hinitial | ⟨msg, ⟨q, hq, out, hpoll, hread⟩, hlook⟩
  · exact Or.inl hinitial
  · obtain ⟨entries, hentries, hinfo⟩ := infoOf_of_associationsInfo hread.1
    obtain ⟨_, _, e, he, v, hv, hsrcadr, hstatus⟩ := hinfo.sound _ _ hlook
    exact Or.inr
      ⟨e, v, ⟨q, hq, out, msg, entries, hpoll, hread, hentries, he, hv, hsrcadr⟩, hstatus⟩

theorem OwnStatus.exists_view {r : NtpAssociationRow} (h : OwnStatus (Reported tr) r) :
    ∃ p, KnownPeer tr r.address p ∧ Views r.associationStatus p := by
  rcases h.cases with hinitial | ⟨e, v, hpolled, hstatus⟩
  · refine ⟨.unknown, Or.inl rfl, ?_⟩
    rw [hinitial]
    exact views_initialStatus
  · exact ⟨.ofPrinted e v, Or.inr ⟨e, v, hpolled, rfl⟩, views_assocInfo hstatus⟩

/-- **The keys are on the screen.** After every run, `show ntp trusted-keys` lists
    exactly the trusted keys and `show ntp authentication-keys` exactly the
    configured ones with their passwords, each once and in its columns. -/
theorem show_keys
    (h : (switch isValidIpv4 secret (factoryDefault nextUuid vrf sys curCfg)).Trace tr s)
    (hre : s.db.Reorders db) :
    (∃ trusted : List Int, trusted.Nodup ∧
      (∀ key, key ∈ trusted ↔ ∃ pwd,
        (Intent.empty.run isValidIpv4 (entered tr)).config.keys.lookup key = some (pwd, true)) ∧
      tableLines 3 (vtyshOvsdbShowNtpTrustedKeys db) = trusted.map fun k => bytes (toString k)) ∧
    ∃ keys : List (Int × String), (keys.map Prod.fst).Nodup ∧
      (∀ key pwd, (key, pwd) ∈ keys ↔ ∃ trust,
        (Intent.empty.run isValidIpv4 (entered tr)).config.keys.lookup key = some (pwd, trust)) ∧
      (tableLines 3 (vtyshOvsdbShowNtpAuthenticationKeys db)).map
          (readCells blankByte authKeyColumns) =
        keys.map fun k => [bytes (toString k.1), bytes k.2] := by
  have hdb := sessionDb_of_trace h hre
  have hlook : ∀ key v, (intentOf db).config.keys.lookup key = some v ↔
      ∃ r ∈ db.ntpKey, r.keyId = key ∧ (r.keyPassword, r.trustEnable) = v :=
    fun key v => Rows.lookup_index hdb.wellFormed.keyIds
  rw [← hdb.intent]
  constructor
  · refine ⟨(db.ntpKey.filter NtpKeyRow.trustEnable).map NtpKeyRow.keyId, ?_, ?_, ?_⟩
    · exact (List.filter_sublist.map _).nodup hdb.wellFormed.keyIds
    · intro key
      simp only [List.mem_map, List.mem_filter, hlook, Prod.mk.injEq]
      constructor
      · intro hex
        obtain ⟨r, ⟨hr, htrust⟩, hid⟩ := hex
        exact ⟨r.keyPassword, r, hr, hid, rfl, htrust⟩
      · intro hex
        obtain ⟨_, r, hr, hid, _, htrust⟩ := hex
        exact ⟨r, ⟨hr, htrust⟩, hid⟩
    · rw [tableLines_trustedKeys hdb.wellFormed, List.map_map]
      rfl
  · refine ⟨db.ntpKey.map fun r => (r.keyId, r.keyPassword), ?_, ?_, ?_⟩
    · rw [List.map_map]
      exact hdb.wellFormed.keyIds
    · intro key pwd
      simp only [List.mem_map, hlook, Prod.mk.injEq]
      constructor
      · intro hex
        obtain ⟨r, hr, hid, hpwd⟩ := hex
        exact ⟨r.trustEnable, r, hr, hid, hpwd, rfl⟩
      · intro hex
        obtain ⟨_, r, hr, hid, hpwd, _⟩ := hex
        exact ⟨r, hr, hid, hpwd⟩
    · rw [readCells_authenticationKeys hdb.wellFormed hdb.printable, List.map_map]
      rfl

/-! ## Section 4: The server table -/

/-- The texts of a view. -/
def PeerView.texts (p : PeerView) : List String :=
  [p.tally, p.remote, p.refId, p.stratum, p.type, p.last, p.poll, p.reach, p.delay, p.offset,
   p.jitter]

/-- A code that is looked up is one of the table, or the default. -/
theorem code_cases {P : String → Prop} {codes : List (String × String)} {default : String}
    (hall : ∀ q ∈ codes, P q.2) (hdefault : P default) (key : String) :
    P ((codes.lookup key).getD default) := by
  cases hlook : codes.lookup key with
  | none => exact hdefault
  | some code =>
    obtain ⟨before, after, heq, _⟩ := List.lookup_eq_some_iff.mp hlook
    exact hall (key, code) (by rw [heq]; simp)

/-- The codes are single characters. -/
theorem KnownPeer.codes {a : String} {p : PeerView} (h : KnownPeer tr a p) :
    (bytes p.tally).length = 1 ∧ (bytes p.type).length = 1 := by
  rcases h with rfl | ⟨e, v, _, rfl⟩
  · decide
  · exact ⟨@code_cases (fun t => (bytes t).length = 1) _ _ (by decide) (by decide) _,
      @code_cases (fun t => (bytes t).length = 1) _ _ (by decide) (by decide) _⟩

/-- What is known of a peer has no line feed. -/
theorem KnownPeer.texts {a : String} {p : PeerView} (ha : IsWord a) (h : KnownPeer tr a p) :
    ∀ t ∈ p.texts, '\n' ∉ t.toList := by
  have hword : ∀ {w : String}, IsWord w → '\n' ∉ w.toList :=
    fun hw hfeed => absurd (hw.2 _ hfeed) (by decide)
  rcases h with rfl | ⟨e, v, hpolled, rfl⟩
  · decide
  · obtain ⟨q, _, out, msg, entries, _, _, hentries, he, hv, rfl⟩ := hpolled
    have hwords := isWord_of_parseApeers hentries he
    -- a reference id that starts with a dot is a column of `apeers`, another one is from `rv`
    have hrefId : '\n' ∉ (if e.refid.toList.head? = some '.' then e.refid else v.refId).toList := by
      split
      · exact hword (hwords _ (by simp [PeerEntry.texts]))
      · exact refId_of_parseRv hv
    simp only [PeerView.texts, PeerView.ofPrinted, List.forall_mem_cons]
    refine ⟨?_, hword ha, hrefId, hword (hwords _ (by simp [PeerEntry.texts])), ?_,
      hword (hwords _ (by simp [PeerEntry.texts])), hword (hwords _ (by simp [PeerEntry.texts])),
      hword (hwords _ (by simp [PeerEntry.texts])), hword (hwords _ (by simp [PeerEntry.texts])),
      hword (hwords _ (by simp [PeerEntry.texts])), hword (hwords _ (by simp [PeerEntry.texts])),
      fun _ ht => absurd ht List.not_mem_nil⟩
    · exact @code_cases (fun t => '\n' ∉ t.toList) _ _ (by decide) (by decide) _
    · exact @code_cases (fun t => '\n' ∉ t.toList) _ _ (by decide) (by decide) _

/-- A text without line feeds does not end its line. -/
theorem lineFeed_not_mem_bytes {t : String} (h : '\n' ∉ t.toList) : lineFeed ∉ bytes t :=
  fun hmem => h (mem_of_mem_bytes (by decide) rfl hmem)

/-- The texts of a line do not end it. -/
theorem lineFeed_not_mem_serverCells {i : Nat} {a : String} {entry : ServerEntry} {p : PeerView}
    (ha : IsWord a) (hversion : IsWord entry.version)
    (hkey : ∀ key, entry.key = some key → keyIdInRange key) (hp : ∀ t ∈ p.texts, '\n' ∉ t.toList) :
    ∀ t ∈ serverCells i a entry p, lineFeed ∉ t := by
  have hview : ∀ t ∈ p.texts, lineFeed ∉ bytes t := fun t ht => lineFeed_not_mem_bytes (hp t ht)
  have hcut : ∀ {n : Nat} {l : List UInt8}, lineFeed ∉ l → lineFeed ∉ l.take n :=
    fun hl hmem => hl (List.mem_of_mem_take hmem)
  have hid : lineFeed ∉ bytes (toString i) :=
    lineFeed_not_mem_word (isNumeral_toString i).isWord
  have hkeyText : lineFeed ∉ bytes ((entry.key.map toString).getD "-") := by
    cases hcase : entry.key with
    | none => decide
    | some key => exact lineFeed_not_mem_word (isWord_toString (hkey key hcase))
  simp only [PeerView.texts, List.forall_mem_cons] at hview
  obtain ⟨htally, hremote, hrefId, hst, htype, hlast, hpoll, hreach, hdelay, hoffset, hjitter, _⟩ :=
    hview
  simp only [serverCells, List.forall_mem_cons]
  exact ⟨htally, hid, hcut (lineFeed_not_mem_word ha), hcut hremote, lineFeed_not_mem_word hversion,
    hkeyText, hcut hrefId, hst, htype, hlast, hpoll, hreach, hdelay, hoffset, hjitter,
    fun _ ht => absurd ht List.not_mem_nil⟩

/-- The server table: every line is there, in the order of the rows. -/
theorem associations_shown (hdb : SessionDb isValidIpv4 tr m db) :
    ∃ text, vtyshOvsdbShowNtpAssociations db = some text ∧
      (tableLines 3 text).length = db.ntpAssociation.length ∧
      ∀ i r, db.ntpAssociation[i]? = some r →
        ∃ p, KnownPeer tr r.address p ∧ Views r.associationStatus p ∧
          (tableLines 3 text)[i]? = some
            (layout blankByte assocColumns (serverCells (i + 1) r.address (serverEntry db r) p)) := by
  have hcells : ∀ q ∈ db.ntpAssociation.zipIdx 1, ∃ p, KnownPeer tr q.1.address p ∧
      Views q.1.associationStatus p ∧
      assocCells db q.2 q.1 = some (serverCells q.2 q.1.address (serverEntry db q.1) p) := by
    intro q hq
    obtain ⟨p, hknown, hviews⟩ := (hdb.servers q.1 (List.fst_mem_of_mem_zipIdx hq)).exists_view
    exact ⟨p, hknown, hviews, assocCells_eq hviews db q.2⟩
  obtain ⟨rows, hrows⟩ := Rows.exists_mapM_iff.mpr fun q hq => by
    obtain ⟨p, _, _, hq⟩ := hcells q hq
    exact ⟨_, hq⟩
  refine ⟨_, by rw [vtyshOvsdbShowNtpAssociations, hrows]; rfl, ?_⟩
  have hlines : tableLines 3 (unlines ([ruler 142,
      layout blankByte assocColumns (assocHeader.map bytes), ruler 142] ++
      rows.map (layout blankByte assocColumns) ++ [ruler 142])) =
        rows.map (layout blankByte assocColumns) := by
    refine @tableLines_unlines [_, _, _] _ _ (by decide) ?_ (by decide)
    intro l hl
    obtain ⟨cells, hmem, rfl⟩ := List.mem_map.mp hl
    refine lineFeed_not_mem_layout (by decide) ?_
    obtain ⟨q, hq, hqcells⟩ := Rows.exists_of_mem_mapM hrows hmem
    obtain ⟨p, hknown, _, heq⟩ := hcells q hq
    rw [heq] at hqcells
    obtain rfl := Option.some.inj hqcells
    obtain ⟨haddr, hversion, hkey, _⟩ :=
      serverRow_valid hdb.wellFormed hdb.printable (List.fst_mem_of_mem_zipIdx hq)
    exact lineFeed_not_mem_serverCells haddr hversion.1.isWord hkey (hknown.texts haddr)
  rw [hlines]
  constructor
  · rw [List.length_map, ← (Rows.forall_of_mapM hrows).1, List.length_zipIdx]
  · intro i r hr
    have hzip : (db.ntpAssociation.zipIdx 1)[i]? = some (r, i + 1) := by
      rw [List.getElem?_zipIdx, hr, Option.map_some, Nat.add_comm]
    obtain ⟨p, hknown, hviews, heq⟩ := hcells _ (List.mem_of_getElem? hzip)
    refine ⟨p, hknown, hviews, ?_⟩
    rw [List.getElem?_map, Rows.getElem?_of_mapM hrows hzip, heq]
    rfl

/-- **The servers are on the screen.** After every run `show ntp associations` is
    defined and has one line for each configured server. The line has the
    server's options, and of its peer either nothing or what one poll of the
    run has read from ntpq for this address, in ntpq's own codes. -/
theorem show_associations
    (h : (switch isValidIpv4 secret (factoryDefault nextUuid vrf sys curCfg)).Trace tr s)
    (hre : s.db.Reorders db) :
    ∃ text, vtyshOvsdbShowNtpAssociations db = some text ∧ ∃ servers : List String,
      servers.Nodup ∧
      (∀ a, a ∈ servers ↔ a ∈ (Intent.empty.run isValidIpv4 (entered tr)).config.servers.keys) ∧
      (tableLines 3 text).length = servers.length ∧
      ∀ i a, servers[i]? = some a → ∃ entry p,
        (Intent.empty.run isValidIpv4 (entered tr)).config.servers.lookup a = some entry ∧
        KnownPeer tr a p ∧
        (tableLines 3 text)[i]? =
          some (layout blankByte assocColumns (serverCells (i + 1) a entry p)) := by
  have hdb := sessionDb_of_trace h hre
  obtain ⟨text, htext, hlen, hlines⟩ := associations_shown hdb
  refine ⟨text, htext, db.ntpAssociation.map NtpAssociationRow.address, hdb.wellFormed.addresses,
    ?_, ?_, ?_⟩
  · intro a
    rw [← hdb.intent]
    show _ ↔ a ∈ (configOf db).servers.keys
    rw [configOf, Rows.keys_index hdb.wellFormed.addresses, List.mem_toFinset]
  · rw [hlen, List.length_map]
  · intro i a ha
    rw [List.getElem?_map] at ha
    obtain ⟨r, hr, rfl⟩ := Option.map_eq_some_iff.mp ha
    obtain ⟨p, hknown, _, hline⟩ := hlines i r hr
    refine ⟨serverEntry db r, p, ?_, hknown, hline⟩
    rw [← hdb.intent]
    exact lookup_configOf_servers hdb.wellFormed (List.mem_of_getElem? hr)

/-- What ntpq has printed fits the columns that are not cut. -/
structure PeerView.FitsColumns (p : PeerView) : Prop where
  stratum : (bytes p.stratum).length ≤ 2
  last : (bytes p.last).length ≤ 4
  poll : (bytes p.poll).length ≤ 4
  reach : (bytes p.reach).length ≤ 5
  delay : (bytes p.delay).length ≤ 7
  offset : (bytes p.offset).length ≤ 6
  jitter : (bytes p.jitter).length ≤ 6

/-- The other texts of a line always fit. -/
theorem fits_serverCells_iff {i : Nat} {a : String} {entry : ServerEntry} {p : PeerView}
    (hi : i ≤ ntpAssocMaxServers) (hkey : ∀ key, entry.key = some key → keyIdInRange key)
    (hknown : KnownPeer tr a p) :
    List.Forall₂ Fits assocColumns (serverCells i a entry p) ↔
      (bytes entry.version).length ≤ 3 ∧ p.FitsColumns := by
  obtain ⟨htally, htype⟩ := hknown.codes
  have hid : (bytes (toString i)).length ≤ 3 := by
    have hsmall : ∀ i ≤ 8, (bytes (toString i)).length ≤ 3 := by decide
    exact hsmall i hi
  have hkeyText : (bytes ((entry.key.map toString).getD "-")).length ≤ 5 := by
    cases hcase : entry.key with
    | none => decide
    | some key => exact length_bytes_toString (hkey key hcase)
  have hcut : ∀ (n : Nat) (t : String), ((bytes t).take n).length ≤ n :=
    fun n t => List.length_take_le _ _
  -- the name is cut one short of its column, as `snprintf` keeps a byte for the end
  have hname : ((bytes a).take 38).length ≤ 39 := le_trans (hcut 38 a) (by decide)
  have hremote := hcut 15 p.remote
  have hrefId := hcut 15 p.refId
  simp only [assocColumns, serverCells, List.map_cons, List.map_nil, List.cons_append,
    List.nil_append, List.forall₂_cons, List.forall₂_nil_left_iff, Fits, htally, htype, hid,
    hkeyText, hname, hremote, hrefId, le_refl, true_and, and_true]
  constructor
  · intro hall
    obtain ⟨hversion, hst, hlast, hpoll, hreach, hdelay, hoffset, hjitter⟩ := hall
    exact ⟨hversion, hst, hlast, hpoll, hreach, hdelay, hoffset, hjitter⟩
  · intro hall
    obtain ⟨hversion, hst, hlast, hpoll, hreach, hdelay, hoffset, hjitter⟩ := hall
    exact ⟨hversion, hst, hlast, hpoll, hreach, hdelay, hoffset, hjitter⟩

/-- **The table stays in its columns**, unless the version or what ntpq prints is
    too long: no name, address, key or reference id pushes a line over the
    ruler. A line that ends at the ruler is read by its columns. -/
theorem show_aligned
    (h : (switch isValidIpv4 secret (factoryDefault nextUuid vrf sys curCfg)).Trace tr s)
    (hre : s.db.Reorders db) :
    ∃ text, vtyshOvsdbShowNtpAssociations db = some text ∧
      ∀ i line, (tableLines 3 text)[i]? = some line → ∃ a entry p, i + 1 ≤ ntpAssocMaxServers ∧
        (Intent.empty.run isValidIpv4 (entered tr)).config.servers.lookup a = some entry ∧
        KnownPeer tr a p ∧
        line = layout blankByte assocColumns (serverCells (i + 1) a entry p) ∧
        (ruler 142).length ≤ line.length ∧
        (line.length = (ruler 142).length ↔
          (bytes entry.version).length ≤ 3 ∧ p.FitsColumns) ∧
        (line.length = (ruler 142).length → readCells blankByte assocColumns line =
          (serverCells (i + 1) a entry p).map fun t => t.dropWhile fun x => x = blankByte) := by
  have hdb := sessionDb_of_trace h hre
  obtain ⟨text, htext, hlen, hlines⟩ := associations_shown hdb
  refine ⟨text, htext, ?_⟩
  intro i line hi
  have hlt : i < db.ntpAssociation.length := by
    rw [← hlen]
    exact (List.getElem?_eq_some_iff.mp hi).1
  obtain ⟨r, hr⟩ : ∃ r, db.ntpAssociation[i]? = some r := ⟨_, List.getElem?_eq_getElem hlt⟩
  have hmem := List.mem_of_getElem? hr
  obtain ⟨p, hknown, _, hcells⟩ := hlines i r hr
  rw [hi] at hcells
  have hline := Option.some.inj hcells
  obtain ⟨_, _, hkey, _⟩ := serverRow_valid hdb.wellFormed hdb.printable hmem
  -- the number has one digit, as there are no more servers than that
  have hmax : i + 1 ≤ ntpAssocMaxServers := le_trans hlt hdb.wellFormed.maxServers
  have hsame : assocColumns.length =
      (serverCells (i + 1) r.address (serverEntry db r) p).length := rfl
  have hwidth : lineWidth assocColumns = (ruler 142).length := by
    rw [ruler, List.length_replicate]
    rfl
  have hfits := @length_layout_iff _ blankByte _ _ hsame
  rw [hwidth] at hfits
  refine ⟨r.address, serverEntry db r, p, hmax, ?_, hknown, hline, ?_, ?_, ?_⟩
  · rw [← hdb.intent]
    exact lookup_configOf_servers hdb.wellFormed hmem
  · rw [hline, ← hwidth]
    exact lineWidth_le hsame
  · rw [hline, hfits, fits_serverCells_iff hmax hkey hknown]
  · rw [hline]
    intro hwide
    exact readCells_layout (hfits.mp hwide)

/-! ## Section 5: Status and statistics -/

/-- The flag is one of the two words that the CLI writes. -/
def PlainFlag (db : Db) : Prop :=
  authenticationEnable db = "true" ∨ authenticationEnable db = "false"

/-- **Step.** A command writes one of the two words, if any. -/
theorem plainFlag_exec {row : SystemRow} (hrow : db.system = [row]) (h : PlainFlag db)
    (c : Command) : PlainFlag (c.exec isValidIpv4 db) := by
  have hleaves : ∀ {c : Command}, LeavesSystem isValidIpv4 c →
      PlainFlag (c.exec isValidIpv4 db) := by
    intro c hc
    rw [PlainFlag, authenticationEnable, hc db]
    exact h
  cases c with
  | ntpServer name prefer version keyId => exact hleaves (leavesSystem_server _ _ _ _)
  | noNtpServer name => exact hleaves (leavesSystem_noServer name)
  | ntpAuthenticationEnable => exact Or.inl (@authenticationEnable_set isValidIpv4 _ _ hrow true)
  | noNtpAuthenticationEnable => exact Or.inr (@authenticationEnable_set isValidIpv4 _ _ hrow false)
  | ntpAuthenticationKey key md5 => exact hleaves (leavesSystem_authenticationKey key md5)
  | noNtpAuthenticationKey key => exact hleaves (leavesSystem_noAuthenticationKey key)
  | ntpTrustedKey key => exact hleaves (leavesSystem_trustedKey key)
  | noNtpTrustedKey key => exact hleaves (leavesSystem_noTrustedKey key)

theorem plainFlag_commit (h : PlainFlag s.db) {before after : Db} (hafter : PlainFlag after) :
    PlainFlag (s.commit before after).db := by
  unfold SwitchState.commit
  split
  · exact h
  · exact hafter

/-- The flag of tables whose `System` rows have other columns changed. -/
theorem plainFlag_map {db db' : Db} (h : PlainFlag db) {f : SystemRow → SystemRow}
    (hsystem : db'.system = db.system.map f) (hf : ∀ r, (f r).ntpConfig = r.ntpConfig) :
    PlainFlag db' := by
  have hsame : authenticationEnable db' = authenticationEnable db := by
    unfold authenticationEnable
    rw [hsystem, List.foldl_map]
    simp only [hf]
  rw [PlainFlag, hsame]
  exact h

/-- **Run.** -/
theorem plainFlag_run
    (h : (switch isValidIpv4 secret (factoryDefault nextUuid vrf sys curCfg)).Trace tr s) :
    PlainFlag s.db := by
  induction h with
  | init hi =>
    rw [hi.1]
    exact Or.inr rfl
  | @step _ s s' a htrace hstep ih =>
    obtain ⟨hinv, _⟩ := switchInv_run htrace
    cases a with
    | enter c =>
      obtain ⟨_, db, hre, rfl⟩ := hstep
      obtain ⟨row, hrow⟩ := hinv.oneSystem
      obtain ⟨hsystem, _⟩ := intentOf_reorders hinv hre
      -- the command meets the one `System` row, whatever the order of the others
      refine plainFlag_commit ih (plainFlag_exec (hsystem.trans hrow) ?_ c)
      exact plainFlag_map (f := id) ih (by rw [hsystem, List.map_id]) fun _ => rfl
    | configured curCfg =>
      rw [hstep]
      exact plainFlag_commit ih (plainFlag_map ih rfl fun _ => rfl)
    | idlRun updates =>
      obtain ⟨d, _, rfl⟩ := hstep
      exact ih
    | pass =>
      obtain ⟨d, _, rfl⟩ := hstep
      exact ih
    | poll out =>
      obtain ⟨d, _, hsent⟩ := hstep
      rcases hsent with ⟨msg, _, rfl⟩ | ⟨_, rfl⟩
      · exact ih
      · exact ih
    | receive ks =>
      obtain ⟨msg, queue, db, _, hks, hcommit, rfl⟩ := hstep
      rw [commitInfo_ok hinv.history msg hks] at hcommit
      obtain rfl := Except.ok.inj hcommit
      exact plainFlag_map ih rfl fun _ => rfl
    | refresh replica =>
      obtain ⟨_, rfl⟩ := hstep
      exact ih

/-- The flag that `smap_get_bool` reads is that of the intent. -/
theorem smapGetBool_authentication {row : SystemRow} (hrow : db.system = [row])
    (h : PlainFlag db) :
    smapGetBool row.ntpConfig systemNtpConfigAuthenticationEnable = (intentOf db).auth := by
  have hflag := authenticationEnable_singleton hrow
  unfold PlainFlag at h
  show _ = decide (authenticationEnable db = "true")
  -- `smap_get_bool` does not mind upper case, the daemon does
  unfold smapGetBool
  cases hlook : row.ntpConfig.lookup systemNtpConfigAuthenticationEnable with
  | none =>
    rw [hlook] at hflag
    rw [hflag]
    rfl
  | some value =>
    rw [hlook, Option.getD_some] at hflag
    rw [hflag] at h ⊢
    rcases h with rfl | rfl
    · rfl
    · rfl

/-- The lines of `show ntp status` for a peer that ntpd has selected. -/
def selectedLines (timezone : String) (x : String × PeerEntry × PeerVars) : List String :=
  ["Synchronized to NTP Server " ++ x.1 ++ " at stratum " ++ x.2.1.st,
   "Poll interval = " ++ x.2.1.poll ++ " seconds",
   "Time accuracy is within " ++ x.2.1.offset ++ " seconds",
   "Reference time: " ++ x.2.2.referenceTime ++ " as per " ++ timezone ++ " timezone"]

/-- Only ntpq's word for the system peer is written as `system_peer`. -/
theorem word_of_translate_systemPeer {word : String}
    (h : Daemon.translate translatePeerStatusWord word = .ok "system_peer") :
    word = "sel_sys.peer" := by
  unfold Daemon.translate at h
  cases hlook : translatePeerStatusWord.lookup word with
  | none =>
    rw [hlook] at h
    cases h
  | some w =>
    rw [hlook] at h
    obtain rfl := Except.ok.inj h
    have hall : ∀ p ∈ translatePeerStatusWord, p.2 = "system_peer" → p.1 = "sel_sys.peer" := by
      decide
    obtain ⟨before, after, heq, _⟩ := List.lookup_eq_some_iff.mp hlook
    exact hall (word, "system_peer") (by rw [heq]; simp) rfl

/-- The row of a server that ntpd has selected. -/
def Selected (r : NtpAssociationRow) : Prop :=
  r.associationStatus.lookup "peer_status_word" = some "system_peer"

instance (r : NtpAssociationRow) : Decidable (Selected r) :=
  inferInstanceAs (Decidable (_ = _))

/-- The mark of a selected server. -/
theorem tally_star_iff {r : NtpAssociationRow} {p : PeerView} (h : Views r.associationStatus p) :
    p.tally = "*" ↔ Selected r := by
  rw [← h.tally, Selected]
  cases r.associationStatus.lookup "peer_status_word" with
  | none => exact iff_of_false (by decide) (by simp)
  | some word =>
    constructor
    · intro hstar
      have hcode : (tallyCodes.lookup word).getD " " = "*" := hstar
      cases hlook : tallyCodes.lookup word with
      | none =>
        rw [hlook] at hcode
        exact absurd hcode (by decide)
      | some code =>
        rw [hlook, Option.getD_some] at hcode
        have hall : ∀ q ∈ tallyCodes, q.2 = "*" → q.1 = "system_peer" := by decide
        obtain ⟨before, after, heq, _⟩ := List.lookup_eq_some_iff.mp hlook
        exact congrArg some (hall (word, code) (by rw [heq]; simp) hcode)
    · intro hword
      rw [hword]
      rfl

/-- The lines of a selected server are those of a polled peer. -/
theorem synchronizedLines_of_selected {r : NtpAssociationRow} (h : OwnStatus (Reported tr) r)
    (hsel : Selected r) (timezone : String) :
    ∃ e v, PolledPeer tr r.address e v ∧ v.peerStatusWord = "sel_sys.peer" ∧
      synchronizedLines timezone r = selectedLines timezone (r.address, e, v) := by
  rcases h.cases with hinitial | ⟨e, v, hpolled, hstatus⟩
  · rw [Selected, hinitial] at hsel
    exact absurd hsel (by decide)
  · obtain ⟨type, word, _, hword, hlook⟩ := lookup_assocInfo hstatus
    have hwordLook := hlook ("peer_status_word", word) (by simp [statusPairs])
    have hst := hlook ("stratum", e.st) (by simp [statusPairs, peerInfo])
    have hpoll := hlook ("polling_interval", e.poll) (by simp [statusPairs, peerInfo])
    have hoffset := hlook ("time_offset", e.offset) (by simp [statusPairs, peerInfo])
    have htime := hlook ("reference_time", v.referenceTime) (by simp [statusPairs, peerInfo])
    have hsel' : r.associationStatus.lookup "peer_status_word" = some "system_peer" := hsel
    obtain rfl : word = "system_peer" := by
      rw [hsel'] at hwordLook
      exact (Option.some.inj hwordLook).symm
    refine ⟨e, v, hpolled, word_of_translate_systemPeer hword, ?_⟩
    simp only [synchronizedLines, hsel', if_true, hst, hpoll, hoffset, htime, Option.getD_some]
    rfl

/-- The blocks of the selected servers, in the order of the rows. -/
theorem synchronized_shown {rows : List NtpAssociationRow}
    (h : ∀ r ∈ rows, OwnStatus (Reported tr) r) (timezone : String) :
    ∃ selected : List (String × PeerEntry × PeerVars),
      selected.map Prod.fst = (rows.filter fun r => Selected r).map NtpAssociationRow.address ∧
      (∀ x ∈ selected, PolledPeer tr x.1 x.2.1 x.2.2 ∧ x.2.2.peerStatusWord = "sel_sys.peer") ∧
      rows.flatMap (synchronizedLines timezone) = selected.flatMap (selectedLines timezone) := by
  induction rows with
  | nil => exact ⟨[], rfl, fun _ hx => absurd hx List.not_mem_nil, rfl⟩
  | cons r rows ih =>
    obtain ⟨selected, hnames, hpolled, hlines⟩ := ih fun r' hr' => h r' (List.mem_cons_of_mem _ hr')
    by_cases hsel : Selected r
    · obtain ⟨e, v, hpeer, hword, hblock⟩ :=
        synchronizedLines_of_selected (h r List.mem_cons_self) hsel timezone
      refine ⟨(r.address, e, v) :: selected, ?_, ?_, ?_⟩
      · rw [List.filter_cons_of_pos (by simpa using hsel), List.map_cons, List.map_cons, hnames]
      · intro x hx
        rcases List.mem_cons.mp hx with rfl | hx
        · exact ⟨hpeer, hword⟩
        · exact hpolled x hx
      · rw [List.flatMap_cons, List.flatMap_cons, hblock, hlines]
    · refine ⟨selected, ?_, hpolled, ?_⟩
      · rw [List.filter_cons_of_neg (by simpa using hsel), hnames]
      · have hnone : synchronizedLines timezone r = [] := if_neg hsel
        rw [List.flatMap_cons, hnone, List.nil_append, hlines]

/-- What `show ntp status` prints. -/
def statusText (timezone : String) (auth : Bool) (uptime : String)
    (selected : List (String × PeerEntry × PeerVars)) : List UInt8 :=
  unlines
    ((["NTP is enabled", "NTP authentication is " ++ (if auth then "enabled" else "disabled"),
       "Uptime: " ++ uptime ++ " second(s)"] ++
      selected.flatMap (selectedLines timezone)).map bytes)

/-- The counters of `show ntp statistics` by their labels on the screen, and
    ntpq's own labels for them. -/
def screenCounters : List (String × String) :=
  [("Rx-pkts", "packets received"), ("Cur Ver Rx-pkts", "current version"),
   ("Old Ver Rx-pkts", "older version"), ("Error pkts", "bad length or format"),
   ("Auth-failed pkts", "authentication failed"), ("Declined pkts", "declined"),
   ("Restricted pkts", "restricted"), ("Rate-limited pkts", "rate limited"),
   ("KOD pkts", "KoD responses")]

/-- No poll has been stored, or one poll of the run has printed these values of
    the counters. -/
def KnownCounters (tr : List (SwitchState × SwitchLabel)) (labels : List String)
    (value : String → String) : Prop :=
  (∀ label ∈ labels, value label = "-") ∨
    ∃ q ∈ tr, ∃ out, q.2 = .poll out ∧
      ∀ label ∈ labels, LastValue (sysstatsLines out.sysstats) label (value label)

/-- **The status is on the screen.** After every run `show ntp status` tells the
    users' own authentication flag, the uptime of one poll, and of the servers
    only those that a poll has read as ntpd's system peer, with what it has
    read; these are just the servers that `show ntp associations` marks. -/
theorem show_status
    (h : (switch isValidIpv4 secret (factoryDefault nextUuid vrf sys curCfg)).Trace tr s)
    (hre : s.db.Reorders db) (timezone : String) :
    ∃ (text : List UInt8) (uptime : String) (servers : List String)
        (selected : List (String × PeerEntry × PeerVars)),
      vtyshOvsdbShowNtpAssociations db = some text ∧
      vtyshOvsdbShowNtpStatus timezone db =
        statusText timezone (Intent.empty.run isValidIpv4 (entered tr)).auth uptime selected ∧
      KnownCounters tr ["uptime"] (fun _ => uptime) ∧
      (∀ x ∈ selected, PolledPeer tr x.1 x.2.1 x.2.2 ∧ x.2.2.peerStatusWord = "sel_sys.peer") ∧
      (selected.map Prod.fst).Sublist servers ∧ servers.Nodup ∧
      (∀ a, a ∈ servers ↔ a ∈ (Intent.empty.run isValidIpv4 (entered tr)).config.servers.keys) ∧
      ∀ (i : Nat) (a : String), servers[i]? = some a → ∃ entry p,
        (tableLines 3 text)[i]? =
          some (layout blankByte assocColumns (serverCells (i + 1) a entry p)) ∧
        (p.tally = "*" ↔ a ∈ selected.map Prod.fst) := by
  have hdb := sessionDb_of_trace h hre
  obtain ⟨row, hrow, hglobals⟩ := hdb.globals
  obtain ⟨text, htext, _, hlines⟩ := associations_shown hdb
  obtain ⟨selected, hnames, hpolled, hblocks⟩ := synchronized_shown hdb.servers timezone
  refine ⟨text, (row.ntpStatus.lookup "uptime").getD "-",
    db.ntpAssociation.map NtpAssociationRow.address, selected, htext, ?_, ?_, hpolled, ?_,
    hdb.wellFormed.addresses, ?_, ?_⟩
  · obtain ⟨hinv, _⟩ := switchInv_run h
    obtain ⟨hsystem, _⟩ := intentOf_reorders hinv hre
    have hflag : PlainFlag db :=
      plainFlag_map (f := id) (plainFlag_run h) (by rw [hsystem, List.map_id]) fun _ => rfl
    rw [vtyshOvsdbShowNtpStatus, hrow, List.head?_cons]
    dsimp only
    rw [smapGetBool_authentication hrow hflag, hblocks, hdb.intent]
    rfl
  · rcases hglobals with ⟨hempty, _⟩ | ⟨msg, ⟨q, hq, out, hpoll, hread⟩, hstatus, _⟩
    -- the uptime is a label of `sysstats`, so it is in the status of every message
    · refine Or.inl fun label _ => ?_
      rw [hempty, Finmap.lookup_empty]
      rfl
    · refine Or.inr ⟨q, hq, out, hpoll, ?_⟩
      intro label hlabel
      obtain rfl := List.mem_singleton.mp hlabel
      obtain ⟨_, _, hfull⟩ := globalStatus_ok_iff.mp hread.2
      obtain ⟨value, hlast, hlook⟩ := hfull.values ("uptime", "uptime") List.mem_cons_self
      rw [hstatus, hlook]
      exact hlast
  · rw [hnames]
    exact List.filter_sublist.map _
  · intro a
    rw [← hdb.intent]
    show _ ↔ a ∈ (configOf db).servers.keys
    rw [configOf, Rows.keys_index hdb.wellFormed.addresses, List.mem_toFinset]
  · intro i a ha
    rw [List.getElem?_map] at ha
    obtain ⟨r, hr, rfl⟩ := Option.map_eq_some_iff.mp ha
    obtain ⟨p, _, hviews, hline⟩ := hlines i r hr
    refine ⟨_, p, hline, ?_⟩
    rw [tally_star_iff hviews, hnames]
    have hmem := List.mem_of_getElem? hr
    constructor
    · intro hsel
      exact List.mem_map_of_mem (List.mem_filter.mpr ⟨hmem, by simpa using hsel⟩)
    · intro hin
      obtain ⟨r', hr', haddr⟩ := List.mem_map.mp hin
      -- a selected server with this address is this very row
      obtain ⟨hmem', hsel⟩ := List.mem_filter.mp hr'
      have hsame : r' = r := List.inj_on_of_nodup_map hdb.wellFormed.addresses hmem' hmem haddr
      rw [← hsame]
      exact of_decide_eq_true hsel

/-- The value of the counter with this label of ntpq. -/
def counterValue (statistics : Smap) (label : String) : String :=
  ((statisticsLabels.find? fun p => p.2 = label).bind fun p => statistics.lookup p.1).getD "-"

/-- **The counters are on the screen.** After every run `show ntp statistics` has
    one line for each of ntpq's counters, its label in twenty columns and then
    its value, and either no value is known or all are those of one poll. -/
theorem show_statistics
    (h : (switch isValidIpv4 secret (factoryDefault nextUuid vrf sys curCfg)).Trace tr s)
    (hre : s.db.Reorders db) :
    ∃ value : String → String,
      vtyshOvsdbShowNtpStatistics db = unlines (screenCounters.map fun p =>
        List.replicate (20 - (bytes p.1).length) blankByte ++ bytes p.1 ++ bytes "    " ++
          bytes (value p.2)) ∧
      KnownCounters tr (screenCounters.map Prod.snd) value := by
  have hdb := sessionDb_of_trace h hre
  obtain ⟨row, hrow, hglobals⟩ := hdb.globals
  refine ⟨counterValue row.ntpStatistics, ?_, ?_⟩
  · rw [vtyshOvsdbShowNtpStatistics, hrow, List.head?_cons]
    rfl
  · rcases hglobals with ⟨_, hempty⟩ | ⟨msg, ⟨q, hq, out, hpoll, hread⟩, _, hstatistics⟩
    · refine Or.inl fun label _ => ?_
      unfold counterValue
      rw [hempty]
      cases statisticsLabels.find? fun p => p.2 = label with
      | none => rfl
      | some p =>
        rw [Option.bind_some, Finmap.lookup_empty]
        rfl
    · refine Or.inr ⟨q, hq, out, hpoll, ?_⟩
      obtain ⟨_, hfull, _⟩ := globalStatus_ok_iff.mp hread.2
      -- the labels of the screen against those that the daemon reads
      have hall : ∀ label ∈ screenCounters.map Prod.snd, ∃ p ∈ statisticsLabels, p.2 = label ∧
          (statisticsLabels.find? fun p => p.2 = label) = some p := by decide
      intro label hlabel
      obtain ⟨p, hp, rfl, hfind⟩ := hall label hlabel
      obtain ⟨value, hlast, hlook⟩ := hfull.values p hp
      have hvalue : counterValue row.ntpStatistics p.2 = value := by
        rw [counterValue, hfind, Option.bind_some, hstatistics, hlook, Option.getD_some]
      rw [hvalue]
      exact hlast

end sessions

/-! ## Section 6: Examples -/

theorem show_keys_site :
    ∃ tr s, (switch (fun _ => true) "0123456789abcdef" newDb).Trace tr s ∧
      entered tr = siteCommands ∧
      tableLines 3 (vtyshOvsdbShowNtpTrustedKeys s.db) = [bytes "7"] ∧
      (tableLines 3 (vtyshOvsdbShowNtpAuthenticationKeys s.db)).map
          (readCells blankByte authKeyColumns) = [[bytes "7", bytes "password"]] := by
  obtain ⟨tr, s, htrace, hentered, _⟩ := trace_site_pass
  obtain ⟨⟨trusted, hnd, htrusted, hlines⟩, keys, hnd', hkeys, hcells⟩ :=
    show_keys htrace (Db.Reorders.refl _)
  rw [hentered] at htrusted hkeys
  simp only [lookup_siteKeys] at htrusted hkeys
  have hone : trusted = [7] := by
    refine List.perm_singleton.mp ((List.perm_ext_iff_of_nodup hnd (List.nodup_singleton _)).mpr ?_)
    simp [htrusted]
  have hpair : keys = [(7, "password")] := by
    refine List.perm_singleton.mp
      ((List.perm_ext_iff_of_nodup hnd'.of_map (List.nodup_singleton _)).mpr ?_)
    simp [hkeys]
  rw [hone] at hlines
  rw [hpair] at hcells
  exact ⟨tr, s, htrace, hentered, hlines, hcells⟩

theorem show_associations_site :
    ∃ tr s text, (switch (fun _ => true) "0123456789abcdef" newDb).Trace tr s ∧
      entered tr = siteCommands ∧
      s.db.ntpAssociation.map (fun r => (r.address, r.associationStatus)) =
        [("10.0.0.2", secondPrinted.status), ("10.0.0.1", onePrinted.status)] ∧
      vtyshOvsdbShowNtpAssociations s.db = some text ∧ ∃ servers : List String,
      servers.Nodup ∧
      (∀ a, a ∈ servers ↔
        a ∈ (Intent.empty.run (fun _ => true) siteCommands).config.servers.keys) ∧
      (tableLines 3 text).length = servers.length ∧
      ∀ i a, servers[i]? = some a → ∃ entry p,
        (Intent.empty.run (fun _ => true) siteCommands).config.servers.lookup a = some entry ∧
        KnownPeer tr a p ∧
        (tableLines 3 text)[i]? =
          some (layout blankByte assocColumns (serverCells (i + 1) a entry p)) := by
  obtain ⟨tr, s, _, htrace, hentered, _, hrows, _⟩ := trace_site_poll
  obtain ⟨text, htext, hlines⟩ := show_associations htrace (Db.Reorders.refl _)
  rw [hentered] at hlines
  exact ⟨tr, s, text, htrace, hentered, hrows, htext, hlines⟩

theorem show_aligned_site :
    ∃ tr s text, (switch (fun _ => true) "0123456789abcdef" newDb).Trace tr s ∧
      entered tr = siteCommands ∧
      s.db.ntpAssociation.map (fun r => (r.address, r.associationStatus)) =
        [("10.0.0.2", secondPrinted.status), ("10.0.0.1", onePrinted.status)] ∧
      vtyshOvsdbShowNtpAssociations s.db = some text ∧
      ∀ i line, (tableLines 3 text)[i]? = some line → ∃ a entry p, i + 1 ≤ ntpAssocMaxServers ∧
        (Intent.empty.run (fun _ => true) siteCommands).config.servers.lookup a = some entry ∧
        KnownPeer tr a p ∧
        line = layout blankByte assocColumns (serverCells (i + 1) a entry p) ∧
        (ruler 142).length ≤ line.length ∧
        (line.length = (ruler 142).length ↔
          (bytes entry.version).length ≤ 3 ∧ p.FitsColumns) ∧
        (line.length = (ruler 142).length → readCells blankByte assocColumns line =
          (serverCells (i + 1) a entry p).map fun t => t.dropWhile fun x => x = blankByte) := by
  obtain ⟨tr, s, _, htrace, hentered, _, hrows, _⟩ := trace_site_poll
  obtain ⟨text, htext, hlines⟩ := show_aligned htrace (Db.Reorders.refl _)
  rw [hentered] at hlines
  exact ⟨tr, s, text, htrace, hentered, hrows, htext, hlines⟩

theorem show_status_site :
    ∃ tr s selected uptime, (switch (fun _ => true) "0123456789abcdef" newDb).Trace tr s ∧
      entered tr = siteCommands ∧
      vtyshOvsdbShowNtpStatus "utc" s.db = statusText "utc" true uptime selected ∧
      KnownCounters tr ["uptime"] (fun _ => uptime) ∧
      ∀ x ∈ selected, PolledPeer tr x.1 x.2.1 x.2.2 ∧ x.2.2.peerStatusWord = "sel_sys.peer" := by
  obtain ⟨tr, s, _, htrace, hentered, _⟩ := trace_site_poll
  obtain ⟨_, uptime, _, selected, _, htext, huptime, hselected, _⟩ :=
    show_status htrace (Db.Reorders.refl _) "utc"
  rw [hentered] at htext
  exact ⟨tr, s, selected, uptime, htrace, hentered, htext, huptime, hselected⟩

theorem show_statistics_site :
    ∃ tr s value, (switch (fun _ => true) "0123456789abcdef" newDb).Trace tr s ∧
      vtyshOvsdbShowNtpStatistics s.db = unlines (screenCounters.map fun p =>
        List.replicate (20 - (bytes p.1).length) blankByte ++ bytes p.1 ++ bytes "    " ++
          bytes (value p.2)) ∧
      KnownCounters tr (screenCounters.map Prod.snd) value := by
  obtain ⟨tr, s, _, htrace, _⟩ := trace_site_poll
  obtain ⟨value, htext, hvalue⟩ := show_statistics htrace (Db.Reorders.refl _)
  exact ⟨tr, s, value, htrace, htext, hvalue⟩

end OpsNtpd
