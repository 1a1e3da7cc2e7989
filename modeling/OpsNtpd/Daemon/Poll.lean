import OpsNtpd.Cli.Handlers
import OpsNtpd.Daemon.SyncManager

/-! # Daemon: A Status Poll

  When nothing has changed, the main loop asks `ntpq` for the peers and for
  its own counters and puts the answers on the queue, as one message.

  - Section 1: `ops_ntpd_get_ntpd_global_status` and
    `ops_ntpd_sync_updates_to_ovsdb`.
  - Section 2: when the counters can be read at all.
  - Section 3: what every message that is sent looks like, whatever `ntpq`
    printed.
  - Section 4: printed counters are read back.
-/

namespace OpsNtpd.Daemon

open Text

/-! ## Section 1: The poll -/

/-- `n`, a line of `sysstats` cut at its colons. -/
def sysstatsParts (line : List Char) : List (List Char) :=
  ((strip line).splitOn ':').map (List.dropWhile isSpace)

/-- `n[0]` and `n[1]` -/
def sysstatsEntry (line : List Char) : Except PyError (String × String) :=
  match sysstatsParts line with
  | label :: value :: _ => .ok (String.ofList label, String.ofList value)
  | _ => .error (.indexError "list index out of range")

/-- `n_out` -/
def sysstatsLines (output : String) : List (List Char) := (strip output.toList).splitOn '\n'

/-- `sysstat_table` -/
def sysstatTable (output : String) : Except PyError (Dict String String) :=
  ((sysstatsLines output).mapM sysstatsEntry).map Dict.ofPairs

/-- The columns of `ntpd_updates["statistics"]` and the labels of their values. -/
def statisticsLabels : List (String × String) :=
  [("ntp_pkts_received", "packets received"),
   ("ntp_pkts_with_current_version", "current version"),
   ("ntp_pkts_with_older_version", "older version"),
   ("ntp_pkts_with_bad_length_or_format", "bad length or format"),
   ("ntp_pkts_with_auth_failed", "authentication failed"),
   ("ntp_pkts_declined", "declined"),
   ("ntp_pkts_restricted", "restricted"),
   ("ntp_pkts_rate_limited", "rate limited"),
   ("ntp_pkts_kod_responses", "KoD responses")]

/-- The column of `ntpd_updates["status"]` and the label of its value. -/
def statusLabels : List (String × String) := [("uptime", "uptime")]

/-- `str(sysstat_table[label])`, under the name of its column. -/
def column (table : Dict String String) (p : String × String) : Except PyError (String × String) :=
  match table.lookup p.2 with
  | none => .error (.keyError p.2)
  | some value => .ok (p.1, value)

/-- Fill in columns, one after another. -/
def columns (table : Dict String String) (labels : List (String × String)) : Except PyError Smap :=
  (labels.mapM (column table)).map Dict.ofPairs

/-- `ops_ntpd_get_ntpd_global_status` for the output of `ntpq`: the statistics
    and the status. -/
def getNtpdGlobalStatus (sysstats : String) : Except PyError (Smap × Smap) :=
  (sysstatTable sysstats).bind fun table =>
  (columns table statisticsLabels).bind fun statistics =>
  (columns table statusLabels).map fun status => (statistics, status)

/-- What the invocations of `ntpq` print during one poll. -/
structure NtpqOutputs where
  apeers : String
  rv : String → String
  sysstats : String

/-- `ntpd_updates["associations_info"]`, with each dictionary iterated in some
    order. -/
def AssociationsInfo (apeers : String) (rv : String → String) (info : Dict String Smap) : Prop :=
  ∃ entries ids table addresses,
    parseApeers apeers = .ok entries ∧ IterOrder ids (aTable entries).keys ∧
      ids.foldlM (gatherStep (aTable entries) rv) ∅ = .ok table ∧
      IterOrder addresses table.keys ∧ addresses.foldlM (translateStep table) ∅ = .ok info

/-- `ops_ntpd_sync_updates_to_ovsdb`: the message that is put on the queue. An
    exception is caught, and then there is none. -/
def Polls (out : NtpqOutputs) (msg : StatusMsg) : Prop :=
  AssociationsInfo out.apeers out.rv msg.associationsInfo ∧
    getNtpdGlobalStatus out.sysstats = .ok (msg.statistics, msg.status)

/-- The steps of `ops_ntpd_get_ntpd_associations_info`, which are those of the
    relation. -/
theorem getNtpdAssociationsInfo_ok_iff {apeers : String} {rv : String → String}
    {ids addresses : List String} {info : Dict String Smap} :
    getNtpdAssociationsInfo apeers rv ids addresses = .ok info ↔
      ∃ entries table, parseApeers apeers = .ok entries ∧
        ids.foldlM (gatherStep (aTable entries) rv) ∅ = .ok table ∧
        addresses.foldlM (translateStep table) ∅ = .ok info := by
  unfold getNtpdAssociationsInfo
  constructor
  · intro h
    obtain ⟨entries, hentries, h⟩ := Rows.bind_eq_ok h
    obtain ⟨table, htable, hinfo⟩ := Rows.bind_eq_ok h
    exact ⟨entries, table, hentries, htable, hinfo⟩
  · intro hex
    obtain ⟨entries, table, hentries, htable, hinfo⟩ := hex
    rw [hentries]
    show (ids.foldlM (gatherStep (aTable entries) rv) ∅).bind _ = _
    rw [htable]
    exact hinfo

/-! ## Section 2: Reading the counters -/

/-- The text before the first colon. -/
def labelOf (line : List Char) : String :=
  String.ofList (((strip line).takeWhile (· ≠ ':')).dropWhile isSpace)

/-- The text between the first two colons. -/
def valueOf (line : List Char) : String :=
  String.ofList (((((strip line).dropWhile (· ≠ ':')).drop 1).takeWhile (· ≠ ':')).dropWhile isSpace)

/-- The value is that of the last line with the label. -/
def LastValue (lines : List (List Char)) (label value : String) : Prop :=
  ∃ before line after, lines = before ++ line :: after ∧ labelOf line = label ∧
    valueOf line = value ∧ ∀ l ∈ after, labelOf l ≠ label

section counters

theorem strip_sublist (cs : List Char) : (strip cs).Sublist cs :=
  (List.reverse_sublist.mp (by
    rw [strip, List.reverse_reverse]
    exact List.dropWhile_sublist isSpace)).trans (List.dropWhile_sublist isSpace)

/-- Trimming does not take a colon away. -/
theorem mem_strip_iff {c : Char} (hc : isSpace c = false) (cs : List Char) :
    c ∈ strip cs ↔ c ∈ cs := by
  constructor
  · intro hmem
    exact (strip_sublist cs).subset hmem
  · intro hmem
    obtain ⟨before, after, rfl⟩ := List.append_of_mem hmem
    rw [strip_eq, dropWhile_append_cons hc, rdropWhile_append_cons hc]
    exact List.mem_append_right _ List.mem_cons_self

/-- What a text is cut into, if it is cut at all. -/
theorem splitOn_eq_cons_cons {s : Char} {cs : List Char} (h : s ∈ cs) :
    ∃ rest, cs.splitOn s = cs.takeWhile (· ≠ s) ::
      ((cs.dropWhile (· ≠ s)).drop 1).takeWhile (· ≠ s) :: rest := by
  have hcut : ∀ {cs : List Char}, s ∈ cs →
      s ∉ cs.takeWhile (· ≠ s) ∧
        cs = cs.takeWhile (· ≠ s) ++ s :: (cs.dropWhile (· ≠ s)).drop 1 := by
    intro cs hmem
    obtain ⟨before, after, rfl, hnot⟩ := List.eq_append_cons_of_mem hmem
    have hall : ∀ c ∈ before, decide (c ≠ s) = true := by
      intro c hc
      rw [decide_eq_true_iff]
      rintro rfl
      exact hnot hc
    have htake : (before ++ s :: after).takeWhile (· ≠ s) = before := by
      rw [List.takeWhile_append_of_pos hall, List.takeWhile_cons_of_neg (by simp),
        List.append_nil]
    have hdrop : (before ++ s :: after).dropWhile (· ≠ s) = s :: after := by
      rw [List.dropWhile_append_of_pos hall, List.dropWhile_cons_of_neg (by simp)]
    rw [htake, hdrop]
    exact ⟨hnot, rfl⟩
  -- cut once for the label, and once more for the value if there is a second separator
  obtain ⟨hnot, heq⟩ := hcut h
  have hsplit : cs.splitOn s =
      cs.takeWhile (· ≠ s) :: ((cs.dropWhile (· ≠ s)).drop 1).splitOn s := by
    conv_lhs => rw [heq]
    exact List.splitOn_append_cons_self_of_not_mem hnot _
  rw [hsplit]
  by_cases hmem : s ∈ (cs.dropWhile (· ≠ s)).drop 1
  · obtain ⟨hnot', heq'⟩ := hcut hmem
    refine ⟨(((cs.dropWhile (· ≠ s)).drop 1).dropWhile (· ≠ s)).drop 1 |>.splitOn s, ?_⟩
    conv_lhs => rw [heq']
    rw [List.splitOn_append_cons_self_of_not_mem hnot']
  · refine ⟨[], ?_⟩
    have hall : ∀ c ∈ (cs.dropWhile (· ≠ s)).drop 1, decide (c ≠ s) = true := by
      intro c hc
      rw [decide_eq_true_iff]
      rintro rfl
      exact hmem hc
    rw [List.splitOn_eq_singleton hmem, List.takeWhile_eq_self_iff.mpr hall]

/-- A line can be read exactly if it has a colon. -/
theorem sysstatsEntry_eq (line : List Char) :
    sysstatsEntry line =
      if ':' ∈ line then .ok (labelOf line, valueOf line)
      else .error (.indexError "list index out of range") := by
  have hcolon := mem_strip_iff (show isSpace ':' = false by decide) line
  unfold sysstatsEntry sysstatsParts
  by_cases hmem : ':' ∈ line
  · obtain ⟨rest, hrest⟩ := splitOn_eq_cons_cons (hcolon.mpr hmem)
    rw [if_pos hmem, hrest]
    rfl
  · rw [if_neg hmem, List.splitOn_eq_singleton fun h => hmem (hcolon.mp h)]
    rfl

theorem sysstatTable_ok_iff {output : String} {table : Dict String String} :
    sysstatTable output = .ok table ↔ (∀ line ∈ sysstatsLines output, ':' ∈ line) ∧
      table = Dict.ofPairs ((sysstatsLines output).map fun l => (labelOf l, valueOf l)) := by
  have hentry : sysstatsEntry = fun line =>
      if ':' ∈ line then .ok (labelOf line, valueOf line)
      else .error (.indexError "list index out of range") := funext sysstatsEntry_eq
  unfold sysstatTable
  rw [hentry]
  constructor
  · intro h
    cases hlines : (sysstatsLines output).mapM fun line =>
        if ':' ∈ line then (.ok (labelOf line, valueOf line) : Except PyError (String × String))
        else .error (.indexError "list index out of range") with
    | error e =>
      rw [hlines] at h
      cases h
    | ok pairs =>
      rw [hlines] at h
      obtain ⟨hall, rfl⟩ := Rows.mapM_ite_ok_iff.mp hlines
      exact ⟨hall, (Except.ok.inj h).symm⟩
  · intro h
    rw [Rows.mapM_ite_ok_iff.mpr ⟨h.1, rfl⟩, h.2]
    rfl

/-- The table has for a label the value of its last line. -/
theorem lookup_lastValue (lines : List (List Char)) (label value : String) :
    (Dict.ofPairs (lines.map fun l => (labelOf l, valueOf l))).lookup label = some value ↔
      LastValue lines label value :=
  Dict.lookup_ofPairs_last labelOf valueOf lines

/-- Columns are filled in exactly if the table has their labels. -/
theorem columns_ok_iff {table : Dict String String} {labels : List (String × String)}
    (hnd : (labels.map Prod.fst).Nodup) {m : Smap} :
    columns table labels = .ok m ↔ m.keys = (labels.map Prod.fst).toFinset ∧
      ∀ p ∈ labels, ∃ value, table.lookup p.2 = some value ∧ m.lookup p.1 = some value := by
  have hcolumn : column table = fun p =>
      if (table.lookup p.2).isSome then .ok (p.1, (table.lookup p.2).getD "")
      else .error (.keyError p.2) := by
    funext p
    unfold column
    cases table.lookup p.2 <;> rfl
  -- the fallback is never used, as the loop fails at a label that is missing
  let value (p : String × String) : String := (table.lookup p.2).getD ""
  have hfst : (labels.map fun p => (p.1, value p)).map Prod.fst = labels.map Prod.fst := by
    rw [List.map_map]
    rfl
  have hlookup : ∀ p ∈ labels,
      (Dict.ofPairs (labels.map fun p => (p.1, value p))).lookup p.1 = some (value p) := by
    intro p hp
    rw [Dict.lookup_ofPairs (hfst ▸ hnd)]
    exact List.mem_map_of_mem hp
  have hok : columns table labels = .ok m ↔ (∀ p ∈ labels, (table.lookup p.2).isSome = true) ∧
      m = Dict.ofPairs (labels.map fun p => (p.1, value p)) := by
    unfold columns
    rw [hcolumn]
    constructor
    · intro h
      cases hlabels : labels.mapM fun p =>
          if (table.lookup p.2).isSome then
            (.ok (p.1, (table.lookup p.2).getD "") : Except PyError (String × String))
          else .error (.keyError p.2) with
      | error e =>
        rw [hlabels] at h
        cases h
      | ok pairs =>
        rw [hlabels] at h
        obtain ⟨hall, rfl⟩ := Rows.mapM_ite_ok_iff.mp hlabels
        exact ⟨hall, (Except.ok.inj h).symm⟩
    · intro h
      rw [Rows.mapM_ite_ok_iff.mpr ⟨h.1, rfl⟩, h.2]
      rfl
  rw [hok]
  constructor
  · intro h
    obtain ⟨hall, rfl⟩ := h
    refine ⟨by rw [Dict.keys_ofPairs, hfst], ?_⟩
    intro p hp
    obtain ⟨v, hv⟩ := Option.isSome_iff_exists.mp (hall p hp)
    refine ⟨v, hv, ?_⟩
    rw [hlookup p hp]
    show some ((table.lookup p.2).getD "") = some v
    rw [hv]
    rfl
  · intro h
    obtain ⟨hkeys, hall⟩ := h
    refine ⟨?_, ?_⟩
    · intro p hp
      obtain ⟨v, hv, _⟩ := hall p hp
      rw [hv]
      rfl
    · symm
      refine Dict.ofPairs_eq ⟨hfst ▸ hnd, by rw [hfst, hkeys]⟩ ?_
      intro q hq
      obtain ⟨p, hp, rfl⟩ := List.mem_map.mp hq
      obtain ⟨v, hv, hm⟩ := hall p hp
      show m.lookup p.1 = some ((table.lookup p.2).getD "")
      rw [hm, hv]
      rfl

/-- Columns can be filled in if the table has their labels. -/
theorem exists_columns {table : Dict String String} {labels : List (String × String)}
    (h : ∀ p ∈ labels, ∃ value, table.lookup p.2 = some value) :
    ∃ m, columns table labels = .ok m := by
  have hloop : ∃ pairs, labels.mapM (column table) = .ok pairs := by
    induction labels with
    | nil => exact ⟨[], rfl⟩
    | cons p labels ih =>
      obtain ⟨⟨value, hvalue⟩, hrest⟩ := List.forall_mem_cons.mp h
      obtain ⟨pairs, hpairs⟩ := ih hrest
      refine ⟨(p.1, value) :: pairs, ?_⟩
      rw [List.mapM_cons, hpairs, column, hvalue]
      rfl
  obtain ⟨pairs, hpairs⟩ := hloop
  refine ⟨Dict.ofPairs pairs, ?_⟩
  rw [columns, hpairs]
  rfl

end counters

/-- The columns of a table that are read from lines: these columns and no
    others, each with the value of the last line with its label. -/
structure ReadFrom (lines : List (List Char)) (labels : List (String × String)) (m : Smap) :
    Prop where
  keys : m.keys = (labels.map Prod.fst).toFinset
  values : ∀ p ∈ labels, ∃ value, LastValue lines p.2 value ∧ m.lookup p.1 = some value

/-- **Counters.** The statistics and the status are read from an output exactly
    if every line has a colon and every label comes up; the value of a label is
    that of its last line. -/
theorem globalStatus_ok_iff {sysstats : String} {statistics status : Smap} :
    getNtpdGlobalStatus sysstats = .ok (statistics, status) ↔
      (∀ line ∈ sysstatsLines sysstats, ':' ∈ line) ∧
        ReadFrom (sysstatsLines sysstats) statisticsLabels statistics ∧
        ReadFrom (sysstatsLines sysstats) statusLabels status := by
  have hread : ∀ {labels : List (String × String)} {m : Smap}, (labels.map Prod.fst).Nodup →
      (columns (Dict.ofPairs ((sysstatsLines sysstats).map fun l => (labelOf l, valueOf l)))
        labels = .ok m ↔ ReadFrom (sysstatsLines sysstats) labels m) := by
    intro labels m hnd
    rw [columns_ok_iff hnd]
    simp only [lookup_lastValue]
    exact ⟨fun h => ⟨h.1, h.2⟩, fun h => ⟨h.keys, h.values⟩⟩
  rw [← hread (by decide), ← hread (by decide)]
  constructor
  · intro h
    unfold getNtpdGlobalStatus at h
    cases htable : sysstatTable sysstats with
    | error e =>
      rw [htable] at h
      cases h
    | ok table =>
      obtain ⟨hall, rfl⟩ := sysstatTable_ok_iff.mp htable
      rw [htable] at h
      cases hstatistics : columns (Dict.ofPairs ((sysstatsLines sysstats).map
          fun l => (labelOf l, valueOf l))) statisticsLabels with
      | error e =>
        simp only [Except.bind, hstatistics] at h
        cases h
      | ok m =>
        cases hstatus : columns (Dict.ofPairs ((sysstatsLines sysstats).map
            fun l => (labelOf l, valueOf l))) statusLabels with
        | error e =>
          simp only [Except.bind, Except.map, hstatistics, hstatus] at h
          cases h
        | ok m' =>
          simp only [Except.bind, Except.map, hstatistics, hstatus] at h
          cases h
          exact ⟨hall, rfl, rfl⟩
  · intro h
    obtain ⟨hall, hstatistics, hstatus⟩ := h
    unfold getNtpdGlobalStatus
    simp only [Except.bind, Except.map, sysstatTable_ok_iff.mpr ⟨hall, rfl⟩, hstatistics, hstatus]

/-! ## Section 3: Every message -/

section messages
variable {apeers : String} {rv : String → String} {info : Dict String Smap}
  {entries : List PeerEntry} {table : Dict String PeerInfo}

/-- The line is the last one with this association id. -/
def LastLine (entries : List PeerEntry) (id : String) (e : PeerEntry) : Prop :=
  ∃ before after, entries = before ++ e :: after ∧ e.associd = id ∧
    ∀ e' ∈ after, e'.associd ≠ id

/-- A line of `apeers` is kept until another one has its association id. -/
theorem lookup_aTable_iff {id : String} {e : PeerEntry} :
    (aTable entries).lookup id = some e ↔ LastLine entries id e := by
  refine (Dict.lookup_ofPairs_last PeerEntry.associd (fun e => e) entries).trans ?_
  constructor
  · rintro ⟨before, e', after, hentries, hid, rfl, hnot⟩
    exact ⟨before, after, hentries, hid, hnot⟩
  · rintro ⟨before, after, hentries, hid, hnot⟩
    exact ⟨before, e, after, hentries, hid, rfl, hnot⟩

theorem lookup_aTable {id : String} {e : PeerEntry} (h : (aTable entries).lookup id = some e) :
    e ∈ entries ∧ e.associd = id := by
  obtain ⟨before, after, rfl, hid, _⟩ := lookup_aTable_iff.mp h
  exact ⟨List.mem_append_right _ List.mem_cons_self, hid⟩

/-- An iteration over a line whose variables can be read. -/
theorem gatherStep_eq {id : String} {e : PeerEntry} {v : PeerVars} (hline : LastLine entries id e)
    (hvars : parseRv (rv id) = .ok v) :
    gatherStep (aTable entries) rv table id = .ok (table.insert v.srcadr (peerInfo e v)) := by
  simp only [gatherStep, lookup_aTable_iff.mpr hline, hvars]
  rfl

theorem keys_aTable : (aTable entries).keys = (entries.map PeerEntry.associd).toFinset := by
  unfold aTable
  rw [Dict.keys_ofPairs, List.map_map]
  rfl

/-- The peer is the line with this id, filled in with what `rv` prints for it. -/
def IsPeer (entries : List PeerEntry) (rv : String → String) (id : String) (p : PeerInfo) : Prop :=
  ∃ e v, (aTable entries).lookup id = some e ∧ parseRv (rv id) = .ok v ∧ p = peerInfo e v

/-- An id has one peer at most. -/
theorem IsPeer.unique {id : String} {p p' : PeerInfo} (h : IsPeer entries rv id p)
    (h' : IsPeer entries rv id p') : p = p' := by
  obtain ⟨e, v, hline, hvars, rfl⟩ := h
  obtain ⟨e', v', hline', hvars', rfl⟩ := h'
  rw [hline] at hline'
  rw [hvars] at hvars'
  rw [Option.some.inj hline', Except.ok.inj hvars']

/-- The peer is the last one at the address `a`, in the order `ids`. -/
def LastPeer (entries : List PeerEntry) (rv : String → String) (ids : List String) (a : String)
    (p : PeerInfo) : Prop :=
  ∃ before id after, ids = before ++ id :: after ∧ IsPeer entries rv id p ∧ p.entry.remote = a ∧
    ∀ id' ∈ after, ∀ p', IsPeer entries rv id' p' → p'.entry.remote ≠ a

/-- What the second loop has gathered after the association ids `done`. -/
structure Gathered (entries : List PeerEntry) (rv : String → String) (done : List String)
    (table : Dict String PeerInfo) : Prop where
  sound : ∀ a p, table.lookup a = some p → LastPeer entries rv done a p
  complete : ∀ id ∈ done, ∃ p, IsPeer entries rv id p ∧ p.entry.remote ∈ table.keys

/-- **Step.** An iteration enters the peer of its id. -/
theorem gathered_step {done : List String} {id : String} {table' : Dict String PeerInfo}
    (h : Gathered entries rv done table)
    (hstep : gatherStep (aTable entries) rv table id = .ok table') :
    Gathered entries rv (done ++ [id]) table' := by
  unfold gatherStep at hstep
  cases hline : (aTable entries).lookup id with
  | none =>
    rw [hline] at hstep
    cases hstep
  | some e =>
    cases hvars : parseRv (rv id) with
    | error err =>
      simp only [hline, hvars, Except.map] at hstep
      cases hstep
    | ok v =>
      simp only [hline, hvars, Except.map] at hstep
      obtain rfl := Except.ok.inj hstep
      have hpeer : IsPeer entries rv id (peerInfo e v) := ⟨e, v, hline, hvars, rfl⟩
      refine { sound := ?_, complete := ?_ }
      · intro a p hp
        rw [Dict.lookup_insert_eq] at hp
        -- a peer with the same address takes the place of the earlier one
        by_cases ha : a = (peerInfo e v).entry.remote
        · rw [if_pos ha] at hp
          obtain rfl := Option.some.inj hp
          exact ⟨done, id, [], rfl, hpeer, ha.symm, fun id' hid' => absurd hid' List.not_mem_nil⟩
        · rw [if_neg ha] at hp
          obtain ⟨before, id', after, rfl, hpeer', hremote, hlater⟩ := h.sound a p hp
          refine ⟨before, id', after ++ [id], by rw [List.append_assoc]; rfl, hpeer', hremote, ?_⟩
          intro id'' hid'' p' hp'
          rcases List.mem_append.mp hid'' with hold | hnew
          · exact hlater id'' hold p' hp'
          · -- the peer that has just come up has another address
            rw [List.mem_singleton.mp hnew] at hp'
            rw [hp'.unique hpeer]
            exact Ne.symm ha
      · intro id' hid'
        rcases List.mem_append.mp hid' with hold | hnew
        · obtain ⟨p, hp, hmem⟩ := h.complete id' hold
          refine ⟨p, hp, ?_⟩
          rw [Finmap.mem_keys, Finmap.mem_insert]
          exact Or.inr (Finmap.mem_keys.mp hmem)
        · rw [List.mem_singleton.mp hnew]
          refine ⟨peerInfo e v, hpeer, ?_⟩
          rw [Finmap.mem_keys, Finmap.mem_insert]
          exact Or.inl rfl

/-- What the third loop has translated after the addresses `done`. -/
structure Translated (table : Dict String PeerInfo) (done : List String) (info : Dict String Smap) :
    Prop where
  sound : ∀ a status, info.lookup a = some status →
    ∃ p, table.lookup a = some p ∧ assocInfo p = .ok status
  complete : ∀ a ∈ done, a ∈ info.keys

/-- **Step.** An iteration enters the status of its address. -/
theorem translated_step {done : List String} {a : String} {info' : Dict String Smap}
    (h : Translated table done info) (hstep : translateStep table info a = .ok info') :
    Translated table (done ++ [a]) info' := by
  unfold translateStep at hstep
  cases hpeer : table.lookup a with
  | none =>
    rw [hpeer] at hstep
    cases hstep
  | some p =>
    cases hstatus : assocInfo p with
    | error e =>
      simp only [hpeer, hstatus, Except.map] at hstep
      cases hstep
    | ok status =>
      simp only [hpeer, hstatus, Except.map] at hstep
      obtain rfl := Except.ok.inj hstep
      refine { sound := ?_, complete := ?_ }
      · intro a' status' hlook
        rw [Dict.lookup_insert_eq] at hlook
        by_cases ha : a' = a
        · rw [if_pos ha] at hlook
          obtain rfl := Option.some.inj hlook
          exact ⟨p, ha ▸ hpeer, hstatus⟩
        · rw [if_neg ha] at hlook
          exact h.sound a' status' hlook
      · intro a' ha'
        rw [Finmap.mem_keys, Finmap.mem_insert]
        rcases List.mem_append.mp ha' with hold | hnew
        · exact Or.inr (Finmap.mem_keys.mp (h.complete a' hold))
        · exact Or.inl (List.mem_singleton.mp hnew)

/-- The words that `peer_type` and `peer_status_word` can have. -/
def peerTypes : List String := translatePeerType.map Prod.snd

def peerStatusWords : List String := translatePeerStatusWord.map Prod.snd

theorem mem_of_translate {words : List (String × String)} {key word : String}
    (h : translate words key = .ok word) : word ∈ words.map Prod.snd := by
  unfold translate at h
  cases hlook : words.lookup key with
  | none =>
    rw [hlook] at h
    cases h
  | some w =>
    rw [hlook] at h
    obtain rfl := Except.ok.inj h
    obtain ⟨before, after, rfl, _⟩ := List.lookup_eq_some_iff.mp hlook
    simp

/-- A status has every column that a server row starts with, and no others. -/
structure CompleteStatus (status : Smap) : Prop where
  keys : status.keys = Cli.ntpAssocStatusKeys.toFinset
  peerType : ∃ w ∈ peerTypes, status.lookup "peer_type" = some w
  peerStatusWord : ∃ w ∈ peerStatusWords, status.lookup "peer_status_word" = some w

theorem completeStatus_of_assocInfo {p : PeerInfo} {status : Smap}
    (h : assocInfo p = .ok status) : CompleteStatus status := by
  unfold assocInfo at h
  cases htype : translate translatePeerType p.entry.t with
  | error e =>
    rw [htype] at h
    cases h
  | ok peerType =>
    cases hword : translate translatePeerStatusWord p.peerStatusWord with
    | error e =>
      rw [htype, hword] at h
      cases h
    | ok word =>
      rw [htype, hword] at h
      obtain rfl := Except.ok.inj h
      -- every default is overwritten
      beta_reduce
      rw [Dict.ofPairs_append_of_covered (by simp [defaultAssocInfo])]
      refine { keys := ?_, peerType := ?_, peerStatusWord := ?_ }
      · rw [Dict.keys_ofPairs]
        simp only [List.map_cons, List.map_nil]
        decide
      · refine ⟨peerType, mem_of_translate htype, ?_⟩
        exact (Dict.lookup_ofPairs (by simp)).mpr (by simp)
      · refine ⟨word, mem_of_translate hword, ?_⟩
        exact (Dict.lookup_ofPairs (by simp)).mpr (by simp)

/-- What the entries of a message are: each stands under an address for the
    peer with this source address, one line of `apeers` and the variables that
    `rv` prints for it, and no peer is left out. -/
structure InfoOf (entries : List PeerEntry) (rv : String → String) (info : Dict String Smap) :
    Prop where
  sound : ∀ a status, info.lookup a = some status → CompleteStatus status ∧
    status.lookup "remote_peer_address" = some a ∧
      ∃ e ∈ entries, ∃ v, parseRv (rv e.associd) = .ok v ∧ v.srcadr = a ∧
        assocInfo (peerInfo e v) = .ok status
  complete : ∀ e ∈ entries, ∃ v, parseRv (rv e.associd) = .ok v ∧ v.srcadr ∈ info.keys

/-- **Run.** The second loop gathers the peers of its ids. -/
theorem gathered_of_loop {ids : List String}
    (h : ids.foldlM (gatherStep (aTable entries) rv) ∅ = .ok table) :
    Gathered entries rv ids table := by
  refine @Rows.foldlM_visited _ _ _ _ (Gathered entries rv) ?_ _ _ _ ?_ h
  · intro done id m m' hm hstep
    exact gathered_step hm hstep
  · refine { sound := ?_, complete := fun id hid => absurd hid List.not_mem_nil }
    intro a p hp
    rw [Finmap.lookup_empty] at hp
    cases hp

/-- **Run.** The third loop translates the peers of its addresses. -/
theorem translated_of_loop {addresses : List String}
    (h : addresses.foldlM (translateStep table) ∅ = .ok info) :
    Translated table addresses info := by
  refine @Rows.foldlM_visited _ _ _ _ (Translated table) ?_ _ _ _ ?_ h
  · intro done a m m' hm hstep
    exact translated_step hm hstep
  · refine { sound := ?_, complete := fun a ha => absurd ha List.not_mem_nil }
    intro a status hlook
    rw [Finmap.lookup_empty] at hlook
    cases hlook

/-- The entries of the map are those of the peers, in every order of the loops. -/
theorem infoOf_of_associationsInfo (h : AssociationsInfo apeers rv info) :
    ∃ entries, parseApeers apeers = .ok entries ∧ InfoOf entries rv info := by
  obtain ⟨entries, ids, table, addresses, hentries, hids, htable, haddresses, hinfo⟩ := h
  have hgathered := gathered_of_loop htable
  have htranslated := translated_of_loop hinfo
  refine ⟨entries, hentries, { sound := ?_, complete := ?_ }⟩
  · intro a status hlook
    obtain ⟨p, hp, hstatus⟩ := htranslated.sound a status hlook
    obtain ⟨_, id, _, _, ⟨e, v, hline, hvars, rfl⟩, hremote, _⟩ := hgathered.sound a p hp
    obtain ⟨he, rfl⟩ := lookup_aTable hline
    refine ⟨completeStatus_of_assocInfo hstatus, ?_, e, he, v, hvars, hremote, hstatus⟩
    rw [lookup_remotePeerAddress hstatus, hremote]
  · intro e he
    have hid : e.associd ∈ ids := by
      rw [hids.mem_iff, keys_aTable, List.mem_toFinset]
      exact List.mem_map_of_mem he
    obtain ⟨p, ⟨e', v, _, hvars, rfl⟩, hmem⟩ := hgathered.complete e.associd hid
    exact ⟨v, hvars, htranslated.complete _ (haddresses.mem_iff.mpr hmem)⟩

/-- Where several peers have one address, the entry is that of the last one in
    the order in which the second loop has visited the association ids. -/
theorem lastPeer_of_associationsInfo (h : AssociationsInfo apeers rv info)
    (hentries : parseApeers apeers = .ok entries) :
    ∃ ids, IterOrder ids (entries.map PeerEntry.associd).toFinset ∧
      ∀ a status, info.lookup a = some status →
        ∃ before e v after, ids = before ++ e.associd :: after ∧
          LastLine entries e.associd e ∧ parseRv (rv e.associd) = .ok v ∧ v.srcadr = a ∧
          assocInfo (peerInfo e v) = .ok status ∧
          ∀ id ∈ after, ∀ v', parseRv (rv id) = .ok v' → v'.srcadr ≠ a := by
  obtain ⟨entries', ids, table, addresses, hentries', hids, htable, _, hinfo⟩ := h
  rw [hentries] at hentries'
  obtain rfl := Except.ok.inj hentries'
  have horder : IterOrder ids (entries.map PeerEntry.associd).toFinset := keys_aTable ▸ hids
  refine ⟨ids, horder, ?_⟩
  intro a status hlook
  obtain ⟨p, hp, hstatus⟩ := (translated_of_loop hinfo).sound a status hlook
  obtain ⟨before, id, after, hsplit, ⟨e, v, hline, hvars, rfl⟩, hremote, hlater⟩ :=
    (gathered_of_loop htable).sound a p hp
  obtain ⟨_, rfl⟩ := lookup_aTable hline
  refine ⟨before, e, v, after, hsplit, lookup_aTable_iff.mp hline, hvars, hremote, hstatus, ?_⟩
  intro id hid v' hvars'
  have hmem : id ∈ (aTable entries).keys := by
    rw [← hids.mem_iff, hsplit]
    exact List.mem_append_right _ (List.mem_cons_of_mem _ hid)
  obtain ⟨e', hline'⟩ := Dict.mem_keys_iff.mp hmem
  exact hlater id hid _ ⟨e', v', hline', hvars', rfl⟩

/-- **Messages.** Whatever `ntpq` prints and in whatever order the loops run, a
    message that is sent has one complete entry per source address, which is
    that of the last peer of this address, leaves out no peer that was printed,
    and has every column of the statistics and of the status. -/
theorem poll_message {out : NtpqOutputs} {msg : StatusMsg} (h : Polls out msg) :
    (∃ entries ids, parseApeers out.apeers = .ok entries ∧
        IterOrder ids (entries.map PeerEntry.associd).toFinset ∧
        InfoOf entries out.rv msg.associationsInfo ∧
        ∀ a status, msg.associationsInfo.lookup a = some status →
          ∃ before e v after, ids = before ++ e.associd :: after ∧
            LastLine entries e.associd e ∧ parseRv (out.rv e.associd) = .ok v ∧ v.srcadr = a ∧
            assocInfo (peerInfo e v) = .ok status ∧
            ∀ id ∈ after, ∀ v', parseRv (out.rv id) = .ok v' → v'.srcadr ≠ a) ∧
      ReadFrom (sysstatsLines out.sysstats) statisticsLabels msg.statistics ∧
      ReadFrom (sysstatsLines out.sysstats) statusLabels msg.status := by
  obtain ⟨hinfo, hglobal⟩ := h
  obtain ⟨_, hstatistics, hstatus⟩ := globalStatus_ok_iff.mp hglobal
  obtain ⟨entries, hentries, hinfoOf⟩ := infoOf_of_associationsInfo hinfo
  obtain ⟨ids, hids, hlast⟩ := lastPeer_of_associationsInfo hinfo hentries
  exact ⟨⟨entries, ids, hentries, hids, hinfoOf, hlast⟩, hstatistics, hstatus⟩

end messages

/-! ## Section 4: Printed counters -/

/-- A line of `sysstats`: a label, a colon and a value. -/
structure CounterLine (p : String × String) (line : List Char) : Prop where
  label : ':' ∉ p.1.toList ∧ '\n' ∉ p.1.toList ∧ p.1.toList.dropWhile isSpace = p.1.toList
  value : ':' ∉ p.2.toList ∧ '\n' ∉ p.2.toList ∧ strip p.2.toList = p.2.toList
  printed : ∃ lead gap trail, Blanks lead ∧ Blanks gap ∧ Blanks trail ∧
    line = lead ++ p.1.toList ++ ':' :: (gap ++ p.2.toList ++ trail)

/-- The output of `sysstats`: a line for each counter. -/
def PrintsSysstats (output : String) (counters : List (String × String)) : Prop :=
  ∃ (first : List Char) (rest : List (List Char)) (trail : List Char),
    output.toList = first ++ rest.flatMap (fun l => '\n' :: l) ++ trail ∧
      List.Forall₂ CounterLine counters (first :: rest) ∧ ∀ c ∈ trail, isSpace c = true

section counterLines
variable {p : String × String} {line : List Char}

theorem CounterLine.newline (h : CounterLine p line) : '\n' ∉ line := by
  obtain ⟨lead, gap, trail, hlead, hgap, htrail, rfl⟩ := h.printed
  simp [hlead.newline, hgap.newline, htrail.newline, h.label.2.1, h.value.2.1]

theorem CounterLine.nonblank (h : CounterLine p line) : ∃ c ∈ line, isSpace c = false := by
  obtain ⟨lead, gap, trail, _, _, _, rfl⟩ := h.printed
  exact ⟨':', by simp, by decide⟩

/-- What is left of the line when it is trimmed. -/
theorem CounterLine.strip_eq (h : CounterLine p line) :
    ∃ gap, (∀ c ∈ gap, isSpace c = true) ∧
      strip line = p.1.toList ++ ':' :: (gap ++ p.2.toList) := by
  obtain ⟨lead, gap, trail, hlead, hgap, htrail, rfl⟩ := h.printed
  have hlabel : (lead ++ p.1.toList).dropWhile isSpace = p.1.toList := by
    rw [List.dropWhile_append_of_pos hlead.isSpace, h.label.2.2]
  rw [Daemon.strip_eq, dropWhile_append_cons (by decide), hlabel,
    rdropWhile_append_cons (by decide), rdropWhile_append_of_all htrail.isSpace]
  have hvalue : (p.2.toList.dropWhile isSpace).rdropWhile isSpace = p.2.toList := h.value.2.2
  rcases exists_or_forall isSpace p.2.toList with hsome | hall
  · refine ⟨gap, hgap.isSpace, ?_⟩
    have hend : p.2.toList.rdropWhile isSpace = p.2.toList := by
      conv_lhs => rw [← hvalue]
      rw [List.rdropWhile_idempotent, hvalue]
    rw [rdropWhile_append_of_exists hsome, hend]
  · -- a blank value is empty
    have hempty : p.2.toList = [] := by
      rw [← hvalue, List.dropWhile_eq_nil_iff.mpr hall]
      rfl
    refine ⟨[], fun c hc => absurd hc List.not_mem_nil, ?_⟩
    rw [hempty, List.append_nil, List.rdropWhile_eq_nil_iff.mpr hgap.isSpace]
    rfl

/-- The line is read as it was printed. -/
theorem CounterLine.read (h : CounterLine p line) : labelOf line = p.1 ∧ valueOf line = p.2 := by
  obtain ⟨gap, hgap, hstrip⟩ := h.strip_eq
  have hnot : ∀ {cs : List Char}, ':' ∉ cs → ∀ c ∈ cs, decide (c ≠ ':') = true := by
    intro cs hcs c hc
    rw [decide_eq_true_iff]
    rintro rfl
    exact hcs hc
  have hrest : ':' ∉ gap ++ p.2.toList := by
    rw [List.mem_append, not_or]
    exact ⟨fun hmem => absurd (hgap ':' hmem) (by decide), h.value.1⟩
  unfold labelOf valueOf
  rw [hstrip, List.takeWhile_append_of_pos (hnot h.label.1),
    List.takeWhile_cons_of_neg (by decide), List.append_nil,
    List.dropWhile_append_of_pos (hnot h.label.1), List.dropWhile_cons_of_neg (by decide)]
  refine ⟨?_, ?_⟩
  · rw [h.label.2.2, String.ofList_toList]
  · have hvalue : p.2.toList.dropWhile isSpace = p.2.toList := by
      have hstart : (p.2.toList.dropWhile isSpace).rdropWhile isSpace = p.2.toList := h.value.2.2
      apply List.Sublist.eq_of_length_le (List.dropWhile_sublist isSpace)
      conv_lhs => rw [← hstart]
      exact (List.rdropWhile_prefix isSpace _).length_le
    show String.ofList (((gap ++ p.2.toList).takeWhile _).dropWhile isSpace) = p.2
    rw [List.takeWhile_eq_self_iff.mpr (hnot hrest), List.dropWhile_append_of_pos hgap, hvalue,
      String.ofList_toList]

theorem strip_strip (cs : List Char) : strip (strip cs) = strip cs := by
  have hdrop : ((cs.dropWhile isSpace).rdropWhile isSpace).dropWhile isSpace =
      (cs.dropWhile isSpace).rdropWhile isSpace := by
    rcases exists_or_forall isSpace (cs.dropWhile isSpace) with hsome | hall
    · obtain ⟨c, rest, hcs⟩ : ∃ c rest, cs.dropWhile isSpace = c :: rest := by
        obtain ⟨c, hc, _⟩ := hsome
        exact List.exists_cons_of_ne_nil (List.ne_nil_of_mem hc)
      have hc : isSpace c = false := by
        have hhead := List.head?_dropWhile_not isSpace cs
        rw [hcs] at hhead
        simpa using hhead
      have hkept : ([] ++ c :: rest).rdropWhile isSpace = [] ++ c :: rest.rdropWhile isSpace :=
        rdropWhile_append_cons hc
      rw [List.nil_append, List.nil_append] at hkept
      rw [hcs, hkept, List.dropWhile_cons_of_neg (by rw [hc]; exact Bool.false_ne_true)]
    · rw [List.rdropWhile_eq_nil_iff.mpr hall]
      rfl
  show ((((cs.dropWhile isSpace).rdropWhile isSpace).dropWhile isSpace).rdropWhile isSpace) = _
  rw [hdrop, List.rdropWhile_idempotent]
  rfl

end counterLines

/-- The lines of a trimmed text are those of the text, once they are trimmed
    themselves. -/
theorem map_strip_lines {first : List Char} {rest : List (List Char)} {trail : List Char}
    (hlines : ∀ l ∈ first :: rest, '\n' ∉ l ∧ ∃ c ∈ l, isSpace c = false)
    (htrail : ∀ c ∈ trail, isSpace c = true) :
    ((strip (first ++ rest.flatMap (fun l => '\n' :: l) ++ trail)).splitOn '\n').map strip =
      (first :: rest).map strip := by
  obtain ⟨⟨hfirst, hsome⟩, hrest⟩ := List.forall_mem_cons.mp hlines
  have hstart : '\n' ∉ first.dropWhile isSpace :=
    fun hmem => hfirst ((List.dropWhile_sublist isSpace).subset hmem)
  have hdrop : strip (first.dropWhile isSpace) = strip first := by
    rw [strip_eq, strip_eq, List.dropWhile_idempotent]
  rw [strip_eq, List.append_assoc, dropWhile_append_of_exists hsome, ← List.append_assoc,
    rdropWhile_append_of_all htrail]
  rcases List.eq_nil_or_concat rest with rfl | ⟨before, l, rfl⟩
  · rw [List.flatMap_nil, List.append_nil, List.splitOn_eq_singleton]
    · rw [List.map_singleton, List.map_singleton, ← strip_eq, strip_strip]
    · exact fun hmem => hstart ((List.rdropWhile_prefix isSpace _).subset hmem)
  · -- the last line loses its last blanks, which do not count
    rw [List.concat_eq_append] at hrest ⊢
    obtain ⟨hl, hblank⟩ := hrest l (List.mem_append_right _ List.mem_cons_self)
    have htext : ∀ l' : List Char,
        first.dropWhile isSpace ++ (before ++ [l']).flatMap (fun l => '\n' :: l) =
          (first.dropWhile isSpace ++ before.flatMap fun l => '\n' :: l) ++ '\n' :: l' := by
      intro l'
      rw [List.flatMap_append, List.flatMap_singleton, List.append_assoc]
    rw [htext, rdropWhile_append_line hblank, ← htext, splitOn_lines hstart]
    · have hlast : strip (l.rdropWhile isSpace) = strip l := by
        obtain ⟨c, hc, hkept⟩ := hblank
        rw [strip_eq, strip_eq]
        obtain ⟨xs, ys, rfl⟩ := List.append_of_mem hc
        rw [rdropWhile_append_cons hkept, dropWhile_append_cons hkept, dropWhile_append_cons hkept,
          rdropWhile_append_cons hkept, rdropWhile_append_cons hkept, List.rdropWhile_idempotent]
      rw [List.map_cons, List.map_cons, List.map_append, List.map_append, List.map_singleton,
        List.map_singleton, hdrop, hlast]
    · intro l' hl'
      rcases List.mem_append.mp hl' with hmem | hmem
      · exact (hrest l' (List.mem_append_left _ hmem)).1
      · rw [List.mem_singleton.mp hmem]
        exact fun hin => hl ((List.rdropWhile_prefix isSpace l).subset hin)

/-- Labels and values are read from the trimmed line. -/
theorem labelOf_strip (line : List Char) : labelOf (strip line) = labelOf line := by
  unfold labelOf
  rw [strip_strip]

theorem valueOf_strip (line : List Char) : valueOf (strip line) = valueOf line := by
  unfold valueOf
  rw [strip_strip]

/-- **Counters are read.** The lines have colons, and the labels and values are
    those that were printed. -/
theorem sysstatsLines_of_prints {output : String} {counters : List (String × String)}
    (h : PrintsSysstats output counters) :
    (∀ line ∈ sysstatsLines output, ':' ∈ line) ∧
      (sysstatsLines output).map (fun l => (labelOf l, valueOf l)) = counters := by
  obtain ⟨first, rest, trail, hout, hcounters, htrail⟩ := h
  have hline : ∀ l ∈ first :: rest, ∃ p, CounterLine p l := by
    intro l hl
    obtain ⟨i, hi, rfl⟩ := List.getElem_of_mem hl
    have hi' : i < counters.length := by rw [hcounters.length_eq]; exact hi
    exact ⟨counters[i], hcounters.get hi' hi⟩
  have hmap : (sysstatsLines output).map strip = (first :: rest).map strip := by
    unfold sysstatsLines
    rw [hout]
    refine map_strip_lines ?_ htrail
    intro l hl
    obtain ⟨p, hp⟩ := hline l hl
    exact ⟨hp.newline, hp.nonblank⟩
  have hread : ∀ lines : List (List Char),
      lines.map (fun l => (labelOf l, valueOf l)) =
        (lines.map strip).map fun l => (labelOf l, valueOf l) := by
    intro lines
    rw [List.map_map]
    refine List.map_congr_left fun l _ => ?_
    show (labelOf l, valueOf l) = (labelOf (strip l), valueOf (strip l))
    rw [labelOf_strip, valueOf_strip]
  refine ⟨?_, ?_⟩
  · intro line hmem
    have hstripped : strip line ∈ (first :: rest).map strip := hmap ▸ List.mem_map_of_mem hmem
    obtain ⟨l, hl, heq⟩ := List.mem_map.mp hstripped
    obtain ⟨p, hp⟩ := hline l hl
    obtain ⟨gap, _, hstrip⟩ := hp.strip_eq
    refine (mem_strip_iff (by decide) line).mp ?_
    rw [← heq, hstrip]
    simp
  · rw [hread, hmap, ← hread]
    have hall : List.Forall₂ (fun p q => q = p) counters
        ((first :: rest).map fun l => (labelOf l, valueOf l)) := by
      rw [List.forall₂_map_right_iff]
      exact hcounters.imp fun p l hp => by rw [hp.read.1, hp.read.2]
    exact (List.forall₂_eq_eq_eq ▸ hall.imp fun p q hpq => hpq.symm : counters = _).symm

section prints
variable {apeers : String} {rv : String → String} {entries : List PeerEntry} {peers : List PeerInfo}
variable {sysstats : String} {counters labels : List (String × String)}

/-- The peers that the second loop gathers are those that are reported. -/
theorem isPeer_iff (hpeers : List.Forall₂ (Describes rv) entries peers)
    (hnd : (peers.map fun p => p.entry.associd).Nodup) {id : String} {p : PeerInfo} :
    IsPeer entries rv id p ↔ p ∈ peers ∧ p.entry.associd = id := by
  constructor
  · intro h
    obtain ⟨e, v, hline, hvars, rfl⟩ := h
    obtain ⟨he, rfl⟩ := lookup_aTable hline
    obtain ⟨i, hi, rfl⟩ := List.getElem_of_mem he
    have hi' : i < peers.length := by rw [← hpeers.length_eq]; exact hi
    obtain ⟨v', hv', hinfo⟩ := hpeers.get hi hi'
    have hv'' : parseRv (rv entries[i].associd) = .ok v' := hv'
    rw [hvars] at hv''
    obtain rfl := Except.ok.inj hv''
    exact ⟨List.mem_iff_getElem.mpr ⟨i, hi', hinfo.symm⟩, rfl⟩
  · intro h
    obtain ⟨hp, rfl⟩ := h
    obtain ⟨e, he, v, hv, rfl⟩ := exists_entry hpeers hp
    have hnd' : (entries.map PeerEntry.associd).Nodup := by
      rw [associds_eq hpeers]
      exact hnd
    exact ⟨e, v, Rows.lookup_index_of_mem (f := PeerEntry.associd) (v := fun e => e) hnd' he, hv, rfl⟩

/-- A report leads to a map, in some order of the loops. -/
theorem exists_associationsInfo (h : Reports apeers rv peers) :
    ∃ info, AssociationsInfo apeers rv info := by
  obtain ⟨entries, hentries, hpeers⟩ := h.read
  let ids := (peers.map fun p => p.entry.associd).toFinset.toList
  let addresses := (peers.map fun p => p.entry.remote).toFinset.toList
  obtain ⟨entries', table, hentries', htable, hinfo⟩ := getNtpdAssociationsInfo_ok_iff.mp
    (getNtpdAssociationsInfo_of_reports h (iterOrder_toList _) (iterOrder_toList _))
  rw [hentries] at hentries'
  obtain rfl := Except.ok.inj hentries'
  have hids : IterOrder ids (aTable entries).keys := by
    rw [keys_aTable, associds_eq hpeers]
    exact iterOrder_toList _
  have hgathered := gathered_of_loop htable
  refine ⟨_, entries, ids, table, addresses, hentries, hids, htable, ?_, hinfo⟩
  have hkeys : table.keys = (peers.map fun p => p.entry.remote).toFinset := by
    ext a
    rw [List.mem_toFinset, List.mem_map, Dict.mem_keys_iff]
    constructor
    · intro hex
      obtain ⟨p, hp⟩ := hex
      obtain ⟨_, id, _, _, hpeer, hremote, _⟩ := hgathered.sound a p hp
      exact ⟨p, ((isPeer_iff hpeers h.associds).mp hpeer).1, hremote⟩
    · intro hex
      obtain ⟨p, hp, rfl⟩ := hex
      have hid : p.entry.associd ∈ ids :=
        Finset.mem_toList.mpr (List.mem_toFinset.mpr (List.mem_map.mpr ⟨p, hp, rfl⟩))
      obtain ⟨p', hpeer, hmem⟩ := hgathered.complete _ hid
      obtain ⟨hp', hsame⟩ := (isPeer_iff hpeers h.associds).mp hpeer
      rw [Rows.eq_of_index h.associds hp' hp hsame] at hmem
      exact Dict.mem_keys_iff.mp hmem
  rw [hkeys]
  exact iterOrder_toList _

/-- In every order of the loops the map has the status of each peer under its
    source address. -/
theorem lookup_associationsInfo (h : Reports apeers rv peers) {info : Dict String Smap}
    (hinfo : AssociationsInfo apeers rv info) {a : String} {status : Smap} :
    info.lookup a = some status ↔ ∃ p ∈ peers, p.entry.remote = a ∧ assocInfo p = .ok status := by
  obtain ⟨entries, hentries, hinfoOf⟩ := infoOf_of_associationsInfo hinfo
  obtain ⟨entries', hentries', hpeers⟩ := h.read
  rw [hentries] at hentries'
  obtain rfl := Except.ok.inj hentries'
  have hnd : (entries.map PeerEntry.associd).Nodup := by
    rw [associds_eq hpeers]
    exact h.associds
  have hpeer : ∀ {e v}, e ∈ entries → parseRv (rv e.associd) = .ok v → peerInfo e v ∈ peers := by
    intro e v he hv
    have hline : (aTable entries).lookup e.associd = some e :=
      Rows.lookup_index_of_mem (f := PeerEntry.associd) (v := fun e => e) hnd he
    exact ((isPeer_iff hpeers h.associds).mp ⟨e, v, hline, hv, rfl⟩).1
  constructor
  · intro hlook
    obtain ⟨_, _, e, he, v, hv, hsrcadr, hstatus⟩ := hinfoOf.sound a status hlook
    exact ⟨peerInfo e v, hpeer he hv, hsrcadr, hstatus⟩
  · intro hex
    obtain ⟨p, hp, rfl, hstatus⟩ := hex
    obtain ⟨e, he, v, hv, rfl⟩ := exists_entry hpeers hp
    obtain ⟨v', hv', hmem⟩ := hinfoOf.complete e he
    rw [hv] at hv'
    obtain rfl := Except.ok.inj hv'
    obtain ⟨status', hstatus'⟩ := Dict.mem_keys_iff.mp hmem
    -- the entry is that of a peer with the same address, and there is only one
    obtain ⟨_, _, e', he', v', hv', hsame, hother⟩ := hinfoOf.sound _ _ hstatus'
    have heq : peerInfo e' v' = peerInfo e v :=
      Rows.eq_of_index h.remotes (hpeer he' hv') (hpeer he hv) hsame
    rw [heq, hstatus] at hother
    rw [Except.ok.inj hother]
    exact hstatus'

/-- The last value of a label is the printed one. -/
theorem lastValue_iff_of_prints (h : PrintsSysstats sysstats counters)
    (hnd : (counters.map Prod.fst).Nodup) {label value : String} :
    LastValue (sysstatsLines sysstats) label value ↔ (label, value) ∈ counters := by
  obtain ⟨_, hread⟩ := sysstatsLines_of_prints h
  rw [← lookup_lastValue, hread, Dict.lookup_ofPairs hnd]

/-- What has been read from printed counters has been printed. -/
theorem ReadFrom.printed {m : Smap} (hm : ReadFrom (sysstatsLines sysstats) labels m)
    (h : PrintsSysstats sysstats counters) (hnd : (counters.map Prod.fst).Nodup) :
    ∀ p ∈ labels, ∃ value, (p.2, value) ∈ counters ∧ m.lookup p.1 = some value := by
  intro p hp
  obtain ⟨value, hlast, hlook⟩ := hm.values p hp
  exact ⟨value, (lastValue_iff_of_prints h hnd).mp hlast, hlook⟩

/-- Columns can be read when all their labels have been printed. -/
theorem exists_readFrom (h : PrintsSysstats sysstats counters)
    (hnd : (counters.map Prod.fst).Nodup) (hlabels : (labels.map Prod.fst).Nodup)
    (hall : ∀ p ∈ labels, p.2 ∈ counters.map Prod.fst) :
    ∃ m, ReadFrom (sysstatsLines sysstats) labels m := by
  have htable : ∀ p ∈ labels, ∃ value, (Dict.ofPairs counters).lookup p.2 = some value :=
    fun p hp => Dict.mem_keys_iff.mp (Dict.mem_keys_ofPairs.mpr (hall p hp))
  obtain ⟨m, hm⟩ := exists_columns htable
  obtain ⟨hkeys, hlooks⟩ := (columns_ok_iff hlabels).mp hm
  refine ⟨m, hkeys, ?_⟩
  intro p hp
  obtain ⟨value, htablevalue, hmvalue⟩ := hlooks p hp
  rw [Dict.lookup_ofPairs hnd] at htablevalue
  exact ⟨value, (lastValue_iff_of_prints h hnd).mpr htablevalue, hmvalue⟩

/-- The statistics and the status can be read when no label is missing. -/
theorem exists_globalStatus (h : PrintsSysstats sysstats counters)
    (hnd : (counters.map Prod.fst).Nodup)
    (hall : ∀ p ∈ statisticsLabels ++ statusLabels, p.2 ∈ counters.map Prod.fst) :
    ∃ r, getNtpdGlobalStatus sysstats = .ok r := by
  obtain ⟨statistics, hstatistics⟩ := exists_readFrom h hnd
    (show (statisticsLabels.map Prod.fst).Nodup by decide)
    fun p hp => hall p (List.mem_append_left _ hp)
  obtain ⟨status, hstatus⟩ := exists_readFrom h hnd
    (show (statusLabels.map Prod.fst).Nodup by decide)
    fun p hp => hall p (List.mem_append_right _ hp)
  obtain ⟨hcolons, _⟩ := sysstatsLines_of_prints h
  exact ⟨(statistics, status), globalStatus_ok_iff.mpr ⟨hcolons, hstatistics, hstatus⟩⟩

end prints

/-- **Polls.** Printed peers and printed counters lead to a message exactly if
    every label comes up among the counters; it has the status of each peer
    under its source address and in every column the value that was printed
    under its label. -/
theorem poll_prints {out : NtpqOutputs} {peers : List Peer} {counters : List (String × String)}
    (hpeers : Prints out.apeers out.rv peers) (hcounters : PrintsSysstats out.sysstats counters)
    (hnd : (counters.map Prod.fst).Nodup) :
    ((∃ msg, Polls out msg) ↔
      ∀ p ∈ statisticsLabels ++ statusLabels, p.2 ∈ counters.map Prod.fst) ∧
    ∀ msg, Polls out msg →
      (∀ a status, msg.associationsInfo.lookup a = some status ↔
        ∃ p ∈ peers, p.vars.srcadr = a ∧ p.status = status) ∧
      (∀ p ∈ statisticsLabels, ∃ value, (p.2, value) ∈ counters ∧
        msg.statistics.lookup p.1 = some value) ∧
      ∀ p ∈ statusLabels, ∃ value, (p.2, value) ∈ counters ∧
        msg.status.lookup p.1 = some value := by
  have hreports := reports_of_prints hpeers
  refine ⟨?_, ?_⟩
  · constructor
    · intro hex p hp
      obtain ⟨msg, _, hglobal⟩ := hex
      obtain ⟨_, hstatistics, hstatus⟩ := globalStatus_ok_iff.mp hglobal
      rcases List.mem_append.mp hp with hleft | hright
      · obtain ⟨value, hmem, _⟩ := hstatistics.printed hcounters hnd p hleft
        exact List.mem_map.mpr ⟨_, hmem, rfl⟩
      · obtain ⟨value, hmem, _⟩ := hstatus.printed hcounters hnd p hright
        exact List.mem_map.mpr ⟨_, hmem, rfl⟩
    · intro hall
      obtain ⟨info, hinfo⟩ := exists_associationsInfo hreports
      obtain ⟨⟨statistics, status⟩, hglobal⟩ := exists_globalStatus hcounters hnd hall
      exact ⟨⟨info, statistics, status⟩, hinfo, hglobal⟩
  · intro msg hmsg
    obtain ⟨hinfo, hglobal⟩ := hmsg
    obtain ⟨_, hstatistics, hstatus⟩ := globalStatus_ok_iff.mp hglobal
    refine ⟨?_, hstatistics.printed hcounters hnd, hstatus.printed hcounters hnd⟩
    intro a status
    rw [lookup_associationsInfo hreports hinfo]
    constructor
    · intro hex
      obtain ⟨q, hq, ha, hok⟩ := hex
      obtain ⟨p, hp, rfl⟩ := List.mem_map.mp hq
      rw [assocInfo_info (hpeers.types p hp) (hpeers.selections p hp)] at hok
      exact ⟨p, hp, ha, Except.ok.inj hok⟩
    · intro hex
      obtain ⟨p, hp, ha, rfl⟩ := hex
      exact ⟨p.info, List.mem_map_of_mem hp, ha,
        assocInfo_info (hpeers.types p hp) (hpeers.selections p hp)⟩

/-! ### Polls of two peers -/

/-- The counters of an ntpd that has just been started. -/
def oneCounters : List (String × String) :=
  [("uptime", "33"), ("sysstats reset", "33"), ("packets received", "4"), ("current version", "4"),
   ("older version", "0"), ("bad length or format", "0"), ("authentication failed", "0"),
   ("declined", "0"), ("restricted", "0"), ("rate limited", "0"), ("KoD responses", "0"),
   ("processed for time", "3")]

/-- `sysstats` with these counters. -/
def oneSysstats : String :=
  "uptime:                 33\nsysstats reset:         33\npackets received:       4\n" ++
  "current version:        4\nolder version:          0\nbad length or format:   0\n" ++
  "authentication failed:  0\ndeclined:               0\nrestricted:             0\n" ++
  "rate limited:           0\nKoD responses:          0\nprocessed for time:     3\n"

def twoOutputs : NtpqOutputs := { apeers := twoApeers, rv := twoRv, sysstats := oneSysstats }

/-- Here both peers have the address of the first one. -/
def sharedOutputs : NtpqOutputs := { twoOutputs with rv := fun _ => oneRv }

/-- The line of a counter, with the values one below the other. -/
def counterLine (p : String × String) : List Char :=
  p.1.toList ++ ':' :: (List.replicate (23 - p.1.toList.length) ' ' ++ p.2.toList)

theorem printsSysstats_oneSysstats : PrintsSysstats oneSysstats oneCounters := by
  have hline : ∀ p ∈ oneCounters, CounterLine p (counterLine p) := by
    have hdecide : ∀ p ∈ oneCounters,
        (':' ∉ p.1.toList ∧ '\n' ∉ p.1.toList ∧ p.1.toList.dropWhile isSpace = p.1.toList) ∧
        (':' ∉ p.2.toList ∧ '\n' ∉ p.2.toList ∧ strip p.2.toList = p.2.toList) := by
      decide +kernel
    intro p hp
    obtain ⟨hlabel, hvalue⟩ := hdecide p hp
    refine ⟨hlabel, hvalue, [], List.replicate (23 - p.1.toList.length) ' ', [], by decide, ?_,
      by decide, by simp [counterLine]⟩
    intro c hc
    rw [(List.mem_replicate.mp hc).2]
    exact ⟨rfl, by decide⟩
  refine ⟨counterLine ("uptime", "33"), (oneCounters.drop 1).map counterLine, ['\n'], ?_, ?_,
    by simp [isSpace]⟩
  · unfold oneSysstats
    rw [String.toList_append, String.toList_append, String.toList_append]
    decide +kernel
  · show List.Forall₂ CounterLine oneCounters (oneCounters.map counterLine)
    rw [List.forall₂_map_right_iff, List.forall₂_same]
    exact hline

theorem poll_prints_two : ∃ msg, Polls twoOutputs msg ∧
    (∀ a status, msg.associationsInfo.lookup a = some status ↔
      ∃ p ∈ [onePrinted, secondPrinted], p.vars.srcadr = a ∧ p.status = status) ∧
    msg.statistics.lookup "ntp_pkts_received" = some "4" ∧
    msg.status.lookup "uptime" = some "33" := by
  obtain ⟨hsent, hmsg⟩ := @poll_prints twoOutputs _ _ prints_twoPeers printsSysstats_oneSysstats
    (by decide)
  obtain ⟨msg, hpolls⟩ := hsent.mpr (by decide)
  obtain ⟨hinfo, hstatistics, hstatus⟩ := hmsg msg hpolls
  obtain ⟨received, hreceived, hlook⟩ :=
    hstatistics ("ntp_pkts_received", "packets received") (by decide)
  obtain ⟨uptime, huptime, hlook'⟩ := hstatus ("uptime", "uptime") (by decide)
  obtain rfl : received = "4" := by simpa [oneCounters] using hreceived
  obtain rfl : uptime = "33" := by simpa [oneCounters] using huptime
  exact ⟨msg, hpolls, hinfo, hlook, hlook'⟩

theorem globalStatus_oneSysstats : ∃ r, getNtpdGlobalStatus oneSysstats = .ok r :=
  exists_globalStatus printsSysstats_oneSysstats (by decide) (by decide)

theorem polls_twoOutputs : ∃ msg, Polls twoOutputs msg ∧
    msg.associationsInfo.lookup "10.0.0.1" = some onePrinted.status ∧
    msg.associationsInfo.lookup "10.0.0.2" = some secondPrinted.status := by
  have hreports := reports_of_prints prints_twoPeers
  obtain ⟨info, hinfo⟩ := exists_associationsInfo hreports
  obtain ⟨⟨statistics, status⟩, hglobal⟩ := globalStatus_oneSysstats
  refine ⟨⟨info, statistics, status⟩, ⟨hinfo, hglobal⟩, ?_, ?_⟩
  · exact (lookup_associationsInfo hreports hinfo).mpr
      ⟨onePrinted.info, by simp, rfl, assocInfo_info (by decide) (by decide)⟩
  · exact (lookup_associationsInfo hreports hinfo).mpr
      ⟨secondPrinted.info, by simp, rfl, assocInfo_info (by decide) (by decide)⟩

/-- The second line comes first in the loop, so the entry is that of the first. -/
theorem associationsInfo_shared : AssociationsInfo twoApeers (fun _ => oneRv)
    ((∅ : Dict String Smap).insert "10.0.0.1" onePrinted.status) := by
  obtain ⟨entries, hentries, hcolumns⟩ := parseApeers_of_prints printsApeers_twoPeers
  obtain _ | ⟨⟨r₁, rfl⟩, _ | ⟨⟨r₂, rfl⟩, _ | _⟩⟩ := hcolumns
  let first := { onePrinted.columns with remote := r₁ }
  let second := { secondPrinted.columns with remote := r₂ }
  let table := (∅ : Dict String PeerInfo).insert "10.0.0.1" onePrinted.info
  have hvars := parseRv_of_prints printsRv_onePeer
  have hfirst : LastLine [first, second] "12345" first :=
    ⟨[], [second], rfl, rfl, by simp [second, secondPrinted]⟩
  have hsecond : LastLine [first, second] "12346" second := ⟨[first], [], rfl, rfl, by simp⟩
  refine ⟨[first, second], ["12346", "12345"], table, ["10.0.0.1"], hentries, ?_, ?_, ?_, ?_⟩
  · rw [keys_aTable]
    show IterOrder _ ["12345", "12346"].toFinset
    decide
  · -- the entry of the second line has the same key
    have hgather := fun m id e h =>
      @gatherStep_eq (fun _ => oneRv) [first, second] m id e _ h hvars
    have hbind : ∀ m (f : Dict String PeerInfo → Except PyError (Dict String PeerInfo)),
        (.ok m : Except PyError (Dict String PeerInfo)) >>= f = f m := fun _ _ => rfl
    rw [List.foldlM_cons, hgather _ _ _ hsecond, hbind, List.foldlM_cons, hgather _ _ _ hfirst,
      hbind, List.foldlM_nil, Finmap.insert_insert]
    rfl
  · decide
  · have hlook : table.lookup "10.0.0.1" = some onePrinted.info := Finmap.lookup_insert _
    rw [List.foldlM_cons]
    simp only [translateStep, hlook, assocInfo_info (p := onePrinted) (by decide) (by decide)]
    rfl

theorem poll_message_shared_address : ∃ msg, Polls sharedOutputs msg ∧
    (∃ entries ids, parseApeers twoApeers = .ok entries ∧
        IterOrder ids (entries.map PeerEntry.associd).toFinset ∧
        InfoOf entries (fun _ => oneRv) msg.associationsInfo ∧
        ∀ a status, msg.associationsInfo.lookup a = some status →
          ∃ before e v after, ids = before ++ e.associd :: after ∧
            LastLine entries e.associd e ∧ parseRv oneRv = .ok v ∧ v.srcadr = a ∧
            assocInfo (peerInfo e v) = .ok status ∧
            ∀ id ∈ after, ∀ v', parseRv oneRv = .ok v' → v'.srcadr ≠ a) ∧
      ReadFrom (sysstatsLines oneSysstats) statisticsLabels msg.statistics ∧
      ReadFrom (sysstatsLines oneSysstats) statusLabels msg.status := by
  obtain ⟨⟨statistics, status⟩, hglobal⟩ := globalStatus_oneSysstats
  have hpolls : Polls sharedOutputs ⟨_, statistics, status⟩ := ⟨associationsInfo_shared, hglobal⟩
  obtain ⟨hentries, hstatistics, hstatus⟩ := poll_message hpolls
  simp only [sharedOutputs, twoOutputs] at hentries hstatistics hstatus
  exact ⟨_, hpolls, hentries, hstatistics, hstatus⟩

end OpsNtpd.Daemon
