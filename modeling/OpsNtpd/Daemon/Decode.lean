import OpsNtpd.Daemon.Status

/-! # Daemon: What ntpq Prints, Read Back

  The two texts of `ntpq` as they are printed, independently of how the daemon
  cuts them, and what the daemon makes of them.

  - `PrintsApeers`: two header lines and a line of eleven columns for each peer.
  - `PrintsRv`: comma-separated items, five of which the daemon looks for.
  - `Peer.status`: the status columns that the printed values stand for.
  - `decodes_prints`: every print of peers is decoded to their statuses.
-/

namespace OpsNtpd.Daemon

open Text

/-! ## Section 1: What is printed -/

/-- Blanks within a line. -/
def Blanks (cs : List Char) : Prop := ∀ c ∈ cs, isSpace c = true ∧ c ≠ '\n'

/-- Words with blanks between them and perhaps after the last one. -/
inductive Columns : List String → List Char → Prop where
  | last {w : String} {trail : List Char} :
      IsWord w → Blanks trail → Columns [w] (w.toList ++ trail)
  | cons {w : String} {ws : List String} {gap rest : List Char} :
      IsWord w → Blanks gap → gap ≠ [] → Columns ws rest →
      Columns (w :: ws) (w.toList ++ (gap ++ rest))

/-- The columns of a line of `apeers`, in their order. -/
def PeerEntry.columns (e : PeerEntry) : List String :=
  [e.remote, e.refid, e.associd, e.st, e.t, e.when, e.poll, e.reach, e.delay, e.offset, e.jitter]

/-- A line of `apeers`: the columns, with perhaps a tally character directly
    before the first one. -/
structure PeerLine (e : PeerEntry) (line : List Char) : Prop where
  printed : ∃ (lead : List Char) (tally : Option Char) (rest : List Char),
    Blanks lead ∧ (∀ c ∈ tally, isSpace c = false) ∧ Columns e.columns rest ∧
      line = lead ++ (tally.toList ++ rest)

/-- The output of `apeers`: two header lines, the first of them not blank, and
    a line for each peer. -/
def PrintsApeers (output : String) (entries : List PeerEntry) : Prop :=
  ∃ (header header' : List Char) (ls : List (List Char)) (trail : List Char),
    output.toList = header ++ (header' :: ls).flatMap (fun l => '\n' :: l) ++ trail ∧
      '\n' ∉ header ∧ (∃ c ∈ header, isSpace c = false) ∧ '\n' ∉ header' ∧
      List.Forall₂ PeerLine entries ls ∧ ∀ c ∈ trail, isSpace c = true

/-- The values that the daemon takes from `rv`. The reference time is a stamp,
    a weekday and, after a comma, the rest of the date. -/
structure PrintedVars where
  selection : String
  rootDispersion : String
  srcadr : String
  refId : String
  stamp : String
  weekday : String
  date : String
  deriving DecidableEq, Repr

/-- The one item that contains `key`. -/
def Only (key : String) (items : List (List Char)) (x : List Char) : Prop :=
  items.filter (contains key) = [x]

/-- A word alone, with blanks or line breaks around it. -/
def Alone (w : String) (x : List Char) : Prop :=
  ∃ lead trail : List Char, (∀ c ∈ lead, isSpace c = true) ∧ (∀ c ∈ trail, isSpace c = true) ∧
    x = lead ++ (w.toList ++ trail)

/-- `name=value` without another `=`; blanks or line breaks after the value do
    not belong to it. -/
def NameValue (v : String) (x : List Char) : Prop :=
  ∃ name trail : List Char, '=' ∉ name ∧ '=' ∉ v.toList ∧ '\n' ∉ v.toList ∧
    v.toList.rdropWhile isSpace = v.toList ∧ (∀ c ∈ trail, isSpace c = true) ∧
    x = name ++ '=' :: (v.toList ++ trail)

/-- `name=stamp weekday`, the part of the reference time before its comma. -/
def NameTime (stamp weekday : String) (x : List Char) : Prop :=
  ∃ name gap : List Char, '=' ∉ name ∧ '=' ∉ stamp.toList ∧ '=' ∉ weekday.toList ∧
    IsWord stamp ∧ IsWord weekday ∧ Blanks gap ∧ gap ≠ [] ∧
    x = name ++ '=' :: (stamp.toList ++ (gap ++ weekday.toList))

/-- The comma-separated items of `rv`. Line breaks stand around the items. -/
structure PrintsItems (items : List (List Char)) (v : PrintedVars) : Prop where
  commas : ∀ x ∈ items, ',' ∉ x
  word : IsWord v.selection
  selection : ∃ x, Only "sel_" items x ∧ Alone v.selection x
  rootDispersion : ∃ x, Only "rootdisp" items x ∧ NameValue v.rootDispersion x
  srcadr : ∃ x, Only "srcadr" items x ∧ NameValue v.srcadr x
  refId : ∃ x, Only "refid" items x ∧ NameValue v.refId x
  date : '=' ∉ v.date.toList
  reftime : ∃ before x after, items = before ++ x :: v.date.toList :: after ∧
    Only "reftime" items x ∧ NameTime v.stamp v.weekday x

/-- The output of `rv`. -/
def PrintsRv (output : String) (v : PrintedVars) : Prop :=
  ∃ items : List (List Char), output.toList = [','].intercalate items ∧ PrintsItems items v

/-- A peer as it is printed. -/
structure Peer where
  columns : PeerEntry
  vars : PrintedVars
  deriving DecidableEq, Repr

/-- The letters that `apeers` has for the type of a peer, and what they mean. -/
def typeWords : List (String × String) :=
  [("u", "uni_or_many_cast"), ("b", "bcast_or_mcast_client"), ("l", "local_ref_clock"),
   ("s", "symm_peer"), ("A", "manycast_server"), ("B", "bcast_server"), ("M", "mcast_server")]

/-- The words that `rv` has for the selection of a peer, and what they mean. -/
def selectionWords : List (String × String) :=
  [("sel_reject", "reject"), ("sel_falsetick", "falsetick"), ("sel_excess", "excess"),
   ("sel_outlier", "outlier"), ("sel_candidate", "candidate"), ("sel_backup", "backup"),
   ("sel_sys.peer", "system_peer"), ("sel_pps.peer", "pps_peer")]

/-- The outputs of `ntpq` print these peers. -/
structure Prints (apeers : String) (rv : String → String) (peers : List Peer) : Prop where
  apeers : PrintsApeers apeers (peers.map Peer.columns)
  rv : ∀ p ∈ peers, PrintsRv (rv p.columns.associd) p.vars
  associds : (peers.map fun p => p.columns.associd).Nodup
  srcadrs : (peers.map fun p => p.vars.srcadr).Nodup
  types : ∀ p ∈ peers, p.columns.t ∈ typeWords.map Prod.fst
  selections : ∀ p ∈ peers, p.vars.selection ∈ selectionWords.map Prod.fst

/-- The reference time: the date less its stamp and its comma. -/
def PrintedVars.referenceTime (v : PrintedVars) : String :=
  " ".intercalate (words (v.weekday ++ v.date))

/-- The reference id is that of `apeers` if it begins with a dot, else that of `rv`. -/
def Peer.refId (p : Peer) : String :=
  if p.columns.refid.toList.head? = some '.' then p.columns.refid else p.vars.refId

/-- The status of a peer. -/
def Peer.status (p : Peer) : Smap :=
  Dict.ofPairs
    [("remote_peer_address", p.vars.srcadr), ("remote_peer_ref_id", p.refId),
     ("stratum", p.columns.st),
     ("peer_type", (typeWords.lookup p.columns.t).getD "-"),
     ("last_polled", p.columns.when), ("polling_interval", p.columns.poll),
     ("reachability_register", p.columns.reach), ("network_delay", p.columns.delay),
     ("time_offset", p.columns.offset), ("jitter", p.columns.jitter),
     ("root_dispersion", p.vars.rootDispersion),
     ("peer_status_word", (selectionWords.lookup p.vars.selection).getD "-"),
     ("associd", p.columns.associd), ("reference_time", p.vars.referenceTime)]

/-! ## Section 2: Reading `apeers` -/

section apeers

theorem Blanks.isSpace {cs : List Char} (h : Blanks cs) : ∀ c ∈ cs, isSpace c = true :=
  fun c hc => (h c hc).1

theorem Blanks.newline {cs : List Char} (h : Blanks cs) : '\n' ∉ cs :=
  fun hmem => (h '\n' hmem).2 rfl

theorem newline_not_mem_of_nonblank {cs : List Char} (h : ∀ c ∈ cs, isSpace c = false) :
    '\n' ∉ cs := by
  intro hmem
  exact absurd (h '\n' hmem) (by decide)

/-- The columns are the blank-separated fields, and a tally character joins
    the first of them. -/
theorem fields_columns (tally : List Char) (ht : ∀ c ∈ tally, isSpace c = false)
    {w : String} {ws : List String} {rest : List Char} (h : Columns (w :: ws) rest) :
    fields isSpace (tally ++ rest) = (tally ++ w.toList) :: ws.map String.toList := by
  have hword : ∀ {tally : List Char} {w : String}, (∀ c ∈ tally, isSpace c = false) → IsWord w →
      tally ++ w.toList ≠ [] ∧ ∀ c ∈ tally ++ w.toList, isSpace c = false := by
    intro tally w ht hw
    refine ⟨List.append_ne_nil_of_right_ne_nil _ hw.1, ?_⟩
    intro c hc
    exact (List.mem_append.mp hc).elim (ht c) (hw.2 c)
  -- over the columns; after the first one there is no tally character
  induction ws generalizing tally w rest with
  | nil =>
    cases h with
    | last hw htrail =>
      obtain ⟨hne, hall⟩ := hword ht hw
      rw [← List.append_assoc, fields_append_seps htrail.isSpace, fields_singleton hne hall]
      rfl
    | cons _ _ _ hrest => cases hrest
  | cons w' ws ih =>
    cases h with
    | @cons _ _ gap rest hw hgap hne hrest =>
      obtain ⟨hne', hall⟩ := hword ht hw
      obtain ⟨c, cs, hcs⟩ := List.exists_cons_of_ne_nil hne
      rw [hcs] at hgap ⊢
      have hc : isSpace c = true := (hgap c List.mem_cons_self).1
      -- the first blank of the gap ends the column, the others are skipped
      have hrest' := ih [] (by simp) hrest
      rw [List.nil_append, List.nil_append] at hrest'
      rw [← List.append_assoc, List.cons_append, fields_word_cons hne' hall _ hc,
        fields_seps_append fun d hd => (hgap d (List.mem_cons_of_mem _ hd)).1, hrest']
      rfl

theorem newline_not_mem_columns {ws : List String} {rest : List Char} (h : Columns ws rest) :
    '\n' ∉ rest := by
  induction h with
  | last hw htrail =>
    rw [List.mem_append, not_or]
    exact ⟨newline_not_mem_of_nonblank hw.2, htrail.newline⟩
  | cons hw hgap _ _ ih =>
    rw [List.mem_append, List.mem_append, not_or, not_or]
    exact ⟨newline_not_mem_of_nonblank hw.2, hgap.newline, ih⟩

theorem PeerLine.newline {e : PeerEntry} {line : List Char} (h : PeerLine e line) :
    '\n' ∉ line := by
  obtain ⟨lead, tally, rest, hlead, htally, hcols, rfl⟩ := h.printed
  rw [List.mem_append, List.mem_append, not_or, not_or]
  refine ⟨hlead.newline, newline_not_mem_of_nonblank ?_, newline_not_mem_columns hcols⟩
  intro c hc
  exact htally c (Option.mem_toList.mp hc)

/-- A line is read into its columns, the first of them with the tally character. -/
theorem PeerLine.parse {e : PeerEntry} {line : List Char} (h : PeerLine e line) :
    ∃ remote, parseApeersLine line = .ok { e with remote := remote } := by
  obtain ⟨lead, tally, rest, hlead, htally, hcols, rfl⟩ := h.printed
  have hfields := fields_columns tally.toList
    (fun c hc => htally c (Option.mem_toList.mp hc)) hcols
  refine ⟨String.ofList (tally.toList ++ e.remote.toList), ?_⟩
  unfold parseApeersLine
  rw [fields_seps_append hlead.isSpace, hfields]
  simp

/-- A line has a character that is not blank. -/
theorem PeerLine.nonblank {e : PeerEntry} {line : List Char} (h : PeerLine e line) :
    ∃ c ∈ line, isSpace c = false := by
  rcases exists_or_forall isSpace line with hsome | hall
  · exact hsome
  · -- a blank line has no columns to be read
    obtain ⟨remote, hparse⟩ := h.parse
    unfold parseApeersLine at hparse
    rw [fields_seps hall] at hparse
    cases hparse

/-- Blanks at the end of a line are not read. -/
theorem parseApeersLine_rdropWhile (line : List Char) :
    parseApeersLine (line.rdropWhile isSpace) = parseApeersLine line := by
  unfold parseApeersLine
  rw [fields_rdropWhile]

/-- `r` is `e` up to the first column. -/
def ReadAs (e r : PeerEntry) : Prop := ∃ remote, r = { e with remote := remote }

theorem mapM_parse {entries : List PeerEntry} {ls : List (List Char)}
    (h : List.Forall₂ PeerLine entries ls) :
    ∃ read, ls.mapM parseApeersLine = .ok read ∧
      List.Forall₂ ReadAs entries read := by
  induction h with
  | nil => exact ⟨[], rfl, .nil⟩
  | @cons e line _ ls hline _ ih =>
    obtain ⟨remote, hparse⟩ := hline.parse
    obtain ⟨read, hread, hall⟩ := ih
    refine ⟨_, ?_, .cons ⟨remote, rfl⟩ hall⟩
    rw [List.mapM_cons, hparse, hread]
    rfl

/-- A line feed belongs to a line that is kept. -/
theorem rdropWhile_append_line {xs l : List Char} (h : ∃ c ∈ l, isSpace c = false) :
    (xs ++ '\n' :: l).rdropWhile isSpace = xs ++ '\n' :: l.rdropWhile isSpace := by
  have hcons : xs ++ '\n' :: l = (xs ++ ['\n']) ++ l := by rw [List.append_assoc]; rfl
  rw [hcons, rdropWhile_append_of_exists h, List.append_assoc]
  rfl

/-- Stripping the output takes blanks from its first header line and from the
    last line of all, and no line that is read. -/
theorem mapM_lines_strip {header header' : List Char} {ls : List (List Char)} {trail : List Char}
    (hheader : '\n' ∉ header) (hsome : ∃ c ∈ header, isSpace c = false)
    (hheader' : '\n' ∉ header') (hls : ∀ l ∈ ls, '\n' ∉ l)
    (hsomes : ∀ l ∈ ls, ∃ c ∈ l, isSpace c = false) (htrail : ∀ c ∈ trail, isSpace c = true) :
    (((strip (header ++ (header' :: ls).flatMap (fun l => '\n' :: l) ++ trail)).splitOn
      '\n').drop 2).mapM parseApeersLine = ls.mapM parseApeersLine := by
  let start := header.dropWhile isSpace
  have hstart : '\n' ∉ start :=
    fun hmem => hheader ((List.dropWhile_sublist isSpace).subset hmem)
  have htrim : ∀ l : List Char, '\n' ∉ l → '\n' ∉ l.rdropWhile isSpace :=
    fun l hl hmem => hl ((List.rdropWhile_prefix isSpace l).subset hmem)
  have hstrip : strip (header ++ (header' :: ls).flatMap (fun l => '\n' :: l) ++ trail) =
      (start ++ (header' :: ls).flatMap fun l => '\n' :: l).rdropWhile isSpace := by
    show List.rdropWhile isSpace (List.dropWhile isSpace _) = _
    rw [List.append_assoc, dropWhile_append_of_exists hsome, ← List.append_assoc,
      rdropWhile_append_of_all htrail]
  rw [hstrip]
  rcases List.eq_nil_or_concat ls with rfl | ⟨ls', l, rfl⟩
  · -- no line is read: at most the two header lines are left
    rw [List.flatMap_singleton]
    rcases exists_or_forall isSpace header' with hblank | hall
    · have hlines := @splitOn_lines _ [header'.rdropWhile isSpace] hstart (by
        intro l hl
        rw [List.mem_singleton.mp hl]
        exact htrim header' hheader')
      rw [List.flatMap_singleton] at hlines
      rw [rdropWhile_append_line hblank, hlines]
      rfl
    · have hall' : ∀ c ∈ '\n' :: header', isSpace c = true := by
        rw [List.forall_mem_cons]
        exact ⟨rfl, hall⟩
      rw [rdropWhile_append_of_all hall', List.splitOn_eq_singleton (htrim start hstart)]
      rfl
  · -- the last line loses its last blanks, which are not read
    rw [List.concat_eq_append] at hls hsomes ⊢
    have hlast : l ∈ ls' ++ [l] := List.mem_append_right _ List.mem_cons_self
    have htext : ∀ l' : List Char,
        start ++ (header' :: (ls' ++ [l'])).flatMap (fun l => '\n' :: l) =
          (start ++ (header' :: ls').flatMap fun l => '\n' :: l) ++ '\n' :: l' := by
      intro l'
      rw [← List.cons_append, List.flatMap_append, List.flatMap_singleton, List.append_assoc]
    rw [htext, rdropWhile_append_line (hsomes l hlast), ← htext, splitOn_lines hstart]
    · show (ls' ++ [l.rdropWhile isSpace]).mapM parseApeersLine = _
      rw [List.mapM_append, List.mapM_append, List.mapM_cons, List.mapM_cons,
        parseApeersLine_rdropWhile]
    · intro l' hl'
      rcases List.mem_cons.mp hl' with rfl | hmem
      · exact hheader'
      · rcases List.mem_append.mp hmem with hfirst | hend
        · exact hls l' (List.mem_append_left _ hfirst)
        · rw [List.mem_singleton.mp hend]
          exact htrim l (hls l hlast)

/-- **Peers are read.** The lines of `apeers` are read into their columns, each
    with some first column. -/
theorem parseApeers_of_prints {output : String} {entries : List PeerEntry}
    (h : PrintsApeers output entries) :
    ∃ read, parseApeers output = .ok read ∧
      List.Forall₂ ReadAs entries read := by
  obtain ⟨header, header', ls, trail, hout, hheader, hsome, hheader', hlines, htrail⟩ := h
  have hline : ∀ l ∈ ls, ∃ e, PeerLine e l := by
    intro l hl
    obtain ⟨i, hi, rfl⟩ := List.getElem_of_mem hl
    have hi' : i < entries.length := by rw [hlines.length_eq]; exact hi
    exact ⟨entries[i], hlines.get hi' hi⟩
  obtain ⟨read, hread, hall⟩ := mapM_parse hlines
  refine ⟨read, ?_, hall⟩
  unfold parseApeers
  rw [hout, mapM_lines_strip hheader hsome hheader' ?_ ?_ htrail, hread]
  · intro l hl
    obtain ⟨e, he⟩ := hline l hl
    exact he.newline
  · intro l hl
    obtain ⟨e, he⟩ := hline l hl
    exact he.nonblank

end apeers

/-! ## Section 3: Reading `rv` -/

section rv
variable {items : List (List Char)} {x : List Char} {key : String}

/-- A line break becomes a blank. -/
def unbreak (c : Char) : Char := if c = '\n' then ' ' else c

/-- A search word has no blank and no line break. -/
def SearchWord (key : String) : Prop := ∀ c ∈ key.toList, c ≠ ' ' ∧ c ≠ '\n'

-- decided by going through the characters of the text, not through all characters
instance (key : String) : Decidable (SearchWord key) :=
  List.decidableBAll (fun c => c ≠ ' ' ∧ c ≠ '\n') key.toList

theorem unbreak_of_ne {c : Char} (h : c ≠ '\n') : unbreak c = c := if_neg h

theorem isSpace_unbreak {c : Char} (h : isSpace c = true) : isSpace (unbreak c) = true := by
  unfold unbreak
  split
  · rfl
  · exact h

theorem isSpace_map_unbreak {cs : List Char} (h : ∀ c ∈ cs, isSpace c = true) :
    ∀ c ∈ cs.map unbreak, isSpace c = true := by
  intro c hc
  obtain ⟨d, hd, rfl⟩ := List.mem_map.mp hc
  exact isSpace_unbreak (h d hd)

theorem map_unbreak {cs : List Char} (h : '\n' ∉ cs) : cs.map unbreak = cs := by
  refine (List.map_congr_left fun c hc => unbreak_of_ne ?_).trans (List.map_id cs)
  rintro rfl
  exact h hc

/-- A character that is no blank does not come from a line break. -/
theorem not_mem_map_unbreak {c : Char} (hc : c ≠ ' ') {cs : List Char} (h : c ∉ cs) :
    c ∉ cs.map unbreak := by
  intro hmem
  obtain ⟨d, hd, hdc⟩ := List.mem_map.mp hmem
  unfold unbreak at hdc
  split at hdc
  · exact hc hdc.symm
  · rw [hdc] at hd
    exact h hd

/-- A search word without a blank is found in a text whose line breaks are
    made blanks exactly if it is found in the text. -/
theorem contains_map_unbreak (hkey : SearchWord key) (x : List Char) :
    contains key (x.map unbreak) = contains key x := by
  have hiff : key.toList <:+: x.map unbreak ↔ key.toList <:+: x := by
    have hself : key.toList.map unbreak = key.toList :=
      map_unbreak fun hmem => (hkey _ hmem).2 rfl
    constructor
    · intro hinfix
      obtain ⟨as, bs, hx⟩ := hinfix
      obtain ⟨pre, bs', rfl, hpre, hbs⟩ := List.map_eq_append_iff.mp hx.symm
      obtain ⟨as', ys, rfl, has, hys⟩ := List.map_eq_append_iff.mp hpre
      have hword : ys = key.toList := by
        rw [← hys]
        -- a line break would have become a blank of the search word
        refine (map_unbreak fun hmem => ?_).symm
        have hblank : unbreak '\n' ∈ ys.map unbreak := List.mem_map_of_mem hmem
        rw [hys] at hblank
        exact (hkey _ hblank).1 rfl
      rw [hword]
      exact ⟨as', bs', rfl⟩
    · intro hinfix
      rw [← hself]
      exact hinfix.map unbreak
  unfold contains
  exact decide_eq_decide.mpr hiff

/-- The items are those that were printed, with their line breaks made blanks. -/
theorem rvItems_eq {output : String} (hout : output.toList = [','].intercalate items)
    (hcommas : ∀ x ∈ items, ',' ∉ x) (hne : items ≠ []) :
    rvItems output = items.map (List.map unbreak) := by
  have hmap : ([','].intercalate items).map unbreak =
      [','].intercalate (items.map (List.map unbreak)) := map_intercalate unbreak [','] items
  unfold rvItems
  rw [hout]
  show (([','].intercalate items).map unbreak).splitOn ',' = _
  rw [hmap, List.splitOn_intercalate]
  · intro y hy
    obtain ⟨x, hx, rfl⟩ := List.mem_map.mp hy
    exact not_mem_map_unbreak (by decide) (hcommas x hx)
  · intro hnil
    exact hne (List.map_eq_nil_iff.mp hnil)

/-- The only item that contains a search word is the only one found. -/
theorem Only.filter (h : Only key items x) (hkey : SearchWord key) :
    (items.map (List.map unbreak)).filter (contains key) = [x.map unbreak] := by
  rw [List.filter_map]
  have hsame : contains key ∘ List.map unbreak = contains key :=
    funext (contains_map_unbreak hkey)
  rw [hsame, h]
  rfl

theorem strip_eq (cs : List Char) : strip cs = (cs.dropWhile isSpace).rdropWhile isSpace := rfl

theorem strip_alone {w : String} (hw : IsWord w) (h : Alone w x) :
    strip (x.map unbreak) = w.toList := by
  obtain ⟨lead, trail, hlead, htrail, rfl⟩ := h
  obtain ⟨c, cs, hcs⟩ := List.exists_cons_of_ne_nil hw.1
  have hc : isSpace c = false := hw.2 c (by rw [hcs]; exact List.mem_cons_self)
  have hfull : w.toList.rdropWhile isSpace = w.toList := by
    rw [List.rdropWhile_eq_self_iff]
    intro hne
    rw [hw.2 _ (List.getLast_mem hne)]
    exact Bool.false_ne_true
  rw [List.map_append, List.map_append, map_unbreak (newline_not_mem_of_nonblank hw.2), strip_eq,
    List.dropWhile_append_of_pos (isSpace_map_unbreak hlead)]
  rw [hcs, List.cons_append, List.dropWhile_cons_of_neg (by rw [hc]; exact Bool.false_ne_true),
    ← List.cons_append, ← hcs, rdropWhile_append_of_all (isSpace_map_unbreak htrail), hfull]

/-- The value of `name=rest` is the rest less its last blanks. -/
theorem value_eq {name rest : List Char} (hname : '=' ∉ name) (hrest : '=' ∉ rest) :
    value (name ++ '=' :: rest) = .ok (rest.rdropWhile isSpace) := by
  have hstrip : strip (name ++ '=' :: rest) =
      name.dropWhile isSpace ++ '=' :: rest.rdropWhile isSpace := by
    rw [strip_eq, dropWhile_append_cons (by decide), rdropWhile_append_cons (by decide)]
  have hname' : '=' ∉ name.dropWhile isSpace :=
    fun hmem => hname ((List.dropWhile_sublist isSpace).subset hmem)
  have hrest' : '=' ∉ rest.rdropWhile isSpace :=
    fun hmem => hrest ((List.rdropWhile_prefix isSpace rest).subset hmem)
  unfold value
  rw [hstrip, List.splitOn_append_cons_self_of_not_mem hname', List.splitOn_eq_singleton hrest']
  rfl

theorem value_nameValue {v : String} (h : NameValue v x) :
    value (x.map unbreak) = .ok v.toList := by
  obtain ⟨name, trail, hname, heq, hline, hfull, htrail, rfl⟩ := h
  have hblank := isSpace_map_unbreak htrail
  have hrest : '=' ∉ v.toList ++ trail.map unbreak := by
    rw [List.mem_append, not_or]
    refine ⟨heq, fun hmem => ?_⟩
    exact absurd (hblank '=' hmem) (by decide)
  rw [List.map_append, List.map_cons, List.map_append, map_unbreak hline]
  have hvalue := value_eq (not_mem_map_unbreak (by decide) hname) hrest
  rw [rdropWhile_append_of_all hblank, hfull] at hvalue
  exact hvalue

/-- Items without `reftime` give nothing. -/
theorem reftimeItems_of_none (h : ∀ x ∈ items, contains "reftime" x = false) :
    reftimeItems items = .ok [] := by
  induction items with
  | nil => rfl
  | cons x rest ih =>
    have hx := h x List.mem_cons_self
    have ih' := ih fun y hy => h y (List.mem_cons_of_mem _ hy)
    cases rest with
    | nil => rw [reftimeItems, hx]; rfl
    | cons y rest =>
      rw [reftimeItems, ih', hx]
      rfl

/-- The one item with `reftime` is joined to the item after it. -/
theorem reftimeItems_eq {before after : List (List Char)} {y : List Char}
    (h : Only "reftime" (before ++ x :: y :: after) x) :
    reftimeItems (before ++ x :: y :: after) = .ok [x ++ y] := by
  have hx : contains "reftime" x = true := by
    have hmem : x ∈ (before ++ x :: y :: after).filter (contains "reftime") := by
      rw [h]
      exact List.mem_cons_self
    exact (List.mem_filter.mp hmem).2
  -- the others do not contain it: there is one item in all
  have hlength : (before.filter (contains "reftime")).length +
      ((y :: after).filter (contains "reftime")).length = 0 := by
    have hall := congrArg List.length h
    rw [List.filter_append, List.filter_cons_of_pos hx, List.length_append, List.length_cons,
      List.length_singleton] at hall
    omega
  have hnone : ∀ {l : List (List Char)}, (l.filter (contains "reftime")).length = 0 →
      ∀ x ∈ l, contains "reftime" x = false := by
    intro l hl x hx
    have hnil : l.filter (contains "reftime") = [] := List.length_eq_zero_iff.mp hl
    exact eq_false_of_ne_true (List.filter_eq_nil_iff.mp hnil x hx)
  have hbefore := hnone (show (before.filter (contains "reftime")).length = 0 by omega)
  have hafter := reftimeItems_of_none
    (hnone (show ((y :: after).filter (contains "reftime")).length = 0 by omega))
  clear h hlength
  -- over the items before, none of which is taken
  induction before with
  | nil =>
    rw [List.nil_append, reftimeItems, hafter, hx]
    rfl
  | cons z before ih =>
    have hz := hbefore z List.mem_cons_self
    have ih' := ih fun w hw => hbefore w (List.mem_cons_of_mem _ hw)
    obtain ⟨w, ws, hws⟩ : ∃ w ws, before ++ x :: y :: after = w :: ws :=
      List.exists_cons_of_ne_nil (List.append_ne_nil_of_right_ne_nil _ (List.cons_ne_nil _ _))
    rw [hws] at ih'
    rw [List.cons_append, hws, reftimeItems, ih', hz]
    rfl

/-- The words of the date after its stamp. -/
theorem value_nameTime {stamp weekday date : String} (h : NameTime stamp weekday x)
    (hdate : '=' ∉ date.toList) :
    ∃ time, value (x.map unbreak ++ date.toList.map unbreak) = .ok time ∧
      ((fields isSpace time).drop 1).map String.ofList = words (weekday ++ date) := by
  obtain ⟨name, gap, hname, hstampEq, hweekdayEq, hstamp, hweekday, hgap, hne, rfl⟩ := h
  have hgapEq : '=' ∉ gap := fun hmem => absurd (hgap '=' hmem).1 (by decide)
  let rest := stamp.toList ++ (gap ++ (weekday.toList ++ date.toList))
  have hname' : '=' ∉ name.map unbreak := not_mem_map_unbreak (by decide) hname
  have hrest' : '=' ∉ rest.map unbreak := by
    refine not_mem_map_unbreak (by decide) ?_
    simp only [rest, List.mem_append, not_or]
    exact ⟨hstampEq, hgapEq, hweekdayEq, hdate⟩
  have htext : (name ++ '=' :: (stamp.toList ++ (gap ++ weekday.toList))).map unbreak ++
      date.toList.map unbreak = name.map unbreak ++ '=' :: rest.map unbreak := by
    rw [← List.map_append, List.append_assoc, List.cons_append, List.append_assoc,
      List.append_assoc, List.map_append, List.map_cons]
    rfl
  refine ⟨_, by rw [htext]; exact value_eq hname' hrest', ?_⟩
  obtain ⟨c, cs, hcs⟩ := List.exists_cons_of_ne_nil hne
  have hc : isSpace c = true := (hgap c (by rw [hcs]; exact List.mem_cons_self)).1
  -- the stamp is the first word, and the weekday is not cut off from the date
  have hfields : fields isSpace rest = stamp.toList :: fields isSpace (weekday ++ date).toList := by
    rw [hcs] at hgap
    simp only [rest]
    rw [hcs, List.cons_append, fields_word_cons hstamp.1 hstamp.2 _ hc,
      fields_seps_append fun d hd => (hgap d (List.mem_cons_of_mem _ hd)).1, String.toList_append]
  have hwords : fields isSpace (rest.map unbreak) = fields isSpace rest :=
    @fields_map isSpace _ (fun _ => isSpace_unbreak)
      (fun c hc => unbreak_of_ne (by rintro rfl; cases hc)) _
  rw [fields_rdropWhile, hwords, hfields]
  rfl

/-- **Variables are read.** The five values are found, whatever the other items are. -/
theorem parseRv_of_prints {output : String} {v : PrintedVars} (h : PrintsRv output v) :
    parseRv output = .ok
      { peerStatusWord := v.selection, rootDispersion := v.rootDispersion, srcadr := v.srcadr
        referenceTime := v.referenceTime, refId := v.refId } := by
  obtain ⟨items, hout, hitems⟩ := h
  -- the five items, each with what it looks like
  obtain ⟨xs, hxs, hword⟩ := hitems.selection
  obtain ⟨xd, hxd, hdisp⟩ := hitems.rootDispersion
  obtain ⟨xa, hxa, hsrcadr⟩ := hitems.srcadr
  obtain ⟨xr, hxr, hrefId⟩ := hitems.refId
  obtain ⟨before, xt, after, hsplit, hxt, htime⟩ := hitems.reftime
  have hne : items ≠ [] := by
    rw [hsplit]
    exact List.append_ne_nil_of_right_ne_nil _ (List.cons_ne_nil _ _)
  have heq := rvItems_eq hout hitems.commas hne
  have hvalueWith : ∀ {key v : String} {x : List Char}, Only key items x →
      SearchWord key → NameValue v x →
      valueWith key (items.map (List.map unbreak)) = .ok v.toList := by
    intro key v x honly hkey hvalue
    unfold valueWith
    rw [honly.filter hkey]
    exact value_nameValue hvalue
  have hreftimes : reftimeItems (items.map (List.map unbreak)) =
      .ok [xt.map unbreak ++ v.date.toList.map unbreak] := by
    have hmap : items.map (List.map unbreak) =
        before.map (List.map unbreak) ++
          xt.map unbreak :: v.date.toList.map unbreak :: after.map (List.map unbreak) := by
      rw [hsplit, List.map_append, List.map_cons, List.map_cons]
    have honly := hxt.filter (by decide)
    rw [hmap] at honly ⊢
    exact reftimeItems_eq honly
  obtain ⟨time, hvalue, htimeWords⟩ := value_nameTime htime hitems.date
  simp only [parseRv, heq, hxs.filter (show SearchWord "sel_" by decide),
    hvalueWith hxd (by decide) hdisp, hvalueWith hxa (by decide) hsrcadr,
    hvalueWith hxr (by decide) hrefId, hreftimes, first, Except.bind, Except.map, hvalue,
    htimeWords, strip_alone hitems.word hword, String.ofList_toList]
  rfl

end rv

/-! ## Section 4: The statuses of the peers -/

section decoding
variable {apeers : String} {rv : String → String} {peers : List Peer}

/-- The entry of `associations_info_table` for a peer. -/
def Peer.info (p : Peer) : PeerInfo :=
  { entry := { p.columns with remote := p.vars.srcadr, refid := p.refId }
    rootDispersion := p.vars.rootDispersion
    referenceTime := p.vars.referenceTime
    peerStatusWord := p.vars.selection }

theorem translate_of_mem {table : List (String × String)} {key : String}
    (h : key ∈ table.map Prod.fst) : translate table key = .ok ((table.lookup key).getD "-") := by
  cases hlook : table.lookup key with
  | none =>
    obtain ⟨p, hp, rfl⟩ := List.mem_map.mp h
    have hne := List.lookup_eq_none_iff.mp hlook p hp
    exact absurd rfl (bne_iff_ne.mp hne)
  | some v =>
    rw [translate, hlook]
    rfl

/-- The dictionaries of the daemon have every word. -/
theorem translatePeerType_eq : translatePeerType = typeWords := rfl

theorem translatePeerStatusWord_eq : translatePeerStatusWord = selectionWords := rfl

/-- Every default of `default_assoc_info` is overwritten. -/
theorem assocInfo_info {p : Peer} (ht : p.columns.t ∈ typeWords.map Prod.fst)
    (hs : p.vars.selection ∈ selectionWords.map Prod.fst) :
    assocInfo p.info = .ok p.status := by
  have htype : translate translatePeerType p.info.entry.t =
      .ok ((typeWords.lookup p.columns.t).getD "-") := by
    rw [translatePeerType_eq]
    exact translate_of_mem ht
  have hword : translate translatePeerStatusWord p.info.peerStatusWord =
      .ok ((selectionWords.lookup p.vars.selection).getD "-") := by
    rw [translatePeerStatusWord_eq]
    exact translate_of_mem hs
  unfold assocInfo
  rw [htype, hword]
  refine congrArg Except.ok (Dict.ofPairs_append_of_covered ?_)
  simp [defaultAssocInfo]

/-- The lines that are read and what is printed for them describe the peers. -/
theorem forall₂_describes {read : List PeerEntry}
    (hread : List.Forall₂ ReadAs (peers.map Peer.columns) read)
    (hrv : ∀ p ∈ peers, PrintsRv (rv p.columns.associd) p.vars) :
    List.Forall₂ (Describes rv) read (peers.map Peer.info) := by
  induction peers generalizing read with
  | nil =>
    cases hread
    exact .nil
  | cons p peers ih =>
    cases hread with
    | cons hone hrest =>
      obtain ⟨remote, rfl⟩ := hone
      refine .cons ⟨_, parseRv_of_prints (hrv p List.mem_cons_self), rfl⟩ ?_
      exact ih hrest fun q hq => hrv q (List.mem_cons_of_mem _ hq)

/-- The printed texts report the peers. -/
theorem reports_of_prints (h : Prints apeers rv peers) :
    Reports apeers rv (peers.map Peer.info) := by
  obtain ⟨read, hread, hcolumns⟩ := parseApeers_of_prints h.apeers
  refine { read := ⟨read, hread, forall₂_describes hcolumns h.rv⟩
           associds := ?_, remotes := ?_, known := ?_ }
  · rw [List.map_map]
    exact h.associds
  · rw [List.map_map]
    exact h.srcadrs
  · intro q hq
    obtain ⟨p, hp, rfl⟩ := List.mem_map.mp hq
    exact ⟨p.status, assocInfo_info (h.types p hp) (h.selections p hp)⟩

/-- **ntpq is decoded faithfully.** For every print of peers and every order of
    the loops, the map has exactly one entry per peer, its status under its
    source address. -/
theorem decodes_prints (h : Prints apeers rv peers) {ids addresses : List String}
    (hids : IterOrder ids (peers.map fun p => p.columns.associd).toFinset)
    (haddresses : IterOrder addresses (peers.map fun p => p.vars.srcadr).toFinset) :
    ∃ info, getNtpdAssociationsInfo apeers rv ids addresses = .ok info ∧
      info.keys.card = peers.length ∧
      ∀ a status, info.lookup a = some status ↔
        ∃ p ∈ peers, p.vars.srcadr = a ∧ p.status = status := by
  have hreports := reports_of_prints h
  have hids' : IterOrder ids ((peers.map Peer.info).map fun q => q.entry.associd).toFinset := by
    rw [List.map_map]
    exact hids
  have haddresses' :
      IterOrder addresses ((peers.map Peer.info).map fun q => q.entry.remote).toFinset := by
    rw [List.map_map]
    exact haddresses
  refine ⟨_, getNtpdAssociationsInfo_of_reports hreports hids' haddresses', ?_, ?_⟩
  · rw [Rows.card_index hreports.remotes, List.length_map]
  · intro a status
    rw [Rows.lookup_index hreports.remotes]
    constructor
    · intro hex
      obtain ⟨q, hq, ha, hstatus⟩ := hex
      obtain ⟨p, hp, rfl⟩ := List.mem_map.mp hq
      refine ⟨p, hp, ha, ?_⟩
      rw [statusOf, assocInfo_info (h.types p hp) (h.selections p hp)] at hstatus
      exact hstatus
    · intro hex
      obtain ⟨p, hp, ha, hstatus⟩ := hex
      refine ⟨p.info, List.mem_map_of_mem hp, ha, ?_⟩
      rw [statusOf, assocInfo_info (h.types p hp) (h.selections p hp)]
      exact hstatus

end decoding

/-! ### Two peers -/

/-- `apeers` with one peer. -/
def oneApeers : String :=
  "     remote           refid   assid  st t when poll reach   delay   offset  jitter\n" ++
  "==============================================================================\n" ++
  "*10.0.0.1        .GPS.            12345  1 u   33   64  377    0.500    0.100   0.020\n"

/-- `rv` for this peer. -/
def oneRv : String :=
  "associd=12345 status=961a conf, reach, sel_sys.peer, 1 event, sys_peer,\n" ++
  "srcadr=10.0.0.1, srcport=123, leap=00, stratum=1, rootdisp=1.000, refid=GPS,\n" ++
  "reftime=da2f1c5b.12345678  Mon, Jan  4 2016 10:00:00.000, rec=da2f\n"

/-- The peer that they print. -/
def onePrinted : Peer :=
  { columns :=
      { remote := "10.0.0.1", refid := ".GPS.", associd := "12345", st := "1", t := "u"
        when := "33", poll := "64", reach := "377", delay := "0.500", offset := "0.100"
        jitter := "0.020" }
    vars :=
      { selection := "sel_sys.peer", rootDispersion := "1.000", srcadr := "10.0.0.1"
        refId := "GPS", stamp := "da2f1c5b.12345678", weekday := "Mon"
        date := " Jan  4 2016 10:00:00.000" } }

/-- `apeers` with a second peer. -/
def twoApeers : String :=
  oneApeers ++
  "+10.0.0.2        192.0.2.9        12346  2 u   12   64   17    1.250   -0.300   0.140\n"

/-- `rv` for the second peer. -/
def secondRv : String :=
  "associd=12346 status=9424 conf, reach, sel_candidate, 1 event, reachable,\n" ++
  "srcadr=10.0.0.2, srcport=123, leap=00, stratum=2, rootdisp=2.500, refid=192.0.2.9,\n" ++
  "reftime=da2f1c6f.89abcdef  Mon, Jan  4 2016 10:00:20.000, rec=da2f\n"

/-- `rv` for either of them. -/
def twoRv (associd : String) : String := if associd = "12346" then secondRv else oneRv

/-- The second peer. -/
def secondPrinted : Peer :=
  { columns :=
      { remote := "10.0.0.2", refid := "192.0.2.9", associd := "12346", st := "2", t := "u"
        when := "12", poll := "64", reach := "17", delay := "1.250", offset := "-0.300"
        jitter := "0.140" }
    vars :=
      { selection := "sel_candidate", rootDispersion := "2.500", srcadr := "10.0.0.2"
        refId := "192.0.2.9", stamp := "da2f1c6f.89abcdef", weekday := "Mon"
        date := " Jan  4 2016 10:00:20.000" } }

instance (cs : List Char) : Decidable (Blanks cs) :=
  List.decidableBAll (fun c => isSpace c = true ∧ c ≠ '\n') cs

/-- Words, each with this number of blanks and one more after it, and a last word. -/
def spaced : List (String × Nat) → String → List Char
  | [], w => w.toList
  | (v, n) :: vs, w => v.toList ++ (List.replicate (n + 1) ' ' ++ spaced vs w)

theorem columns_spaced {vs : List (String × Nat)} {w : String} (hvs : ∀ v ∈ vs, IsWord v.1)
    (hw : IsWord w) : Columns (vs.map Prod.fst ++ [w]) (spaced vs w) := by
  induction vs with
  | nil =>
    rw [spaced, ← List.append_nil w.toList]
    exact .last hw fun c hc => absurd hc List.not_mem_nil
  | cons v vs ih =>
    obtain ⟨hv, hvs⟩ := List.forall_mem_cons.mp hvs
    refine .cons hv ?_ (List.cons_ne_nil _ _) (ih hvs)
    intro c hc
    rw [(List.mem_replicate.mp hc).2]
    exact ⟨rfl, by decide⟩

/-- A line with its tally character. -/
theorem peerLine_spaced {e : PeerEntry} {tally : Char} {vs : List (String × Nat)} {w : String}
    (hcolumns : e.columns = vs.map Prod.fst ++ [w]) (htally : isSpace tally = false)
    (hwords : ∀ v ∈ e.columns, IsWord v) : PeerLine e (tally :: spaced vs w) := by
  rw [hcolumns] at hwords
  have hspaced : Columns e.columns (spaced vs w) := by
    rw [hcolumns]
    refine columns_spaced ?_ (hwords w (by simp))
    intro v hv
    exact hwords v.1 (List.mem_append_left _ (List.mem_map_of_mem hv))
  refine ⟨[], some tally, _, fun c hc => absurd hc List.not_mem_nil, ?_, hspaced, rfl⟩
  intro c hc
  rw [← Option.mem_some.mp hc]
  exact htally

/-- The lines of the two peers. -/
def twoLines : List (List Char) :=
  ['*' :: spaced [("10.0.0.1", 7), (".GPS.", 11), ("12345", 1), ("1", 0), ("u", 2), ("33", 2),
      ("64", 1), ("377", 3), ("0.500", 3), ("0.100", 2)] "0.020",
   '+' :: spaced [("10.0.0.2", 7), ("192.0.2.9", 7), ("12346", 1), ("2", 0), ("u", 2), ("12", 2),
      ("64", 2), ("17", 3), ("1.250", 2), ("-0.300", 2)] "0.140"]

theorem peerLine_twoLines :
    List.Forall₂ PeerLine [onePrinted.columns, secondPrinted.columns] twoLines :=
  .cons (peerLine_spaced rfl rfl (by decide)) (.cons (peerLine_spaced rfl rfl (by decide)) .nil)

/-- The first `n` of the peers, with their header lines. -/
theorem printsApeers_twoLines {output : String} {n : Nat}
    (hout : output.toList =
      "     remote           refid   assid  st t when poll reach   delay   offset  jitter".toList ++
        ("==============================================================================".toList ::
          twoLines.take n).flatMap (fun l => '\n' :: l) ++ ['\n']) :
    PrintsApeers output ([onePrinted.columns, secondPrinted.columns].take n) := by
  refine ⟨_, _, twoLines.take n, ['\n'], hout, by decide, ⟨'r', by decide, by decide⟩, by decide,
    ?_, by simp [isSpace]⟩
  exact List.forall₂_take n peerLine_twoLines

theorem printsApeers_onePeer : PrintsApeers oneApeers [onePrinted.columns] := by
  refine @printsApeers_twoLines _ 1 ?_
  -- the text is compared line by line, which is faster for the kernel
  unfold oneApeers
  rw [String.toList_append, String.toList_append]
  decide +kernel

theorem printsApeers_twoPeers :
    PrintsApeers twoApeers [onePrinted.columns, secondPrinted.columns] := by
  refine @printsApeers_twoLines _ 2 ?_
  unfold twoApeers oneApeers
  rw [String.toList_append, String.toList_append, String.toList_append]
  decide +kernel

/-- The items of `rv`. -/
def printedItems (status event stratum : String) (v : PrintedVars) : List (List Char) :=
  [status.toList, " reach".toList, ' ' :: v.selection.toList, " 1 event".toList, event.toList,
   "\nsrcadr".toList ++ '=' :: v.srcadr.toList, " srcport=123".toList, " leap=00".toList,
   stratum.toList, " rootdisp".toList ++ '=' :: v.rootDispersion.toList,
   " refid".toList ++ '=' :: v.refId.toList,
   "\nreftime".toList ++ '=' :: (v.stamp.toList ++ ([' ', ' '] ++ v.weekday.toList)),
   v.date.toList, " rec=da2f\n".toList]

/-- What the daemon looks for is found once and is legible. -/
structure Legible (items : List (List Char)) (v : PrintedVars) : Prop where
  commas : ∀ x ∈ items, ',' ∉ x
  words : IsWord v.selection ∧ IsWord v.stamp ∧ IsWord v.weekday
  values : ∀ w ∈ [v.rootDispersion, v.srcadr, v.refId],
    '=' ∉ w.toList ∧ '\n' ∉ w.toList ∧ w.toList.rdropWhile isSpace = w.toList
  times : ∀ w ∈ [v.stamp, v.weekday, v.date], '=' ∉ w.toList
  once : ∀ q ∈ [("sel_", 2), ("rootdisp", 9), ("srcadr", 5), ("refid", 10), ("reftime", 11)],
    some (items.filter (contains q.1)) = items[q.2]?.map fun x => [x]

theorem printsRv_printedItems {output status event stratum : String} {v : PrintedVars}
    (hout : output.toList = [','].intercalate (printedItems status event stratum v))
    (h : Legible (printedItems status event stratum v) v) : PrintsRv output v := by
  have honce : ∀ {key : String} {i : Nat} {x : List Char},
      (key, i) ∈ [("sel_", 2), ("rootdisp", 9), ("srcadr", 5), ("refid", 10), ("reftime", 11)] →
      (printedItems status event stratum v)[i]? = some x →
      Only key (printedItems status event stratum v) x := by
    intro key i x hkey hx
    have hfound := h.once (key, i) hkey
    dsimp only at hfound
    rw [hx] at hfound
    exact Option.some.inj hfound
  have hnil : ∀ c ∈ ([] : List Char), isSpace c = true := fun c hc => absurd hc List.not_mem_nil
  have hvalue : ∀ {name : List Char} {w : String}, '=' ∉ name →
      w ∈ [v.rootDispersion, v.srcadr, v.refId] → NameValue w (name ++ '=' :: w.toList) := by
    intro name w hname hw
    obtain ⟨heq, hline, htrim⟩ := h.values w hw
    exact ⟨name, [], hname, heq, hline, htrim, hnil, by rw [List.append_nil]⟩
  obtain ⟨hselection, hstamp, hweekday⟩ := h.words
  refine ⟨_, hout, { commas := h.commas, word := hselection, selection := ?_
                     rootDispersion := ?_, srcadr := ?_, refId := ?_
                     date := h.times _ (by simp), reftime := ?_ }⟩
  · exact ⟨_, @honce _ 2 _ (by simp) rfl, [' '], [], by simp [isSpace], hnil, by simp⟩
  · exact ⟨_, @honce _ 9 _ (by simp) rfl, hvalue (by decide) (by simp)⟩
  · exact ⟨_, @honce _ 5 _ (by simp) rfl, hvalue (by decide) (by simp)⟩
  · exact ⟨_, @honce _ 10 _ (by simp) rfl, hvalue (by decide) (by simp)⟩
  · refine ⟨(printedItems status event stratum v).take 11, _, [" rec=da2f\n".toList], rfl,
      @honce _ 11 _ (by simp) rfl, "\nreftime".toList, [' ', ' '], by decide,
      h.times _ (by simp), h.times _ (by simp), hstamp, hweekday, by decide, by decide, rfl⟩

theorem printsRv_onePeer : PrintsRv oneRv onePrinted.vars := by
  refine @printsRv_printedItems _ "associd=12345 status=961a conf" " sys_peer" " stratum=1" _ ?_ ?_
  · unfold oneRv
    rw [String.toList_append, String.toList_append]
    decide +kernel
  · exact { commas := by decide +kernel, words := by decide, values := by decide
            times := by decide, once := by decide +kernel }

theorem printsRv_secondPeer : PrintsRv secondRv secondPrinted.vars := by
  refine @printsRv_printedItems _ "associd=12346 status=9424 conf" " reachable" " stratum=2" _ ?_ ?_
  · unfold secondRv
    rw [String.toList_append, String.toList_append]
    decide +kernel
  · exact { commas := by decide +kernel, words := by decide, values := by decide
            times := by decide, once := by decide +kernel }

theorem prints_onePeer : Prints oneApeers (fun _ => oneRv) [onePrinted] := by
  refine { apeers := printsApeers_onePeer, rv := ?_, associds := by decide, srcadrs := by decide
           types := by decide, selections := by decide }
  intro p hp
  rw [List.mem_singleton.mp hp]
  exact printsRv_onePeer

theorem prints_twoPeers : Prints twoApeers twoRv [onePrinted, secondPrinted] := by
  refine { apeers := printsApeers_twoPeers, rv := ?_, associds := by decide, srcadrs := by decide
           types := by decide, selections := by decide }
  intro p hp
  rcases List.mem_pair.mp hp with rfl | rfl
  · exact printsRv_onePeer
  · exact printsRv_secondPeer

theorem decodes_prints_twoPeers :
    ∃ info, getNtpdAssociationsInfo twoApeers twoRv ["12346", "12345"] ["10.0.0.1", "10.0.0.2"] =
        .ok info ∧
      info.keys.card = 2 ∧
      info.lookup "10.0.0.1" = some (Dict.ofPairs
        [("remote_peer_address", "10.0.0.1"), ("remote_peer_ref_id", ".GPS."), ("stratum", "1"),
         ("peer_type", "uni_or_many_cast"), ("last_polled", "33"), ("polling_interval", "64"),
         ("reachability_register", "377"), ("network_delay", "0.500"), ("time_offset", "0.100"),
         ("jitter", "0.020"), ("root_dispersion", "1.000"), ("peer_status_word", "system_peer"),
         ("associd", "12345"), ("reference_time", "Mon Jan 4 2016 10:00:00.000")]) ∧
      info.lookup "10.0.0.2" = some (Dict.ofPairs
        [("remote_peer_address", "10.0.0.2"), ("remote_peer_ref_id", "192.0.2.9"),
         ("stratum", "2"), ("peer_type", "uni_or_many_cast"), ("last_polled", "12"),
         ("polling_interval", "64"), ("reachability_register", "17"), ("network_delay", "1.250"),
         ("time_offset", "-0.300"), ("jitter", "0.140"), ("root_dispersion", "2.500"),
         ("peer_status_word", "candidate"), ("associd", "12346"),
         ("reference_time", "Mon Jan 4 2016 10:00:20.000")]) := by
  obtain ⟨info, hinfo, hcard, hlookup⟩ := decodes_prints prints_twoPeers
    (show IterOrder ["12346", "12345"] _ by decide)
    (show IterOrder ["10.0.0.1", "10.0.0.2"] _ by decide)
  have hone : onePrinted.vars.referenceTime = "Mon Jan 4 2016 10:00:00.000" := by decide +kernel
  have htwo : secondPrinted.vars.referenceTime = "Mon Jan 4 2016 10:00:20.000" := by
    decide +kernel
  refine ⟨info, hinfo, hcard, (hlookup _ _).mpr ⟨onePrinted, by simp, rfl, ?_⟩,
    (hlookup _ _).mpr ⟨secondPrinted, by simp, rfl, ?_⟩⟩
  · rw [Peer.status, hone]
    rfl
  · rw [Peer.status, htwo]
    rfl

end OpsNtpd.Daemon
