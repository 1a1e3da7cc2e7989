import OpsNtpd.Daemon.RowLoops
import OpsNtpd.Framework.Text

/-! # Daemon: Reading the Status of ntpd

  `ops_ntpd_get_ntpd_associations_info` runs `ntpq` for the list of peers and
  once more for the variables of each, and builds from the printed texts a map
  from source addresses to `association_status` columns.

  - Section 1: the parsers. What they index may be missing.
  - Section 2: the three loops, over dictionaries in any order.
  - Section 3: for a text that reports peers, the map has the status of each
    peer under its source address.

  Setting the hardware clock is left out.
-/

namespace OpsNtpd.Daemon

open Text

/-! ## Section 1: Parsing -/

/-- `strip()` -/
def strip (cs : List Char) : List Char :=
  ((cs.dropWhile isSpace).reverse.dropWhile isSpace).reverse

/-- `key in x` -/
def contains (key : String) (cs : List Char) : Bool := key.toList <:+: cs

/-- `x[0]` -/
def first {α : Type} (xs : List α) : Except PyError α :=
  match xs with
  | [] => .error (.indexError "list index out of range")
  | x :: _ => .ok x

/-- `x.strip().split("=")[1]` -/
def value (item : List Char) : Except PyError (List Char) :=
  first (((strip item).splitOn '=').drop 1)

/-- The columns of a line of `apeers`. -/
structure PeerEntry where
  remote : String
  refid : String
  associd : String
  st : String
  t : String
  when : String
  poll : String
  reach : String
  delay : String
  offset : String
  jitter : String
  deriving DecidableEq, Repr

/-- A line of `apeers`. -/
def parseApeersLine (line : List Char) : Except PyError PeerEntry :=
  match (fields isSpace line).map String.ofList with
  | remote :: refid :: associd :: st :: t :: when :: poll :: reach :: delay :: offset :: jitter ::
      _ =>
      .ok { remote, refid, associd, st, t, when, poll, reach, delay, offset, jitter }
  | _ => .error (.indexError "list index out of range")

/-- The output of `apeers`, less its two header lines. -/
def parseApeers (output : String) : Except PyError (List PeerEntry) :=
  (((strip output.toList).splitOn '\n').drop 2).mapM parseApeersLine

/-- What is taken from the output of `rv`. -/
structure PeerVars where
  peerStatusWord : String
  rootDispersion : String
  srcadr : String
  referenceTime : String
  refId : String
  deriving DecidableEq, Repr

/-- The comma-separated items of the output, with line breaks made blanks. -/
def rvItems (output : String) : List (List Char) :=
  (output.toList.map fun c => if c = '\n' then ' ' else c).splitOn ','

/-- The items with `reftime`, each joined to the item after it. -/
def reftimeItems : List (List Char) → Except PyError (List (List Char))
  | [] => .ok []
  | [x] =>
    if contains "reftime" x then .error (.indexError "list index out of range") else .ok []
  | x :: y :: items =>
    (reftimeItems (y :: items)).map fun rest =>
      if contains "reftime" x then (x ++ y) :: rest else rest

/-- The value of the first item that contains `key`. -/
def valueWith (key : String) (items : List (List Char)) : Except PyError (List Char) :=
  (first (items.filter (contains key))).bind value

/-- The output of `rv`. -/
def parseRv (output : String) : Except PyError PeerVars :=
  let items := rvItems output
  (first (items.filter (contains "sel_"))).bind fun word =>
  (valueWith "rootdisp" items).bind fun rootDispersion =>
  (valueWith "srcadr" items).bind fun srcadr =>
  (reftimeItems items).bind fun reftimes =>
  (first reftimes).bind fun reftime =>
  (value reftime).bind fun time =>
  (valueWith "refid" items).map fun refId =>
    { peerStatusWord := String.ofList (strip word)
      rootDispersion := String.ofList rootDispersion
      srcadr := String.ofList srcadr
      referenceTime := " ".intercalate (((fields isSpace time).drop 1).map String.ofList)
      refId := String.ofList refId }

/-! ## Section 2: The loops -/

/-- An entry of `associations_info_table`. -/
structure PeerInfo where
  entry : PeerEntry
  rootDispersion : String
  referenceTime : String
  peerStatusWord : String
  deriving DecidableEq, Repr

/-- The entry after the variables have been filled in. -/
def peerInfo (e : PeerEntry) (v : PeerVars) : PeerInfo :=
  { entry :=
      { e with
        remote := v.srcadr
        refid := if e.refid.toList.head? = some '.' then e.refid else v.refId }
    rootDispersion := v.rootDispersion
    referenceTime := v.referenceTime
    peerStatusWord := v.peerStatusWord }

/-- `translate_peer_status_word` -/
def translatePeerStatusWord : List (String × String) :=
  [("sel_reject", "reject"), ("sel_falsetick", "falsetick"), ("sel_excess", "excess"),
   ("sel_outlier", "outlier"), ("sel_candidate", "candidate"), ("sel_backup", "backup"),
   ("sel_sys.peer", "system_peer"), ("sel_pps.peer", "pps_peer")]

/-- `translate_peer_type` -/
def translatePeerType : List (String × String) :=
  [("u", "uni_or_many_cast"), ("b", "bcast_or_mcast_client"), ("l", "local_ref_clock"),
   ("s", "symm_peer"), ("A", "manycast_server"), ("B", "bcast_server"), ("M", "mcast_server")]

/-- Look up in one of these dictionaries. -/
def translate (table : List (String × String)) (key : String) : Except PyError String :=
  match table.lookup key with
  | none => .error (.keyError key)
  | some v => .ok v

/-- `default_assoc_info` -/
def defaultAssocInfo : List (String × String) :=
  ["remote_peer_address", "remote_peer_ref_id", "stratum", "peer_type", "last_polled",
   "polling_interval", "reachability_register", "network_delay", "time_offset", "jitter",
   "root_dispersion", "peer_status_word", "associd"].map fun key => (key, "-")

/-- `assoc_info`, the status of a peer. -/
def assocInfo (p : PeerInfo) : Except PyError Smap :=
  (translate translatePeerType p.entry.t).bind fun peerType =>
  (translate translatePeerStatusWord p.peerStatusWord).map fun word =>
    Dict.ofPairs (defaultAssocInfo ++
      [("remote_peer_address", p.entry.remote), ("remote_peer_ref_id", p.entry.refid),
       ("stratum", p.entry.st), ("peer_type", peerType), ("last_polled", p.entry.when),
       ("polling_interval", p.entry.poll), ("reachability_register", p.entry.reach),
       ("network_delay", p.entry.delay), ("time_offset", p.entry.offset),
       ("jitter", p.entry.jitter), ("root_dispersion", p.rootDispersion),
       ("peer_status_word", word), ("associd", p.entry.associd),
       ("reference_time", p.referenceTime)])

/-- `a_table` -/
def aTable (entries : List PeerEntry) : Dict String PeerEntry :=
  Dict.ofPairs (entries.map fun e => (e.associd, e))

/-- One iteration of the loop over `assoc_db.keys()`. -/
def gatherStep (entries : Dict String PeerEntry) (rv : String → String)
    (table : Dict String PeerInfo) (associd : String) : Except PyError (Dict String PeerInfo) :=
  match entries.lookup associd with
  | none => .error (.keyError associd)
  | some e =>
    (parseRv (rv associd)).map fun v => table.insert (peerInfo e v).entry.remote (peerInfo e v)

/-- One iteration of the loop over `associations_info_table.keys()`. -/
def translateStep (table : Dict String PeerInfo) (info : Dict String Smap) (address : String) :
    Except PyError (Dict String Smap) :=
  match table.lookup address with
  | none => .error (.keyError address)
  | some p => (assocInfo p).map fun status => info.insert address status

/-- `ops_ntpd_get_ntpd_associations_info` for the outputs of `ntpq`, with the
    dictionaries iterated in the orders `ids` and `addresses`: the result is
    `ntpd_updates["associations_info"]`. -/
def getNtpdAssociationsInfo (apeers : String) (rv : String → String)
    (ids addresses : List String) : Except PyError (Dict String Smap) :=
  (parseApeers apeers).bind fun entries =>
  (ids.foldlM (gatherStep (aTable entries) rv) ∅).bind fun table =>
  addresses.foldlM (translateStep table) ∅

/-! ## Section 3: Texts that report peers -/

/-- The line `e` of `apeers` and the variables that `rv` prints for it are
    those of the peer. -/
def Describes (rv : String → String) (e : PeerEntry) (p : PeerInfo) : Prop :=
  ∃ v, parseRv (rv e.associd) = .ok v ∧ peerInfo e v = p

/-- The outputs of `ntpq` report these peers: one line of `apeers` and one
    output of `rv` for each, with known type letters and selection words, and
    different association ids and source addresses. -/
structure Reports (apeers : String) (rv : String → String) (peers : List PeerInfo) : Prop where
  read : ∃ entries, parseApeers apeers = .ok entries ∧ List.Forall₂ (Describes rv) entries peers
  associds : (peers.map fun p => p.entry.associd).Nodup
  remotes : (peers.map fun p => p.entry.remote).Nodup
  known : ∀ p ∈ peers, ∃ status, assocInfo p = .ok status

/-- The status of a peer whose type letter and selection word are known. -/
def statusOf (p : PeerInfo) : Smap := (assocInfo p).toOption.getD ∅

section reports
variable {apeers : String} {rv : String → String} {peers : List PeerInfo}

theorem Reports.assocInfo_eq (h : Reports apeers rv peers) {p : PeerInfo} (hp : p ∈ peers) :
    assocInfo p = .ok (statusOf p) := by
  obtain ⟨status, hstatus⟩ := h.known p hp
  rw [statusOf, hstatus]
  rfl

/-- The status of a peer names its source address. -/
theorem lookup_remotePeerAddress {p : PeerInfo} {status : Smap} (h : assocInfo p = .ok status) :
    status.lookup "remote_peer_address" = some p.entry.remote := by
  unfold assocInfo at h
  cases htype : translate translatePeerType p.entry.t with
  | error e =>
    rw [htype] at h
    cases h
  | ok peerType =>
    cases hword : translate translatePeerStatusWord p.peerStatusWord with
    | error e =>
      rw [htype, hword] at h
      cases h
    | ok word =>
      rw [htype, hword] at h
      cases h
      -- the default is overwritten, and no other key is the same
      beta_reduce
      rw [Dict.ofPairs_append_of_covered (by simp [defaultAssocInfo])]
      exact (Dict.lookup_ofPairs (by simp)).mpr List.mem_cons_self

/-- The association ids of the lines are those of the peers. -/
theorem associds_eq {entries : List PeerEntry} (h : List.Forall₂ (Describes rv) entries peers) :
    entries.map PeerEntry.associd = peers.map fun p => p.entry.associd := by
  induction h with
  | nil => rfl
  | cons hp _ ih =>
    obtain ⟨v, _, rfl⟩ := hp
    rw [List.map_cons, List.map_cons, ih]
    rfl

/-- Every peer has its line. -/
theorem exists_entry {entries : List PeerEntry} (h : List.Forall₂ (Describes rv) entries peers)
    {p : PeerInfo} (hp : p ∈ peers) : ∃ e ∈ entries, Describes rv e p := by
  induction h with
  | nil => cases hp
  | cons hdescribes _ ih =>
    rcases List.mem_cons.mp hp with rfl | htail
    · exact ⟨_, List.mem_cons_self, hdescribes⟩
    · obtain ⟨e, he, hep⟩ := ih htail
      exact ⟨e, List.mem_cons_of_mem _ he, hep⟩

/-- **Decoding.** In every order of its loops the code builds from a report the
    map from the source addresses of the peers to their statuses. -/
theorem getNtpdAssociationsInfo_of_reports (h : Reports apeers rv peers)
    {ids addresses : List String}
    (hids : IterOrder ids (peers.map fun p => p.entry.associd).toFinset)
    (haddresses : IterOrder addresses (peers.map fun p => p.entry.remote).toFinset) :
    getNtpdAssociationsInfo apeers rv ids addresses =
      .ok (Rows.index (fun p => p.entry.remote) statusOf peers) := by
  obtain ⟨entries, hentries, hpeers⟩ := h.read
  have hnd : (entries.map PeerEntry.associd).Nodup := by
    rw [associds_eq hpeers]
    exact h.associds
  -- the second loop finds the line and the variables of each peer
  have hgather : ids.foldlM (gatherStep (aTable entries) rv) ∅ =
      .ok (Rows.index (fun p => p.entry.remote) (fun p => p) peers) := by
    refine Rows.foldlM_index h.remotes (hids.perm ⟨h.associds, rfl⟩) ?_
    intro p hp m
    obtain ⟨e, he, v, hv, rfl⟩ := exists_entry hpeers hp
    have hlook : (aTable entries).lookup (peerInfo e v).entry.associd = some e :=
      Rows.lookup_index_of_mem (f := PeerEntry.associd) (v := fun e => e) hnd he
    have hrv : parseRv (rv (peerInfo e v).entry.associd) = .ok v := hv
    simp only [gatherStep, hlook, hrv]
    rfl
  -- the third finds its entry and translates it
  have htranslate : addresses.foldlM
      (translateStep (Rows.index (fun p => p.entry.remote) (fun p => p) peers)) ∅ =
      .ok (Rows.index (fun p => p.entry.remote) statusOf peers) := by
    refine Rows.foldlM_index h.remotes (haddresses.perm ⟨h.remotes, rfl⟩) ?_
    intro p hp m
    have hlook : (Rows.index (fun p => p.entry.remote) (fun p => p) peers).lookup p.entry.remote =
        some p := Rows.lookup_index_of_mem h.remotes hp
    simp only [translateStep, hlook, h.assocInfo_eq hp]
    rfl
  unfold getNtpdAssociationsInfo
  rw [hentries]
  show (ids.foldlM (gatherStep (aTable entries) rv) ∅).bind _ = _
  rw [hgather]
  exact htranslate

end reports

end OpsNtpd.Daemon
