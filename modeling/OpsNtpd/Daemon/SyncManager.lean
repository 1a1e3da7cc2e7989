import OpsNtpd.Cli.Sanitize
import OpsNtpd.Daemon.Decode

/-! # Daemon: Writing the Status to OVSDB

  The sync manager runs as a process of its own. It takes status messages from
  `transaction_queue` and writes each to the database in one transaction: the
  statuses to the rows of `NTP_Association`, found by their addresses, and the
  global status and statistics to the `System` row. The queue carries the text
  of `json.dumps`, which `json.loads` undoes; a message stands for its text.
  The transaction reads only columns that it does not write, so its writes are
  applied at once.

  - Section 1: one transaction.
  - Section 2: what it does to the tables.
  - Section 3: which rows get the status of their own peer.
-/

namespace OpsNtpd.Daemon

/-! ## Section 1: One transaction -/

/-- A message, `ntpd_updates`. -/
structure StatusMsg where
  associationsInfo : Dict String Smap
  statistics : Smap
  status : Smap
  deriving DecidableEq

/-- `set_ntp_association_status` -/
def setNtpAssociationStatus (row : NtpAssociationRow) (entry : Smap) : NtpAssociationRow :=
  { row with associationStatus := entry }

/-- `find_row_by_ip_addr`: the loop variable, and whether the loop found a row.
    When it did not, the variable holds the last row of the table. -/
def findRowByIpAddr (rows : List NtpAssociationRow) (serverIpAddr : String) :
    Option NtpAssociationRow × Bool :=
  match rows.find? fun r => r.address = serverIpAddr with
  | some row => (some row, true)
  | none => (rows.getLast?, false)

/-- One iteration of the loop of `update_row_in_ntp_association_table`. -/
def updateRowStep (associationsInfo : Dict String Smap) (rows : List NtpAssociationRow)
    (k : String) : List NtpAssociationRow :=
  match associationsInfo.lookup k, findRowByIpAddr rows k with
  | some v, (some row, true) =>
      Rows.updateWhere NtpAssociationRow.uuid row.uuid (setNtpAssociationStatus · v) rows
  | _, _ => rows

/-- `update_row_in_ntp_association_table`, with the dictionary iterated in the
    order `ks`. -/
def updateRowInNtpAssociationTable (associationsInfo : Dict String Smap) (ks : List String)
    (rows : List NtpAssociationRow) : List NtpAssociationRow :=
  ks.foldl (updateRowStep associationsInfo) rows

/-- `update_system_table`: the first row of the table is written. -/
def updateSystemTable (msg : StatusMsg) (rows : List SystemRow) :
    Except PyError (List SystemRow) :=
  match rows with
  | [] => .error (.attributeError "'NoneType' object has no attribute 'ntp_status'")
  | row :: _ =>
      .ok (Rows.updateWhere SystemRow.uuid row.uuid
        (fun r => { r with ntpStatus := msg.status, ntpStatistics := msg.statistics }) rows)

/-- `update_info`, when the commit succeeds. -/
def updateInfo (msg : StatusMsg) (ks : List String) (db : Db) : Except PyError Db :=
  (updateSystemTable msg db.system).map fun system =>
    { db with
      ntpAssociation := updateRowInNtpAssociationTable msg.associationsInfo ks db.ntpAssociation
      system := system }

/-! ## Section 2: The tables after the transaction -/

section tables
variable {info : Dict String Smap} {rows : List NtpAssociationRow}

/-- The row with the status that the message has for its address, if any. -/
def withStatus (info : Dict String Smap) (row : NtpAssociationRow) : NtpAssociationRow :=
  setNtpAssociationStatus row ((info.lookup row.address).getD row.associationStatus)

/-- Nothing but the status of a row is written. -/
@[simp] theorem withStatus_address (row : NtpAssociationRow) :
    (withStatus info row).address = row.address := rfl

@[simp] theorem withStatus_uuid (row : NtpAssociationRow) :
    (withStatus info row).uuid = row.uuid := rfl

theorem withStatus_eq_self {row : NtpAssociationRow} (h : info.lookup row.address = none) :
    withStatus info row = row := by
  unfold withStatus
  rw [h]
  rfl

theorem withStatus_status {row : NtpAssociationRow} {status : Smap}
    (h : info.lookup row.address = some status) :
    (withStatus info row).associationStatus = status := by
  unfold withStatus
  rw [h]
  rfl

/-- **Step.** An iteration writes the row with the address, if there is one. -/
theorem updateRowStep_eq (huuid : (rows.map NtpAssociationRow.uuid).Nodup)
    (haddress : (rows.map NtpAssociationRow.address).Nodup) (k : String) :
    updateRowStep info rows k =
      Rows.updateWhere NtpAssociationRow.address k (withStatus info) rows := by
  unfold updateRowStep findRowByIpAddr
  cases hlook : info.lookup k with
  | none =>
    have hsame : ∀ r ∈ rows, r.address = k → withStatus info r = r := by
      intro r _ hk
      exact withStatus_eq_self (by rw [hk, hlook])
    exact (Rows.updateWhere_eq_self hsame).symm
  | some v =>
    cases hfind : rows.find? fun r => r.address = k with
    | none =>
      have hsame : ∀ r ∈ rows, r.address = k → withStatus info r = r := by
        intro r hr hk
        exact absurd (List.mem_map.mpr ⟨r, hr, hk⟩) (Rows.find_none_iff.mp hfind)
      -- the loop variable is some row or none, and the flag says not to use it
      cases rows.getLast? <;> exact (Rows.updateWhere_eq_self hsame).symm
    | some row =>
      obtain ⟨hrow, hk⟩ := (Rows.find_iff haddress).mp hfind
      show Rows.updateWhere NtpAssociationRow.uuid row.uuid (setNtpAssociationStatus · v) rows = _
      rw [Rows.updateWhere_ident (f := NtpAssociationRow.address) huuid haddress hrow, hk]
      apply List.map_congr_left
      intro r _
      by_cases hr : r.address = k
      · rw [if_pos hr, if_pos hr, withStatus, hr, hlook]
        rfl
      · rw [if_neg hr, if_neg hr]

/-- **Run.** The loop writes the rows whose addresses come up in it. -/
theorem updateRows_foldl (ks : List String) (huuid : (rows.map NtpAssociationRow.uuid).Nodup)
    (haddress : (rows.map NtpAssociationRow.address).Nodup) :
    updateRowInNtpAssociationTable info ks rows =
      rows.map fun r => if r.address ∈ ks then withStatus info r else r := by
  unfold updateRowInNtpAssociationTable
  induction ks generalizing rows with
  | nil => simp
  | cons k ks ih =>
    rw [List.foldl_cons, updateRowStep_eq huuid haddress k, ih]
    · unfold Rows.updateWhere
      rw [List.map_map]
      apply List.map_congr_left
      intro r _
      by_cases hk : r.address = k
      · -- a second visit of the row would write the same status
        have hidem : withStatus info (withStatus info r) = withStatus info r := by
          cases hlook : info.lookup r.address with
          | none => rw [withStatus_eq_self hlook, withStatus_eq_self hlook]
          | some v => simp [withStatus, setNtpAssociationStatus, hlook]
        simp [hk, hidem]
      · simp [hk]
    · rw [Rows.map_updateWhere NtpAssociationRow.uuid withStatus_uuid]
      exact huuid
    · rw [Rows.map_updateWhere NtpAssociationRow.address withStatus_address]
      exact haddress

/-- In every order of the message's entries each row gets the status that the
    message has for its address. -/
theorem updateRowInNtpAssociationTable_eq {ks : List String} (hks : IterOrder ks info.keys)
    (huuid : (rows.map NtpAssociationRow.uuid).Nodup)
    (haddress : (rows.map NtpAssociationRow.address).Nodup) :
    updateRowInNtpAssociationTable info ks rows = rows.map (withStatus info) := by
  rw [updateRows_foldl ks huuid haddress]
  apply List.map_congr_left
  intro r _
  by_cases hr : r.address ∈ ks
  · rw [if_pos hr]
  · rw [if_neg hr, withStatus_eq_self]
    apply Dict.lookup_eq_none_of_not_mem_keys
    rwa [← hks.mem_iff]

end tables

/-- The transaction fails only on an empty `System` table. -/
theorem updateInfo_ok (msg : StatusMsg) {ks : List String} {db : Db}
    (hks : IterOrder ks msg.associationsInfo.keys)
    (huuid : (db.ntpAssociation.map NtpAssociationRow.uuid).Nodup)
    (haddress : (db.ntpAssociation.map NtpAssociationRow.address).Nodup)
    (hsystem : db.system ≠ []) :
    ∃ db', updateInfo msg ks db = .ok db' ∧
      db'.ntpAssociation = db.ntpAssociation.map (withStatus msg.associationsInfo) := by
  cases hrows : db.system with
  | nil => exact absurd hrows hsystem
  | cons row rest =>
    refine ⟨_, by rw [updateInfo, hrows]; rfl, ?_⟩
    exact updateRowInNtpAssociationTable_eq hks huuid haddress

/-! ## Section 3: Status by address -/

/-- The configured addresses resolve to IP addresses, and one that is an IP
    address resolves to itself. -/
structure Resolves (isIp : String → Prop) (resolve : String → String)
    (rows : List NtpAssociationRow) : Prop where
  toIp : ∀ r ∈ rows, isIp (resolve r.address)
  literal : ∀ r ∈ rows, isIp r.address → resolve r.address = r.address

/-- The row has the status of its own peer, the one at its resolved address. -/
def CarriesStatus (resolve : String → String) (peers : List PeerInfo)
    (row : NtpAssociationRow) : Prop :=
  ∃ p ∈ peers, p.entry.remote = resolve row.address ∧ assocInfo p = .ok row.associationStatus

/-- Every row has the status of its own peer, which names its resolved address. -/
def Delivered (resolve : String → String) (peers : List PeerInfo)
    (rows : List NtpAssociationRow) : Prop :=
  ∀ r ∈ rows, CarriesStatus resolve peers r ∧
    r.associationStatus.lookup "remote_peer_address" = some (resolve r.address)

section delivery
variable {isIp : String → Prop} {resolve : String → String} {peers : List PeerInfo}
  {rows : List NtpAssociationRow} {apeers : String} {rv : String → String}

theorem CarriesStatus.remotePeerAddress {row : NtpAssociationRow}
    (h : CarriesStatus resolve peers row) :
    row.associationStatus.lookup "remote_peer_address" = some (resolve row.address) := by
  obtain ⟨p, _, hremote, hstatus⟩ := h
  rw [← hremote]
  exact lookup_remotePeerAddress hstatus

theorem delivered_iff_carriesStatus :
    Delivered resolve peers rows ↔ ∀ r ∈ rows, CarriesStatus resolve peers r := by
  constructor
  · intro h r hr
    exact (h r hr).1
  · intro h r hr
    exact ⟨h r hr, (h r hr).remotePeerAddress⟩

/-- A row configured by the IP address of its peer gets the status. -/
theorem carriesStatus_of_literal (hreports : Reports apeers rv peers)
    (hone : (peers.map fun p => p.entry.remote).Perm (rows.map fun r => resolve r.address))
    {r : NtpAssociationRow} (hr : r ∈ rows) (hliteral : resolve r.address = r.address) :
    CarriesStatus resolve peers
      (withStatus (Rows.index (fun p => p.entry.remote) statusOf peers) r) := by
  have hmem : resolve r.address ∈ peers.map fun p => p.entry.remote :=
    hone.mem_iff.mpr (List.mem_map.mpr ⟨r, hr, rfl⟩)
  obtain ⟨p, hp, hremote⟩ := List.mem_map.mp hmem
  have hlook : (Rows.index (fun p => p.entry.remote) statusOf peers).lookup r.address =
      some (statusOf p) :=
    (Rows.lookup_index hreports.remotes).mpr ⟨p, hp, hremote.trans hliteral, rfl⟩
  refine ⟨p, hp, hremote, ?_⟩
  rw [withStatus_status hlook]
  exact hreports.assocInfo_eq hp

/-- A row configured by a host name is not found: it stays as it is. -/
theorem withStatus_of_hostName (hreports : Reports apeers rv peers)
    (hresolve : Resolves isIp resolve rows)
    (hone : (peers.map fun p => p.entry.remote).Perm (rows.map fun r => resolve r.address))
    {r : NtpAssociationRow} (hr : r ∈ rows) (hname : resolve r.address ≠ r.address) :
    withStatus (Rows.index (fun p => p.entry.remote) statusOf peers) r = r := by
  apply withStatus_eq_self
  rw [Rows.lookup_index_eq_none hreports.remotes]
  intro hmem
  -- a peer at this address would belong to a row that resolves to it
  obtain ⟨r', hr', haddress⟩ := List.mem_map.mp (hone.mem_iff.mp hmem)
  have hip : isIp r.address := haddress ▸ hresolve.toIp r' hr'
  exact hname (hresolve.literal r hr hip)

/-- **Delivery.** One peer is reported for each row, at the address that the
    row's address resolves to. After the statuses have gone through the queue
    every row has the status of its own peer, in every order of the loops, if
    and only if each row was configured by IP address or had this status
    before. -/
theorem delivered_iff {db : Db} (hreports : Reports apeers rv peers)
    (hresolve : Resolves isIp resolve db.ntpAssociation)
    (hone : (peers.map fun p => p.entry.remote).Perm
      (db.ntpAssociation.map fun r => resolve r.address))
    (huuid : (db.ntpAssociation.map NtpAssociationRow.uuid).Nodup)
    (haddress : (db.ntpAssociation.map NtpAssociationRow.address).Nodup)
    (hsystem : db.system ≠ []) {ids addresses ks : List String}
    (hids : IterOrder ids (peers.map fun p => p.entry.associd).toFinset)
    (haddresses : IterOrder addresses (peers.map fun p => p.entry.remote).toFinset)
    (hks : IterOrder ks (peers.map fun p => p.entry.remote).toFinset)
    (statistics status : Smap) :
    ∃ info db', getNtpdAssociationsInfo apeers rv ids addresses = .ok info ∧
      updateInfo ⟨info, statistics, status⟩ ks db = .ok db' ∧
      (Delivered resolve peers db'.ntpAssociation ↔
        ∀ r ∈ db.ntpAssociation,
          resolve r.address = r.address ∨ CarriesStatus resolve peers r) := by
  have hkeys : (Rows.index (fun p => p.entry.remote) statusOf peers).keys =
      (peers.map fun p => p.entry.remote).toFinset := Rows.keys_index hreports.remotes
  obtain ⟨db', hupdate, hrows⟩ := updateInfo_ok
    ⟨Rows.index (fun p => p.entry.remote) statusOf peers, statistics, status⟩
    (hkeys ▸ hks) huuid haddress hsystem
  refine ⟨_, db', getNtpdAssociationsInfo_of_reports hreports hids haddresses, hupdate, ?_⟩
  rw [delivered_iff_carriesStatus, hrows, List.forall_mem_map]
  constructor
  · intro hcarries r hr
    by_cases hliteral : resolve r.address = r.address
    · exact Or.inl hliteral
    · have hsame := withStatus_of_hostName hreports hresolve hone hr hliteral
      exact Or.inr (hsame ▸ hcarries r hr)
  · intro hcond r hr
    by_cases hliteral : resolve r.address = r.address
    · exact carriesStatus_of_literal hreports hone hr hliteral
    · rw [withStatus_of_hostName hreports hresolve hone hr hliteral]
      exact (hcond r hr).resolve_left hliteral

end delivery

/-! ### One server -/

def onePeer : PeerInfo :=
  { entry :=
      { remote := "10.0.0.1", refid := ".GPS.", associd := "12345", st := "1", t := "u"
        when := "33", poll := "64", reach := "377", delay := "0.500", offset := "0.100"
        jitter := "0.020" }
    rootDispersion := "1.000"
    referenceTime := "Mon Jan 4 2016 10:00:00.000"
    peerStatusWord := "sel_sys.peer" }

theorem reports_onePeer : Reports oneApeers (fun _ => oneRv) [onePeer] := by
  have hreports := reports_of_prints prints_onePeer
  have hinfo : [onePrinted].map Peer.info = [onePeer] := by decide
  rw [hinfo] at hreports
  exact hreports

/-- One server without a status, configured by this address. -/
def oneServerDb (address : String) : Db :=
  { nextUuid := 3
    system := [⟨0, 1, ∅, ∅, ∅⟩]
    vrf := [⟨1, "vrf_default"⟩]
    ntpKey := []
    ntpAssociation := [⟨2, address, some 1, none, ∅, ∅⟩] }

/-- The name `time.example` resolves to 10.0.0.1. -/
def oneResolve (address : String) : String :=
  if address = "time.example" then "10.0.0.1" else address

theorem resolves_oneServerDb {address : String}
    (h : address = "10.0.0.1" ∨ address = "time.example") :
    Resolves (fun a => (Cli.inetPton a).isSome = true) oneResolve
      (oneServerDb address).ntpAssociation := by
  constructor
  · intro r hr
    rw [List.mem_singleton.mp hr]
    rcases h with rfl | rfl
    · decide
    · decide
  · intro r hr
    rw [List.mem_singleton.mp hr]
    rcases h with rfl | rfl
    · decide
    · decide

/-- The second peer. -/
def secondPeer : PeerInfo :=
  { entry :=
      { remote := "10.0.0.2", refid := "192.0.2.9", associd := "12346", st := "2", t := "u"
        when := "12", poll := "64", reach := "17", delay := "1.250", offset := "-0.300"
        jitter := "0.140" }
    rootDispersion := "2.500"
    referenceTime := "Mon Jan 4 2016 10:00:20.000"
    peerStatusWord := "sel_candidate" }

theorem reports_twoPeers : Reports twoApeers twoRv [onePeer, secondPeer] := by
  have hreports := reports_of_prints prints_twoPeers
  have hinfo : [onePrinted, secondPrinted].map Peer.info = [onePeer, secondPeer] := by
    decide +kernel
  rw [hinfo] at hreports
  exact hreports

/-- A server by its IP address, and one by a name of the second peer, whose
    status it has already. -/
def mixedDb : Db :=
  { oneServerDb "10.0.0.1" with
    nextUuid := 4
    ntpAssociation :=
      [⟨2, "10.0.0.1", some 1, none, ∅, ∅⟩,
       ⟨3, "second.example", some 1, none, ∅, statusOf secondPeer⟩] }

/-- The name `second.example` resolves to 10.0.0.2. -/
def mixedResolve (address : String) : String :=
  if address = "second.example" then "10.0.0.2" else address

theorem resolves_mixedDb :
    Resolves (fun a => (Cli.inetPton a).isSome = true) mixedResolve mixedDb.ntpAssociation := by
  constructor
  · intro r hr
    rcases List.mem_pair.mp hr with rfl | rfl
    · decide
    · decide
  · intro r hr
    rcases List.mem_pair.mp hr with rfl | rfl
    · decide
    · decide

/-- The server configured by its IP address gets its status, and the other one
    keeps its own. -/
theorem delivered_iff_two_rows : ∃ info db',
    getNtpdAssociationsInfo twoApeers twoRv ["12346", "12345"] ["10.0.0.1", "10.0.0.2"] =
        .ok info ∧
      updateInfo ⟨info, ∅, ∅⟩ ["10.0.0.2", "10.0.0.1"] mixedDb = .ok db' ∧
      Delivered mixedResolve [onePeer, secondPeer] db'.ntpAssociation := by
  have hremotes : IterOrder ["10.0.0.1", "10.0.0.2"]
      ([onePeer, secondPeer].map fun p => p.entry.remote).toFinset := by decide
  obtain ⟨info, db', hinfo, hupdate, hiff⟩ := delivered_iff reports_twoPeers resolves_mixedDb
    (by decide) (by decide) (by decide) (by decide)
    (show IterOrder ["12346", "12345"] _ by decide) hremotes
    (show IterOrder ["10.0.0.2", "10.0.0.1"] _ by decide) ∅ ∅
  refine ⟨info, db', hinfo, hupdate, hiff.mpr ?_⟩
  intro r hr
  rcases List.mem_pair.mp hr with rfl | rfl
  · exact Or.inl (by decide)
  · exact Or.inr ⟨secondPeer, by simp, by decide, reports_twoPeers.assocInfo_eq (by simp)⟩

/-- A server configured by its host name does not: its row is not found. -/
theorem hostName_not_delivered :
    Reports oneApeers (fun _ => oneRv) [onePeer] ∧
    Resolves (fun a => (Cli.inetPton a).isSome = true) oneResolve
      (oneServerDb "time.example").ntpAssociation ∧
    ([onePeer].map fun p => p.entry.remote).Perm
      ((oneServerDb "time.example").ntpAssociation.map fun r => oneResolve r.address) ∧
    ∃ info db',
      getNtpdAssociationsInfo oneApeers (fun _ => oneRv) ["12345"] ["10.0.0.1"] = .ok info ∧
      updateInfo ⟨info, ∅, ∅⟩ ["10.0.0.1"] (oneServerDb "time.example") = .ok db' ∧
      ¬ Delivered oneResolve [onePeer] db'.ntpAssociation := by
  refine ⟨reports_onePeer, resolves_oneServerDb (Or.inr rfl), by decide,
    Rows.index (fun p => p.entry.remote) statusOf [onePeer], oneServerDb "time.example", ?_, ?_, ?_⟩
  · exact getNtpdAssociationsInfo_of_reports reports_onePeer (by decide) (by decide)
  · decide
  · intro hdelivered
    obtain ⟨_, hremote⟩ := hdelivered _ List.mem_cons_self
    exact absurd hremote (by decide)

end OpsNtpd.Daemon
