import OpsNtpd.Daemon.SyncManager
import OpsNtpd.Framework.Transition

/-! # Daemon: Runs of the Sync Manager

  `ops_ntpd_sync_mgr_run` takes the messages from the queue one by one until
  `shutdown`. It looks for rows in its replica, which `idl.run()` refreshes
  during a commit only, while its writes reach the committed database, whose
  servers other clients insert and delete. The replica may lag behind, so a
  write may be for a row that is gone.

  - Section 1: one transaction over a replica and the committed database.
  - Section 2: the queue, the database and its clients as a transition system.
  - Section 3: what the history of the database tells about the replica.
  - Section 4: the tables after a run.
-/

namespace OpsNtpd.Daemon

open Transition

/-! ## Section 1: A transaction over a replica -/

/-- What one iteration of `update_row_in_ntp_association_table` writes: the
    row that it finds in the replica, and the status. -/
def associationWrite (associationsInfo : Dict String Smap) (replica : List NtpAssociationRow)
    (k : String) : Option (Uuid × Smap) :=
  match associationsInfo.lookup k, findRowByIpAddr replica k with
  | some v, (some row, true) => some (row.uuid, v)
  | _, _ => none

/-- The loop, with the dictionary iterated in the order `ks`. -/
def associationWrites (associationsInfo : Dict String Smap) (ks : List String)
    (replica : List NtpAssociationRow) : List (Uuid × Smap) :=
  ks.filterMap (associationWrite associationsInfo replica)

/-- One write. It has no effect where the row is gone. -/
def applyWrite (rows : List NtpAssociationRow) (w : Uuid × Smap) : List NtpAssociationRow :=
  Rows.updateWhere NtpAssociationRow.uuid w.1 (setNtpAssociationStatus · w.2) rows

/-- The columns that `update_system_table` writes. -/
def StatusMsg.globals (msg : StatusMsg) (row : SystemRow) : SystemRow :=
  { row with ntpStatus := msg.status, ntpStatistics := msg.statistics }

/-- `update_info`: the rows are looked for in the replica and written in the
    committed database. -/
def commitInfo (msg : StatusMsg) (ks : List String) (replica db : Db) : Except PyError Db :=
  match replica.system with
  | [] => .error (.attributeError "'NoneType' object has no attribute 'ntp_status'")
  | row :: _ =>
      .ok { db with
        ntpAssociation :=
          (associationWrites msg.associationsInfo ks replica.ntpAssociation).foldl applyWrite
            db.ntpAssociation
        system := Rows.updateWhere SystemRow.uuid row.uuid msg.globals db.system }

section writes
variable {info : Dict String Smap} {replica rows : List NtpAssociationRow}

theorem associationWrite_eq (k : String) :
    associationWrite info replica k =
      (info.lookup k).bind fun v =>
        (replica.find? fun r => r.address = k).map fun row => (row.uuid, v) := by
  unfold associationWrite findRowByIpAddr
  cases info.lookup k with
  | none => rfl
  | some v =>
    cases replica.find? fun r => r.address = k with
    | some row => rfl
    | none => cases replica.getLast? <;> rfl

/-- The status that the message has for the row, if the replica has the row. -/
def statusIn (info : Dict String Smap) (replica : List NtpAssociationRow)
    (row : NtpAssociationRow) : Option Smap :=
  if row.uuid ∈ replica.map NtpAssociationRow.uuid then info.lookup row.address else none

/-- The row with the status, if there is one. -/
def orStatus (status : Option Smap) (row : NtpAssociationRow) : NtpAssociationRow :=
  { row with associationStatus := status.getD row.associationStatus }

@[simp] theorem orStatus_none (row : NtpAssociationRow) : orStatus none row = row := rfl

/-- A later status takes the place of an earlier one. -/
theorem orStatus_orStatus (later earlier : Option Smap) (row : NtpAssociationRow) :
    orStatus later (orStatus earlier row) = orStatus (later.or earlier) row := by
  cases later with
  | none => rfl
  | some v => rfl

/-- Only the identity and the address of a row count. -/
@[simp] theorem statusIn_orStatus (status : Option Smap) (row : NtpAssociationRow) :
    statusIn info replica (orStatus status row) = statusIn info replica row := rfl

/-- The rows of the replica that are still there have the same addresses. -/
def SameAddresses (replica rows : List NtpAssociationRow) : Prop :=
  ∀ r ∈ rows, ∀ r' ∈ replica, r'.uuid = r.uuid → r'.address = r.address

/-- **Step.** One iteration writes the row with the address, if it is in the
    replica too. -/
theorem applyWrite_eq (haddress : (replica.map NtpAssociationRow.address).Nodup)
    (hsame : SameAddresses replica rows) (k : String) :
    ((associationWrite info replica k).toList).foldl applyWrite rows =
      Rows.updateWhere NtpAssociationRow.address k
        (fun r => orStatus (statusIn info replica r) r) rows := by
  have hkeep : (∀ r ∈ rows, r.address = k → statusIn info replica r = none) →
      rows = Rows.updateWhere NtpAssociationRow.address k
        (fun r => orStatus (statusIn info replica r) r) rows := by
    intro hnone
    refine (Rows.updateWhere_eq_self ?_).symm
    intro r hr hk
    rw [hnone r hr hk, orStatus_none]
  rw [associationWrite_eq]
  cases hlook : info.lookup k with
  | none =>
    apply hkeep
    intro r _ hk
    rw [statusIn, hk, hlook, ite_self]
  | some v =>
    cases hfind : replica.find? fun r => r.address = k with
    | none =>
      apply hkeep
      intro r hr hk
      rw [statusIn, if_neg]
      intro hmem
      obtain ⟨r', hr', hid⟩ := List.mem_map.mp hmem
      have haddr : r'.address = k := (hsame r hr r' hr' hid).trans hk
      exact Rows.find_none_iff.mp hfind (List.mem_map.mpr ⟨r', hr', haddr⟩)
    | some row =>
      obtain ⟨hrow, hk⟩ := (Rows.find_iff haddress).mp hfind
      show rows.map _ = rows.map _
      apply List.map_congr_left
      intro r hr
      by_cases hid : r.uuid = row.uuid
      · have haddr : r.address = k := (hsame r hr row hrow hid.symm).symm.trans hk
        have hmem : r.uuid ∈ replica.map NtpAssociationRow.uuid :=
          List.mem_map.mpr ⟨row, hrow, hid.symm⟩
        rw [if_pos hid, if_pos haddr]
        show setNtpAssociationStatus r v = orStatus (statusIn info replica r) r
        rw [statusIn, if_pos hmem, haddr, hlook]
        rfl
      · rw [if_neg hid]
        by_cases haddr : r.address = k
        · -- the replica has another row with this address, so not this one
          have hnot : r.uuid ∉ replica.map NtpAssociationRow.uuid := by
            intro hmem
            obtain ⟨r', hr', hid'⟩ := List.mem_map.mp hmem
            have haddr' : r'.address = k := (hsame r hr r' hr' hid').trans haddr
            have heq : r' = row := Rows.eq_of_index haddress hr' hrow (haddr'.trans hk.symm)
            exact hid (heq ▸ hid'.symm)
          rw [if_pos haddr]
          show r = orStatus (statusIn info replica r) r
          rw [statusIn, if_neg hnot, orStatus_none]
        · rw [if_neg haddr]

/-- **Run.** In every order of the message's entries each row that the replica
    has gets the status that the message has for its address. -/
theorem applyWrites_eq {ks : List String} (hks : IterOrder ks info.keys)
    (haddress : (replica.map NtpAssociationRow.address).Nodup)
    (hsame : SameAddresses replica rows) :
    (associationWrites info ks replica).foldl applyWrite rows =
      rows.map fun r => orStatus (statusIn info replica r) r := by
  have hloop : ∀ (ks : List String) (rows : List NtpAssociationRow),
      SameAddresses replica rows →
      (associationWrites info ks replica).foldl applyWrite rows =
        rows.map fun r => if r.address ∈ ks then orStatus (statusIn info replica r) r else r := by
    intro ks
    induction ks with
    | nil => intro rows _; simp [associationWrites]
    | cons k ks ih =>
      intro rows hsame
      have hcons : associationWrites info (k :: ks) replica =
          (associationWrite info replica k).toList ++ associationWrites info ks replica := by
        unfold associationWrites
        rw [List.filterMap_cons]
        cases associationWrite info replica k <;> rfl
      have hsame' : SameAddresses replica (Rows.updateWhere NtpAssociationRow.address k
          (fun r => orStatus (statusIn info replica r) r) rows) := by
        intro r hr r' hr' hid
        rcases Rows.mem_updateWhere.mp hr with ⟨hmem, _⟩ | ⟨r₀, hmem, _, rfl⟩
        · exact hsame r hmem r' hr' hid
        · exact hsame r₀ hmem r' hr' hid
      rw [hcons, List.foldl_append, applyWrite_eq haddress hsame k, ih _ hsame']
      unfold Rows.updateWhere
      rw [List.map_map]
      apply List.map_congr_left
      intro r _
      by_cases hk : r.address = k
      · -- a second visit of the row would write the same status
        have hidem : orStatus (statusIn info replica r) (orStatus (statusIn info replica r) r) =
            orStatus (statusIn info replica r) r := by
          rw [orStatus_orStatus, Option.or_self]
        simp [hk, hidem]
      · simp [hk]
  rw [hloop ks rows hsame]
  apply List.map_congr_left
  intro r _
  by_cases hr : r.address ∈ ks
  · rw [if_pos hr]
  · have hnone : info.lookup r.address = none := by
      apply Dict.lookup_eq_none_of_not_mem_keys
      rwa [← hks.mem_iff]
    rw [if_neg hr, statusIn, hnone, ite_self, orStatus_none]

end writes

/-- Over a replica that is up to date the transaction is that of
    `updateInfo`. -/
theorem commitInfo_self (msg : StatusMsg) {ks : List String} {db : Db}
    (hks : IterOrder ks msg.associationsInfo.keys)
    (huuid : (db.ntpAssociation.map NtpAssociationRow.uuid).Nodup)
    (haddress : (db.ntpAssociation.map NtpAssociationRow.address).Nodup) :
    commitInfo msg ks db db = updateInfo msg ks db := by
  have hsame : SameAddresses db.ntpAssociation db.ntpAssociation := by
    intro r hr r' hr' hid
    rw [Rows.eq_of_index huuid hr' hr hid]
  have hrows : (associationWrites msg.associationsInfo ks db.ntpAssociation).foldl applyWrite
      db.ntpAssociation =
      updateRowInNtpAssociationTable msg.associationsInfo ks db.ntpAssociation := by
    rw [applyWrites_eq hks haddress hsame, updateRowInNtpAssociationTable_eq hks huuid haddress]
    apply List.map_congr_left
    intro r hr
    rw [statusIn, if_pos (List.mem_map.mpr ⟨r, hr, rfl⟩)]
    rfl
  unfold commitInfo updateInfo updateSystemTable
  cases db.system with
  | nil => rfl
  | cons row rest =>
    rw [hrows]
    rfl

/-! ## Section 2: The queue, the database and its clients -/

/-- What `transaction_queue` carries. -/
inductive QueueItem where
  | status (msg : StatusMsg)
  | shutdown
  deriving DecidableEq

/-- The sync manager, its queue and the database. -/
structure ManagerState where
  queue : List QueueItem
  /-- `shutdown` has been put on the queue. -/
  closed : Bool
  /-- `ops_ntpd_sync_mgr_run` has not returned. -/
  running : Bool
  /-- The tables of the sync manager's `idl`. -/
  replica : Db
  /-- The committed database. -/
  db : Db
  /-- The databases committed so far, newest first. -/
  history : List Db

inductive ManagerLabel where
  /-- `ops_ntpd_send_info_to_transaction_mgr` -/
  | send (msg : StatusMsg)
  /-- `ops_ntpd_shutdown_transaction_mgr` -/
  | shutdown
  /-- `get()` returns a message, which `update_info` commits. -/
  | receive (msg : StatusMsg) (ks : List String)
  /-- `get()` returns `shutdown`. -/
  | stop
  /-- Another client inserts a server. -/
  | insert (w : NtpAssociationWrites)
  /-- Another client deletes a server. -/
  | delete (row : Uuid)
  /-- `idl.run()` -/
  | refresh (replica : Db)

def ManagerState.commit (s : ManagerState) (db : Db) : ManagerState :=
  { s with db := db, history := db :: s.history }

/-- One step. The replica becomes any database of the history, with its rows
    in any order; an inserted server has an address that no other has. -/
def managerStep (s : ManagerState) (a : ManagerLabel) (s' : ManagerState) : Prop :=
  match a with
  | .send msg => s.closed = false ∧ s' = { s with queue := s.queue ++ [.status msg] }
  | .shutdown =>
      s.closed = false ∧ s' = { s with queue := s.queue ++ [.shutdown], closed := true }
  | .receive msg ks =>
      s.running = true ∧ IterOrder ks msg.associationsInfo.keys ∧
        ∃ queue db, s.queue = .status msg :: queue ∧
          commitInfo msg ks s.replica s.db = .ok db ∧ s' = { s.commit db with queue := queue }
  | .stop =>
      s.running = true ∧
        ∃ queue, s.queue = .shutdown :: queue ∧ s' = { s with queue := queue, running := false }
  | .insert w =>
      (w.apply (.blank s.db.nextUuid)).address ∉
          s.db.ntpAssociation.map NtpAssociationRow.address ∧
        s' = s.commit (s.db.apply (.insertAssociation w))
  | .delete row => s' = s.commit (s.db.apply (.deleteAssociation row))
  | .refresh replica =>
      (∃ db ∈ s.history, db.Reorders replica) ∧ s' = { s with replica := replica }

/-- The sync manager starts on a replica of `db₀`. -/
def syncMgr (db₀ : Db) : System ManagerState ManagerLabel :=
  { init := fun s =>
      s.queue = [] ∧ s.closed = false ∧ s.running = true ∧ s.db = db₀ ∧ s.history = [db₀] ∧
        db₀.Reorders s.replica
    step := managerStep }

/-- The databases that the results are about: one `System` row, and servers
    with pairwise different identities and addresses. -/
structure Listable (db : Db) : Prop where
  system : ∃ sys, db.system = [sys]
  uuids : (db.ntpAssociation.map NtpAssociationRow.uuid).Nodup
  fresh : ∀ r ∈ db.ntpAssociation, r.uuid < db.nextUuid
  addresses : (db.ntpAssociation.map NtpAssociationRow.address).Nodup

/-! ## Section 3: The history of the database -/

/-- What holds of the databases that a run has committed: they have the same
    `System` row, an identity never gets another address, and the replica is
    one of them. -/
structure HistoryInv (sys : Uuid) (history : List Db) (db replica : Db) : Prop where
  current : db ∈ history
  replica : ∃ d ∈ history, d.Reorders replica
  system : ∀ d ∈ history, d.system.map SystemRow.uuid = [sys]
  addresses : ∀ d ∈ history, (d.ntpAssociation.map NtpAssociationRow.address).Nodup
  fresh : ∀ d ∈ history, ∀ r ∈ d.ntpAssociation, r.uuid < db.nextUuid
  named : ∃ name : Uuid → String, ∀ d ∈ history, ∀ r ∈ d.ntpAssociation, r.address = name r.uuid

namespace HistoryInv

variable {sys : Uuid} {history : List Db} {db replica : Db}

theorem replica_addresses (h : HistoryInv sys history db replica) :
    (replica.ntpAssociation.map NtpAssociationRow.address).Nodup := by
  obtain ⟨d, hd, hre⟩ := h.replica
  exact (hre.ntpAssociation.map _).nodup_iff.mpr (h.addresses d hd)

theorem replica_fresh (h : HistoryInv sys history db replica) :
    ∀ r ∈ replica.ntpAssociation, r.uuid < db.nextUuid := by
  obtain ⟨d, hd, hre⟩ := h.replica
  intro r hr
  exact h.fresh d hd r (hre.ntpAssociation.mem_iff.mp hr)

theorem replica_system (h : HistoryInv sys history db replica) :
    ∃ row, replica.system = [row] ∧ row.uuid = sys := by
  obtain ⟨d, hd, hre⟩ := h.replica
  have hids : (replica.system.map SystemRow.uuid).Perm [sys] := by
    rw [← h.system d hd]
    exact hre.system.map _
  obtain ⟨row, hrow, hid⟩ := List.map_eq_singleton_iff.mp (List.perm_singleton.mp hids)
  exact ⟨row, hrow, hid⟩

/-- Two rows of one identity would have one address. -/
theorem uuids (h : HistoryInv sys history db replica) :
    (db.ntpAssociation.map NtpAssociationRow.uuid).Nodup := by
  obtain ⟨name, hname⟩ := h.named
  have haddress : db.ntpAssociation.map NtpAssociationRow.address =
      (db.ntpAssociation.map NtpAssociationRow.uuid).map name := by
    rw [List.map_map]
    exact List.map_congr_left fun r hr => hname db h.current r hr
  have hnd := h.addresses db h.current
  rw [haddress] at hnd
  exact hnd.of_map name

theorem sameAddresses (h : HistoryInv sys history db replica) :
    SameAddresses replica.ntpAssociation db.ntpAssociation := by
  obtain ⟨d, hd, hre⟩ := h.replica
  obtain ⟨name, hname⟩ := h.named
  intro r hr r' hr' hid
  rw [hname db h.current r hr, hname d hd r' (hre.ntpAssociation.mem_iff.mp hr'), hid]

/-- A commit that keeps the servers' identities and addresses, but for one row
    with the next identity. -/
theorem commit (h : HistoryInv sys history db replica) {db' : Db}
    (hsystem : db'.system.map SystemRow.uuid = db.system.map SystemRow.uuid)
    (haddresses : (db'.ntpAssociation.map NtpAssociationRow.address).Nodup)
    (hnext : db.nextUuid ≤ db'.nextUuid) (address : String)
    (hrows : ∀ r ∈ db'.ntpAssociation,
      (∃ r₀ ∈ db.ntpAssociation, r.uuid = r₀.uuid ∧ r.address = r₀.address) ∨
      (r.uuid = db.nextUuid ∧ r.address = address ∧ db.nextUuid < db'.nextUuid)) :
    HistoryInv sys (db' :: history) db' replica := by
  obtain ⟨d, hd, hre⟩ := h.replica
  obtain ⟨name, hname⟩ := h.named
  refine { current := List.mem_cons_self, replica := ⟨d, List.mem_cons_of_mem _ hd, hre⟩
           system := ?_, addresses := ?_, fresh := ?_, named := ?_ }
  · intro d hd
    rcases List.mem_cons.mp hd with rfl | hd
    · rw [hsystem]; exact h.system db h.current
    · exact h.system d hd
  · intro d hd
    rcases List.mem_cons.mp hd with rfl | hd
    · exact haddresses
    · exact h.addresses d hd
  · intro d hd r hr
    rcases List.mem_cons.mp hd with rfl | hd
    · rcases hrows r hr with ⟨r₀, hr₀, hid, _⟩ | ⟨hid, _, hlt⟩
      · rw [hid]
        exact lt_of_lt_of_le (h.fresh db h.current r₀ hr₀) hnext
      · rw [hid]; exact hlt
    · exact lt_of_lt_of_le (h.fresh d hd r hr) hnext
  · -- the next identity names the new row
    refine ⟨fun u => if u = db.nextUuid then address else name u, ?_⟩
    have hold : ∀ d ∈ history, ∀ r ∈ d.ntpAssociation,
        r.address = if r.uuid = db.nextUuid then address else name r.uuid := by
      intro d hd r hr
      rw [if_neg (ne_of_lt (h.fresh d hd r hr))]
      exact hname d hd r hr
    intro d hd r hr
    rcases List.mem_cons.mp hd with rfl | hd
    · rcases hrows r hr with ⟨r₀, hr₀, hid, haddr⟩ | ⟨hid, haddr, _⟩
      · rw [hid, haddr]; exact hold db h.current r₀ hr₀
      · show r.address = if r.uuid = db.nextUuid then address else name r.uuid
        rw [if_pos hid]; exact haddr
    · exact hold d hd r hr

end HistoryInv

/-- What `update_info` does to the database, once its rows have been looked
    for in the replica. -/
theorem commitInfo_ok {sys : Uuid} {history : List Db} {db replica : Db}
    (h : HistoryInv sys history db replica) (msg : StatusMsg) {ks : List String}
    (hks : IterOrder ks msg.associationsInfo.keys) :
    commitInfo msg ks replica db = .ok { db with
      ntpAssociation := db.ntpAssociation.map fun r =>
        orStatus (statusIn msg.associationsInfo replica.ntpAssociation r) r
      system := db.system.map msg.globals } := by
  obtain ⟨row, hrow, hid⟩ := h.replica_system
  have hsystem : Rows.updateWhere SystemRow.uuid sys msg.globals db.system =
      db.system.map msg.globals := by
    unfold Rows.updateWhere
    apply List.map_congr_left
    intro r hr
    have hmem : r.uuid ∈ db.system.map SystemRow.uuid := List.mem_map.mpr ⟨r, hr, rfl⟩
    rw [h.system db h.current, List.mem_singleton] at hmem
    rw [if_pos hmem]
  unfold commitInfo
  rw [hrow]
  simp only [hid, hsystem, applyWrites_eq hks h.replica_addresses h.sameAddresses]

/-- **Step.** -/
theorem historyInv_step {sys : Uuid} {s s' : ManagerState} {a : ManagerLabel}
    (h : HistoryInv sys s.history s.db s.replica) (hstep : managerStep s a s') :
    HistoryInv sys s'.history s'.db s'.replica := by
  cases a with
  | send msg =>
    obtain ⟨_, rfl⟩ := hstep
    exact h
  | shutdown =>
    obtain ⟨_, rfl⟩ := hstep
    exact h
  | receive msg ks =>
    obtain ⟨_, hks, queue, db, _, hcommit, rfl⟩ := hstep
    rw [commitInfo_ok h msg hks] at hcommit
    obtain rfl := Except.ok.inj hcommit
    refine h.commit ?_ ?_ (Nat.le_refl _) "" ?_
    · rw [List.map_map]; rfl
    · rw [List.map_map]; exact h.addresses s.db h.current
    · intro r hr
      obtain ⟨r₀, hr₀, rfl⟩ := List.mem_map.mp hr
      exact Or.inl ⟨r₀, hr₀, rfl, rfl⟩
  | stop =>
    obtain ⟨_, queue, _, rfl⟩ := hstep
    exact h
  | insert w =>
    obtain ⟨hnew, rfl⟩ := hstep
    refine h.commit rfl ?_ (Nat.le_succ _) (w.apply (.blank s.db.nextUuid)).address ?_
    · exact List.nodup_cons.mpr ⟨hnew, h.addresses s.db h.current⟩
    · intro r hr
      rcases List.mem_cons.mp hr with rfl | hr
      · exact Or.inr ⟨rfl, rfl, Nat.lt_succ_self _⟩
      · exact Or.inl ⟨r, hr, rfl, rfl⟩
  | delete row =>
    subst hstep
    refine h.commit rfl ?_ (Nat.le_refl _) "" ?_
    · exact Rows.nodup_map_filter _ _ (h.addresses s.db h.current)
    · intro r hr
      exact Or.inl ⟨r, (List.mem_filter.mp hr).1, rfl, rfl⟩
  | refresh replica =>
    obtain ⟨hreplica, rfl⟩ := hstep
    exact { h with replica := hreplica }

/-! ## Section 4: The tables after a run -/

/-- A run, newest step first, with the states before its steps. -/
abbrev ManagerTrace : Type := List (ManagerState × ManagerLabel)

/-- The messages that have been put on the queue, oldest first. -/
def sent : ManagerTrace → List StatusMsg
  | [] => []
  | (_, .send msg) :: tr => sent tr ++ [msg]
  | _ :: tr => sent tr

/-- The messages that `update_info` has committed, oldest first. -/
def applied : ManagerTrace → List StatusMsg
  | [] => []
  | (_, .receive msg _) :: tr => applied tr ++ [msg]
  | _ :: tr => applied tr

/-- What another client does to the database. -/
def ManagerLabel.op : ManagerLabel → Option DbOp
  | .insert w => some (.insertAssociation w)
  | .delete row => some (.deleteAssociation row)
  | _ => none

/-- The database that the other clients alone have made of `db₀`. -/
def byOthers (db₀ : Db) : ManagerTrace → Db
  | [] => db₀
  | (_, a) :: tr => (byOthers db₀ tr).commit a.op.toList

/-- The entry of the last message that was applied while the row was in the
    replica and that has the row's address as a key. -/
def lastEntry : ManagerTrace → NtpAssociationRow → Option Smap
  | [], _ => none
  | (s, .receive msg _) :: tr, row =>
      (statusIn msg.associationsInfo s.replica.ntpAssociation row).or (lastEntry tr row)
  | _ :: tr, row => lastEntry tr row

/-- The columns of the last of the messages, if there is one. -/
def lastGlobals (msgs : List StatusMsg) (row : SystemRow) : SystemRow :=
  { row with
    ntpStatus := (msgs.getLast?.map StatusMsg.status).getD row.ntpStatus
    ntpStatistics := (msgs.getLast?.map StatusMsg.statistics).getD row.ntpStatistics }

theorem lastGlobals_append (msgs : List StatusMsg) (msg : StatusMsg) (row : SystemRow) :
    lastGlobals (msgs ++ [msg]) row = msg.globals (lastGlobals msgs row) := by
  unfold lastGlobals
  rw [List.getLast?_concat]
  rfl

/-- The database that the other clients have made, with the statuses of the
    last messages in it. -/
def withEntries (db₀ : Db) (tr : ManagerTrace) : Db :=
  { byOthers db₀ tr with
    ntpAssociation := (byOthers db₀ tr).ntpAssociation.map fun r => orStatus (lastEntry tr r) r
    system := db₀.system.map (lastGlobals (applied tr)) }

/-- What a run preserves. -/
structure ManagerInv (db₀ : Db) (tr : ManagerTrace) (s : ManagerState) : Prop where
  tables : s.db = withEntries db₀ tr
  /-- no message has an entry for a row that is still to come -/
  unseen : ∀ row : NtpAssociationRow, s.db.nextUuid ≤ row.uuid → lastEntry tr row = none
  queue : ∃ pending, sent tr = applied tr ++ pending ∧
    s.queue = pending.map QueueItem.status ++
      (if s.closed = true ∧ s.running = true then [.shutdown] else []) ∧
    (s.running = false → s.closed = true ∧ pending = [])

section run
variable {db₀ : Db}

/-- The write of a message puts its entries before the earlier ones. -/
theorem withEntries_receive {tr : ManagerTrace} {s : ManagerState} (h : s.db = withEntries db₀ tr)
    (msg : StatusMsg) (ks : List String) :
    { s.db with
      ntpAssociation := s.db.ntpAssociation.map fun r =>
        orStatus (statusIn msg.associationsInfo s.replica.ntpAssociation r) r
      system := s.db.system.map msg.globals } = withEntries db₀ ((s, .receive msg ks) :: tr) := by
  have hrows : (s.db.ntpAssociation.map fun r =>
      orStatus (statusIn msg.associationsInfo s.replica.ntpAssociation r) r) =
      (withEntries db₀ ((s, .receive msg ks) :: tr)).ntpAssociation := by
    rw [h]
    show ((byOthers db₀ tr).ntpAssociation.map _).map _ = (byOthers db₀ tr).ntpAssociation.map _
    rw [List.map_map]
    apply List.map_congr_left
    intro r _
    exact orStatus_orStatus _ _ r
  have hsystem : s.db.system.map msg.globals =
      (withEntries db₀ ((s, .receive msg ks) :: tr)).system := by
    rw [h]
    show (db₀.system.map _).map _ = db₀.system.map (lastGlobals (applied tr ++ [msg]))
    rw [List.map_map]
    apply List.map_congr_left
    intro row _
    exact (lastGlobals_append _ _ row).symm
  rw [hrows, hsystem, h]
  rfl

/-- An inserted row has no entry yet. -/
theorem withEntries_insert {tr : ManagerTrace} {s : ManagerState} (h : s.db = withEntries db₀ tr)
    (hunseen : ∀ row : NtpAssociationRow, s.db.nextUuid ≤ row.uuid → lastEntry tr row = none)
    (w : NtpAssociationWrites) :
    s.db.apply (.insertAssociation w) = withEntries db₀ ((s, .insert w) :: tr) := by
  have hnone : lastEntry tr (w.apply (.blank s.db.nextUuid)) = none :=
    hunseen _ (Nat.le_refl _)
  have hrows : (s.db.apply (.insertAssociation w)).ntpAssociation =
      (withEntries db₀ ((s, .insert w) :: tr)).ntpAssociation := by
    show w.apply (.blank s.db.nextUuid) :: s.db.ntpAssociation =
      orStatus (lastEntry tr _) (w.apply (.blank (byOthers db₀ tr).nextUuid)) ::
        (byOthers db₀ tr).ntpAssociation.map _
    have hnext : (byOthers db₀ tr).nextUuid = s.db.nextUuid := by rw [h]; rfl
    rw [hnext, hnone, orStatus_none, h]
    rfl
  have hother : { s.db.apply (.insertAssociation w) with
      ntpAssociation := (withEntries db₀ ((s, .insert w) :: tr)).ntpAssociation } =
      withEntries db₀ ((s, .insert w) :: tr) := by
    rw [h]
    rfl
  rw [← hother, ← hrows]

theorem withEntries_delete {tr : ManagerTrace} {s : ManagerState} (h : s.db = withEntries db₀ tr)
    (row : Uuid) :
    s.db.apply (.deleteAssociation row) = withEntries db₀ ((s, .delete row) :: tr) := by
  have hrows : (s.db.apply (.deleteAssociation row)).ntpAssociation =
      (withEntries db₀ ((s, .delete row) :: tr)).ntpAssociation := by
    rw [h]
    show ((byOthers db₀ tr).ntpAssociation.map _).filter _ =
      ((byOthers db₀ tr).ntpAssociation.filter _).map _
    rw [List.filter_map]
    rfl
  have hother : { s.db.apply (.deleteAssociation row) with
      ntpAssociation := (withEntries db₀ ((s, .delete row) :: tr)).ntpAssociation } =
      withEntries db₀ ((s, .delete row) :: tr) := by
    rw [h]
    rfl
  rw [← hother, ← hrows]

/-- **Step.** -/
theorem managerInv_step {sys : Uuid} {tr : ManagerTrace} {s s' : ManagerState} {a : ManagerLabel}
    (hhist : HistoryInv sys s.history s.db s.replica) (h : ManagerInv db₀ tr s)
    (hstep : managerStep s a s') : ManagerInv db₀ ((s, a) :: tr) s' := by
  obtain ⟨pending, hsent, hqueue, hdone⟩ := h.queue
  cases a with
  | send msg =>
    obtain ⟨hopen, rfl⟩ := hstep
    refine { tables := h.tables, unseen := h.unseen, queue := ⟨pending ++ [msg], ?_, ?_, ?_⟩ }
    · show sent tr ++ [msg] = applied tr ++ (pending ++ [msg])
      rw [hsent, List.append_assoc]
    · show s.queue ++ [.status msg] = _
      rw [hqueue]
      simp [hopen]
    · intro hnot
      have hclosed := (hdone hnot).1
      rw [hopen] at hclosed; cases hclosed
  | shutdown =>
    obtain ⟨hopen, rfl⟩ := hstep
    have hrunning : s.running = true := by
      rw [← Bool.not_eq_false]
      intro hnot
      have hclosed := (hdone hnot).1
      rw [hopen] at hclosed; cases hclosed
    refine { tables := h.tables, unseen := h.unseen, queue := ⟨pending, hsent, ?_, ?_⟩ }
    · show s.queue ++ [.shutdown] = _
      rw [hqueue]
      simp [hopen, hrunning]
    · intro hnot
      exact ⟨rfl, (hdone hnot).2⟩
  | receive msg ks =>
    obtain ⟨hrunning, hks, queue, db, hhead, hcommit, rfl⟩ := hstep
    rw [commitInfo_ok hhist msg hks] at hcommit
    obtain rfl := Except.ok.inj hcommit
    -- the message is the oldest of those that wait
    cases pending with
    | nil =>
      rw [hqueue, List.map_nil, List.nil_append] at hhead
      by_cases hclosed : s.closed = true ∧ s.running = true
      · rw [if_pos hclosed] at hhead; cases hhead
      · rw [if_neg hclosed] at hhead; cases hhead
    | cons first pending =>
      rw [hqueue, List.map_cons, List.cons_append] at hhead
      obtain ⟨hfirst, hrest⟩ := List.cons.inj hhead
      obtain rfl := QueueItem.status.inj hfirst
      refine { tables := withEntries_receive h.tables first ks, unseen := ?_
               queue := ⟨pending, ?_, hrest.symm, ?_⟩ }
      · intro row hrow
        show (statusIn _ _ row).or (lastEntry tr row) = none
        have hnot : row.uuid ∉ s.replica.ntpAssociation.map NtpAssociationRow.uuid := by
          intro hmem
          obtain ⟨r, hr, hid⟩ := List.mem_map.mp hmem
          have hlt := hhist.replica_fresh r hr
          rw [hid] at hlt
          exact absurd hrow (Nat.not_le_of_lt hlt)
        rw [statusIn, if_neg hnot, h.unseen row hrow]
        rfl
      · show sent tr = applied tr ++ [first] ++ pending
        rw [hsent, List.append_assoc]
        rfl
      · intro hnot
        have hstopped : s.running = false := hnot
        rw [hrunning] at hstopped; cases hstopped
  | stop =>
    obtain ⟨hrunning, queue, hhead, rfl⟩ := hstep
    cases pending with
    | nil =>
      rw [hqueue, List.map_nil, List.nil_append] at hhead
      by_cases hclosed : s.closed = true ∧ s.running = true
      · rw [if_pos hclosed] at hhead
        obtain rfl := (List.cons.inj hhead).2
        refine { tables := h.tables, unseen := h.unseen, queue := ⟨[], hsent, ?_, ?_⟩ }
        · simp
        · intro _; exact ⟨hclosed.1, rfl⟩
      · rw [if_neg hclosed] at hhead; cases hhead
    | cons first pending =>
      rw [hqueue] at hhead
      cases hhead
  | insert w =>
    obtain ⟨_, rfl⟩ := hstep
    refine { tables := withEntries_insert h.tables h.unseen w, unseen := ?_
             queue := ⟨pending, hsent, hqueue, hdone⟩ }
    intro row hrow
    exact h.unseen row (Nat.le_of_succ_le hrow)
  | delete row =>
    subst hstep
    exact { tables := withEntries_delete h.tables row, unseen := h.unseen
            queue := ⟨pending, hsent, hqueue, hdone⟩ }
  | refresh replica =>
    obtain ⟨_, rfl⟩ := hstep
    exact { tables := h.tables, unseen := h.unseen, queue := ⟨pending, hsent, hqueue, hdone⟩ }

theorem historyInv_init (h₀ : Listable db₀) {s : ManagerState} (h : (syncMgr db₀).init s) :
    ∀ sys, db₀.system = [sys] → HistoryInv sys.uuid s.history s.db s.replica := by
  obtain ⟨_, _, _, hdb, hhistory, hreplica⟩ := h
  intro sys hsys
  rw [hdb, hhistory]
  refine { current := List.mem_singleton.mpr rfl
           replica := ⟨db₀, List.mem_singleton.mpr rfl, hreplica⟩
           system := ?_, addresses := ?_, fresh := ?_, named := ?_ }
  · intro d hd
    rw [List.mem_singleton.mp hd, hsys]
    rfl
  · intro d hd
    rw [List.mem_singleton.mp hd]; exact h₀.addresses
  · intro d hd
    rw [List.mem_singleton.mp hd]; exact h₀.fresh
  · -- an identity has the address of its row
    refine ⟨fun u => ((db₀.ntpAssociation.find? fun r => r.uuid = u).map
      NtpAssociationRow.address).getD "", ?_⟩
    intro d hd r hr
    rw [List.mem_singleton.mp hd] at hr
    have hfind : db₀.ntpAssociation.find? (fun r' => r'.uuid = r.uuid) = some r :=
      (Rows.find_iff h₀.uuids).mpr ⟨hr, rfl⟩
    show r.address = ((db₀.ntpAssociation.find? fun r' => r'.uuid = r.uuid).map
      NtpAssociationRow.address).getD ""
    rw [hfind]
    rfl

/-- **Run.** -/
theorem managerInv_run (h₀ : Listable db₀) {tr : ManagerTrace} {s : ManagerState}
    (h : (syncMgr db₀).Trace tr s) :
    ManagerInv db₀ tr s ∧ ∃ sys, HistoryInv sys s.history s.db s.replica := by
  obtain ⟨sys, hsys⟩ := h₀.system
  induction h with
  | init hinit =>
    refine ⟨?_, sys.uuid, historyInv_init h₀ hinit sys hsys⟩
    obtain ⟨hqueue, hclosed, hrunning, hdb, _, _⟩ := hinit
    refine { tables := ?_, unseen := fun _ _ => rfl, queue := ⟨[], rfl, ?_, ?_⟩ }
    · have hrows : (db₀.ntpAssociation.map fun r => orStatus (lastEntry [] r) r) =
          db₀.ntpAssociation := List.map_id _
      have hsystem : db₀.system.map (lastGlobals (applied [])) = db₀.system := List.map_id _
      unfold withEntries byOthers
      rw [hdb, hrows, hsystem]
    · rw [hqueue]
      simp [hclosed]
    · intro hnot
      rw [hrunning] at hnot; cases hnot
  | step a _ hstep ih =>
    obtain ⟨hinv, sys', hhist⟩ := ih
    exact ⟨managerInv_step hhist hinv hstep, sys', historyInv_step hhist hstep⟩

/-- Until it returns, the sync manager can take the next message, in every
    order of its entries. -/
theorem receive_enabled (h₀ : Listable db₀) {s : ManagerState} (h : (syncMgr db₀).Reachable s)
    (hrunning : s.running = true) {msg : StatusMsg} {queue : List QueueItem}
    (hhead : s.queue = .status msg :: queue) {ks : List String}
    (hks : IterOrder ks msg.associationsInfo.keys) :
    ∃ s', managerStep s (.receive msg ks) s' := by
  obtain ⟨tr, htr⟩ := h
  obtain ⟨_, sys, hhist⟩ := managerInv_run h₀ htr
  exact ⟨_, hrunning, hks, queue, _, hhead, commitInfo_ok hhist msg hks, rfl⟩

/-- A message that is received while the replica is up to date is committed by
    `update_info`. -/
theorem receive_updateInfo (h₀ : Listable db₀) {tr : ManagerTrace} {s : ManagerState}
    (h : (syncMgr db₀).Trace tr s) {s₁ : ManagerState} {msg : StatusMsg} {ks : List String}
    (hmem : (s₁, .receive msg ks) ∈ tr) (hreplica : s₁.replica = s₁.db) :
    ∃ db, updateInfo msg ks s₁.db = .ok db ∧ commitInfo msg ks s₁.replica s₁.db = .ok db := by
  obtain ⟨tr₁, htr₁, _⟩ := h.of_mem hmem
  obtain ⟨_, _, hks, _, db, _, hcommit, _⟩ := h.step_of_mem hmem
  obtain ⟨_, sys, hhist⟩ := managerInv_run h₀ htr₁
  refine ⟨db, ?_, hcommit⟩
  rw [hreplica, commitInfo_self msg hks hhist.uuids (hhist.addresses _ hhist.current)] at hcommit
  exact hcommit

/-- After `ops_ntpd_sync_mgr_run` has returned every message has been applied
    once and in order. The servers are those that the other clients have made,
    each with its last entry as its status, the `System` row has the columns of
    the last message, and nothing else is different. A message that met an
    up-to-date replica was committed by `update_info`. -/
theorem syncRun_tables (h₀ : Listable db₀) {tr : ManagerTrace} {s : ManagerState}
    (h : (syncMgr db₀).Trace tr s) (hdone : s.running = false) :
    applied tr = sent tr ∧
    s.db = { byOthers db₀ tr with
      ntpAssociation := (byOthers db₀ tr).ntpAssociation.map fun row =>
        { row with associationStatus := (lastEntry tr row).getD row.associationStatus }
      system := db₀.system.map fun row =>
        { row with
          ntpStatus := ((sent tr).getLast?.map StatusMsg.status).getD row.ntpStatus
          ntpStatistics :=
            ((sent tr).getLast?.map StatusMsg.statistics).getD row.ntpStatistics } } ∧
    ∀ s₁ msg ks, (s₁, .receive msg ks) ∈ tr → s₁.replica = s₁.db →
      ∃ db, updateInfo msg ks s₁.db = .ok db ∧ commitInfo msg ks s₁.replica s₁.db = .ok db := by
  obtain ⟨hinv, _⟩ := managerInv_run h₀ h
  obtain ⟨pending, hsent, _, hstopped⟩ := hinv.queue
  obtain ⟨_, hnil⟩ := hstopped hdone
  have happlied : applied tr = sent tr := by rw [hsent, hnil, List.append_nil]
  refine ⟨happlied, ?_, fun s₁ msg ks hmem hreplica => receive_updateInfo h₀ h hmem hreplica⟩
  rw [← happlied]
  exact hinv.tables

end run

/-! ### Two messages -/

/-- A message about the server 10.0.0.1. -/
def firstMsg : StatusMsg :=
  { associationsInfo := Dict.ofPairs [("10.0.0.1", Dict.ofPairs [("stratum", "1")])]
    statistics := Dict.ofPairs [("ntp_pkts_received", "5")]
    status := Dict.ofPairs [("uptime", "100")] }

/-- A later one, about two servers. -/
def secondMsg : StatusMsg :=
  { associationsInfo :=
      Dict.ofPairs [("10.0.0.1", Dict.ofPairs [("stratum", "2")]),
        ("10.0.0.2", Dict.ofPairs [("stratum", "3")])]
    statistics := Dict.ofPairs [("ntp_pkts_received", "9")]
    status := Dict.ofPairs [("uptime", "200")] }

/-- The server 10.0.0.2, which another client inserts. -/
def secondServer : NtpAssociationWrites :=
  { address := some "10.0.0.2", vrf := some (some 1), keyId := none
    associationAttributes := some (Dict.ofPairs [("version", "3")]), associationStatus := none }

/-- The database after the first message. -/
def twoServersDb : Db :=
  { oneServerDb "10.0.0.1" with
    nextUuid := 4
    system := [⟨0, 1, ∅, firstMsg.status, firstMsg.statistics⟩]
    ntpAssociation :=
      [⟨3, "10.0.0.2", some 1, none, Dict.ofPairs [("version", "3")], ∅⟩,
       ⟨2, "10.0.0.1", some 1, none, ∅, Dict.ofPairs [("stratum", "1")]⟩] }

/-- The database after the second one, when the first server is gone. -/
def secondServerDb : Db :=
  { twoServersDb with
    system := [⟨0, 1, ∅, secondMsg.status, secondMsg.statistics⟩]
    ntpAssociation :=
      [⟨3, "10.0.0.2", some 1, none, Dict.ofPairs [("version", "3")],
        Dict.ofPairs [("stratum", "3")]⟩] }

/-- A second server is inserted before the first message is taken. The first
    server is deleted before the second message is taken, while the replica
    still has it. -/
theorem trace_twoMessages : ∃ tr s, (syncMgr (oneServerDb "10.0.0.1")).Trace tr s ∧
    s.running = false ∧ s.db = secondServerDb ∧ sent tr = [firstMsg, secondMsg] := by
  have hfirst : commitInfo firstMsg ["10.0.0.1"] (oneServerDb "10.0.0.1")
      ((oneServerDb "10.0.0.1").apply (.insertAssociation secondServer)) = .ok twoServersDb := by
    decide +kernel
  have hsecond : commitInfo secondMsg ["10.0.0.2", "10.0.0.1"] twoServersDb
      (twoServersDb.apply (.deleteAssociation 2)) = .ok secondServerDb := by decide +kernel
  have hinit : (syncMgr (oneServerDb "10.0.0.1")).init
      ⟨[], false, true, oneServerDb "10.0.0.1", oneServerDb "10.0.0.1", [oneServerDb "10.0.0.1"]⟩ :=
    ⟨rfl, rfl, rfl, rfl, rfl, Db.Reorders.refl _⟩
  have hsend₁ := (System.Trace.init hinit).step (ManagerLabel.send firstMsg) ⟨rfl, rfl⟩
  have hinsert := hsend₁.step (ManagerLabel.insert secondServer) ⟨by decide, rfl⟩
  have hreceive₁ := hinsert.step (ManagerLabel.receive firstMsg ["10.0.0.1"])
    ⟨rfl, by decide, [], twoServersDb, rfl, hfirst, rfl⟩
  have hrefresh := hreceive₁.step (ManagerLabel.refresh twoServersDb)
    ⟨⟨twoServersDb, List.mem_cons_self, Db.Reorders.refl _⟩, rfl⟩
  have hsend₂ := hrefresh.step (ManagerLabel.send secondMsg) ⟨rfl, rfl⟩
  have hdelete := hsend₂.step (ManagerLabel.delete 2) rfl
  have hshutdown := hdelete.step ManagerLabel.shutdown ⟨rfl, rfl⟩
  have hreceive₂ := hshutdown.step (ManagerLabel.receive secondMsg ["10.0.0.2", "10.0.0.1"])
    ⟨rfl, by decide, [.shutdown], secondServerDb, rfl, hsecond, rfl⟩
  have hstop := hreceive₂.step ManagerLabel.stop ⟨rfl, [], rfl, rfl⟩
  exact ⟨_, _, hstop, rfl, rfl, rfl⟩

theorem listable_oneServerDb : Listable (oneServerDb "10.0.0.1") :=
  { system := ⟨_, rfl⟩, uuids := by decide, fresh := by decide, addresses := by decide }

theorem syncRun_tables_two_messages :
    ∃ tr s, (syncMgr (oneServerDb "10.0.0.1")).Trace tr s ∧ s.db = secondServerDb ∧
      applied tr = [firstMsg, secondMsg] ∧
      (byOthers (oneServerDb "10.0.0.1") tr).ntpAssociation.map
          (fun row => (row.uuid, (lastEntry tr row).getD row.associationStatus)) =
        [(3, Dict.ofPairs [("stratum", "3")])] := by
  obtain ⟨tr, s, htr, hdone, hdb, hsent⟩ := trace_twoMessages
  obtain ⟨happlied, htables, _⟩ := syncRun_tables listable_oneServerDb htr hdone
  refine ⟨tr, s, htr, hdb, happlied.trans hsent, ?_⟩
  have hrows := congrArg Db.ntpAssociation htables
  rw [hdb] at hrows
  have hcolumns := congrArg
    (List.map fun row : NtpAssociationRow => (row.uuid, row.associationStatus)) hrows
  rw [List.map_map] at hcolumns
  exact hcolumns.symm

end OpsNtpd.Daemon
