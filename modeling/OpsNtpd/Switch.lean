import OpsNtpd.Intent
import OpsNtpd.Daemon.Poll
import OpsNtpd.Daemon.SyncRun

/-! # The Switch

  All parts together, over one database: users enter commands, the daemon
  follows the database and configures ntpd, polls it and puts messages on the
  queue, and the sync manager writes them to the database.

  - The daemon has registered only the columns of the configuration, so a
    status write does not reach its replica.
  - The replica of the sync manager may lag behind.
  - `vtysh` is one session, whose replica is up to date; two sessions may
    decide on old replicas, which is another model.

  The steps of the daemon are those of the main loop, with its polls in full.
-/

namespace OpsNtpd

open Cli Daemon Text Transition

variable (isValidIpv4 : Nat → Bool) (secret : String)

/-! ## Section 1: The system -/

structure SwitchState where
  /-- The committed database. -/
  db : Db
  /-- The databases committed so far, newest first. -/
  history : List Db
  daemon : MainState
  /-- `transaction_queue` -/
  queue : List StatusMsg
  /-- The tables of the sync manager's `idl`. -/
  replica : Db

inductive SwitchLabel where
  /-- A user enters a command. -/
  | enter (c : Command)
  /-- The system configuration sets `cur_cfg`. -/
  | configured (curCfg : Int)
  /-- `idl.run()` of the daemon. -/
  | idlRun (updates : Nat)
  /-- `ops_ntpd_check_updates_from_ovsdb` -/
  | pass
  /-- `ops_ntpd_sync_updates_to_ovsdb` -/
  | poll (out : NtpqOutputs)
  /-- The sync manager takes a message and commits it. -/
  | receive (ks : List String)
  /-- `idl.run()` of the sync manager. -/
  | refresh (replica : Db)

/-- A transaction on the configuration, which the daemon is told of. One that
    changes nothing is not told to anyone. -/
def SwitchState.commit (s : SwitchState) (before after : Db) : SwitchState :=
  if after = before then s
  else
    { s with
      db := after
      history := after :: s.history
      daemon := { s.daemon with inFlight := s.daemon.inFlight ++ [after] } }

/-- The database with another `cur_cfg`. -/
def Db.setCurCfg (db : Db) (curCfg : Int) : Db :=
  { db with system := db.system.map fun r => { r with curCfg := curCfg } }

/-- One step. -/
def switchStep (s : SwitchState) (a : SwitchLabel) (s' : SwitchState) : Prop :=
  match a with
  | .enter c =>
      c.Tokens ∧ ∃ db, s.db.Reorders db ∧ s' = s.commit db (c.exec isValidIpv4 db)
  | .configured curCfg => s' = s.commit s.db (s.db.setCurCfg curCfg)
  | .idlRun updates =>
      ∃ d, mainStep secret Admissible s.daemon (.idlRun updates) d ∧ s' = { s with daemon := d }
  | .pass => ∃ d, mainStep secret Admissible s.daemon .pass d ∧ s' = { s with daemon := d }
  | .poll out =>
      ∃ d, mainStep secret Admissible s.daemon .poll d ∧
        ((∃ msg, Polls out msg ∧ s' = { s with daemon := d, queue := s.queue ++ [msg] }) ∨
          ((¬ ∃ msg, Polls out msg) ∧ s' = { s with daemon := d }))
  | .receive ks =>
      ∃ msg queue db, s.queue = msg :: queue ∧ IterOrder ks msg.associationsInfo.keys ∧
        commitInfo msg ks s.replica s.db = .ok db ∧
        s' = { s with db := db, history := db :: s.history, queue := queue }
  | .refresh replica =>
      (∃ db ∈ s.history, db.Reorders replica) ∧ s' = { s with replica := replica }

/-- The switch starts unconfigured; the first update of the daemon is the whole
    database. -/
def switch (db₀ : Db) : System SwitchState SwitchLabel :=
  { init := fun s =>
      s.db = db₀ ∧ s.history = [db₀] ∧ s.queue = [] ∧ db₀.Reorders s.replica ∧
        s.daemon = { MainState.start secret with inFlight := [db₀] }
    step := switchStep isValidIpv4 secret }

/-- The commands that have been entered, oldest first. -/
def entered : List (SwitchState × SwitchLabel) → List Command
  | [] => []
  | (_, .enter c) :: tr => entered tr ++ [c]
  | _ :: tr => entered tr

/-- Nothing waits for the daemon, and its loop has seen the last change. -/
structure Idle (d : MainState) : Prop where
  inFlight : d.inFlight = []
  loop : d.phase = .loopTop ∨ d.phase = .branch
  seen : d.seqno = d.changeSeqno

/-! ## Section 2: What a command can do -/

/-- `association_status` of a new server. -/
def initialStatus : Smap := Dict.ofPairs (ntpAssocStatusKeys.map fun k => (k, "-"))

/-- The operations of the commands: a server keeps its address, and only a new
    one gets a status, the initial one. -/
inductive IsCliOp : DbOp → Prop where
  | insertKey (w : NtpKeyWrites) : IsCliOp (.insertKey w)
  | updateKey (u : Uuid) (w : NtpKeyWrites) : IsCliOp (.updateKey u w)
  | deleteKey (u : Uuid) : IsCliOp (.deleteKey u)
  | insertAssociation (w : NtpAssociationWrites) :
      w.associationStatus = some initialStatus → IsCliOp (.insertAssociation w)
  | updateAssociation (u : Uuid) (w : NtpAssociationWrites) :
      w.address = none → w.associationStatus = none → IsCliOp (.updateAssociation u w)
  | deleteAssociation (u : Uuid) : IsCliOp (.deleteAssociation u)
  | updateSystem (u : Uuid) (config : Smap) : IsCliOp (.updateSystem u config)

variable {isValidIpv4} {secret} {db : Db}

/-- **What a command does.** Nothing, or one of these operations. -/
theorem exec_cases (db : Db) (c : Command) :
    c.exec isValidIpv4 db = db ∨ ∃ op, IsCliOp op ∧ c.exec isValidIpv4 db = db.apply op := by
  have htrust : ∀ (key : String) (trust : Bool), ∀ db' : Db,
      db' = ((if trust then Command.ntpTrustedKey key else .noNtpTrustedKey key).run
        isValidIpv4 .committed db).2 → db' = db ∨ ∃ op, IsCliOp op ∧ db' = db.apply op := by
    intro key trust db' hdb'
    rw [run_trustedKey] at hdb'
    split at hdb'
    · exact Or.inl hdb'
    · split at hdb'
      · exact Or.inr ⟨_, .updateKey _ _, hdb'⟩
      · exact Or.inl hdb'
  have hauth : ∀ (enable : Bool), ∀ db' : Db,
      db' = ((if enable then Command.ntpAuthenticationEnable else .noNtpAuthenticationEnable).run
        isValidIpv4 .committed db).2 → db' = db ∨ ∃ op, IsCliOp op ∧ db' = db.apply op := by
    intro enable db' hdb'
    rw [run_authenticationEnable] at hdb'
    split at hdb'
    · exact Or.inl hdb'
    · exact Or.inr ⟨_, .updateSystem _ _, hdb'⟩
  cases c with
  | ntpServer name prefer version keyId =>
    unfold Command.exec
    rw [run_ntpServer]
    split
    · exact Or.inl rfl
    · split
      · exact Or.inr ⟨_, .updateAssociation _ _ rfl rfl, rfl⟩
      · split
        · exact Or.inl rfl
        · exact Or.inr ⟨_, .insertAssociation _ rfl, rfl⟩
  | noNtpServer name =>
    unfold Command.exec
    rw [run_noNtpServer]
    split
    · exact Or.inl rfl
    · split
      · exact Or.inr ⟨_, .deleteAssociation _, rfl⟩
      · exact Or.inl rfl
  | ntpAuthenticationEnable => exact hauth true _ rfl
  | noNtpAuthenticationEnable => exact hauth false _ rfl
  | ntpAuthenticationKey key md5 =>
    unfold Command.exec
    rw [run_ntpAuthenticationKey]
    split
    · exact Or.inl rfl
    · split
      · exact Or.inr ⟨_, .updateKey _ _, rfl⟩
      · exact Or.inr ⟨_, .insertKey _, rfl⟩
  | noNtpAuthenticationKey key =>
    unfold Command.exec
    rw [run_noNtpAuthenticationKey]
    split
    · exact Or.inl rfl
    · split
      · exact Or.inr ⟨_, .deleteKey _, rfl⟩
      · exact Or.inl rfl
  | ntpTrustedKey key => exact htrust key true _ rfl
  | noNtpTrustedKey key => exact htrust key false _ rfl

/-- What a commit does to the servers and to the `System` row: a server keeps its
    identity, its address and its status, but for one new server with this
    address and the initial status. -/
structure KeepsRows (address : String) (db db' : Db) : Prop where
  next : db.nextUuid ≤ db'.nextUuid
  servers : ∀ r ∈ db'.ntpAssociation,
    (∃ r₀ ∈ db.ntpAssociation, r.uuid = r₀.uuid ∧ r.address = r₀.address ∧
      r.associationStatus = r₀.associationStatus) ∨
    (r.uuid = db.nextUuid ∧ db.nextUuid < db'.nextUuid ∧ r.address = address ∧
      r.associationStatus = initialStatus)
  system : ∃ f : SystemRow → SystemRow, db'.system = db.system.map f ∧
    ∀ r, (f r).uuid = r.uuid ∧ (f r).ntpStatus = r.ntpStatus ∧
      (f r).ntpStatistics = r.ntpStatistics

/-- The same servers, each perhaps with other columns. -/
theorem KeepsRows.same {db' : Db} (hnext : db.nextUuid ≤ db'.nextUuid)
    (hsystem : db'.system = db.system)
    (hservers : ∀ r ∈ db'.ntpAssociation, ∃ r₀ ∈ db.ntpAssociation, r.uuid = r₀.uuid ∧
      r.address = r₀.address ∧ r.associationStatus = r₀.associationStatus) :
    KeepsRows "" db db' :=
  { next := hnext
    servers := fun r hr => Or.inl (hservers r hr)
    system := ⟨id, by rw [hsystem, List.map_id], fun _ => ⟨rfl, rfl, rfl⟩⟩ }

theorem keepsRows_apply {op : DbOp} (h : IsCliOp op) (db : Db) :
    ∃ address, KeepsRows address db (db.apply op) := by
  have hself : ∀ r ∈ db.ntpAssociation, ∃ r₀ ∈ db.ntpAssociation, r.uuid = r₀.uuid ∧
      r.address = r₀.address ∧ r.associationStatus = r₀.associationStatus :=
    fun r hr => ⟨r, hr, rfl, rfl, rfl⟩
  cases h with
  | insertKey w => exact ⟨"", .same (Nat.le_succ _) rfl hself⟩
  | updateKey u w => exact ⟨"", .same (Nat.le_refl _) rfl hself⟩
  | deleteKey u =>
    refine ⟨"", .same (Nat.le_refl _) rfl ?_⟩
    intro r hr
    obtain ⟨r₀, hr₀, rfl⟩ := List.mem_map.mp hr
    refine ⟨r₀, hr₀, dropKey_uuid u r₀, dropKey_address u r₀, ?_⟩
    unfold NtpAssociationRow.dropKey
    split <;> rfl
  | insertAssociation w hstatus =>
    refine ⟨(w.apply (.blank db.nextUuid)).address, Nat.le_succ _, ?_,
      id, (List.map_id _).symm, fun _ => ⟨rfl, rfl, rfl⟩⟩
    intro r hr
    rcases List.mem_cons.mp hr with rfl | hold
    · refine Or.inr ⟨rfl, Nat.lt_succ_self _, rfl, ?_⟩
      show w.associationStatus.getD _ = initialStatus
      rw [hstatus]
      rfl
    · exact Or.inl (hself r hold)
  | updateAssociation u w haddress hstatus =>
    refine ⟨"", .same (Nat.le_refl _) rfl ?_⟩
    intro r hr
    rcases Rows.mem_updateWhere.mp hr with ⟨hmem, _⟩ | ⟨r₀, hmem, _, rfl⟩
    · exact hself r hmem
    · refine ⟨r₀, hmem, rfl, ?_, ?_⟩
      · show w.address.getD _ = _
        rw [haddress]
        rfl
      · show w.associationStatus.getD _ = _
        rw [hstatus]
        rfl
  | deleteAssociation u =>
    refine ⟨"", .same (Nat.le_refl _) rfl ?_⟩
    intro r hr
    exact hself r (List.mem_filter.mp hr).1
  | updateSystem u config =>
    refine ⟨"", Nat.le_refl _, fun r hr => Or.inl (hself r hr),
      fun r => if r.uuid = u then { r with ntpConfig := config } else r, rfl, ?_⟩
    intro r
    beta_reduce
    split <;> exact ⟨rfl, rfl, rfl⟩

/-- A command keeps the rows. -/
theorem keepsRows_exec (db : Db) (c : Command) :
    ∃ address, KeepsRows address db (c.exec isValidIpv4 db) := by
  rcases @exec_cases isValidIpv4 db c with hsame | ⟨op, hop, hexec⟩
  · rw [hsame]
    exact ⟨"", .same (Nat.le_refl _) rfl fun r hr => ⟨r, hr, rfl, rfl, rfl⟩⟩
  · rw [hexec]
    exact keepsRows_apply hop db

/-- The order of the rows before does not matter, as there is one `System` row. -/
theorem KeepsRows.of_reorders {address : String} {db₁ db' : Db} (hre : db.Reorders db₁)
    (hone : ∃ sys, db.system = [sys]) (h : KeepsRows address db₁ db') : KeepsRows address db db' := by
  obtain ⟨sys, hsys⟩ := hone
  have hsystem : db₁.system = db.system := by
    have hperm := hre.system
    rw [hsys] at hperm ⊢
    exact List.perm_singleton.mp hperm
  refine { next := by rw [← hre.nextUuid]; exact h.next, servers := ?_
           system := by rw [← hsystem]; exact h.system }
  intro r hr
  rcases h.servers r hr with ⟨r₀, hr₀, hkept⟩ | hnew
  · exact Or.inl ⟨r₀, hre.ntpAssociation.mem_iff.mp hr₀, hkept⟩
  · rw [hre.nextUuid] at hnew
    exact Or.inr hnew

/-! ## Section 3: What a status write can do -/

/-- The database after a message: statuses of servers, and the global columns. -/
def Db.writeStatus (db : Db) (status : NtpAssociationRow → Option Smap) (msg : StatusMsg) : Db :=
  { db with
    ntpAssociation := db.ntpAssociation.map fun r => orStatus (status r) r
    system := db.system.map msg.globals }

section statusWrites
variable {status : NtpAssociationRow → Option Smap} {msg : StatusMsg}

/-- The columns that the commands look at stay as they are. -/
theorem map_writeStatus {α : Type} (col : NtpAssociationRow → α)
    (hcol : ∀ r st, col (setNtpAssociationStatus r st) = col r) :
    (db.writeStatus status msg).ntpAssociation.map col = db.ntpAssociation.map col := by
  show (db.ntpAssociation.map _).map col = _
  rw [List.map_map]
  exact List.map_congr_left fun r _ => hcol r _

theorem wellFormed_writeStatus (h : WellFormed isValidIpv4 db) :
    WellFormed isValidIpv4 (db.writeStatus status msg) := by
  have hrow : ∀ {P : NtpAssociationRow → Prop}, (∀ r st, P r → P (setNtpAssociationStatus r st)) →
      (∀ r ∈ db.ntpAssociation, P r) → ∀ r ∈ (db.writeStatus status msg).ntpAssociation, P r := by
    intro P hkeep hall r hr
    obtain ⟨r₀, hr₀, rfl⟩ := List.mem_map.mp hr
    exact hkeep r₀ _ (hall r₀ hr₀)
  refine { h with
    assocUuids := ?_, assocFresh := hrow (fun r st hr => hr) h.assocFresh, addresses := ?_
    assocValid := hrow (fun r st hr => hr) h.assocValid
    assocVrf := hrow (fun r st hr => hr) h.assocVrf
    assocAttributes := hrow (fun r st hr => hr) h.assocAttributes
    assocKey := hrow (fun r st hr => hr) h.assocKey, maxServers := ?_ }
  · rw [map_writeStatus NtpAssociationRow.uuid fun _ _ => rfl]
    exact h.assocUuids
  · rw [map_writeStatus NtpAssociationRow.address fun _ _ => rfl]
    exact h.addresses
  · show (db.ntpAssociation.map _).length ≤ _
    rw [List.length_map]
    exact h.maxServers

/-- The users' intent does not depend on the statuses. -/
theorem intentOf_writeStatus (h : WellFormed isValidIpv4 db) :
    intentOf (db.writeStatus status msg) = intentOf db := by
  have hservers : (configOf (db.writeStatus status msg)).servers = (configOf db).servers := by
    have hmap : Rows.index NtpAssociationRow.address (serverEntry (db.writeStatus status msg))
        (db.ntpAssociation.map fun r => orStatus (status r) r) =
        Dict.mapValues id (Rows.index NtpAssociationRow.address (serverEntry db)
          db.ntpAssociation) :=
      Rows.index_map h.addresses (fun _ _ => rfl) fun _ _ => rfl
    rw [@Dict.mapValues_eq_self _ _ _ id _ fun _ _ _ => rfl] at hmap
    exact hmap
  have hconfig : configOf (db.writeStatus status msg) = configOf db :=
    Config.eq_of_maps rfl hservers
  have hauth : authenticationEnable (db.writeStatus status msg) = authenticationEnable db := by
    show (db.system.map msg.globals).foldl _ _ = db.system.foldl _ _
    rw [List.foldl_map]
    rfl
  unfold intentOf
  rw [hconfig, hauth]

theorem checkSystemStatus_writeStatus :
    checkSystemStatus (db.writeStatus status msg) = checkSystemStatus db := by
  show (db.system.map msg.globals).any _ = db.system.any _
  rw [List.any_map]
  rfl

end statusWrites

/-! ## Section 4: The invariant -/

/-- The daemon's view of the database, once it has taken in what waits. -/
def Daemon.MainState.last (d : MainState) : Db := d.inFlight.getLastD d.replica

/-- The view shows the configuration of the database. -/
structure Reflects (isValidIpv4 : Nat → Bool) (view db : Db) : Prop where
  wellFormed : WellFormed isValidIpv4 view
  intent : intentOf view = intentOf db
  up : checkSystemStatus view = checkSystemStatus db

/-- The status of a server is the initial one, or what a reported message has
    for the server's own address. -/
def OwnStatus (reported : StatusMsg → Prop) (r : NtpAssociationRow) : Prop :=
  r.associationStatus = initialStatus ∨
    ∃ msg, reported msg ∧ msg.associationsInfo.lookup r.address = some r.associationStatus

/-- The global columns are empty, or those of one reported message. -/
def OneReport (reported : StatusMsg → Prop) (r : SystemRow) : Prop :=
  (r.ntpStatus = ∅ ∧ r.ntpStatistics = ∅) ∨
    ∃ msg, reported msg ∧ r.ntpStatus = msg.status ∧ r.ntpStatistics = msg.statistics

/-- While ntpd has not been provisioned, the daemon has seen every change of its
    replica, and the replica does not say that the system is up. -/
def NotYetUp (d : MainState) : Prop :=
  d.phase = .provision → d.seqno = d.changeSeqno ∧ checkSystemStatus d.replica = false

/-- What holds after a run in which the polls have `reported` these messages. -/
structure SwitchInv (isValidIpv4 : Nat → Bool) (secret : String) (sys : Uuid)
    (reported : StatusMsg → Prop) (s : SwitchState) : Prop where
  wellFormed : WellFormed isValidIpv4 s.db
  printable : (configOf s.db).Printable
  history : HistoryInv sys s.history s.db s.replica
  main : MainInv secret s.daemon
  last : Reflects isValidIpv4 s.daemon.last s.db
  notYetUp : NotYetUp s.daemon
  servers : ∀ r ∈ s.db.ntpAssociation, OwnStatus reported r
  globals : ∀ r ∈ s.db.system, OneReport reported r
  messages : ∀ msg ∈ s.queue, reported msg

section invariant
variable {sys : Uuid} {reported : StatusMsg → Prop} {s : SwitchState}

theorem Reflects.refl (h : WellFormed isValidIpv4 db) : Reflects isValidIpv4 db db := ⟨h, rfl, rfl⟩

theorem SwitchInv.oneSystem (h : SwitchInv isValidIpv4 secret sys reported s) :
    ∃ row, s.db.system = [row] := by
  have hids := h.history.system s.db h.history.current
  obtain ⟨row, hrow, _⟩ := List.map_eq_singleton_iff.mp hids
  exact ⟨row, hrow⟩

theorem Daemon.MainState.last_commit (d : MainState) (db : Db) :
    MainState.last { d with inFlight := d.inFlight ++ [db] } = db := by
  unfold MainState.last
  rw [List.getLastD_eq_getLast?, List.getLast?_concat]
  rfl

/-- Taking in databases does not change the one that comes last. -/
theorem Daemon.MainState.last_idlRun (d : MainState) (updates : Nat) :
    (d.idlRun updates).last = d.last := by
  show (d.inFlight.drop updates).getLastD ((d.inFlight.take updates).getLastD d.replica) = _
  unfold MainState.last
  -- what is taken and what is left are one list
  conv_rhs => rw [← List.take_append_drop updates d.inFlight]
  rw [List.getLastD_eq_getLast?, List.getLastD_eq_getLast?, List.getLastD_eq_getLast?,
    List.getLast?_append]
  cases (d.inFlight.drop updates).getLast? with
  | none => rfl
  | some db => rfl

/-- **Step.** A transaction on the configuration. -/
theorem switchInv_commit (h : SwitchInv isValidIpv4 secret sys reported s) {before after : Db}
    {address : String} (hkeeps : KeepsRows address s.db after)
    (hwell : WellFormed isValidIpv4 after) (hprintable : (configOf after).Printable) :
    SwitchInv isValidIpv4 secret sys reported (s.commit before after) := by
  unfold SwitchState.commit
  split
  · exact h
  · obtain ⟨f, hsystem, hf⟩ := hkeeps.system
    have hids : after.system.map SystemRow.uuid = s.db.system.map SystemRow.uuid := by
      rw [hsystem, List.map_map]
      exact List.map_congr_left fun r _ => (hf r).1
    have hadm : Admissible after := by
      refine admissible_of_wellFormed hwell ?_
      obtain ⟨row, hrow⟩ := h.oneSystem
      rw [hsystem, hrow]
      exact Nat.le_refl 1
    refine { wellFormed := hwell, printable := hprintable, history := ?_, main := ?_, last := ?_
             notYetUp := h.notYetUp, servers := ?_, globals := ?_, messages := h.messages }
    · refine h.history.commit hids hwell.addresses hkeeps.next address ?_
      -- a new server gets a new identity, so a late message cannot mean it
      intro r hr
      rcases hkeeps.servers r hr with ⟨r₀, hr₀, hid, haddr, _⟩ | ⟨hid, hlt, haddr, _⟩
      · exact Or.inl ⟨r₀, hr₀, hid, haddr⟩
      · exact Or.inr ⟨hid, haddr, hlt⟩
    -- for the daemon it is one more database that waits
    · have hstep : mainStep secret Admissible s.daemon (.commit after)
          { s.daemon with inFlight := s.daemon.inFlight ++ [after] } := ⟨hadm, rfl⟩
      exact mainInv_step h.main hstep
    · show Reflects isValidIpv4 (MainState.last _) after
      rw [MainState.last_commit]
      exact Reflects.refl hwell
    -- a server that stays keeps the status of its own address
    · intro r hr
      rcases hkeeps.servers r hr with ⟨r₀, hr₀, _, haddr, hstatus⟩ | ⟨_, _, _, hstatus⟩
      · have hold := h.servers r₀ hr₀
        unfold OwnStatus at hold ⊢
        rw [haddr, hstatus]
        exact hold
      · exact Or.inl hstatus
    · intro r hr
      rw [hsystem] at hr
      obtain ⟨r₀, hr₀, rfl⟩ := List.mem_map.mp hr
      obtain ⟨_, hstatus, hstatistics⟩ := hf r₀
      have hold := h.globals r₀ hr₀
      unfold OneReport at hold ⊢
      rw [hstatus, hstatistics]
      exact hold

/-- **Step.** A command. -/
theorem switchInv_enter (h : SwitchInv isValidIpv4 secret sys reported s) {c : Command}
    (hc : c.Tokens) {db : Db} (hre : s.db.Reorders db) :
    SwitchInv isValidIpv4 secret sys reported (s.commit db (c.exec isValidIpv4 db)) := by
  have hdb := h.wellFormed.reorders hre
  obtain ⟨address, hkeeps⟩ := @keepsRows_exec isValidIpv4 db c
  refine switchInv_commit h (hkeeps.of_reorders hre h.oneSystem) (wellFormed_exec hdb c) ?_
  rw [configOf_exec hdb c, configOf_reorders h.wellFormed hre]
  exact h.printable.step hc

theorem wellFormed_setCurCfg (h : WellFormed isValidIpv4 db) (curCfg : Int) :
    WellFormed isValidIpv4 (db.setCurCfg curCfg) := { h with }

theorem intentOf_setCurCfg (db : Db) (curCfg : Int) :
    intentOf (db.setCurCfg curCfg) = intentOf db := by
  have hauth : authenticationEnable (db.setCurCfg curCfg) = authenticationEnable db := by
    show (db.system.map _).foldl _ _ = db.system.foldl _ _
    rw [List.foldl_map]
  unfold intentOf
  rw [hauth]
  rfl

/-- **Step.** The system configuration. -/
theorem switchInv_configured (h : SwitchInv isValidIpv4 secret sys reported s) (curCfg : Int) :
    SwitchInv isValidIpv4 secret sys reported (s.commit s.db (s.db.setCurCfg curCfg)) := by
  have hkeeps : KeepsRows "" s.db (s.db.setCurCfg curCfg) :=
    { next := Nat.le_refl _
      servers := fun r hr => Or.inl ⟨r, hr, rfl, rfl, rfl⟩
      system := ⟨_, rfl, fun _ => ⟨rfl, rfl, rfl⟩⟩ }
  exact switchInv_commit h hkeeps (wellFormed_setCurCfg h.wellFormed curCfg) h.printable

/-- The daemon's own steps do not change what it will have seen. -/
theorem Daemon.MainState.last_step {d d' : MainState} {a : MainLabel}
    (hown : ∀ db, a ≠ .commit db) (hstep : mainStep secret Admissible d a d') :
    d'.last = d.last := by
  cases a with
  | commit db => exact absurd rfl (hown db)
  | idlRun updates =>
    obtain ⟨_, hstep⟩ := hstep
    have hlast := d.last_idlRun updates
    cases hphase : d.phase with
    | provision =>
      rw [hphase] at hstep
      dsimp only at hstep
      split at hstep
      · rw [hstep]; exact hlast
      · rw [hstep]; exact hlast
    | loopTop =>
      rw [hphase] at hstep
      dsimp only at hstep
      rw [hstep]
      exact hlast
    | starting => rw [hphase] at hstep; exact hstep.elim
    | branch => rw [hphase] at hstep; exact hstep.elim
  | pass =>
    obtain ⟨_, shadow, b, ntpd, _, _, rfl⟩ := hstep
    rfl
  | poll =>
    obtain ⟨_, _, rfl⟩ := hstep
    rfl

theorem notYetUp_step {d d' : MainState} {a : MainLabel} (h : NotYetUp d)
    (hstep : mainStep secret Admissible d a d') : NotYetUp d' := by
  cases a with
  | commit db =>
    obtain ⟨_, rfl⟩ := hstep
    exact h
  | idlRun updates =>
    obtain ⟨_, hstep⟩ := hstep
    cases hphase : d.phase with
    | provision =>
      obtain ⟨hseen, hdown⟩ := h hphase
      rw [hphase] at hstep
      dsimp only at hstep
      split at hstep
      · rename_i hsame
        -- nothing came in, so the replica is still the one that is not up
        have hzero : updates = 0 := by
          have hsame' : d.seqno = d.changeSeqno + updates := hsame
          omega
        subst hzero
        rw [hstep]
        intro _
        refine ⟨hsame, ?_⟩
        show checkSystemStatus ((d.inFlight.take 0).getLastD d.replica) = false
        rw [List.take_zero]
        exact hdown
      · rw [hstep]
        intro hstay
        refine ⟨rfl, ?_⟩
        by_contra hup
        rw [Bool.not_eq_false] at hup
        simp only [hup, if_true, reduceCtorEq] at hstay
    | loopTop =>
      rw [hphase] at hstep
      dsimp only at hstep
      rw [hstep]
      intro hstay
      cases hstay
    | starting => rw [hphase] at hstep; exact hstep.elim
    | branch => rw [hphase] at hstep; exact hstep.elim
  | pass =>
    obtain ⟨_, shadow, b, ntpd, _, _, rfl⟩ := hstep
    intro hstay
    cases hstay
  | poll =>
    obtain ⟨_, _, rfl⟩ := hstep
    intro hstay
    cases hstay

/-- **Step.** A step of the daemon, which leaves the database alone. -/
theorem switchInv_daemon (h : SwitchInv isValidIpv4 secret sys reported s) {a : MainLabel}
    (hown : ∀ db, a ≠ .commit db) {d : MainState} (hstep : mainStep secret Admissible s.daemon a d) :
    SwitchInv isValidIpv4 secret sys reported { s with daemon := d } :=
  { h with
    main := mainInv_step h.main hstep
    last := by
      show Reflects isValidIpv4 d.last s.db
      rw [Daemon.MainState.last_step hown hstep]
      exact h.last
    notYetUp := notYetUp_step h.notYetUp hstep }

/-- **Step.** The sync manager writes a message. -/
theorem switchInv_receive (h : SwitchInv isValidIpv4 secret sys reported s) {msg : StatusMsg}
    {queue : List StatusMsg} {ks : List String} {db : Db} (hqueue : s.queue = msg :: queue)
    (hks : IterOrder ks msg.associationsInfo.keys)
    (hcommit : commitInfo msg ks s.replica s.db = .ok db) :
    SwitchInv isValidIpv4 secret sys reported
      { s with db := db, history := db :: s.history, queue := queue } := by
  rw [commitInfo_ok h.history msg hks] at hcommit
  obtain rfl := Except.ok.inj hcommit
  have hreported : reported msg := h.messages msg (by rw [hqueue]; exact List.mem_cons_self)
  let status := statusIn msg.associationsInfo s.replica.ntpAssociation
  have hwell : WellFormed isValidIpv4 (s.db.writeStatus status msg) :=
    wellFormed_writeStatus h.wellFormed
  have hintent : intentOf (s.db.writeStatus status msg) = intentOf s.db :=
    intentOf_writeStatus h.wellFormed
  have hconfig : configOf (s.db.writeStatus status msg) = configOf s.db :=
    congrArg Intent.config hintent
  have hprintable : (configOf (s.db.writeStatus status msg)).Printable := by
    rw [hconfig]
    exact h.printable
  refine { wellFormed := hwell, printable := hprintable, history := ?_
           main := h.main, last := ?_, notYetUp := h.notYetUp, servers := ?_, globals := ?_
           messages := ?_ }
  · refine h.history.commit ?_ hwell.addresses (Nat.le_refl _) "" ?_
    · rw [List.map_map]; rfl
    · intro r hr
      obtain ⟨r₀, hr₀, rfl⟩ := List.mem_map.mp hr
      exact Or.inl ⟨r₀, hr₀, rfl, rfl⟩
  · exact ⟨h.last.wellFormed, h.last.intent.trans hintent.symm,
      h.last.up.trans checkSystemStatus_writeStatus.symm⟩
  -- the row is found by its identity, whose address is the one in the message
  · intro r hr
    obtain ⟨r₀, hr₀, rfl⟩ := List.mem_map.mp hr
    cases hstatus : statusIn msg.associationsInfo s.replica.ntpAssociation r₀ with
    | none =>
      rw [orStatus_none]
      exact h.servers r₀ hr₀
    | some v =>
      refine Or.inr ⟨msg, hreported, ?_⟩
      unfold statusIn at hstatus
      split at hstatus
      · exact hstatus
      · cases hstatus
  · intro r hr
    obtain ⟨r₀, _, rfl⟩ := List.mem_map.mp hr
    exact Or.inr ⟨msg, hreported, rfl, rfl⟩
  · intro m hm
    exact h.messages m (by rw [hqueue]; exact List.mem_cons_of_mem _ hm)

/-- More reports do no harm. -/
theorem SwitchInv.mono {reported' : StatusMsg → Prop}
    (h : SwitchInv isValidIpv4 secret sys reported s) (hmore : ∀ msg, reported msg → reported' msg) :
    SwitchInv isValidIpv4 secret sys reported' s := by
  refine { h with
    servers := ?_, globals := ?_, messages := fun msg hmsg => hmore msg (h.messages msg hmsg) }
  · intro r hr
    rcases h.servers r hr with hinitial | ⟨msg, hmsg, hlook⟩
    · exact Or.inl hinitial
    · exact Or.inr ⟨msg, hmore msg hmsg, hlook⟩
  · intro r hr
    rcases h.globals r hr with hempty | ⟨msg, hmsg, hcols⟩
    · exact Or.inl hempty
    · exact Or.inr ⟨msg, hmore msg hmsg, hcols⟩

end invariant

/-! ## Section 5: Runs -/

/-- A poll of the run has read this message. -/
def Reported (tr : List (SwitchState × SwitchLabel)) (msg : StatusMsg) : Prop :=
  ∃ p ∈ tr, ∃ out, p.2 = .poll out ∧ Polls out msg

section runs
variable {nextUuid vrf sys : Uuid} {curCfg : Int} {s s' : SwitchState} {a : SwitchLabel}
variable {tr : List (SwitchState × SwitchLabel)}

/-- **Step.** Every step keeps the invariant. -/
theorem switchInv_step (h : SwitchInv isValidIpv4 secret sys (Reported tr) s)
    (hstep : switchStep isValidIpv4 secret s a s') :
    SwitchInv isValidIpv4 secret sys (Reported ((s, a) :: tr)) s' := by
  have hmore : ∀ msg, Reported tr msg → Reported ((s, a) :: tr) msg := by
    intro msg hmsg
    obtain ⟨p, hp, hpoll⟩ := hmsg
    exact ⟨p, List.mem_cons_of_mem _ hp, hpoll⟩
  have h := h.mono hmore
  cases a with
  | enter c =>
    obtain ⟨hc, db, hre, rfl⟩ := hstep
    exact switchInv_enter h hc hre
  | configured curCfg =>
    rw [hstep]
    exact switchInv_configured h curCfg
  | idlRun updates =>
    obtain ⟨d, hd, rfl⟩ := hstep
    exact switchInv_daemon h (fun _ heq => by cases heq) hd
  | pass =>
    obtain ⟨d, hd, rfl⟩ := hstep
    exact switchInv_daemon h (fun _ heq => by cases heq) hd
  | poll out =>
    obtain ⟨d, hd, hsent⟩ := hstep
    have hdaemon := switchInv_daemon h (fun _ heq => by cases heq) hd
    -- a poll is the only step that puts something on the queue
    rcases hsent with ⟨msg, hmsg, rfl⟩ | ⟨_, rfl⟩
    · refine { hdaemon with messages := ?_ }
      intro m hm
      rcases List.mem_append.mp hm with hold | hnew
      · exact hdaemon.messages m hold
      · rw [List.mem_singleton.mp hnew]
        exact ⟨_, List.mem_cons_self, out, rfl, hmsg⟩
    · exact hdaemon
  | receive ks =>
    obtain ⟨msg, queue, db, hqueue, hks, hcommit, rfl⟩ := hstep
    exact switchInv_receive h hqueue hks hcommit
  | refresh replica =>
    obtain ⟨hreplica, rfl⟩ := hstep
    exact { h with history := { h.history with replica := hreplica } }

theorem intentOf_commit (s : SwitchState) {before after : Db}
    (hsame : intentOf before = intentOf s.db) :
    intentOf (s.commit before after).db = intentOf after := by
  unfold SwitchState.commit
  split
  · next heq => rw [heq, hsame]
  · rfl

theorem intentOf_reorders (h : SwitchInv isValidIpv4 secret sys (Reported tr) s) {db : Db}
    (hre : s.db.Reorders db) : db.system = s.db.system ∧ intentOf db = intentOf s.db := by
  obtain ⟨row, hrow⟩ := h.oneSystem
  have hsystem : db.system = s.db.system := by
    have hperm := hre.system
    rw [hrow] at hperm ⊢
    exact List.perm_singleton.mp hperm
  refine ⟨hsystem, ?_⟩
  unfold intentOf authenticationEnable
  rw [configOf_reorders h.wellFormed hre, hsystem]

/-- **Step.** The intent follows the commands. -/
theorem intentOf_step (h : SwitchInv isValidIpv4 secret sys (Reported tr) s)
    (hintent : intentOf s.db = Intent.empty.run isValidIpv4 (entered tr))
    (hstep : switchStep isValidIpv4 secret s a s') :
    intentOf s'.db = Intent.empty.run isValidIpv4 (entered ((s, a) :: tr)) := by
  cases a with
  | enter c =>
    obtain ⟨_, db, hre, rfl⟩ := hstep
    -- the command decides on the rows in another order, which have the same intent
    obtain ⟨hsystem, hsame⟩ := intentOf_reorders h hre
    obtain ⟨row, hrow⟩ := h.oneSystem
    have hexec := intentOf_exec (h.wellFormed.reorders hre) (hsystem.trans hrow) c
    show _ = Intent.empty.run isValidIpv4 (entered tr ++ [c])
    rw [intentOf_commit s hsame, hexec, hsame, hintent]
    unfold Intent.run
    rw [List.foldl_append]
    rfl
  | configured curCfg =>
    rw [hstep, intentOf_commit s rfl, intentOf_setCurCfg]
    exact hintent
  | idlRun updates =>
    obtain ⟨d, _, rfl⟩ := hstep
    exact hintent
  | pass =>
    obtain ⟨d, _, rfl⟩ := hstep
    exact hintent
  | poll out =>
    obtain ⟨d, _, hsent⟩ := hstep
    rcases hsent with ⟨msg, _, rfl⟩ | ⟨_, rfl⟩
    · exact hintent
    · exact hintent
  | receive ks =>
    obtain ⟨msg, queue, db, _, hks, hcommit, rfl⟩ := hstep
    rw [commitInfo_ok h.history msg hks] at hcommit
    obtain rfl := Except.ok.inj hcommit
    exact (intentOf_writeStatus h.wellFormed).trans hintent
  | refresh replica =>
    obtain ⟨_, rfl⟩ := hstep
    exact hintent

theorem switchInv_init
    (h : (switch isValidIpv4 secret (factoryDefault nextUuid vrf sys curCfg)).init s) :
    SwitchInv isValidIpv4 secret sys (Reported []) s ∧ intentOf s.db = Intent.empty := by
  obtain ⟨hdb, hhistory, hqueue, hreplica, hdaemon⟩ := h
  have hwell : WellFormed isValidIpv4 (factoryDefault nextUuid vrf sys curCfg) :=
    wellFormed_emptyTables isValidIpv4 nextUuid vrf _
  have hconfig : configOf (factoryDefault nextUuid vrf sys curCfg) = Config.empty :=
    configOf_emptyTables nextUuid vrf _
  have hadm : Admissible (factoryDefault nextUuid vrf sys curCfg) :=
    admissible_of_wellFormed hwell (Nat.le_refl 1)
  constructor
  · refine { wellFormed := by rw [hdb]; exact hwell
             printable := by rw [hdb, hconfig]; exact Config.printable_empty
             history := ?_, main := ?_, last := ?_, notYetUp := ?_, servers := ?_, globals := ?_
             messages := by rw [hqueue]; exact fun _ hmsg => by cases hmsg }
    · rw [hdb, hhistory]
      refine { current := List.mem_cons_self, replica := ⟨_, List.mem_cons_self, hreplica⟩
               system := ?_, addresses := ?_, fresh := ?_, named := ⟨fun _ => "", ?_⟩ }
      · intro d hd
        rw [List.mem_singleton.mp hd]
        rfl
      · intro d hd
        rw [List.mem_singleton.mp hd]
        exact List.nodup_nil
      · intro d hd r hr
        rw [List.mem_singleton.mp hd] at hr
        cases hr
      · intro d hd r hr
        rw [List.mem_singleton.mp hd] at hr
        cases hr
    · rw [hdaemon]
      have hcommit : mainStep secret Admissible (MainState.start secret)
          (.commit (factoryDefault nextUuid vrf sys curCfg)) _ := ⟨hadm, rfl⟩
      exact mainInv_step mainInv_start hcommit
    · rw [hdaemon, hdb]
      exact Reflects.refl hwell
    · rw [hdaemon]
      exact fun _ => ⟨rfl, rfl⟩
    · rw [hdb]
      intro r hr
      cases hr
    · rw [hdb]
      intro r hr
      rw [List.mem_singleton.mp hr]
      exact Or.inl ⟨rfl, rfl⟩
  · rw [hdb]
    unfold intentOf
    rw [hconfig]
    rfl

/-- **Run.** The invariant holds after every run, and the tables stand for what
    the commands of the run ask for. -/
theorem switchInv_run
    (h : (switch isValidIpv4 secret (factoryDefault nextUuid vrf sys curCfg)).Trace tr s) :
    SwitchInv isValidIpv4 secret sys (Reported tr) s ∧
      intentOf s.db = Intent.empty.run isValidIpv4 (entered tr) := by
  induction h with
  | init hi => exact switchInv_init hi
  | step a _ hstep ih => exact ⟨switchInv_step ih.1 hstep, intentOf_step ih.1 ih.2 hstep⟩

/-- An idle daemon has seen tables with the same intent. -/
theorem SwitchInv.replica_of_idle {reported : StatusMsg → Prop}
    (h : SwitchInv isValidIpv4 secret sys reported s) (hidle : Idle s.daemon) :
    WellFormed isValidIpv4 s.daemon.replica ∧ (configOf s.daemon.replica).Printable ∧
      intentOf s.daemon.replica = intentOf s.db := by
  have hlast : s.daemon.last = s.daemon.replica := by
    unfold Daemon.MainState.last
    rw [hidle.inFlight]
    rfl
  have hview := h.last
  rw [hlast] at hview
  have hconfig : configOf s.daemon.replica = configOf s.db := congrArg Intent.config hview.intent
  refine ⟨hview.wellFormed, ?_, hview.intent⟩
  rw [hconfig]
  exact h.printable

/-- An idle daemon has ntpd serve the intent of the tables. -/
theorem serves_of_idle (hsecret : ControlkeyAnswer secret) {reported : StatusMsg → Prop}
    (h : SwitchInv isValidIpv4 secret sys reported s) (hidle : Idle s.daemon) :
    Serves secret (intentOf s.db) s.daemon.ntpd := by
  obtain ⟨hwell, hprintable, hintent⟩ := h.replica_of_idle hidle
  rw [← hintent]
  exact serves_of_converged hsecret hwell hprintable h.main.replica
    (h.main.converged hidle.loop hidle.seen)

/-- **The switch serves its users.** Whatever commands have been entered, and
    however the daemon, its polls, the sync manager and the system configuration
    have taken their steps in between: when the daemon is idle, ntpd serves
    what the commands ask for. -/
theorem switch_serves (hsecret : ControlkeyAnswer secret)
    (h : (switch isValidIpv4 secret (factoryDefault nextUuid vrf sys curCfg)).Trace tr s)
    (hidle : Idle s.daemon) :
    Serves secret (Intent.empty.run isValidIpv4 (entered tr)) s.daemon.ntpd := by
  obtain ⟨hinv, hintent⟩ := switchInv_run h
  rw [← hintent]
  exact serves_of_idle hsecret hinv hidle

/-- **Statuses belong to their servers.** However messages, stale replicas and
    commands meet: a server's status is the initial one, or a complete one that
    some poll has read for the server's own address, and the global columns
    are empty, or the complete ones of a single poll. -/
theorem switch_statuses
    (h : (switch isValidIpv4 secret (factoryDefault nextUuid vrf sys curCfg)).Trace tr s) :
    (∀ r ∈ s.db.ntpAssociation, r.associationStatus = initialStatus ∨
      ∃ msg, Reported tr msg ∧
        msg.associationsInfo.lookup r.address = some r.associationStatus ∧
        CompleteStatus r.associationStatus ∧
        r.associationStatus.lookup "remote_peer_address" = some r.address) ∧
    ∀ r ∈ s.db.system, (r.ntpStatus = ∅ ∧ r.ntpStatistics = ∅) ∨
      ∃ msg, Reported tr msg ∧ r.ntpStatus = msg.status ∧ r.ntpStatistics = msg.statistics ∧
        r.ntpStatus.keys = (statusLabels.map Prod.fst).toFinset ∧
        r.ntpStatistics.keys = (statisticsLabels.map Prod.fst).toFinset := by
  obtain ⟨hinv, _⟩ := switchInv_run h
  constructor
  · intro r hr
    rcases hinv.servers r hr with hinitial | ⟨msg, hmsg, hlook⟩
    · exact Or.inl hinitial
    · obtain ⟨p, hp, out, hpoll, hread⟩ := hmsg
      obtain ⟨_, _, hinfo⟩ := infoOf_of_associationsInfo hread.1
      obtain ⟨hcomplete, haddress, _⟩ := hinfo.sound r.address r.associationStatus hlook
      exact Or.inr ⟨msg, ⟨p, hp, out, hpoll, hread⟩, hlook, hcomplete, haddress⟩
  -- both columns come from one message, so they are of the same poll
  · intro r hr
    rcases hinv.globals r hr with hempty | ⟨msg, hmsg, hstatus, hstatistics⟩
    · exact Or.inl hempty
    · obtain ⟨p, hp, out, hpoll, hread⟩ := hmsg
      obtain ⟨_, hfull, hfull'⟩ := globalStatus_ok_iff.mp hread.2
      refine Or.inr ⟨msg, ⟨p, hp, out, hpoll, hread⟩, hstatus, hstatistics, ?_, ?_⟩
      · rw [hstatus]; exact hfull'.keys
      · rw [hstatistics]; exact hfull.keys

end runs

/-! ## Section 6: Progress -/

/-- The steps that let the daemon catch up: nobody changes the configuration,
    and `idl.run()` takes in all that waits. -/
def Quiet (s : SwitchState) : SwitchLabel → Prop
  | .enter _ => False
  | .configured _ => False
  | .idlRun updates => updates = s.daemon.inFlight.length
  | _ => True

/-- The steps of the daemon. -/
def SwitchLabel.turn : SwitchLabel → Bool
  | .idlRun _ => true
  | .pass => true
  | .poll _ => true
  | _ => false

/-- The number of steps after which the daemon is idle. -/
def Daemon.MainState.pending (d : MainState) : Nat :=
  match d.phase with
  | .provision => 2
  -- what is still waiting after the first pass takes another round of the loop
  | .starting => if d.inFlight.isEmpty then 1 else 3
  | .loopTop => if d.inFlight.isEmpty then 0 else 2
  | .branch =>
      if d.inFlight.isEmpty then if d.seqno = d.changeSeqno then 0 else 1
      else 3

section progress
variable {sys : Uuid} {reported : StatusMsg → Prop} {s s' : SwitchState} {a : SwitchLabel}
variable {tr : List (SwitchState × SwitchLabel)}

theorem Daemon.MainState.pending_le (d : MainState) : d.pending ≤ 3 := by
  unfold Daemon.MainState.pending
  split
  · exact Nat.le_succ 2
  · split <;> omega
  · split <;> omega
  · split
    · split <;> omega
    · exact Nat.le_refl 3

theorem idle_of_pending {d : MainState} (h : MainInv secret d) (hzero : d.pending = 0) :
    Idle d := by
  unfold Daemon.MainState.pending at hzero
  split at hzero
  · omega
  · split at hzero <;> omega
  · next hphase =>
    split at hzero
    · next hempty => exact ⟨List.isEmpty_iff.mp hempty, Or.inl hphase, h.loopTop hphase⟩
    · omega
  · next hphase =>
    split at hzero
    · next hempty =>
      split at hzero
      · next hseen => exact ⟨List.isEmpty_iff.mp hempty, Or.inr hphase, hseen⟩
      · omega
    · omega

/-- **Step.** A step of the daemon that takes in all that waits brings it nearer
    to idling, once the system is up. -/
theorem pending_step {d d' : MainState} {a : MainLabel} (hinv : MainInv secret d)
    (hnot : NotYetUp d) (hup : checkSystemStatus d.last = true) (hown : ∀ db, a ≠ .commit db)
    (hfull : ∀ updates, a = .idlRun updates → updates = d.inFlight.length)
    (hstep : mainStep secret Admissible d a d') : d'.pending ≤ d.pending - 1 := by
  cases a with
  | commit db => exact absurd rfl (hown db)
  | idlRun updates =>
    obtain ⟨_, hstep⟩ := hstep
    have hall := hfull updates rfl
    have hempty : (d.idlRun updates).inFlight = [] := by
      show d.inFlight.drop updates = []
      rw [hall, List.drop_length]
    cases hphase : d.phase with
    | provision =>
      have htwo : d.pending = 2 := by unfold Daemon.MainState.pending; rw [hphase]
      have hreplica : checkSystemStatus (d.idlRun updates).replica = true := by
        rw [← d.last_idlRun updates] at hup
        unfold Daemon.MainState.last at hup
        rwa [hempty] at hup
      rw [hphase] at hstep
      dsimp only at hstep
      split at hstep
      · next hsame =>
        -- an empty queue would leave a replica that is not up
        obtain ⟨hseen, hdown⟩ := hnot hphase
        have hzero : d.inFlight.length = 0 := by
          have hsame' : d.seqno = d.changeSeqno + updates := hsame
          omega
        have hsame : (d.idlRun updates).replica = d.replica := by
          show (d.inFlight.take updates).getLastD d.replica = d.replica
          rw [List.length_eq_zero_iff.mp hzero, List.take_nil]
          rfl
        rw [hsame, hdown] at hreplica
        cases hreplica
      · rw [hstep, htwo]
        unfold Daemon.MainState.pending
        simp [hempty]
    | loopTop =>
      rw [hphase] at hstep
      dsimp only at hstep
      rw [hstep]
      have hseen := hinv.loopTop hphase
      unfold Daemon.MainState.pending
      rw [hphase]
      dsimp only
      rw [hempty]
      by_cases hnone : d.inFlight = []
      · rw [hnone] at hall ⊢
        have hsame : (d.idlRun updates).seqno = (d.idlRun updates).changeSeqno := by
          show d.seqno = d.changeSeqno + updates
          rw [hall, hseen]
          rfl
        simp [hsame]
      · have hne : d.inFlight.isEmpty = false := by
          rw [List.isEmpty_eq_false_iff]
          exact hnone
        rw [hne]
        simp only [List.isEmpty_nil, if_true, Bool.false_eq_true, if_false]
        split <;> omega
    | starting => rw [hphase] at hstep; exact hstep.elim
    | branch => rw [hphase] at hstep; exact hstep.elim
  | pass =>
    obtain ⟨hphase, shadow, b, ntpd, _, _, rfl⟩ := hstep
    rcases hphase with hphase | ⟨hphase, hseen⟩
    -- the pass sees all that the replica has, not what is in flight
    · unfold Daemon.MainState.pending
      rw [hphase]
      dsimp only
      split <;> omega
    · unfold Daemon.MainState.pending
      rw [hphase]
      dsimp only
      rw [if_neg hseen]
      split <;> omega
  | poll =>
    obtain ⟨hphase, hseen, rfl⟩ := hstep
    unfold Daemon.MainState.pending
    rw [hphase]
    dsimp only
    rw [if_pos hseen]
    split <;> omega

/-- What a run keeps once the configuration has been left alone: the invariant,
    the system is up, and the intent. -/
structure Settling (isValidIpv4 : Nat → Bool) (secret : String) (sys : Uuid) (m : Intent)
    (s : SwitchState) : Prop where
  inv : SwitchInv isValidIpv4 secret sys (fun _ => True) s
  up : checkSystemStatus s.db = true
  intent : intentOf s.db = m

/-- **Step.** -/
theorem settling_step {m : Intent} (h : Settling isValidIpv4 secret sys m s) (hquiet : Quiet s a)
    (hstep : switchStep isValidIpv4 secret s a s') :
    Settling isValidIpv4 secret sys m s' ∧
      s'.daemon.pending ≤ s.daemon.pending - if a.turn then 1 else 0 := by
  have hup : checkSystemStatus s.daemon.last = true := h.inv.last.up.trans h.up
  have hdaemon : ∀ {a : MainLabel} {d : MainState}, (∀ db, a ≠ .commit db) →
      (∀ updates, a = .idlRun updates → updates = s.daemon.inFlight.length) →
      mainStep secret Admissible s.daemon a d →
      SwitchInv isValidIpv4 secret sys (fun _ => True) { s with daemon := d } ∧
        d.pending ≤ s.daemon.pending - 1 := by
    intro a d hown hfull hd
    exact ⟨switchInv_daemon h.inv hown hd,
      pending_step h.inv.main h.inv.notYetUp hup hown hfull hd⟩
  cases a with
  | enter c => exact hquiet.elim
  | configured curCfg => exact hquiet.elim
  | idlRun updates =>
    obtain ⟨d, hd, rfl⟩ := hstep
    have hfull : ∀ n, MainLabel.idlRun updates = .idlRun n → n = s.daemon.inFlight.length := by
      intro n hn
      cases hn
      exact hquiet
    obtain ⟨hinv, hle⟩ := hdaemon (fun _ heq => by cases heq) hfull hd
    exact ⟨⟨hinv, h.up, h.intent⟩, hle⟩
  | pass =>
    obtain ⟨d, hd, rfl⟩ := hstep
    obtain ⟨hinv, hle⟩ := hdaemon (fun _ heq => by cases heq) (fun _ heq => by cases heq) hd
    exact ⟨⟨hinv, h.up, h.intent⟩, hle⟩
  | poll out =>
    obtain ⟨d, hd, hsent⟩ := hstep
    obtain ⟨hinv, hle⟩ := hdaemon (fun _ heq => by cases heq) (fun _ heq => by cases heq) hd
    rcases hsent with ⟨msg, _, rfl⟩ | ⟨_, rfl⟩
    · exact ⟨⟨{ hinv with messages := fun _ _ => trivial }, h.up, h.intent⟩, hle⟩
    · exact ⟨⟨hinv, h.up, h.intent⟩, hle⟩
  | receive ks =>
    obtain ⟨msg, queue, db, hqueue, hks, hcommit, rfl⟩ := hstep
    -- a status write is no change of the configuration and wakes nobody
    have hinv := switchInv_receive h.inv hqueue hks hcommit
    rw [commitInfo_ok h.inv.history msg hks] at hcommit
    obtain rfl := Except.ok.inj hcommit
    exact ⟨⟨hinv, checkSystemStatus_writeStatus.trans h.up,
      (intentOf_writeStatus h.inv.wellFormed).trans h.intent⟩, Nat.le_refl _⟩
  | refresh replica =>
    obtain ⟨hreplica, rfl⟩ := hstep
    exact ⟨⟨{ h.inv with history := { h.inv.history with replica := hreplica } }, h.up, h.intent⟩,
      Nat.le_refl _⟩

/-- The daemon is never stuck. -/
theorem exists_turn (h : SwitchInv isValidIpv4 secret sys reported s) :
    ∃ a s', a.turn = true ∧ Quiet s a ∧ switchStep isValidIpv4 secret s a s' := by
  have hpass : (s.daemon.phase = .starting ∨
      (s.daemon.phase = .branch ∧ s.daemon.seqno ≠ s.daemon.changeSeqno)) →
      ∃ d, mainStep secret Admissible s.daemon .pass d := by
    intro hready
    obtain ⟨shadow, b, hpass⟩ := exists_pass secret h.main.replica.proper s.daemon.shadow
    obtain ⟨ntpd, hrun⟩ := Ntpd.exists_run (s.daemon.ntpd.readkeys b.keysFileContent) b.configs
    exact ⟨_, hready, shadow, b, ntpd, hpass, hrun, rfl⟩
  let n := s.daemon.inFlight.length
  cases hphase : s.daemon.phase with
  | provision =>
    let d := s.daemon.idlRun n
    by_cases hsame : d.seqno = d.changeSeqno
    · refine ⟨.idlRun n, _, rfl, rfl, d, ⟨Nat.le_refl _, ?_⟩, rfl⟩
      rw [hphase]
      show if d.seqno = d.changeSeqno then _ else _
      rw [if_pos hsame]
    · let d' : MainState := { d with
        seqno := d.changeSeqno
        phase := if checkSystemStatus d.replica then .starting else .provision }
      refine ⟨.idlRun n, _, rfl, rfl, d', ⟨Nat.le_refl _, ?_⟩, rfl⟩
      rw [hphase]
      show if d.seqno = d.changeSeqno then _ else _
      rw [if_neg hsame]
  | starting =>
    obtain ⟨d, hd⟩ := hpass (Or.inl hphase)
    exact ⟨.pass, _, rfl, trivial, d, hd, rfl⟩
  | loopTop =>
    refine ⟨.idlRun n, _, rfl, rfl, { s.daemon.idlRun n with phase := .branch },
      ⟨Nat.le_refl _, ?_⟩, rfl⟩
    rw [hphase]
  | branch =>
    -- a poll is possible whatever ntpq prints, so any output will do
    by_cases hseen : s.daemon.seqno = s.daemon.changeSeqno
    · let out : NtpqOutputs := twoOutputs
      have hd : mainStep secret Admissible s.daemon .poll { s.daemon with phase := .loopTop } :=
        ⟨hphase, hseen, rfl⟩
      by_cases hreads : ∃ msg, Polls out msg
      · obtain ⟨msg, hmsg⟩ := hreads
        exact ⟨.poll out, _, rfl, trivial, _, hd, Or.inl ⟨msg, hmsg, rfl⟩⟩
      · exact ⟨.poll out, _, rfl, trivial, _, hd, Or.inr ⟨hreads, rfl⟩⟩
    · obtain ⟨d, hd⟩ := hpass (Or.inr ⟨hphase, hseen⟩)
      exact ⟨.pass, _, rfl, trivial, d, hd, rfl⟩

/-- **The switch settles.** The daemon is never stuck, and once the system is up
    and the configuration is left alone it has ntpd serve all the commands
    after three of its steps at most, whatever the sync manager does. -/
theorem switch_settles (hsecret : ControlkeyAnswer secret) {nextUuid vrf : Uuid} {curCfg : Int}
    (h : (switch isValidIpv4 secret (factoryDefault nextUuid vrf sys curCfg)).Trace tr s) :
    (∃ a s', a.turn = true ∧ Quiet s a ∧ switchStep isValidIpv4 secret s a s') ∧
    (checkSystemStatus s.db = true → ∀ later s',
      (switch isValidIpv4 secret (factoryDefault nextUuid vrf sys curCfg)).Path s later s' →
      (∀ p ∈ later, Quiet p.1 p.2) → 3 ≤ (later.countP fun p => p.2.turn) →
      Idle s'.daemon ∧
        Serves secret (Intent.empty.run isValidIpv4 (entered tr)) s'.daemon.ntpd) := by
  obtain ⟨hinv, hintent⟩ := switchInv_run h
  refine ⟨exists_turn hinv, ?_⟩
  intro hup later s' hpath hquiet hturns
  have hstart : Settling isValidIpv4 secret sys (Intent.empty.run isValidIpv4 (entered tr)) s :=
    ⟨hinv.mono fun _ _ => trivial, hup, hintent⟩
  have hnext : ∀ s₁ a s₂,
      Settling isValidIpv4 secret sys (Intent.empty.run isValidIpv4 (entered tr)) s₁ →
      Quiet s₁ a → switchStep isValidIpv4 secret s₁ a s₂ → _ :=
    fun _ _ _ hs hg hstep => settling_step hs hg hstep
  obtain ⟨hend, hle⟩ := hpath.measure_le hnext hstart hquiet
  have hthree := s.daemon.pending_le
  have hidle : Idle s'.daemon := idle_of_pending hend.inv.main (by omega)
  refine ⟨hidle, ?_⟩
  rw [← hend.intent]
  exact serves_of_idle hsecret hend.inv hidle

end progress

/-! ## Section 7: Runs that go on -/

section onward
variable {nextUuid vrf sys : Uuid} {curCfg : Int} {s : SwitchState}
variable {tr : List (SwitchState × SwitchLabel)}

/-- Users can enter commands at any time. -/
theorem exists_entered {db₀ : Db} (h : (switch isValidIpv4 secret db₀).Trace tr s)
    {cs : List Command} (hcs : ∀ c ∈ cs, c.Tokens) :
    ∃ tr' s', (switch isValidIpv4 secret db₀).Trace tr' s' ∧ entered tr' = entered tr ++ cs ∧
      s'.db = cs.foldl (fun db c => c.exec isValidIpv4 db) s.db ∧
      s'.daemon.phase = s.daemon.phase ∧ s'.queue = s.queue := by
  induction cs generalizing tr s with
  | nil => exact ⟨tr, s, h, (List.append_nil _).symm, rfl, rfl, rfl⟩
  | cons c cs ih =>
    obtain ⟨hc, hcs⟩ := List.forall_mem_cons.mp hcs
    let s₁ := s.commit s.db (c.exec isValidIpv4 s.db)
    have hkept : s₁.db = c.exec isValidIpv4 s.db ∧ s₁.daemon.phase = s.daemon.phase ∧
        s₁.queue = s.queue := by
      show (s.commit _ _).db = _ ∧ (s.commit _ _).daemon.phase = _ ∧ (s.commit _ _).queue = _
      unfold SwitchState.commit
      split
      · next hsame => exact ⟨hsame.symm, rfl, rfl⟩
      · exact ⟨rfl, rfl, rfl⟩
    obtain ⟨tr', s', htrace, hentered, hdb, hphase, hqueue⟩ :=
      ih (h.step (SwitchLabel.enter c) ⟨hc, s.db, Db.Reorders.refl _, rfl⟩) hcs
    rw [hkept.1] at hdb
    refine ⟨tr', s', htrace, ?_, hdb, hphase.trans hkept.2.1, hqueue.trans hkept.2.2⟩
    rw [hentered, entered, List.append_assoc, List.singleton_append]

/-- Once the system is up, the daemon can take in all that waits and pass over it. -/
theorem exists_passed
    (h : (switch isValidIpv4 secret (factoryDefault nextUuid vrf sys curCfg)).Trace tr s)
    (hphase : s.daemon.phase = .provision) (hup : checkSystemStatus s.db = true) :
    ∃ tr' s', (switch isValidIpv4 secret (factoryDefault nextUuid vrf sys curCfg)).Trace tr' s' ∧
      entered tr' = entered tr ∧ s'.db = s.db ∧ s'.daemon.phase = .loopTop ∧
      s'.daemon.inFlight = [] ∧ s'.daemon.seqno = s'.daemon.changeSeqno ∧ s'.queue = s.queue := by
  obtain ⟨hinv, _⟩ := switchInv_run h
  obtain ⟨hseen, hdown⟩ := hinv.notYetUp hphase
  let n := s.daemon.inFlight.length
  have hlast : (s.daemon.idlRun n).replica = s.daemon.last := by
    show (s.daemon.inFlight.take n).getLastD s.daemon.replica = _
    rw [List.take_length]
    rfl
  have hreplica : checkSystemStatus (s.daemon.idlRun n).replica = true := by
    rw [hlast]
    exact hinv.last.up.trans hup
  -- the replica does not say so yet, so something waits
  have hwaits : s.daemon.inFlight ≠ [] := by
    intro hnil
    have hsame : s.daemon.last = s.daemon.replica := by
      unfold MainState.last
      rw [hnil]
      rfl
    rw [hlast, hsame, hdown] at hreplica
    cases hreplica
  have hnew : (s.daemon.idlRun n).seqno ≠ (s.daemon.idlRun n).changeSeqno := by
    show s.daemon.seqno ≠ s.daemon.changeSeqno + n
    have hpos : 0 < n := List.length_pos_of_ne_nil hwaits
    omega
  let d : MainState := { s.daemon.idlRun n with
    seqno := (s.daemon.idlRun n).changeSeqno, phase := .starting }
  have htaken : mainStep secret Admissible s.daemon (.idlRun n) d := by
    refine ⟨Nat.le_refl _, ?_⟩
    rw [hphase]
    dsimp only
    rw [if_neg hnew, hreplica, if_pos rfl]
  have hd := mainInv_step hinv.main htaken
  obtain ⟨shadow, b, hpass⟩ := exists_pass secret hd.replica.proper d.shadow
  obtain ⟨ntpd, hrun⟩ := Ntpd.exists_run (d.ntpd.readkeys b.keysFileContent) b.configs
  have htrace := h.step (SwitchLabel.idlRun n) ⟨d, htaken, rfl⟩
  refine ⟨_, _, htrace.step SwitchLabel.pass
    ⟨_, ⟨Or.inl rfl, shadow, b, ntpd, hpass, hrun, rfl⟩, rfl⟩, rfl, rfl, rfl, ?_, rfl, rfl⟩
  exact List.drop_length

/-- An idle daemon can poll, and the sync manager can write what it has read. -/
theorem exists_polled
    (h : (switch isValidIpv4 secret (factoryDefault nextUuid vrf sys curCfg)).Trace tr s)
    (hphase : s.daemon.phase = .loopTop) (hseen : s.daemon.seqno = s.daemon.changeSeqno)
    (hqueue : s.queue = []) {out : NtpqOutputs} {msg : StatusMsg} (hmsg : Polls out msg) :
    ∃ tr' s', (switch isValidIpv4 secret (factoryDefault nextUuid vrf sys curCfg)).Trace tr' s' ∧
      entered tr' = entered tr ∧
      s'.db = s.db.writeStatus (fun r => msg.associationsInfo.lookup r.address) msg := by
  let s₁ : SwitchState := { s with daemon := { s.daemon.idlRun 0 with phase := .branch } }
  let s₂ : SwitchState :=
    { s₁ with daemon := { s₁.daemon with phase := .loopTop }, queue := s₁.queue ++ [msg] }
  have hrun : switchStep isValidIpv4 secret s (.idlRun 0) s₁ := by
    refine ⟨s₁.daemon, ⟨Nat.zero_le _, ?_⟩, rfl⟩
    rw [hphase]
  have hpoll : switchStep isValidIpv4 secret s₁ (.poll out) s₂ :=
    ⟨s₂.daemon, ⟨rfl, hseen, rfl⟩, Or.inl ⟨msg, hmsg, rfl⟩⟩
  obtain ⟨hinv, _⟩ := switchInv_run h
  have hpolled := (h.step (SwitchLabel.idlRun 0) hrun).step (SwitchLabel.poll out) hpoll
  have htrace := hpolled.step (SwitchLabel.refresh s.db)
    ⟨⟨s.db, hinv.history.current, Db.Reorders.refl _⟩, rfl⟩
  obtain ⟨hinv', _⟩ := switchInv_run htrace
  have hks := iterOrder_toList msg.associationsInfo.keys
  have hqueue' : s₂.queue = [msg] := by
    show s.queue ++ [msg] = [msg]
    rw [hqueue]
    rfl
  have hcommit := commitInfo_ok hinv'.history msg hks
  refine ⟨_, _, htrace.step (SwitchLabel.receive _) ⟨msg, [], _, hqueue', hks, hcommit, rfl⟩,
    rfl, ?_⟩
  -- every row is in the replica of the sync manager
  have hrows : ∀ r ∈ s.db.ntpAssociation,
      orStatus (statusIn msg.associationsInfo s.db.ntpAssociation r) r =
        orStatus (msg.associationsInfo.lookup r.address) r := by
    intro r hr
    rw [statusIn, if_pos (List.mem_map_of_mem hr)]
  exact congrArg (fun rows => { s.db with
    ntpAssociation := rows, system := s.db.system.map msg.globals }) (List.map_congr_left hrows)

end onward

/-! ## Section 8: Examples -/

/-- A new system, with `cur_cfg` set. -/
def newDb : Db := factoryDefault 2 0 1 1

/-- The switch as it starts on the new system. -/
def newSwitch : SwitchState :=
  { db := newDb, history := [newDb]
    daemon := { MainState.start "0123456789abcdef" with inFlight := [newDb] }
    queue := [], replica := newDb }

theorem trace_newSwitch :
    (switch (fun _ => true) "0123456789abcdef" newDb).Trace [] newSwitch :=
  .init ⟨rfl, rfl, rfl, Db.Reorders.refl _, rfl⟩

/-- `ntp server 10.0.0.1` -/
def oneServerCommand : Command := .ntpServer "10.0.0.1" false none none

/-- The switch after the command. -/
def oneServerSwitch : SwitchState :=
  newSwitch.commit newDb (oneServerCommand.exec (fun _ => true) newDb)

theorem trace_oneServer : (switch (fun _ => true) "0123456789abcdef" newDb).Trace
    [(newSwitch, .enter oneServerCommand)] oneServerSwitch :=
  trace_newSwitch.step _ ⟨⟨by decide, by simp, by simp⟩, newDb, Db.Reorders.refl _, rfl⟩

/-- The daemon takes in both databases and passes over the second. -/
theorem trace_oneServer_pass :
    ∃ tr s, (switch (fun _ => true) "0123456789abcdef" newDb).Trace tr s ∧
      entered tr = [oneServerCommand] ∧ s.daemon.phase = .loopTop ∧ s.daemon.inFlight = [] ∧
      s.daemon.seqno = s.daemon.changeSeqno ∧ s.queue = [] := by
  obtain ⟨tr, s, htrace, hentered, _, hloop⟩ := exists_passed trace_oneServer rfl (by decide)
  exact ⟨tr, s, htrace, hentered, hloop⟩

/-- Two servers, the first of them with a trusted key. -/
def siteCommands : List Command :=
  [.ntpAuthenticationKey "7" "password", .ntpTrustedKey "7", .ntpAuthenticationEnable,
   .ntpServer "10.0.0.1" true none (some "7"), .ntpServer "10.0.0.2" false (some "4") none]

/-- The tables after these commands. -/
def siteDb : Db := siteCommands.foldl (fun db c => c.exec (fun _ => true) db) newDb

theorem siteCommands_tokens : ∀ c ∈ siteCommands, c.Tokens := by
  unfold siteCommands
  simp only [List.forall_mem_cons]
  refine ⟨⟨by decide, by decide⟩, show keyToken "7" by decide, trivial, ⟨by decide, by simp, ?_⟩,
    ⟨by decide, ?_, by simp⟩, fun _ hc => absurd hc List.not_mem_nil⟩
  · intro k hk
    obtain rfl := Option.mem_some.mp hk
    decide
  · intro v hv
    obtain rfl := Option.mem_some.mp hv
    decide

/-- The key of the site. -/
theorem lookup_siteKeys {key : Int} {v : String × Bool} :
    (Intent.empty.run (fun _ => true) siteCommands).config.keys.lookup key = some v ↔
      key = 7 ∧ v = ("password", true) := by
  have hkeys : (Intent.empty.run (fun _ => true) siteCommands).config.keys =
      ((∅ : KeyMap).insert 7 ("password", true) : KeyMap) := by decide +kernel
  rw [hkeys, Dict.lookup_insert_eq, Finmap.lookup_empty]
  by_cases hkey : key = 7
  · rw [if_pos hkey, Option.some_inj]
    exact ⟨fun hv => ⟨hkey, hv.symm⟩, fun hand => hand.2.symm⟩
  · rw [if_neg hkey]
    exact iff_of_false (by simp) fun hand => hkey hand.1

/-- On a new system commands are entered, and the daemon passes over the tables. -/
theorem trace_new_pass {cs : List Command} (hcs : ∀ c ∈ cs, c.Tokens)
    (hup : checkSystemStatus (cs.foldl (fun db c => c.exec (fun _ => true) db) newDb) = true) :
    ∃ tr s, (switch (fun _ => true) "0123456789abcdef" newDb).Trace tr s ∧ entered tr = cs ∧
      s.db = cs.foldl (fun db c => c.exec (fun _ => true) db) newDb ∧
      s.daemon.phase = .loopTop ∧ s.daemon.inFlight = [] ∧
      s.daemon.seqno = s.daemon.changeSeqno ∧ s.queue = [] := by
  obtain ⟨tr, s, htrace, hentered, hdb, hphase, hqueue⟩ := exists_entered trace_newSwitch hcs
  obtain ⟨tr', s', htrace', hentered', hdb', hphase', hflight, hseen, hqueue'⟩ :=
    exists_passed htrace hphase (hdb ▸ hup)
  exact ⟨tr', s', htrace', hentered'.trans hentered, hdb'.trans hdb, hphase', hflight, hseen,
    hqueue'.trans hqueue⟩

theorem trace_site_pass :
    ∃ tr s, (switch (fun _ => true) "0123456789abcdef" newDb).Trace tr s ∧
      entered tr = siteCommands ∧ s.db = siteDb ∧ s.daemon.phase = .loopTop ∧
      s.daemon.inFlight = [] ∧ s.daemon.seqno = s.daemon.changeSeqno ∧ s.queue = [] :=
  trace_new_pass siteCommands_tokens (by decide +kernel)

/-- The daemon polls both peers and the sync manager writes their statuses. -/
theorem trace_site_poll :
    ∃ tr s msg, (switch (fun _ => true) "0123456789abcdef" newDb).Trace tr s ∧
      entered tr = siteCommands ∧ Polls twoOutputs msg ∧
      s.db.ntpAssociation.map (fun r => (r.address, r.associationStatus)) =
        [("10.0.0.2", secondPrinted.status), ("10.0.0.1", onePrinted.status)] ∧
      s.db.system.map SystemRow.ntpStatus = [msg.status] := by
  obtain ⟨tr, s, htrace, hentered, hdb, hphase, _, hseen, hqueue⟩ := trace_site_pass
  obtain ⟨msg, hmsg, hone, htwo⟩ := polls_twoOutputs
  obtain ⟨tr', s', htrace', hentered', hdb'⟩ := exists_polled htrace hphase hseen hqueue hmsg
  refine ⟨tr', s', msg, htrace', hentered'.trans hentered, hmsg, ?_, ?_⟩
  · have haddresses : siteDb.ntpAssociation.map NtpAssociationRow.address =
        ["10.0.0.2", "10.0.0.1"] := by decide +kernel
    obtain ⟨second, rest, hrows, hsecond, hrest⟩ := List.map_eq_cons_iff.mp haddresses
    obtain ⟨first, rfl, hfirst⟩ := List.map_eq_singleton_iff.mp hrest
    rw [hdb', hdb, Db.writeStatus, hrows]
    simp only [List.map_cons, List.map_nil, orStatus]
    rw [hsecond, hfirst, htwo, hone]
    rfl
  · have hone : siteDb.system.length = 1 := by decide +kernel
    obtain ⟨row, hrow⟩ := List.length_eq_one_iff.mp hone
    rw [hdb', hdb, Db.writeStatus, hrow]
    rfl

theorem switch_serves_site :
    ∃ tr s, (switch (fun _ => true) "0123456789abcdef" newDb).Trace tr s ∧
      Serves "0123456789abcdef" (Intent.empty.run (fun _ => true) siteCommands)
        s.daemon.ntpd := by
  obtain ⟨tr, s, htrace, hentered, _, hphase, hflight, hseen, _⟩ := trace_site_pass
  have hserves := switch_serves (by decide) htrace ⟨hflight, Or.inl hphase, hseen⟩
  rw [hentered] at hserves
  exact ⟨tr, s, htrace, hserves⟩

theorem switch_settles_one_server :
    (∃ a s', a.turn = true ∧ Quiet oneServerSwitch a ∧
      switchStep (fun _ => true) "0123456789abcdef" oneServerSwitch a s') ∧
    ∀ later s', (switch (fun _ => true) "0123456789abcdef" newDb).Path oneServerSwitch later s' →
      (∀ p ∈ later, Quiet p.1 p.2) → 3 ≤ (later.countP fun p => p.2.turn) →
      Idle s'.daemon ∧
        Serves "0123456789abcdef" (Intent.empty.run (fun _ => true) [oneServerCommand])
          s'.daemon.ntpd := by
  obtain ⟨hturn, hsettles⟩ := switch_settles (by decide) trace_oneServer
  exact ⟨hturn, hsettles (by decide)⟩

theorem switch_statuses_two_peers :
    ∃ tr s msg, (switch (fun _ => true) "0123456789abcdef" newDb).Trace tr s ∧
      Polls twoOutputs msg ∧ s.db.system.map SystemRow.ntpStatus = [msg.status] ∧
      s.db.ntpAssociation.map (fun r => (r.address, r.associationStatus)) =
        [("10.0.0.2", secondPrinted.status), ("10.0.0.1", onePrinted.status)] ∧
      ∀ r ∈ s.db.ntpAssociation, r.associationStatus = initialStatus ∨
        ∃ msg, Reported tr msg ∧
          msg.associationsInfo.lookup r.address = some r.associationStatus ∧
          CompleteStatus r.associationStatus ∧
          r.associationStatus.lookup "remote_peer_address" = some r.address := by
  obtain ⟨tr, s, msg, htrace, _, hmsg, hrows, hstatus⟩ := trace_site_poll
  obtain ⟨hservers, _⟩ := switch_statuses htrace
  exact ⟨tr, s, msg, htrace, hmsg, hstatus, hrows, hservers⟩

end OpsNtpd
