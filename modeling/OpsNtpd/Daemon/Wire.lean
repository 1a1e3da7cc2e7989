import OpsNtpd.Daemon.SyncRun
import OpsNtpd.Framework.Json

/-! # Daemon: The Texts on the Queue

  `transaction_queue` carries texts: `ops_ntpd_sync_updates_to_ovsdb` puts the
  `json.dumps` of a status message on it and `ops_ntpd_shutdown_transaction_mgr`
  the word `shutdown`. `ops_ntpd_sync_mgr_run` compares a text with that word,
  reads it with `json.loads` and takes three entries out of it.

  - Section 1: writing and reading a message.
  - Section 2: a message is read back from its text, whatever the order of its
    dictionaries, and no message is taken for `shutdown`.
  - Section 3: the sync manager over texts follows the one over messages.
-/

namespace OpsNtpd.Daemon

open Transition

/-! ## Section 1: Writing and reading a message -/

section dictionaries
variable {υ : Type} (value : υ → Json → Prop)

/-- The members of the object of a dictionary, in the order of its iteration. -/
structure Enumerates (m : Dict String υ) (members : List (String × Json)) : Prop where
  order : IterOrder (members.map Prod.fst) m.keys
  values : ∀ p ∈ members, ∃ v, m.lookup p.1 = some v ∧ value v p.2

/-- The object of a dictionary. -/
def IsDict (m : Dict String υ) (j : Json) : Prop :=
  ∃ members, Enumerates value m members ∧ j = .obj members

end dictionaries

/-- The string. -/
def IsStr (s : String) (j : Json) : Prop := j = .str s

/-- The object of a `struct smap`. -/
abbrev IsSmap : Smap → Json → Prop := IsDict IsStr

/-- `json.dumps(ntpd_updates)`, with the dictionaries iterated in some orders. -/
def Dumps (msg : StatusMsg) (text : String) : Prop :=
  ∃ associationsInfo statistics status members,
    IsDict IsSmap msg.associationsInfo associationsInfo ∧ IsSmap msg.statistics statistics ∧
      IsSmap msg.status status ∧
      members.Perm [("associations_info", associationsInfo), ("statistics", statistics),
        ("status", status)] ∧
      text = String.ofList (Json.dumps (.obj members))

/-- A string value. -/
def asStr : Json → Option String
  | .str s => some s
  | .obj _ => none

/-- A dictionary, whose values are read by `value`. -/
def asDict {υ : Type} (value : Json → Option υ) : Json → Option (Dict String υ)
  | .str _ => none
  | .obj members => (members.mapM fun p => (value p.2).map (Prod.mk p.1)).map Dict.ofPairs

/-- `msg_info[key]` -/
def member (key : String) : Json → Option Json
  | .str _ => none
  | .obj members => (Dict.ofPairs members).lookup key

/-- What `ops_ntpd_sync_mgr_run` makes of a text other than `shutdown`, unless
    it raises. The entries are the columns of strings that the rows take. -/
def readMsg (text : String) : Option StatusMsg :=
  (Json.loads text.toList).bind fun msgInfo =>
  ((member "associations_info" msgInfo).bind (asDict (asDict asStr))).bind fun associationsInfo =>
  ((member "statistics" msgInfo).bind (asDict asStr)).bind fun statistics =>
  ((member "status" msgInfo).bind (asDict asStr)).map fun status =>
    { associationsInfo, statistics, status }

/-! ## Section 2: Reading a message back -/

section readback
variable {υ : Type} {value : υ → Json → Prop} {read : Json → Option υ}

/-- A dictionary whose values are read back is read back. -/
theorem asDict_of_isDict (hread : ∀ v j, value v j → read j = some v) {m : Dict String υ}
    {j : Json} (h : IsDict value m j) : asDict read j = some m := by
  obtain ⟨members, henum, rfl⟩ := h
  -- the loop over the members, each of which stands for an entry of the dictionary
  have hloop : ∀ l : List (String × Json),
      (∀ p ∈ l, ∃ v, m.lookup p.1 = some v ∧ value v p.2) →
      ∃ pairs, l.mapM (fun p => (read p.2).map (Prod.mk p.1)) = some pairs ∧
        pairs.map Prod.fst = l.map Prod.fst ∧ ∀ q ∈ pairs, m.lookup q.1 = some q.2 := by
    intro l
    induction l with
    | nil => exact fun _ => ⟨[], rfl, rfl, by simp⟩
    | cons p l ih =>
      intro hl
      obtain ⟨v, hv, hvalue⟩ := hl p List.mem_cons_self
      obtain ⟨pairs, hpairs, hkeys, hentries⟩ := ih fun q hq => hl q (List.mem_cons_of_mem _ hq)
      refine ⟨(p.1, v) :: pairs, ?_, ?_, ?_⟩
      · rw [List.mapM_cons, hread v p.2 hvalue, hpairs]
        rfl
      · rw [List.map_cons, List.map_cons, hkeys]
      · exact List.forall_mem_cons.mpr ⟨hv, hentries⟩
  obtain ⟨pairs, hpairs, hkeys, hentries⟩ := hloop members henum.values
  show (members.mapM fun p => (read p.2).map (Prod.mk p.1)).map Dict.ofPairs = some m
  rw [hpairs, Option.map_some, Dict.ofPairs_eq (hkeys ▸ henum.order) hentries]

theorem asStr_of_isStr (s : String) (j : Json) (h : IsStr s j) : asStr j = some s := by
  rw [h]
  rfl

theorem asSmap_of_isSmap (m : Smap) (j : Json) (h : IsSmap m j) : asDict asStr j = some m :=
  asDict_of_isDict asStr_of_isStr h

/-- Every dictionary can be written. -/
theorem exists_isDict (hwrite : ∀ v, ∃ j, value v j) (m : Dict String υ) :
    ∃ j, IsDict value m j := by
  have hentry : ∀ k : String, ∃ j, k ∈ m.keys → ∃ v, m.lookup k = some v ∧ value v j := by
    intro k
    by_cases hk : k ∈ m.keys
    · obtain ⟨v, hv⟩ := Dict.mem_keys_iff.mp hk
      obtain ⟨j, hj⟩ := hwrite v
      exact ⟨j, fun _ => ⟨v, hv, hj⟩⟩
    · exact ⟨.str "", fun hmem => absurd hmem hk⟩
  choose j hj using hentry
  have hkeys : ((m.keys.toList.map fun k => (k, j k)).map Prod.fst) = m.keys.toList := by
    rw [List.map_map]
    exact List.map_id _
  refine ⟨_, m.keys.toList.map fun k => (k, j k), ⟨?_, ?_⟩, rfl⟩
  · rw [hkeys]
    exact iterOrder_toList _
  · intro p hp
    obtain ⟨k, hk, rfl⟩ := List.mem_map.mp hp
    exact hj k (Finset.mem_toList.mp hk)

end readback

theorem exists_isSmap (m : Smap) : ∃ j, IsSmap m j := by
  have hstr : ∀ s, ∃ j, IsStr s j := fun s => ⟨.str s, rfl⟩
  exact exists_isDict hstr m

/-- Every message can be written. -/
theorem exists_dumps (msg : StatusMsg) : ∃ text, Dumps msg text := by
  obtain ⟨associationsInfo, hinfo⟩ := exists_isDict exists_isSmap msg.associationsInfo
  obtain ⟨statistics, hstatistics⟩ := exists_isSmap msg.statistics
  obtain ⟨status, hstatus⟩ := exists_isSmap msg.status
  exact ⟨_, associationsInfo, statistics, status, _, hinfo, hstatistics, hstatus,
    List.Perm.refl _, rfl⟩

/-- **Round trip.** A message is read back from its text, in every order of its
    dictionaries. -/
theorem readMsg_of_dumps {msg : StatusMsg} {text : String} (h : Dumps msg text) :
    readMsg text = some msg := by
  obtain ⟨associationsInfo, statistics, status, members, hinfo, hstatistics, hstatus, hperm, rfl⟩ :=
    h
  have hnd : (([("associations_info", associationsInfo), ("statistics", statistics),
      ("status", status)] : List (String × Json)).map Prod.fst).Nodup := by
    show ["associations_info", "statistics", "status"].Nodup
    decide
  have hmember : ∀ (key : String) (j : Json), (key, j) ∈ [("associations_info", associationsInfo),
      ("statistics", statistics), ("status", status)] → member key (.obj members) = some j := by
    intro key j hmem
    show (Dict.ofPairs members).lookup key = some j
    rw [Dict.lookup_ofPairs ((hperm.map Prod.fst).nodup_iff.mpr hnd), hperm.mem_iff]
    exact hmem
  unfold readMsg
  rw [String.toList_ofList, Json.loads_dumps, Option.bind_some,
    hmember "associations_info" associationsInfo (by simp), hmember "statistics" statistics (by simp),
    hmember "status" status (by simp), Option.bind_some, Option.bind_some, Option.bind_some,
    asDict_of_isDict asSmap_of_isSmap hinfo, asSmap_of_isSmap _ _ hstatistics,
    asSmap_of_isSmap _ _ hstatus]
  rfl

/-- No message is taken for the end of the queue. -/
theorem dumps_ne_shutdown {msg : StatusMsg} {text : String} (h : Dumps msg text) :
    text ≠ "shutdown" := by
  obtain ⟨_, _, _, members, _, _, _, _, rfl⟩ := h
  intro heq
  -- the text of an object starts with a brace
  have hlist := congrArg String.toList heq
  rw [String.toList_ofList, Json.dumps] at hlist
  exact absurd (List.cons.inj hlist).1 (by decide)

/-- **Queue texts.** Every message has a text; whatever the order in which its
    dictionaries are written, the text is read back as the message and is not
    the word that ends the queue. -/
theorem queueText_readBack (msg : StatusMsg) :
    (∃ text, Dumps msg text) ∧
      ∀ text, Dumps msg text → text ≠ "shutdown" ∧ readMsg text = some msg :=
  ⟨exists_dumps msg, fun _ h => ⟨dumps_ne_shutdown h, readMsg_of_dumps h⟩⟩

/-! ## Section 3: The sync manager over texts -/

/-- The state of the sync manager, with texts on its queue. -/
structure WireState where
  queue : List String
  closed : Bool
  running : Bool
  replica : Db
  db : Db
  history : List Db

def WireState.commit (s : WireState) (db : Db) : WireState :=
  { s with db := db, history := db :: s.history }

/-- One step. `get()` returns a text, which is `shutdown` or is read. -/
def wireStep (s : WireState) (a : ManagerLabel) (s' : WireState) : Prop :=
  match a with
  | .send msg =>
      s.closed = false ∧ ∃ text, Dumps msg text ∧ s' = { s with queue := s.queue ++ [text] }
  | .shutdown =>
      s.closed = false ∧ s' = { s with queue := s.queue ++ ["shutdown"], closed := true }
  | .receive msg ks =>
      s.running = true ∧ IterOrder ks msg.associationsInfo.keys ∧
        ∃ text queue db, s.queue = text :: queue ∧ text ≠ "shutdown" ∧ readMsg text = some msg ∧
          commitInfo msg ks s.replica s.db = .ok db ∧ s' = { s.commit db with queue := queue }
  | .stop =>
      s.running = true ∧
        ∃ queue, s.queue = "shutdown" :: queue ∧ s' = { s with queue := queue, running := false }
  | .insert w =>
      (w.apply (.blank s.db.nextUuid)).address ∉
          s.db.ntpAssociation.map NtpAssociationRow.address ∧
        s' = s.commit (s.db.apply (.insertAssociation w))
  | .delete row => s' = s.commit (s.db.apply (.deleteAssociation row))
  | .refresh replica =>
      (∃ db ∈ s.history, db.Reorders replica) ∧ s' = { s with replica := replica }

/-- The sync manager starts on a replica of `db₀`. -/
def wireMgr (db₀ : Db) : System WireState ManagerLabel :=
  { init := fun s =>
      s.queue = [] ∧ s.closed = false ∧ s.running = true ∧ s.db = db₀ ∧ s.history = [db₀] ∧
        db₀.Reorders s.replica
    step := wireStep }

/-- The text stands for the item. -/
def Carries (text : String) : QueueItem → Prop
  | .status msg => Dumps msg text
  | .shutdown => text = "shutdown"

/-- The same state, with the items that the texts stand for. -/
structure Decodes (s : WireState) (m : ManagerState) : Prop where
  queue : List.Forall₂ Carries s.queue m.queue
  closed : m.closed = s.closed
  running : m.running = s.running
  replica : m.replica = s.replica
  db : m.db = s.db
  history : m.history = s.history

/-- A text that stands for an item can be taken for no other one. -/
theorem Carries.status {text : String} {item : QueueItem} (h : Carries text item)
    (hne : text ≠ "shutdown") {msg : StatusMsg} (hread : readMsg text = some msg) :
    item = .status msg := by
  cases item with
  | status sent =>
    have hdumps : Dumps sent text := h
    rw [readMsg_of_dumps hdumps] at hread
    rw [Option.some.inj hread]
  | shutdown => exact absurd h hne

theorem Carries.shutdown {item : QueueItem} (h : Carries "shutdown" item) : item = .shutdown := by
  cases item with
  | status msg => exact absurd rfl (dumps_ne_shutdown (show Dumps msg _ from h))
  | shutdown => rfl

section refinement
variable {db₀ : Db}

/-- **Step.** Every step over texts is one over the items that they stand for. -/
theorem decodes_step {s s' : WireState} {m : ManagerState} {a : ManagerLabel} (h : Decodes s m)
    (hstep : wireStep s a s') : ∃ m', managerStep m a m' ∧ Decodes s' m' := by
  obtain ⟨items, closed, running, replica, db, history⟩ := m
  obtain ⟨hqueue, rfl, rfl, rfl, rfl, rfl⟩ := h
  cases a with
  | send msg =>
    obtain ⟨hopen, text, hdumps, rfl⟩ := hstep
    refine ⟨_, ⟨hopen, rfl⟩, ⟨?_, rfl, rfl, rfl, rfl, rfl⟩⟩
    exact List.rel_append hqueue (List.Forall₂.cons hdumps List.Forall₂.nil)
  | shutdown =>
    obtain ⟨hopen, rfl⟩ := hstep
    refine ⟨_, ⟨hopen, rfl⟩, ⟨?_, rfl, rfl, rfl, rfl, rfl⟩⟩
    exact List.rel_append hqueue (List.Forall₂.cons rfl List.Forall₂.nil)
  | receive msg ks =>
    obtain ⟨hrunning, hks, text, queue, db, hhead, hne, hread, hcommit, rfl⟩ := hstep
    rw [hhead] at hqueue
    cases hqueue with
    | cons hitem hrest =>
      -- the text can only be that of the message
      obtain rfl := hitem.status hne hread
      exact ⟨_, ⟨hrunning, hks, _, db, rfl, hcommit, rfl⟩, ⟨hrest, rfl, rfl, rfl, rfl, rfl⟩⟩
  | stop =>
    obtain ⟨hrunning, queue, hhead, rfl⟩ := hstep
    rw [hhead] at hqueue
    cases hqueue with
    | cons hitem hrest =>
      obtain rfl := hitem.shutdown
      exact ⟨_, ⟨hrunning, _, rfl, rfl⟩, ⟨hrest, rfl, rfl, rfl, rfl, rfl⟩⟩
  | insert w =>
    obtain ⟨hnew, rfl⟩ := hstep
    exact ⟨_, ⟨hnew, rfl⟩, ⟨hqueue, rfl, rfl, rfl, rfl, rfl⟩⟩
  | delete row =>
    obtain rfl := hstep
    exact ⟨_, rfl, ⟨hqueue, rfl, rfl, rfl, rfl, rfl⟩⟩
  | refresh replica =>
    obtain ⟨hreplica, rfl⟩ := hstep
    exact ⟨_, ⟨hreplica, rfl⟩, ⟨hqueue, rfl, rfl, rfl, rfl, rfl⟩⟩

/-- **Run.** Every run over texts is one over messages. -/
theorem decodes_run {tr : List (WireState × ManagerLabel)} {s : WireState}
    (h : (wireMgr db₀).Trace tr s) :
    ∃ tr' m, (syncMgr db₀).Trace tr' m ∧ Decodes s m ∧
      List.Forall₂ (fun p p' => Decodes p.1 p'.1 ∧ p.2 = p'.2) tr tr' := by
  refine h.simulate ?_ ?_
  · intro s hs
    obtain ⟨hqueue, hclosed, hrunning, hdb, hhistory, hreplica⟩ := hs
    refine ⟨⟨[], s.closed, s.running, s.replica, s.db, s.history⟩,
      ⟨rfl, hclosed, hrunning, hdb, hhistory, hreplica⟩, ⟨?_, rfl, rfl, rfl, rfl, rfl⟩⟩
    rw [hqueue]
    exact List.Forall₂.nil
  · intro s m a s' hdecodes hstep
    exact decodes_step hdecodes hstep

/-- **Step.** Every step over messages can be taken over texts: a message that
    is sent has a text, and the text at the head is read as its message. -/
theorem encodes_step {s : WireState} {m m' : ManagerState} {a : ManagerLabel} (h : Decodes s m)
    (hstep : managerStep m a m') : ∃ s', wireStep s a s' ∧ Decodes s' m' := by
  obtain ⟨texts, closed, running, replica, db, history⟩ := s
  obtain ⟨hqueue, hclosed, hrunning, hreplica, hdb, hhistory⟩ := h
  obtain ⟨items, closed', running', replica', db', history'⟩ := m
  dsimp only at hqueue hclosed hrunning hreplica hdb hhistory
  subst hclosed hrunning hreplica hdb hhistory
  cases a with
  | send msg =>
    obtain ⟨hopen, rfl⟩ := hstep
    obtain ⟨text, hdumps⟩ := exists_dumps msg
    refine ⟨_, ⟨hopen, text, hdumps, rfl⟩, ⟨?_, rfl, rfl, rfl, rfl, rfl⟩⟩
    exact List.rel_append hqueue (List.Forall₂.cons hdumps List.Forall₂.nil)
  | shutdown =>
    obtain ⟨hopen, rfl⟩ := hstep
    refine ⟨_, ⟨hopen, rfl⟩, ⟨?_, rfl, rfl, rfl, rfl, rfl⟩⟩
    exact List.rel_append hqueue (List.Forall₂.cons rfl List.Forall₂.nil)
  | receive msg ks =>
    obtain ⟨hrun, hks, queue, db, hhead, hcommit, rfl⟩ := hstep
    dsimp only at hhead
    subst hhead
    cases hqueue with
    | cons hitem hrest =>
      have hdumps : Dumps msg _ := hitem
      exact ⟨_, ⟨hrun, hks, _, _, db, rfl, dumps_ne_shutdown hdumps, readMsg_of_dumps hdumps,
        hcommit, rfl⟩, ⟨hrest, rfl, rfl, rfl, rfl, rfl⟩⟩
  | stop =>
    obtain ⟨hrun, queue, hhead, rfl⟩ := hstep
    dsimp only at hhead
    subst hhead
    cases hqueue with
    | cons hitem hrest =>
      have htext : _ = "shutdown" := hitem
      subst htext
      exact ⟨_, ⟨hrun, _, rfl, rfl⟩, ⟨hrest, rfl, rfl, rfl, rfl, rfl⟩⟩
  | insert w =>
    obtain ⟨hnew, rfl⟩ := hstep
    exact ⟨_, ⟨hnew, rfl⟩, ⟨hqueue, rfl, rfl, rfl, rfl, rfl⟩⟩
  | delete row =>
    obtain rfl := hstep
    exact ⟨_, rfl, ⟨hqueue, rfl, rfl, rfl, rfl, rfl⟩⟩
  | refresh replica =>
    obtain ⟨hreplica, rfl⟩ := hstep
    exact ⟨_, ⟨hreplica, rfl⟩, ⟨hqueue, rfl, rfl, rfl, rfl, rfl⟩⟩

/-- **Run.** Every run over messages is one over texts. -/
theorem encodes_run {tr : ManagerTrace} {m : ManagerState} (h : (syncMgr db₀).Trace tr m) :
    ∃ tr' s, (wireMgr db₀).Trace tr' s ∧ Decodes s m ∧
      List.Forall₂ (fun p p' => Decodes p'.1 p.1 ∧ p.2 = p'.2) tr tr' := by
  have hinit : ∀ m, (syncMgr db₀).init m → ∃ s, (wireMgr db₀).init s ∧ Decodes s m := by
    intro m hm
    obtain ⟨hqueue, hclosed, hrunning, hdb, hhistory, hreplica⟩ := hm
    refine ⟨⟨[], m.closed, m.running, m.replica, m.db, m.history⟩,
      ⟨rfl, hclosed, hrunning, hdb, hhistory, hreplica⟩, ⟨?_, rfl, rfl, rfl, rfl, rfl⟩⟩
    rw [hqueue]
    exact List.Forall₂.nil
  have hnext : ∀ m s a m', Decodes s m → (syncMgr db₀).step m a m' →
      ∃ s', (wireMgr db₀).step s a s' ∧ Decodes s' m' := by
    intro m s a m' hdecodes hstep
    exact encodes_step hdecodes hstep
  exact h.simulate hinit hnext

/-- A text on the queue never makes the sync manager raise: it is `shutdown`, or
    it is read as a message that was sent and can be committed. -/
theorem receive_text (h₀ : Listable db₀) {s : WireState} (h : (wireMgr db₀).Reachable s)
    (hrunning : s.running = true) {text : String} {queue : List String}
    (hhead : s.queue = text :: queue) :
    (∃ s', wireStep s .stop s') ∨
      ∃ msg, Dumps msg text ∧ ∀ ks, IterOrder ks msg.associationsInfo.keys →
        ∃ s', wireStep s (.receive msg ks) s' := by
  obtain ⟨tr, htr⟩ := h
  -- the run over messages tells what the text is, and that its commit succeeds
  obtain ⟨tr', m, htr', hdecodes, _⟩ := decodes_run htr
  have hqueue := hdecodes.queue
  rw [hhead] at hqueue
  cases hitems : m.queue with
  | nil =>
    rw [hitems] at hqueue
    cases hqueue
  | cons item items =>
    rw [hitems] at hqueue
    cases hqueue with
    | cons hitem hrest =>
      cases item with
      | shutdown =>
        have hword : text = "shutdown" := hitem
        subst hword
        exact Or.inl ⟨_, hrunning, queue, hhead, rfl⟩
      | status msg =>
        have hdumps : Dumps msg text := hitem
        refine Or.inr ⟨msg, hdumps, ?_⟩
        intro ks hks
        obtain ⟨_, _, _, queue', db, _, hcommit, _⟩ := receive_enabled h₀ ⟨tr', htr'⟩
          (hdecodes.running.trans hrunning) hitems hks
        rw [hdecodes.replica, hdecodes.db] at hcommit
        exact ⟨_, hrunning, hks, text, queue, db, hhead, dumps_ne_shutdown hdumps,
          readMsg_of_dumps hdumps, hcommit, rfl⟩

/-- **Wire refinement.** A run of the sync manager over texts is one over the
    messages that were sent, and once it has returned the database is the one
    of the messages: the servers that the other clients have made, each with
    its last entry, and the columns of the last message. -/
theorem wireRun_tables (h₀ : Listable db₀) {tr : List (WireState × ManagerLabel)} {s : WireState}
    (h : (wireMgr db₀).Trace tr s) (hdone : s.running = false) :
    ∃ tr' m, (syncMgr db₀).Trace tr' m ∧
      List.Forall₂ (fun p p' => Decodes p.1 p'.1 ∧ p.2 = p'.2) tr tr' ∧
      applied tr' = sent tr' ∧
      s.db = { byOthers db₀ tr' with
        ntpAssociation := (byOthers db₀ tr').ntpAssociation.map fun row =>
          { row with associationStatus := (lastEntry tr' row).getD row.associationStatus }
        system := db₀.system.map fun row =>
          { row with
            ntpStatus := ((sent tr').getLast?.map StatusMsg.status).getD row.ntpStatus
            ntpStatistics :=
              ((sent tr').getLast?.map StatusMsg.statistics).getD row.ntpStatistics } } := by
  obtain ⟨tr', m, htr', hdecodes, hall⟩ := decodes_run h
  obtain ⟨hinv, _⟩ := managerInv_run h₀ htr'
  obtain ⟨pending, hsent, _, hstopped⟩ := hinv.queue
  obtain ⟨_, hnil⟩ := hstopped (hdecodes.running.trans hdone)
  have happlied : applied tr' = sent tr' := by rw [hsent, hnil, List.append_nil]
  refine ⟨tr', m, htr', hall, happlied, ?_⟩
  rw [← happlied, ← hdecodes.db]
  exact hinv.tables

/-- What the queue of a state holds once `shutdown` has been put on it. -/
theorem queue_of_closed (h₀ : Listable db₀) {s : WireState} (h : (wireMgr db₀).Reachable s)
    (hclosed : s.closed = true) : s.running = false ↔ s.queue = [] := by
  obtain ⟨tr, htr⟩ := h
  obtain ⟨tr', m, htr', hdecodes, _⟩ := decodes_run htr
  obtain ⟨hinv, _⟩ := managerInv_run h₀ htr'
  obtain ⟨pending, _, hitems, hstopped⟩ := hinv.queue
  have hempty : s.queue = [] ↔ m.queue = [] := by
    rw [← List.length_eq_zero_iff, ← List.length_eq_zero_iff, hdecodes.queue.length_eq]
  rw [hempty, ← hdecodes.running]
  constructor
  · intro hdone
    rw [hitems, (hstopped hdone).2, hdone]
    simp
  · intro hnil
    -- as long as it runs, `shutdown` is still to come
    rw [← Bool.not_eq_true]
    intro hrunning
    rw [hitems, if_pos ⟨hdecodes.closed.trans hclosed, hrunning⟩] at hnil
    exact absurd (List.append_eq_nil_iff.mp hnil).2 (List.cons_ne_nil _ _)

/-- A step of `ops_ntpd_sync_mgr_run` itself. -/
def ManagerLabel.Own : ManagerLabel → Prop
  | .receive _ _ => True
  | .stop => True
  | _ => False

/-- Once `shutdown` has been put on the queue the sync manager can always take
    its next text, and after as many texts as wait it has returned. -/
theorem wire_drains (h₀ : Listable db₀) {tr : List (WireState × ManagerLabel)} {s : WireState}
    (h : (wireMgr db₀).Trace tr s) (hclosed : s.closed = true) :
    ∃ tr' s', (wireMgr db₀).Trace (tr' ++ tr) s' ∧ (∀ p ∈ tr', p.2.Own) ∧
      tr'.length = s.queue.length ∧ s'.running = false := by
  cases hqueue : s.queue with
  | nil =>
    exact ⟨[], s, h, fun p hp => absurd hp List.not_mem_nil, rfl,
      (queue_of_closed h₀ ⟨tr, h⟩ hclosed).mpr hqueue⟩
  | cons text queue =>
    have hrunning : s.running = true := by
      rw [← Bool.not_eq_false]
      intro hdone
      have hnil := (queue_of_closed h₀ ⟨tr, h⟩ hclosed).mp hdone
      rw [hqueue] at hnil
      cases hnil
    rcases receive_text h₀ ⟨tr, h⟩ hrunning hqueue with ⟨s', hstop⟩ | ⟨msg, _, hreceive⟩
    · have hnext : (wireMgr db₀).Trace ((s, .stop) :: tr) s' := .step _ h hstop
      obtain ⟨_, queue', hhead, rfl⟩ := hstop
      rw [hqueue] at hhead
      obtain ⟨_, rfl⟩ := List.cons.inj hhead
      have hnil : queue = [] := (queue_of_closed h₀ ⟨_, hnext⟩ hclosed).mp rfl
      refine ⟨[(s, .stop)], _, hnext, ?_, by rw [hnil]; rfl, rfl⟩
      intro p hp
      rw [List.mem_singleton.mp hp]
      trivial
    · obtain ⟨s', hstep⟩ := hreceive _ (iterOrder_toList _)
      have hnext : (wireMgr db₀).Trace
          ((s, .receive msg msg.associationsInfo.keys.toList) :: tr) s' := .step _ h hstep
      obtain ⟨_, _, text', queue', db, hhead, _, _, _, rfl⟩ := hstep
      rw [hqueue] at hhead
      obtain ⟨_, rfl⟩ := List.cons.inj hhead
      -- the rest of the queue is shorter
      obtain ⟨tr', s'', htr', hown, hlen, hdone⟩ := wire_drains h₀ hnext hclosed
      refine ⟨tr' ++ [(s, .receive msg msg.associationsInfo.keys.toList)], s'', ?_, ?_, ?_, hdone⟩
      · rw [List.append_assoc]
        exact htr'
      · intro p hp
        rcases List.mem_append.mp hp with hmem | hmem
        · exact hown p hmem
        · rw [List.mem_singleton.mp hmem]
          trivial
      · rw [List.length_append, hlen]
        rfl
termination_by s.queue.length
decreasing_by
  rw [hqueue]
  exact Nat.lt_succ_self _

end refinement

/-! ### One message -/

/-- A message with a status for the server 10.0.0.1. -/
def oneMsg : StatusMsg :=
  { associationsInfo := Dict.ofPairs [("10.0.0.1", Dict.ofPairs [("stratum", "1")])]
    statistics := ∅, status := ∅ }

/-- The text of `oneMsg`. -/
def oneText : String :=
  "\x7b\"status\": \x7b\x7d, \"associations_info\": " ++
    "\x7b\"10.0.0.1\": \x7b\"stratum\": \"1\"\x7d\x7d, \"statistics\": \x7b\x7d\x7d"

theorem isSmap_empty : IsSmap ∅ (.obj []) :=
  ⟨[], ⟨by decide, fun p hp => absurd hp List.not_mem_nil⟩, rfl⟩

theorem dumps_oneText : Dumps oneMsg oneText := by
  let entry : Json := .obj [("stratum", .str "1")]
  have hentry : IsSmap (Dict.ofPairs [("stratum", "1")]) entry := by
    refine ⟨_, ⟨by decide, ?_⟩, rfl⟩
    intro p hp
    rw [List.mem_singleton.mp hp]
    exact ⟨"1", by decide, rfl⟩
  have hinfo : IsDict IsSmap oneMsg.associationsInfo (.obj [("10.0.0.1", entry)]) := by
    refine ⟨_, ⟨by decide, ?_⟩, rfl⟩
    intro p hp
    rw [List.mem_singleton.mp hp]
    exact ⟨_, by decide, hentry⟩
  refine ⟨_, _, _, [("status", .obj []), ("associations_info", .obj [("10.0.0.1", entry)]),
    ("statistics", .obj [])], hinfo, isSmap_empty, isSmap_empty, ?_, by decide⟩
  exact (List.Perm.swap _ _ _).trans (List.Perm.cons _ (List.Perm.swap _ _ _))

theorem queueText_readBack_oneText : readMsg oneText = some oneMsg :=
  ((queueText_readBack oneMsg).2 oneText dumps_oneText).2

/-- The sync manager over a database, with this queue of texts. -/
def wireWith (queue : List String) (closed running : Bool) (db : Db) (history : List Db) :
    WireState :=
  { queue := queue, closed := closed, running := running, replica := oneServerDb "10.0.0.1"
    db := db, history := history }

/-- The message and `shutdown` are put on the queue. -/
def oneSending : List (WireState × ManagerLabel) :=
  let db := oneServerDb "10.0.0.1"
  [(wireWith [oneText] false true db [db], .shutdown), (wireWith [] false true db [db], .send oneMsg)]

theorem trace_oneSending :
    (wireMgr (oneServerDb "10.0.0.1")).Trace oneSending
      (wireWith [oneText, "shutdown"] true true (oneServerDb "10.0.0.1")
        [oneServerDb "10.0.0.1"]) := by
  refine .step _ (.step _ (.init ?_) ?_) ?_
  · exact ⟨rfl, rfl, rfl, rfl, rfl, Db.Reorders.refl _⟩
  · exact ⟨rfl, oneText, dumps_oneText, rfl⟩
  · exact ⟨rfl, rfl⟩

theorem wire_drains_one_message :
    ∃ tr' s', (wireMgr (oneServerDb "10.0.0.1")).Trace (tr' ++ oneSending) s' ∧
      (∀ p ∈ tr', p.2.Own) ∧ tr'.length = 2 ∧ s'.running = false :=
  wire_drains listable_oneServerDb trace_oneSending rfl

/-! ### Two messages -/

/-- Two texts, while a server is inserted and another one deleted. -/
theorem wireRun_tables_two_messages :
    ∃ (tr : List (WireState × ManagerLabel)) (s : WireState) (tr' : ManagerTrace),
      (wireMgr (oneServerDb "10.0.0.1")).Trace tr s ∧ s.db = secondServerDb ∧
      List.Forall₂ (fun p p' => Decodes p.1 p'.1 ∧ p.2 = p'.2) tr tr' ∧
      applied tr' = sent tr' ∧
      (byOthers (oneServerDb "10.0.0.1") tr').ntpAssociation.map
          (fun row => (row.uuid, (lastEntry tr' row).getD row.associationStatus)) =
        [(3, Dict.ofPairs [("stratum", "3")])] := by
  obtain ⟨_, m, htr, hdone, hdb, _⟩ := trace_twoMessages
  obtain ⟨tr, s, hwire, hdecodes, _⟩ := encodes_run htr
  have hs : s.db = secondServerDb := hdecodes.db.symm.trans hdb
  obtain ⟨tr', _, _, hall, happlied, htables⟩ :=
    wireRun_tables listable_oneServerDb hwire (hdecodes.running.symm.trans hdone)
  refine ⟨tr, s, tr', hwire, hs, hall, happlied, ?_⟩
  have hrows := congrArg Db.ntpAssociation htables
  rw [hs] at hrows
  have hcolumns := congrArg
    (List.map fun row : NtpAssociationRow => (row.uuid, row.associationStatus)) hrows
  rw [List.map_map] at hcolumns
  exact hcolumns.symm

end OpsNtpd.Daemon
