import OpsNtpd.Framework.Transition
import OpsNtpd.Cli.Invariant

/-! # CLI: Concurrent Sessions and the Server Limit

  Several `vtysh` sessions run `ntp server` and `no ntp server`. A command
  decides on the replica of its session and its transaction commits later;
  other transactions may commit in between.

  - `Session`: the replica and the transaction that waits to be committed.
  - `growth` counts the rows that commits have added, less those they have
    removed, since a replica was taken. It is bookkeeping of the model; no
    code reads it.
  - A refresh takes the current committed state. A replica that lags behind is
    one that was refreshed earlier.
-/

namespace OpsNtpd.Cli

open Text Transition

/-! ## Section 1: The growth of the table -/

/-- The rows an operation adds to the server table, less those it removes. -/
def assocGrowth (db : Db) : DbOp → Int
  | .insertAssociation _ => 1
  | .deleteAssociation row =>
      -((db.ntpAssociation.filter fun r => r.uuid = row).length : Int)
  | .insertKey _ => 0
  | .updateKey _ _ => 0
  | .deleteKey _ => 0
  | .updateAssociation _ _ => 0
  | .updateSystem _ _ => 0

/-- The same for the operations of a transaction. -/
def txnGrowth (db : Db) : List DbOp → Int
  | [] => 0
  | op :: ops => assocGrowth db op + txnGrowth (db.apply op) ops

theorem length_apply (db : Db) (op : DbOp) :
    ((db.apply op).ntpAssociation.length : Int) =
      db.ntpAssociation.length + assocGrowth db op := by
  cases op with
  | insertAssociation w =>
    show ((_ :: db.ntpAssociation).length : Int) = _
    rw [List.length_cons, assocGrowth]
    omega
  | deleteAssociation row =>
    have hsplit := List.length_eq_length_filter_add (l := db.ntpAssociation)
      (fun r => decide (r.uuid ≠ row))
    have hsame : (db.ntpAssociation.filter fun r => !decide (r.uuid ≠ row)) =
        db.ntpAssociation.filter fun r => decide (r.uuid = row) := by
      congr 1
      funext r
      by_cases hr : r.uuid = row
      · simp [hr]
      · simp [hr]
    rw [hsame] at hsplit
    show ((db.ntpAssociation.filter fun r => decide (r.uuid ≠ row)).length : Int) = _
    rw [assocGrowth]
    omega
  | insertKey w => exact (add_zero _).symm
  | updateKey row w => exact (add_zero _).symm
  | deleteKey row =>
    show ((db.ntpAssociation.map (NtpAssociationRow.dropKey row)).length : Int) = _
    rw [List.length_map, assocGrowth, add_zero]
  | updateAssociation row w =>
    show ((Rows.updateWhere NtpAssociationRow.uuid row w.apply db.ntpAssociation).length : Int) = _
    rw [Rows.length_updateWhere, assocGrowth, add_zero]
  | updateSystem row config => exact (add_zero _).symm

theorem length_commit (db : Db) (ops : List DbOp) :
    ((db.commit ops).ntpAssociation.length : Int) =
      db.ntpAssociation.length + txnGrowth db ops := by
  induction ops generalizing db with
  | nil => exact (add_zero _).symm
  | cons op ops ih =>
    show (((db.apply op).commit ops).ntpAssociation.length : Int) = _
    rw [ih (db.apply op), length_apply, txnGrowth]
    omega

/-! ## Section 2: Sessions -/

/-- A transaction that has been decided: its operations, the number of rows
    that its check counted, and the growth of the table since the replica it
    counted them on was taken. -/
structure Pending where
  ops : List DbOp
  counted : Nat
  growth : Int
  deriving DecidableEq

structure Session where
  replica : Db
  growth : Int
  pending : Option Pending

/-- The committed database and the sessions, indexed by `σ`. -/
structure Shared (σ : Type) where
  db : Db
  session : σ → Session

inductive Label (σ : Type) where
  | refresh (i : σ)
  | decide (i : σ) (c : Command)
  | commit (i : σ)

/-- `ntp server` and `no ntp server`. -/
def Command.onServers : Command → Bool
  | .ntpServer _ _ _ _ => true
  | .noNtpServer _ => true
  | _ => false

/-- Record that the table has grown by `n`. -/
def Session.grow (n : Int) (s : Session) : Session :=
  { s with
    growth := s.growth + n
    pending := s.pending.map fun p => { p with growth := p.growth + n } }

variable (isValidIpv4 : Nat → Bool) {σ : Type} [DecidableEq σ]

/-- What a session has to commit after a command has looked at its replica. -/
def Session.decide (s : Session) (c : Command) : Option Pending :=
  match c.verdict isValidIpv4 .committed s.replica with
  | .done _ _ => none
  | .endDbTxn ops _ =>
      some { ops := ops, counted := s.replica.ntpAssociation.length, growth := s.growth }

/-- One step of the sessions. -/
def Shared.next (s : Shared σ) : Label σ → Option (Shared σ)
  | .refresh i =>
      some { s with
        session := Function.update s.session i
          { s.session i with replica := s.db, growth := 0 } }
  | .decide i c =>
      if c.onServers ∧ (s.session i).pending = none then
        some { s with
          session := Function.update s.session i
            { s.session i with pending := (s.session i).decide isValidIpv4 c } }
      else none
  | .commit i =>
      match (s.session i).pending with
      | none => none
      | some p =>
        let sessions := Function.update s.session i { s.session i with pending := none }
        some
          { db := s.db.commit p.ops
            session := fun j => (sessions j).grow (txnGrowth s.db p.ops) }

/-- No server is configured; the sessions have just started. -/
def Shared.start (db : Db) : Shared σ :=
  { db := db, session := fun _ => { replica := db, growth := 0, pending := none } }

/-- The sessions as a transition system. -/
def sessions (σ : Type) [DecidableEq σ] : System (Shared σ) (Label σ) :=
  System.ofNext (fun s => ∃ db, db.ntpAssociation = [] ∧ s = Shared.start db)
    (Shared.next isValidIpv4)

/-! ## Section 3: Counting -/

/-- The transaction inserts a server. -/
def Pending.inserts (p : Pending) : Bool :=
  p.ops.any fun op => match op with
    | .insertAssociation _ => true
    | _ => false

/-- What the handler can have to commit: nothing, one insertion after a check
    that found room, one update, or one deletion. -/
theorem vtyshOvsdbNtpServerSet_ops {db : Db} {params : NtpServerParams} {ops : List DbOp}
    {out : String}
    (h : vtyshOvsdbNtpServerSet isValidIpv4 .committed db params = .endDbTxn ops out) :
    ops = [] ∨
      (∃ w, ops = [.insertAssociation w] ∧ db.ntpAssociation.length < ntpAssocMaxServers) ∨
      (∃ u w, ops = [.updateAssociation u w]) ∨
      (∃ u, ops = [.deleteAssociation u]) := by
  unfold vtyshOvsdbNtpServerSet at h
  cases hsan : ntpServerSanitizeParameters isValidIpv4 db params with
  | error e => rw [hsan] at h; cases h
  | ok keyRow =>
    rw [hsan] at h
    simp only [startDbTxn_committed] at h
    cases hrow : ntpOvsrecGetAssoc db params.vrfName params.serverName with
    | some row =>
      -- the server is there: the row is deleted or updated
      rw [hrow] at h
      cases hno : params.noForm with
      | true =>
        simp only [hno, if_true, Verdict.endDbTxn.injEq] at h
        exact Or.inr (Or.inr (Or.inr ⟨_, h.1.symm⟩))
      | false =>
        simp only [hno, Bool.false_eq_true, if_false, Verdict.endDbTxn.injEq] at h
        exact Or.inr (Or.inr (Or.inl ⟨_, _, h.1.symm⟩))
    | none =>
      rw [hrow] at h
      cases hno : params.noForm with
      | true =>
        simp only [hno, if_true, Verdict.endDbTxn.injEq] at h
        exact Or.inl h.1.symm
      | false =>
        -- a new server: the check counts the rows before the insertion
        simp only [hno, Bool.false_eq_true, if_false, ntpServerCheckMaxNumberOfServers,
          not_false_eq_true, true_and] at h
        by_cases hfull : db.ntpAssociation.length ≥ ntpAssocMaxServers
        · simp only [hfull, if_true, Verdict.endDbTxn.injEq] at h
          exact Or.inl h.1.symm
        · have hinserted : Txn.committed.inserted = true := rfl
          simp only [hfull, if_false, hinserted, not_true_eq_false, Verdict.endDbTxn.injEq] at h
          exact Or.inr (Or.inl ⟨_, h.1.symm, Nat.lt_of_not_le hfull⟩)

/-- A decided transaction, with the count of its check. -/
theorem decide_cases {s : Session} {c : Command} (hc : c.onServers = true) {p : Pending}
    (h : s.decide isValidIpv4 c = some p) :
    p.counted = s.replica.ntpAssociation.length ∧ p.growth = s.growth ∧
      (p.ops = [] ∨
        (∃ w, p.ops = [.insertAssociation w] ∧ p.counted < ntpAssocMaxServers) ∨
        (∃ u w, p.ops = [.updateAssociation u w]) ∨
        (∃ u, p.ops = [.deleteAssociation u])) := by
  unfold Session.decide at h
  cases hv : c.verdict isValidIpv4 .committed s.replica with
  | done code out => rw [hv] at h; cases h
  | endDbTxn ops out =>
    rw [hv] at h
    cases h
    refine ⟨rfl, rfl, ?_⟩
    cases c with
    | ntpServer name prefer version keyId => exact vtyshOvsdbNtpServerSet_ops isValidIpv4 hv
    | noNtpServer name => exact vtyshOvsdbNtpServerSet_ops isValidIpv4 hv
    | ntpAuthenticationEnable => cases hc
    | noNtpAuthenticationEnable => cases hc
    | ntpAuthenticationKey key md5 => cases hc
    | noNtpAuthenticationKey key => cases hc
    | ntpTrustedKey key => cases hc
    | noNtpTrustedKey key => cases hc

/-- The counts of a waiting transaction add up to the committed table, an
    insertion follows a check that found room, and nothing else adds a row. -/
structure Pending.Accurate (db : Db) (p : Pending) : Prop where
  counted : (db.ntpAssociation.length : Int) = p.counted + p.growth
  inserting : p.inserts = true → p.counted < ntpAssocMaxServers ∧ ∀ db, txnGrowth db p.ops = 1
  others : p.inserts = false → ∀ db, txnGrowth db p.ops ≤ 0

/-- Every session's replica has the rows of the committed table, less what
    commits have added since. -/
structure Shared.Accurate (s : Shared σ) : Prop where
  replica : ∀ i, (s.db.ntpAssociation.length : Int) =
    (s.session i).replica.ntpAssociation.length + (s.session i).growth
  pending : ∀ i, ∀ p ∈ (s.session i).pending, p.Accurate s.db

theorem Pending.accurate_of_decide {db : Db} {s : Session} {c : Command}
    (hc : c.onServers = true) {p : Pending} (h : s.decide isValidIpv4 c = some p)
    (hrep : (db.ntpAssociation.length : Int) = s.replica.ntpAssociation.length + s.growth) :
    p.Accurate db := by
  obtain ⟨hcount, hgrowth, hops⟩ := decide_cases isValidIpv4 hc h
  refine { counted := by rw [hcount, hgrowth]; exact hrep, inserting := ?_, others := ?_ }
  · intro hins
    rcases hops with hnil | ⟨w, hw, hroom⟩ | ⟨u, w, hw⟩ | ⟨u, hu⟩
    · rw [Pending.inserts, hnil] at hins; cases hins
    · exact ⟨hroom, fun db' => by rw [hw]; rfl⟩
    · rw [Pending.inserts, hw] at hins; cases hins
    · rw [Pending.inserts, hu] at hins; cases hins
  · intro hins db'
    rcases hops with hnil | ⟨w, hw, _⟩ | ⟨u, w, hw⟩ | ⟨u, hu⟩
    · rw [hnil, txnGrowth]
    · rw [Pending.inserts, hw] at hins; cases hins
    · rw [hw]
      simp [txnGrowth, assocGrowth]
    · rw [hu]
      simp [txnGrowth, assocGrowth]

/-- Growing by what a commit adds keeps the counts right. -/
theorem Pending.Accurate.grow {db : Db} {p : Pending} (h : p.Accurate db) (ops : List DbOp) :
    { p with growth := p.growth + txnGrowth db ops }.Accurate (db.commit ops) := by
  refine { counted := ?_, inserting := h.inserting, others := h.others }
  have hcount := h.counted
  rw [length_commit, hcount]
  show (p.counted : Int) + p.growth + txnGrowth db ops =
    p.counted + (p.growth + txnGrowth db ops)
  omega

/-- **Step.** Every step keeps the counts right. -/
theorem accurate_next {s s' : Shared σ} {a : Label σ} (h : s.Accurate)
    (hstep : s.next isValidIpv4 a = some s') : s'.Accurate := by
  cases a with
  | refresh i =>
    -- the replica is the committed table, and nothing has been added to it since
    cases hstep
    refine { replica := ?_, pending := ?_ }
    · intro j
      by_cases hj : j = i
      · subst hj
        simp
      · simp only [Function.update_of_ne hj]
        exact h.replica j
    · intro j p hp
      by_cases hj : j = i
      · subst hj
        simp only [Function.update_self] at hp
        exact h.pending j p hp
      · simp only [Function.update_of_ne hj] at hp
        exact h.pending j p hp
  | decide i c =>
    rw [Shared.next] at hstep
    split at hstep
    · next hen =>
      -- the decision counts the rows of the replica that it was taken on
      cases hstep
      refine { replica := ?_, pending := ?_ }
      · intro j
        by_cases hj : j = i
        · subst hj
          simp only [Function.update_self]
          exact h.replica j
        · simp only [Function.update_of_ne hj]
          exact h.replica j
      · intro j p hp
        by_cases hj : j = i
        · subst hj
          simp only [Function.update_self] at hp
          exact Pending.accurate_of_decide isValidIpv4 hen.1 hp (h.replica j)
        · simp only [Function.update_of_ne hj] at hp
          exact h.pending j p hp
    · cases hstep
  | commit i =>
    rw [Shared.next] at hstep
    cases hpend : (s.session i).pending with
    | none => rw [hpend] at hstep; cases hstep
    | some p₀ =>
      rw [hpend] at hstep
      -- the growth of the table is recorded in every session
      cases hstep
      refine { replica := ?_, pending := ?_ }
      · intro j
        have hsame : (Function.update s.session i { s.session i with pending := none } j).replica =
            (s.session j).replica ∧
            (Function.update s.session i { s.session i with pending := none } j).growth =
              (s.session j).growth := by
          by_cases hj : j = i
          · subst hj; simp
          · simp only [Function.update_of_ne hj, and_self]
        simp only [Session.grow, hsame]
        rw [length_commit]
        have hrep := h.replica j
        omega
      · intro j p hp
        simp only [Session.grow] at hp
        obtain ⟨p', hp', rfl⟩ := Option.mem_map.mp hp
        have hold : p' ∈ (s.session j).pending := by
          by_cases hj : j = i
          · subst hj
            simp only [Function.update_self] at hp'
            cases hp'
          · simp only [Function.update_of_ne hj] at hp'
            exact hp'
        exact (h.pending j p' hold).grow p₀.ops

/-- **Run.** The counts are right in every reachable state. -/
theorem accurate_of_trace {tr : List (Shared σ × Label σ)} {s : Shared σ}
    (h : (sessions isValidIpv4 σ).Trace tr s) : s.Accurate := by
  have hinit : ∀ s, (sessions isValidIpv4 σ).init s → s.Accurate := by
    intro s hs
    obtain ⟨db, hdb, rfl⟩ := hs
    refine { replica := ?_, pending := ?_ }
    · intro i; simp [Shared.start]
    · intro i p hp; cases hp
  exact System.invariant hinit (fun s a s' hs hstep => accurate_next isValidIpv4 hs hstep) ⟨tr, h⟩

/-! ## Section 4: The limit -/

/-- The step is not the commit of an insertion that finds the table full: the
    rows its check counted, and what commits have added to the table since
    the replica they were counted on was taken, leave room for one more. -/
def roomAtCommit (s : Shared σ) : Label σ → Prop
  | .commit i => ∀ p ∈ (s.session i).pending, p.inserts = true →
      p.counted + p.growth < (ntpAssocMaxServers : Int)
  | _ => True

/-- The table is within the limit. -/
def Shared.withinLimit (s : Shared σ) : Prop := s.db.ntpAssociation.length ≤ ntpAssocMaxServers

/-- **Step.** From a table within the limit a step stays within it exactly
    when an insertion that it commits finds room. -/
theorem withinLimit_next_iff {s s' : Shared σ} {a : Label σ} (hacc : s.Accurate)
    (hlim : s.withinLimit) (hstep : s.next isValidIpv4 a = some s') :
    s'.withinLimit ↔ roomAtCommit s a := by
  unfold Shared.withinLimit at hlim ⊢
  cases a with
  | refresh i =>
    cases hstep
    exact ⟨fun _ => trivial, fun _ => hlim⟩
  | decide i c =>
    rw [Shared.next] at hstep
    split at hstep
    · cases hstep
      exact ⟨fun _ => trivial, fun _ => hlim⟩
    · cases hstep
  | commit i =>
    rw [Shared.next] at hstep
    cases hpend : (s.session i).pending with
    | none => rw [hpend] at hstep; cases hstep
    | some p =>
      rw [hpend] at hstep
      cases hstep
      have hp := hacc.pending i p hpend
      have hcount := hp.counted
      have hlen := length_commit s.db p.ops
      show (s.db.commit p.ops).ntpAssociation.length ≤ ntpAssocMaxServers ↔
        ∀ q ∈ (s.session i).pending, q.inserts = true →
          q.counted + q.growth < (ntpAssocMaxServers : Int)
      rw [hpend]
      cases hins : p.inserts with
      | true =>
        have hone := (hp.inserting hins).2 s.db
        constructor
        · intro hle q hq _
          cases hq
          omega
        · intro hroom
          have hlt := hroom p rfl hins
          omega
      | false =>
        -- an update or a deletion never needs room
        have hle := hp.others hins s.db
        constructor
        · intro _ q hq hq'
          cases hq
          rw [hins] at hq'
          cases hq'
        · intro _
          omega

/-- **Run.** A run stays within the limit exactly when every insertion that it
    commits finds room. -/
theorem server_limit_iff {tr : List (Shared σ × Label σ)} {s : Shared σ}
    (h : (sessions isValidIpv4 σ).Trace tr s) :
    ((∀ p ∈ tr, p.1.withinLimit) ∧ s.withinLimit) ↔ ∀ p ∈ tr, roomAtCommit p.1 p.2 := by
  induction h with
  | init hs =>
    obtain ⟨db, hdb, rfl⟩ := hs
    simp [Shared.withinLimit, Shared.start, hdb]
  | @step tr s s' a hprev hstep ih =>
    have hacc := accurate_of_trace isValidIpv4 hprev
    simp only [List.forall_mem_cons]
    constructor
    · intro hall
      obtain ⟨⟨hs, htr⟩, hs'⟩ := hall
      exact ⟨(withinLimit_next_iff isValidIpv4 hacc hs hstep).mp hs', ih.mp ⟨htr, hs⟩⟩
    · intro hall
      obtain ⟨hroom, htr⟩ := hall
      obtain ⟨hlims, hs⟩ := ih.mpr htr
      exact ⟨⟨hs, hlims⟩, (withinLimit_next_iff isValidIpv4 hacc hs hstep).mpr hroom⟩

theorem trace_emptyTables :
    (sessions (fun _ => true) Bool).Trace [] (Shared.start (emptyTables 1 0 [])) :=
  .init ⟨_, rfl, rfl⟩

/-- Two sessions that decide on the empty table, each for a server of its own. -/
theorem server_limit_iff_two_sessions :
    ∃ tr s, (sessions (fun _ => true) Bool).Trace tr s ∧
      tr.map Prod.snd =
        [.commit false, .commit true, .decide true (.ntpServer "10.0.0.2" false none none),
         .decide false (.ntpServer "10.0.0.1" false none none)] ∧
      s.db.ntpAssociation.length = 2 ∧
      (((∀ p ∈ tr, p.1.withinLimit) ∧ s.withinLimit) ↔ ∀ p ∈ tr, roomAtCommit p.1 p.2) := by
  let labels : List (Label Bool) :=
    [.decide false (.ntpServer "10.0.0.1" false none none),
     .decide true (.ntpServer "10.0.0.2" false none none), .commit true, .commit false]
  have hrows : ((labels.foldlM (Shared.next fun _ => true)
      (Shared.start (emptyTables 1 0 []))).map fun s => s.db.ntpAssociation.length) = some 2 := by
    decide
  obtain ⟨s, hs, hlen⟩ := Option.map_eq_some_iff.mp hrows
  obtain ⟨tr, htr, hlabels⟩ := System.trace_of_foldlM trace_emptyTables hs
  exact ⟨tr, s, htr, hlabels, hlen, server_limit_iff _ htr⟩

/-- Configure servers one after another in one session. -/
def configureAll (i : σ) (names : List String) : List (Label σ) :=
  names.flatMap fun name =>
    [.refresh i, .decide i (.ntpServer name false none none), .commit i]

/-- Two sessions that both see seven rows can together configure nine. -/
theorem two_sessions_exceed_limit :
    ∃ s, (sessions (fun _ => true) Bool).Reachable s ∧ ¬ s.withinLimit := by
  let labels : List (Label Bool) :=
    configureAll false ["s1", "s2", "s3", "s4", "s5", "s6", "s7"] ++
      [.refresh false, .refresh true,
       .decide false (.ntpServer "s8" false none none),
       .decide true (.ntpServer "s9" false none none), .commit false, .commit true]
  have hrows : ((labels.foldlM (Shared.next fun _ => true)
      (Shared.start (emptyTables 1 0 []))).map fun s => s.db.ntpAssociation.length) = some 9 := by
    decide
  obtain ⟨s, hs, hlen⟩ := Option.map_eq_some_iff.mp hrows
  obtain ⟨tr, htr, _⟩ := System.trace_of_foldlM trace_emptyTables hs
  refine ⟨s, ⟨tr, htr⟩, ?_⟩
  rw [Shared.withinLimit, hlen]
  decide

end OpsNtpd.Cli
