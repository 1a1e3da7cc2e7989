import OpsNtpd.Control

/-! # Many Sessions and One Daemon

  Users work in several `vtysh` sessions. A command decides on the replica of
  its session, which may be any earlier state of the tables, and its transaction
  commits later, when others may have committed. The daemon passes over what it
  has seen of the tables.

  - Section 1: the system.
  - Section 2: the operations that commands decide on, and what they keep.
  - Section 3: a pass over rows that may be about the same server or key, as two
    sessions that know nothing of each other leave them.
  - Section 4: every run.
-/

namespace OpsNtpd

open Cli Daemon Text Transition

/-! ## Section 1: Sessions and the daemon -/

/-- The committed tables and all earlier ones, the transactions that have been
    decided, and the daemon. -/
structure CrowdState where
  db : Db
  history : List Db
  pending : List (List DbOp)
  shadow : Shadow
  ntpd : Ntpd

inductive CrowdLabel where
  | decide (replica : Db) (c : Command)
  | commit (ops : List DbOp)
  | fail (ops : List DbOp)
  | pass (replica : Db)

/-- One step. -/
def crowdStep (isValidIpv4 : Nat → Bool) (secret : String) (s : CrowdState) (a : CrowdLabel)
    (s' : CrowdState) : Prop :=
  match a with
  -- the replica of a session has its rows in an order of its own
  | .decide replica c =>
      c.Tokens ∧ (∃ db ∈ s.history, db.Reorders replica) ∧
        ∃ ops out, c.verdict isValidIpv4 .committed replica = .endDbTxn ops out ∧
          s' = { s with pending := ops :: s.pending }
  | .commit ops =>
      ops ∈ s.pending ∧
        s' = { s with
          db := s.db.commit ops, history := s.db.commit ops :: s.history
          pending := s.pending.erase ops }
  | .fail ops => ops ∈ s.pending ∧ s' = { s with pending := s.pending.erase ops }
  | .pass replica =>
      replica ∈ s.history ∧
        ∃ sh b n, IsPass secret replica s.shadow sh b ∧ b.Synced true true s.ntpd n ∧
          s' = { s with shadow := sh, ntpd := n }

/-- The sessions and the daemon, from the tables `db₀`. -/
def crowd (isValidIpv4 : Nat → Bool) (secret : String) (db₀ : Db) : System CrowdState CrowdLabel :=
  { init := fun s =>
      s = { db := db₀, history := [db₀], pending := [], shadow := .start, ntpd := .fresh secret }
    step := crowdStep isValidIpv4 secret }

/-- The commands that some session has decided on, oldest first. -/
def decided : List (CrowdState × CrowdLabel) → List Command
  | [] => []
  | (_, .decide _ c) :: tr => decided tr ++ [c]
  | _ :: tr => decided tr

/-! ## Section 2: The operations of commands -/

/-- The version that a server row asks for. -/
def versionIn (attribs : Smap) : String :=
  (attribs.lookup ntpAssocAttribVersion).getD defaultNtpVersion

/-- The columns of a server row are such as the CLI writes. -/
structure CliServer (isValidIpv4 : Nat → Bool) (named : String → Prop) (vrf : Uuid)
    (r : NtpAssociationRow) : Prop where
  address : CliAddress isValidIpv4 named r.address
  vrf : r.vrf = some vrf
  version : versionToken (versionIn r.associationAttributes)

/-- The columns of a key row are such as the CLI writes. -/
structure CliKey (r : NtpKeyRow) : Prop where
  keyId : keyIdInRange r.keyId
  length : passwordLenInRange r.keyPassword
  word : IsWord r.keyPassword

/-- An operation makes such rows of new rows and of such rows, wherever and
    whenever it is applied. -/
def CliWrite (isValidIpv4 : Nat → Bool) (named : String → Prop) (vrf : Uuid) : DbOp → Prop
  | .insertKey w => ∀ u, CliKey (w.apply (.blank u))
  | .updateKey _ w => ∀ r, CliKey r → CliKey (w.apply r)
  | .insertAssociation w => ∀ u, CliServer isValidIpv4 named vrf (w.apply (.blank u))
  | .updateAssociation _ w =>
      ∀ named' r, CliServer isValidIpv4 named' vrf r → CliServer isValidIpv4 named' vrf (w.apply r)
  | .deleteKey _ => True
  | .deleteAssociation _ => True
  | .updateSystem _ _ => True

/-- Tables that sessions build: one `System` row, one VRF, and rows such as the
    CLI writes, with references to keys that are well defined. -/
structure CrowdDb (isValidIpv4 : Nat → Bool) (named : String → Prop) (vrf : Uuid) (db : Db) :
    Prop where
  servers : ∀ r ∈ db.ntpAssociation, CliServer isValidIpv4 named vrf r
  keys : ∀ r ∈ db.ntpKey, CliKey r
  oneSystem : db.system.length = 1
  oneVrf : ∃ v, db.vrf = [v] ∧ v.uuid = vrf
  keyUuids : (db.ntpKey.map NtpKeyRow.uuid).Nodup
  keyFresh : ∀ r ∈ db.ntpKey, r.uuid < db.nextUuid

section operations
variable {isValidIpv4 : Nat → Bool} {named named' : String → Prop} {vrf : Uuid} {db : Db}

theorem CliServer.mono {r : NtpAssociationRow} (h : CliServer isValidIpv4 named vrf r)
    (hmore : ∀ a, named a → named' a) : CliServer isValidIpv4 named' vrf r :=
  { h with address := h.address.mono hmore }

theorem CliWrite.mono {op : DbOp} (h : CliWrite isValidIpv4 named vrf op)
    (hmore : ∀ a, named a → named' a) : CliWrite isValidIpv4 named' vrf op := by
  cases op with
  | insertAssociation w => exact fun u => (h u).mono hmore
  | insertKey w => exact h
  | updateKey u w => exact h
  | updateAssociation u w => exact h
  | deleteKey u => exact h
  | deleteAssociation u => exact h
  | updateSystem u config => exact h

theorem CrowdDb.mono (h : CrowdDb isValidIpv4 named vrf db) (hmore : ∀ a, named a → named' a) :
    CrowdDb isValidIpv4 named' vrf db :=
  { h with servers := fun r hr => (h.servers r hr).mono hmore }

theorem CrowdDb.rows (h : CrowdDb isValidIpv4 named vrf db) : CliRows isValidIpv4 named db := by
  refine { addresses := ?_, vrfs := ?_, versions := ?_, keys := ?_ }
  · exact fun r hr => (h.servers r hr).address
  · intro r hr
    rw [(h.servers r hr).vrf]
    exact Option.some_ne_none _
  · exact fun r hr => (h.servers r hr).version
  · exact fun r hr => ⟨(h.keys r hr).keyId, (h.keys r hr).length, (h.keys r hr).word⟩

/-- **Operation.** Whatever has been committed since a command decided on it, an
    operation keeps the tables as sessions build them. -/
theorem CrowdDb.apply (h : CrowdDb isValidIpv4 named vrf db) {op : DbOp}
    (hop : CliWrite isValidIpv4 named vrf op) : CrowdDb isValidIpv4 named vrf (db.apply op) := by
  cases op with
  | insertKey w =>
    refine { h with keys := ?_, keyUuids := ?_, keyFresh := ?_ }
    · exact List.forall_mem_cons.mpr ⟨hop _, h.keys⟩
    · refine List.nodup_cons.mpr ⟨?_, h.keyUuids⟩
      intro hmem
      -- the new identity is above all that have been given out
      obtain ⟨r, hr, heq⟩ := List.mem_map.mp hmem
      exact absurd heq (Nat.ne_of_lt (h.keyFresh r hr))
    · refine List.forall_mem_cons.mpr ⟨Nat.lt_succ_self _, ?_⟩
      exact fun r hr => Nat.lt_succ_of_lt (h.keyFresh r hr)
  | updateKey u w =>
    refine { h with keys := ?_, keyUuids := ?_, keyFresh := ?_ }
    · intro r hr
      rcases Rows.mem_updateWhere.mp hr with ⟨hold, _⟩ | ⟨r₀, hold, _, rfl⟩
      · exact h.keys r hold
      · exact hop r₀ (h.keys r₀ hold)
    · have hsame : ∀ r : NtpKeyRow, (w.apply r).uuid = r.uuid := fun _ => rfl
      show ((Rows.updateWhere _ _ _ db.ntpKey).map NtpKeyRow.uuid).Nodup
      rw [Rows.map_updateWhere NtpKeyRow.uuid hsame]
      exact h.keyUuids
    · intro r hr
      rcases Rows.mem_updateWhere.mp hr with ⟨hold, _⟩ | ⟨r₀, hold, _, rfl⟩
      · exact h.keyFresh r hold
      · exact h.keyFresh r₀ hold
  | deleteKey u =>
    have hsub : ∀ r ∈ (db.apply (.deleteKey u)).ntpKey, r ∈ db.ntpKey :=
      fun r hr => (List.mem_filter.mp hr).1
    refine { h with servers := ?_, keys := ?_, keyUuids := ?_, keyFresh := ?_ }
    · -- only the reference to the key is cleared
      intro r hr
      obtain ⟨r₀, hr₀, rfl⟩ := List.mem_map.mp hr
      unfold NtpAssociationRow.dropKey
      split
      · exact { h.servers r₀ hr₀ with }
      · exact h.servers r₀ hr₀
    · exact fun r hr => h.keys r (hsub r hr)
    · exact h.keyUuids.sublist (List.filter_sublist.map _)
    · exact fun r hr => h.keyFresh r (hsub r hr)
  | insertAssociation w =>
    refine { h with servers := ?_, keyFresh := ?_ }
    · exact List.forall_mem_cons.mpr ⟨hop _, h.servers⟩
    · exact fun r hr => Nat.lt_succ_of_lt (h.keyFresh r hr)
  | updateAssociation u w =>
    refine { h with servers := ?_ }
    intro r hr
    rcases Rows.mem_updateWhere.mp hr with ⟨hold, _⟩ | ⟨r₀, hold, _, rfl⟩
    · exact h.servers r hold
    · exact hop named r₀ (h.servers r₀ hold)
  | deleteAssociation u =>
    exact { h with servers := fun r hr => h.servers r (List.mem_filter.mp hr).1 }
  | updateSystem u config =>
    refine { h with oneSystem := ?_ }
    rw [← h.oneSystem]
    exact Rows.length_updateWhere u _

/-- **Transaction.** -/
theorem CrowdDb.commit (h : CrowdDb isValidIpv4 named vrf db) {ops : List DbOp}
    (hops : ∀ op ∈ ops, CliWrite isValidIpv4 named vrf op) :
    CrowdDb isValidIpv4 named vrf (db.commit ops) := by
  induction ops generalizing db with
  | nil => exact h
  | cons op ops ih =>
    obtain ⟨hop, hrest⟩ := List.forall_mem_cons.mp hops
    exact ih (h.apply hop) hrest

theorem CrowdDb.reorders {db' : Db} (h : CrowdDb isValidIpv4 named vrf db) (hre : db.Reorders db') :
    CrowdDb isValidIpv4 named vrf db' := by
  obtain ⟨v, hv, huuid⟩ := h.oneVrf
  have hperm := hre.vrf
  rw [hv] at hperm
  refine { servers := ?_, keys := ?_, oneSystem := ?_, oneVrf := ?_, keyUuids := ?_
           keyFresh := ?_ }
  · exact fun r hr => h.servers r (hre.ntpAssociation.mem_iff.mp hr)
  · exact fun r hr => h.keys r (hre.ntpKey.mem_iff.mp hr)
  · rw [hre.system.length_eq]
    exact h.oneSystem
  · exact ⟨v, List.perm_singleton.mp hperm, huuid⟩
  · exact (hre.ntpKey.map _).nodup_iff.mpr h.keyUuids
  · intro r hr
    rw [hre.nextUuid]
    exact h.keyFresh r (hre.ntpKey.mem_iff.mp hr)

/-! ### What commands decide on -/

theorem versionIn_optionAssocAttribs (p : NtpServerParams) (attribs : Smap) :
    versionIn (optionAssocAttribs p attribs) = p.version.getD (versionIn attribs) := by
  have hprefer : ∀ value, (attribs.insert ntpAssocAttribPrefer value).lookup ntpAssocAttribVersion =
      attribs.lookup ntpAssocAttribVersion :=
    fun value => Finmap.lookup_insert_of_ne _ (by decide)
  unfold versionIn optionAssocAttribs
  cases p.version with
  | some version => simp
  | none =>
    dsimp only
    split
    · rw [hprefer]
      rfl
    · rfl

/-- A transaction of one operation. -/
theorem forall_mem_of_eq_singleton {α : Type} {P : α → Prop} {a : α} {l : List α} (heq : [a] = l)
    (h : P a) : ∀ a ∈ l, P a := by
  rw [← heq]
  exact List.forall_mem_singleton.mpr h

/-- A transaction without operations. -/
theorem forall_mem_of_eq_nil {α : Type} {P : α → Prop} {l : List α} (heq : [] = l) :
    ∀ a ∈ l, P a := by
  rw [← heq]
  exact List.forall_mem_nil _

/-- The version that a command writes. -/
theorem versionToken_written {p : NtpServerParams} (hp : ∀ v ∈ p.version, versionToken v)
    {attribs : Smap} (h : versionToken (versionIn attribs)) :
    versionToken (versionIn (optionAssocAttribs p attribs)) := by
  rw [versionIn_optionAssocAttribs]
  cases hversion : p.version with
  | none => exact h
  | some version => exact hp version hversion

/-- What `ntp server` and `no ntp server` decide on. -/
theorem cliWrite_of_server (h : CrowdDb isValidIpv4 named vrf db) {p : NtpServerParams}
    (hname : p.noForm = false → IsWord p.serverName ∧ named p.serverName)
    (hp : ∀ v ∈ p.version, versionToken v) {ops : List DbOp} {out : String}
    (hv : vtyshOvsdbNtpServerSet isValidIpv4 .committed db p = .endDbTxn ops out) :
    ∀ op ∈ ops, CliWrite isValidIpv4 named vrf op := by
  unfold vtyshOvsdbNtpServerSet at hv
  cases hsan : ntpServerSanitizeParameters isValidIpv4 db p with
  | error e => rw [hsan] at hv; cases hv
  | ok keyRow =>
    -- past the checks there are five ends: update, delete, insert and two that write nothing
    obtain ⟨hvalid, _, _⟩ := (ntpServerSanitizeParameters_ok_iff isValidIpv4).mp hsan
    rw [hsan] at hv
    simp only [startDbTxn_committed] at hv
    cases hrow : ntpOvsrecGetAssoc db p.vrfName p.serverName with
    | some row =>
      rw [hrow] at hv
      cases hno : p.noForm with
      | true =>
        simp only [hno, if_true, Verdict.endDbTxn.injEq] at hv
        exact forall_mem_of_eq_singleton hv.1 trivial
      | false =>
        simp only [hno, Bool.false_eq_true, if_false, Verdict.endDbTxn.injEq] at hv
        refine forall_mem_of_eq_singleton hv.1 ?_
        -- the version that is kept is that of the row in the replica
        have hold := (h.servers row (List.mem_of_find?_eq_some hrow)).version
        intro named' r hr
        exact { address := hr.address, vrf := hr.vrf, version := versionToken_written hp hold }
    | none =>
      rw [hrow] at hv
      cases hno : p.noForm with
      | true =>
        simp only [hno, if_true, Verdict.endDbTxn.injEq] at hv
        exact forall_mem_of_eq_nil hv.1
      | false =>
        simp only [hno, Bool.false_eq_true, if_false, ntpServerCheckMaxNumberOfServers,
          not_false_eq_true, true_and] at hv
        by_cases hfull : db.ntpAssociation.length ≥ ntpAssocMaxServers
        · simp only [hfull, if_true, Verdict.endDbTxn.injEq] at hv
          exact forall_mem_of_eq_nil hv.1
        · have hinserted : Txn.committed.inserted = true := rfl
          simp only [hfull, if_false, hinserted, not_true_eq_false, Verdict.endDbTxn.injEq] at hv
          refine forall_mem_of_eq_singleton hv.1 ?_
          obtain ⟨hword, hnamed⟩ := hname hno
          obtain ⟨v, hvrf, rfl⟩ := h.oneVrf
          have hdefault : versionToken (versionIn (defaultAssocAttribs ∅)) := by
            have hlook : versionIn (defaultAssocAttribs ∅) = ntpAssocAttribVersionDefault := by
              unfold versionIn defaultAssocAttribs
              rw [Finmap.lookup_insert]
              rfl
            rw [hlook]
            decide
          intro u
          refine { address := ⟨hword, hvalid, hnamed⟩, vrf := ?_,
                   version := versionToken_written hp hdefault }
          show (getOvsrecVrfWithName db p.vrfName).map VrfRow.uuid = some v.uuid
          rw [getOvsrecVrfWithName, hvrf]
          rfl

/-- What `ntp authentication-key` and its `no` form decide on. -/
theorem cliWrite_of_key {p : NtpAuthKeyParams}
    (hp : p.noForm = false → ∃ password, p.md5Pwd = some password ∧ IsWord password)
    {ops : List DbOp} {out : String}
    (hv : vtyshOvsdbNtpAuthKeySet .committed db p = .endDbTxn ops out) :
    ∀ op ∈ ops, CliWrite isValidIpv4 named vrf op := by
  unfold vtyshOvsdbNtpAuthKeySet at hv
  cases hsan : ntpSanitizeAuthKey db (some p.key) false p.md5Pwd with
  | error e => rw [hsan] at hv; cases hv
  | ok row =>
    rw [hsan] at hv
    simp only [startDbTxn_committed] at hv
    cases hno : p.noForm with
    | true =>
      cases hrow : ntpOvsrecGetAuthKey db (atoi p.key) with
      | none =>
        simp only [hrow, hno, if_true, Verdict.endDbTxn.injEq] at hv
        exact forall_mem_of_eq_nil hv.1
      | some row =>
        simp only [hrow, hno, if_true, Verdict.endDbTxn.injEq] at hv
        exact forall_mem_of_eq_singleton hv.1 trivial
    | false =>
      obtain ⟨password, hpassword, hword⟩ := hp hno
      obtain ⟨hrange, hlen⟩ : keyIdInRange (atoi p.key) ∧ passwordLenInRange password := by
        unfold ntpSanitizeAuthKey sanitizeKey at hsan
        by_cases hrange : keyIdInRange (atoi p.key)
        · by_cases hlen : passwordLenInRange password
          · exact ⟨hrange, hlen⟩
          · simp [hrange, hpassword, hlen] at hsan
        · simp [hrange] at hsan
      cases hrow : ntpOvsrecGetAuthKey db (atoi p.key) with
      | none =>
        have hinserted : Txn.committed.inserted = true := rfl
        simp only [hrow, hno, Bool.false_eq_true, if_false, hinserted, not_true_eq_false,
          Verdict.endDbTxn.injEq] at hv
        refine forall_mem_of_eq_singleton hv.1 ?_
        intro u
        unfold ntpAuthKeyReplaceParameters
        rw [hpassword]
        exact { keyId := hrange, length := hlen, word := hword }
      | some row =>
        simp only [hrow, hno, Bool.false_eq_true, if_false, Verdict.endDbTxn.injEq] at hv
        refine forall_mem_of_eq_singleton hv.1 ?_
        -- the key id of the row is not written
        intro r hr
        unfold ntpAuthKeyReplaceParameters
        rw [hpassword]
        exact { keyId := hr.keyId, length := hlen, word := hword }

/-- What `ntp trusted-key` and its `no` form decide on. -/
theorem cliWrite_of_trustedKey {p : NtpTrustedKeyParams} {ops : List DbOp} {out : String}
    (hv : vtyshOvsdbNtpTrustedKeySet .committed db p = .endDbTxn ops out) :
    ∀ op ∈ ops, CliWrite isValidIpv4 named vrf op := by
  unfold vtyshOvsdbNtpTrustedKeySet at hv
  cases hsan : ntpSanitizeAuthKey db (some p.key) true none with
  | error e => rw [hsan] at hv; cases hv
  | ok row =>
    rw [hsan] at hv
    cases row with
    | none =>
      simp only [startDbTxn_committed, Verdict.endDbTxn.injEq] at hv
      exact forall_mem_of_eq_nil hv.1
    | some row =>
      simp only [startDbTxn_committed, Verdict.endDbTxn.injEq] at hv
      refine forall_mem_of_eq_singleton hv.1 ?_
      exact fun r hr => { keyId := hr.keyId, length := hr.length, word := hr.word }

/-- What `ntp authentication enable` and its `no` form decide on. -/
theorem cliWrite_of_authEnable {p : NtpAuthEnableParams} {ops : List DbOp} {out : String}
    (hv : vtyshOvsdbNtpAuthEnableSet .committed db p = .endDbTxn ops out) :
    ∀ op ∈ ops, CliWrite isValidIpv4 named vrf op := by
  unfold vtyshOvsdbNtpAuthEnableSet at hv
  cases hsys : db.system.head? with
  | none => rw [hsys] at hv; cases hv
  | some sys =>
    rw [hsys] at hv
    simp only [startDbTxn_committed, Verdict.endDbTxn.injEq] at hv
    exact forall_mem_of_eq_singleton hv.1 trivial

/-- **Decision.** What a command decides on, given any such tables. -/
theorem cliWrite_of_verdict (h : CrowdDb isValidIpv4 named vrf db) {c : Command}
    (htokens : c.Tokens) (hnamed : ∀ a, NamedBy [c] a → named a) {ops : List DbOp} {out : String}
    (hv : c.verdict isValidIpv4 .committed db = .endDbTxn ops out) :
    ∀ op ∈ ops, CliWrite isValidIpv4 named vrf op := by
  cases c with
  | ntpServer name prefer version keyId =>
    refine cliWrite_of_server h (fun _ => ⟨htokens.1, hnamed name ?_⟩) htokens.2.1 hv
    exact ⟨prefer, version, keyId, List.mem_cons_self⟩
  | noNtpServer name =>
    refine cliWrite_of_server h ?_ ?_ hv
    · intro hno
      cases hno
    · intro v hversion
      cases hversion
  | ntpAuthenticationEnable => exact cliWrite_of_authEnable hv
  | noNtpAuthenticationEnable => exact cliWrite_of_authEnable hv
  | ntpAuthenticationKey key md5 =>
    exact cliWrite_of_key (fun _ => ⟨md5, rfl, htokens.2⟩) hv
  | noNtpAuthenticationKey key =>
    refine cliWrite_of_key ?_ hv
    intro hno
    cases hno
  | ntpTrustedKey key => exact cliWrite_of_trustedKey hv
  | noNtpTrustedKey key => exact cliWrite_of_trustedKey hv

end operations

/-! ## Section 3: A pass -/

/-- ntpd is configured as the tables say. Where several rows are about one
    server or key, it has what one of them says. -/
structure ServesTables (secret : String) (db : Db) (n : Ntpd) : Prop where
  addresses : ∀ a, a ∈ n.servers.keys ↔ ∃ r ∈ db.ntpAssociation, r.address = a
  options : ∀ a o, n.servers.lookup a = some o →
    ∃ r ∈ db.ntpAssociation, r.address = a ∧ rowOpts db r = o
  trusted : ∀ key, key ∈ n.trusted ↔ key = controlkey ∨
    (authenticationEnable db = "true" ∧ ∃ r ∈ db.ntpKey, r.trustEnable = true ∧ r.keyId = key)
  keyStore : ∃ keys : List (Int × String), (keys.map Prod.fst).Nodup ∧
    n.keyStore = keysFileText secret keys ∧
    (∀ key, key ∈ keys.map Prod.fst ↔ key ∈ n.trusted ∧ key ≠ controlkey) ∧
    ∀ key pwd, (key, pwd) ∈ keys →
      ∃ r ∈ db.ntpKey, r.trustEnable = true ∧ r.keyId = key ∧ r.keyPassword = pwd

/-- What links ntpd to the maps of the daemon. -/
structure Tracks (n : Ntpd) (sh : Shadow) : Prop where
  servers : Mirrors n.servers sh.gNtpaMap
  trusted : n.trusted = insert controlkey sh.gNtpkDb.keys
  control : controlkey ∉ sh.gNtpkDb.keys

/-- A map with one entry for each address is that of some servers. -/
theorem exists_mirror {l : AssocMap} (haddress : ∀ k v, l.lookup k = some v → v.address = k.2)
    (hunique : ∀ k ∈ l.keys, ∀ k' ∈ l.keys, k.2 = k'.2 → k = k') :
    ∃ servers, Mirrors servers l := by
  let options : Uuid × String → ServerOpts :=
    fun k => ((l.lookup k).map AssocTuple.opts).getD { version := "", key := none, prefer := false }
  have hnodup : (l.keys.toList.map Prod.snd).Nodup := by
    refine List.Nodup.map_on ?_ l.keys.nodup_toList
    intro k hk k' hk' heq
    exact hunique k (Finset.mem_toList.mp hk) k' (Finset.mem_toList.mp hk') heq
  refine ⟨Rows.index Prod.snd options l.keys.toList, haddress, ?_, ?_⟩
  · intro k k' v v' hv hv'
    exact hunique k (Dict.mem_keys_iff.mpr ⟨v, hv⟩) k' (Dict.mem_keys_iff.mpr ⟨v', hv'⟩)
  · intro a o
    rw [Rows.lookup_index hnodup]
    constructor
    · intro hex
      obtain ⟨k, hk, ha, ho⟩ := hex
      obtain ⟨v, hv⟩ := Dict.mem_keys_iff.mp (Finset.mem_toList.mp hk)
      refine ⟨k, v, hv, ha, ?_⟩
      rw [← ho]
      show _ = ((l.lookup k).map AssocTuple.opts).getD _
      rw [hv]
      rfl
    · intro hex
      obtain ⟨k, v, hv, ha, ho⟩ := hex
      refine ⟨k, Finset.mem_toList.mpr (Dict.mem_keys_iff.mpr ⟨v, hv⟩), ha, ?_⟩
      show ((l.lookup k).map AssocTuple.opts).getD _ = o
      rw [hv]
      exact ho

section pass
variable {isValidIpv4 : Nat → Bool} {secret : String} {named : String → Prop} {vrf : Uuid} {db : Db}

theorem mem_keys_readAssocs {k : Uuid × String} :
    k ∈ (readAssocs db).keys ↔ ∃ r ∈ db.ntpAssociation, r.vrf = some k.1 ∧ r.address = k.2 := by
  constructor
  · intro hk
    obtain ⟨v, hv⟩ := Dict.mem_keys_iff.mp hk
    obtain ⟨r, hr, hvrf, ha, _⟩ := exists_row_of_readAssocs hv
    exact ⟨r, hr, hvrf, ha⟩
  · intro hex
    obtain ⟨r, hr, hvrf, ha⟩ := hex
    refine Dict.mem_keys_ofPairs.mpr (List.mem_map.mpr ⟨(k, assocTuple db r k.1), ?_, rfl⟩)
    refine List.mem_filterMap.mpr ⟨r, hr, ?_⟩
    exact assocEntry_eq_some.mpr ⟨k.1, hvrf, Prod.ext rfl ha.symm, rfl⟩

theorem mem_keys_demandedKeys {key : Int} :
    key ∈ (demandedKeys db).keys ↔ authenticationEnable db = "true" ∧
      ∃ r ∈ db.ntpKey, r.trustEnable = true ∧ r.keyId = key := by
  constructor
  · intro hkey
    obtain ⟨v, hv⟩ := Dict.mem_keys_iff.mp hkey
    obtain ⟨r, hr, hmakes, hid, _⟩ := exists_row_of_demandedKeys hv
    have hboth : r.trustEnable = true ∧ authenticationEnable db = "true" := by
      simpa [makesEntry] using hmakes
    exact ⟨hboth.2, r, hr, hboth.1, hid⟩
  · intro hand
    obtain ⟨hauth, r, hr, htrust, hid⟩ := hand
    refine Dict.mem_keys_ofPairs.mpr (List.mem_map.mpr ⟨keyEntry r, ?_, hid⟩)
    refine List.mem_map.mpr ⟨r, List.mem_filter.mpr ⟨hr, ?_⟩, rfl⟩
    simp [makesEntry, htrust, hauth]

/-- A pass over filled rows raises nothing, whatever the orders. -/
theorem checkUpdatesFromOvsdb_ok (h : RowsFilled (authenticationEnable db) db) (sh : Shadow)
    (o : PassOrders) : ∃ sh' b, checkUpdatesFromOvsdb secret db sh o = .ok (sh', b) := by
  simp only [checkUpdatesFromOvsdb, readKeyRows_of_filled h.keys,
    readAssociationRows_of_filled db h.associations]
  exact ⟨_, _, rfl⟩

theorem exists_pass_of_filled (h : RowsFilled (authenticationEnable db) db) (sh : Shadow) :
    ∃ sh' b, IsPass secret db sh sh' b := by
  let o : PassOrders :=
    { us := (sh.gNtpkDb.keys \ (demandedKeys db).keys).toList
      ts := (demandedKeys db).keys.toList
      is := (demandedKeys db).keys.toList
      ks := ((readAssocs db).keys ∪ sh.gNtpaMap.keys).toList
      rs := (readAssocs db).keys.toList }
  have hvalid : o.Valid (demandedKeys db) (readAssocs db) sh :=
    { keys := ⟨iterOrder_toList _, iterOrder_toList _, iterOrder_toList _⟩
      ks := iterOrder_toList _
      rs := iterOrder_toList _ }
  obtain ⟨sh', b, hrun⟩ := @checkUpdatesFromOvsdb_ok secret db h sh o
  exact ⟨sh', b, db, o, _, _, Db.Reorders.refl db, readKeyRows_of_filled h.keys,
    readAssociationRows_of_filled db h.associations, hvalid, hrun⟩

/-- All servers are in one VRF, so the map has one entry for each address. -/
theorem CrowdDb.exists_mirror (h : CrowdDb isValidIpv4 named vrf db) :
    ∃ servers, Mirrors servers (readAssocs db) := by
  refine OpsNtpd.exists_mirror ?_ ?_
  · intro k v hv
    obtain ⟨r, _, _, ha, haddr, _⟩ := exists_row_of_readAssocs hv
    rw [haddr, ha]
  · intro k hk k' hk' heq
    obtain ⟨r, hr, hvrf, _⟩ := mem_keys_readAssocs.mp hk
    obtain ⟨r', hr', hvrf', _⟩ := mem_keys_readAssocs.mp hk'
    rw [(h.servers r hr).vrf] at hvrf
    rw [(h.servers r' hr').vrf] at hvrf'
    exact Prod.ext ((Option.some.inj hvrf).symm.trans (Option.some.inj hvrf')) heq

theorem CrowdDb.authenticationEnable_reorders {db' : Db} (h : CrowdDb isValidIpv4 named vrf db)
    (hre : db.Reorders db') : authenticationEnable db' = authenticationEnable db := by
  obtain ⟨row, hrow⟩ := List.length_eq_one_iff.mp h.oneSystem
  have hperm := hre.system
  rw [hrow] at hperm
  unfold Daemon.authenticationEnable
  rw [List.perm_singleton.mp hperm, hrow]

/-- The keys that are taken out never include the control key. -/
theorem trusted_after {g l : Finset Int} (hcontrol : controlkey ∉ g) :
    (insert controlkey g \ (g \ l)) ∪ l = insert controlkey l := by
  ext key
  simp only [Finset.mem_union, Finset.mem_sdiff, Finset.mem_insert]
  by_cases heq : key = controlkey
  · rw [heq]
    simp [hcontrol]
  · simp only [heq, false_or]
    tauto

theorem CrowdDb.controlkey_not_demanded (h : CrowdDb isValidIpv4 named vrf db) :
    controlkey ∉ (demandedKeys db).keys := by
  intro hmem
  obtain ⟨_, r, hr, _, hid⟩ := mem_keys_demandedKeys.mp hmem
  have hhigh : r.keyId ≤ ntpKeyKeyIdMax := (h.keys r hr).keyId.2
  rw [hid] at hhigh
  exact absurd hhigh (by decide)

/-- What ntpd has serves the tables if it is what the maps of some order of the
    rows say. -/
theorem CrowdDb.serves (h : CrowdDb isValidIpv4 named vrf db) {db' : Db} (hre : db.Reorders db')
    {n : Ntpd} (hservers : Mirrors n.servers (readAssocs db'))
    (htrusted : n.trusted = insert controlkey (demandedKeys db').keys)
    (hstore : ∃ is, IterOrder is (demandedKeys db').keys ∧
      n.keyStore = keysFileContent secret (demandedKeys db') is) : ServesTables secret db n := by
  have hcontrol := (h.reorders hre).controlkey_not_demanded
  have hauth := h.authenticationEnable_reorders hre
  refine { addresses := ?_, options := ?_, trusted := ?_, keyStore := ?_ }
  · intro a
    rw [Dict.mem_keys_iff]
    constructor
    · intro hex
      obtain ⟨opts, hopts⟩ := hex
      obtain ⟨k, v, hv, rfl, _⟩ := (hservers.opts a opts).mp hopts
      obtain ⟨r, hr, _, ha, _⟩ := exists_row_of_readAssocs hv
      exact ⟨r, hre.ntpAssociation.mem_iff.mp hr, ha⟩
    · intro hex
      obtain ⟨r, hr, rfl⟩ := hex
      have hin : (vrf, r.address) ∈ (readAssocs db').keys := mem_keys_readAssocs.mpr
        ⟨r, hre.ntpAssociation.mem_iff.mpr hr, (h.servers r hr).vrf, rfl⟩
      obtain ⟨v, hv⟩ := Dict.mem_keys_iff.mp hin
      exact ⟨v.opts, (hservers.opts _ _).mpr ⟨_, v, hv, rfl, rfl⟩⟩
  · intro a opts hopts
    obtain ⟨k, v, hv, rfl, rfl⟩ := (hservers.opts a opts).mp hopts
    obtain ⟨r, hr, _, ha, _, hrow⟩ := exists_row_of_readAssocs hv
    refine ⟨r, hre.ntpAssociation.mem_iff.mp hr, ha, ?_⟩
    rw [hrow, rowOpts, rowOpts, Db.keyOf_reorders h.keyUuids hre r]
  · intro key
    rw [htrusted, Finset.mem_insert, mem_keys_demandedKeys, hauth]
    simp only [hre.ntpKey.mem_iff]
  · obtain ⟨is, his, hfile⟩ := hstore
    obtain ⟨keys, hids, hkeys, htext⟩ := exists_keysFileText secret his
    refine ⟨keys, by rw [hids]; exact his.1, hfile.trans htext, ?_, ?_⟩
    · intro key
      rw [hids, his.mem_iff, htrusted, Finset.mem_insert]
      constructor
      · intro hkey
        refine ⟨Or.inr hkey, ?_⟩
        intro heq
        rw [heq] at hkey
        exact hcontrol hkey
      · intro hand
        exact hand.1.resolve_left hand.2
    · intro key pwd hmem
      obtain ⟨trust, hv⟩ := (hkeys key pwd).mp hmem
      obtain ⟨r, hr, hmakes, hid, hpwd⟩ := exists_row_of_demandedKeys hv
      have hboth : r.trustEnable = true ∧ authenticationEnable db' = "true" := by
        simpa [makesEntry] using hmakes
      exact ⟨r, hre.ntpKey.mem_iff.mp hr, hboth.1, hid, hpwd⟩

/-- **Pass.** A pass has ntpd serve the tables, and the daemon's maps are again
    those of what ntpd has. -/
theorem CrowdDb.pass (h : CrowdDb isValidIpv4 named vrf db) {sh sh' : Shadow} {b : Batch}
    {n n' : Ntpd} (htracks : Tracks n sh) (hpass : IsPass secret db sh sh' b)
    (hsync : b.Synced true true n n') : Tracks n' sh' ∧ ServesTables secret db n' := by
  obtain ⟨db', o, hre, hvalid, rfl, hserverConfigs, hkeyConfigs, hfile⟩ :=
    pass_maps h.rows.filled_reorders hpass
  have h' := h.reorders hre
  obtain ⟨servers, hmirror⟩ := h'.exists_mirror
  have hrun : Ntpd.Run (n.readkeys b.keysFileContent) b.configs n' := hsync
  obtain ⟨servers', hserverRun, hkeyRun⟩ := Ntpd.run_associations.mp hrun
  rw [hserverConfigs] at hserverRun
  rw [hkeyConfigs] at hkeyRun
  -- the servers come first, and the commands about keys leave them alone
  obtain rfl := run_serverConfigs htracks.servers hmirror hvalid.ks hserverRun
  have hn := run_keyConfigs secret hvalid.keys hkeyRun
  have hservers : Mirrors n'.servers (readAssocs db') := by
    rw [hn]
    exact hmirror
  have htrusted : n'.trusted = insert controlkey (demandedKeys db').keys := by
    rw [hn]
    show (n.trusted \ (sh.gNtpkDb.keys \ (demandedKeys db').keys)) ∪ (demandedKeys db').keys = _
    rw [htracks.trusted]
    exact trusted_after htracks.control
  have hstore : n'.keyStore = keysFileContent secret (demandedKeys db') o.is := by
    rw [hn]
    exact hfile
  constructor
  · exact { servers := hservers, trusted := htrusted, control := h'.controlkey_not_demanded }
  · exact h.serves hre hservers htrusted ⟨o.is, hvalid.keys.entries, hstore⟩

end pass

/-! ## Section 4: Every run -/

/-- What holds in every state of every run. -/
structure CrowdInv (isValidIpv4 : Nat → Bool) (secret : String) (named : String → Prop) (vrf : Uuid)
    (s : CrowdState) : Prop where
  tables : ∀ db ∈ s.history, CrowdDb isValidIpv4 named vrf db
  current : s.db ∈ s.history
  pending : ∀ ops ∈ s.pending, ∀ op ∈ ops, CliWrite isValidIpv4 named vrf op
  shadow : CliShadow isValidIpv4 named s.shadow
  tracks : Tracks s.ntpd s.shadow
  accepts : Accepts s.ntpd controlkey secret

section runs
variable {isValidIpv4 : Nat → Bool} {secret : String} {named named' : String → Prop}
variable {nextUuid vrf sys : Uuid} {curCfg : Int} {s s' : CrowdState}
variable {tr : List (CrowdState × CrowdLabel)}

theorem CrowdInv.mono (h : CrowdInv isValidIpv4 secret named vrf s)
    (hmore : ∀ a, named a → named' a) : CrowdInv isValidIpv4 secret named' vrf s :=
  { h with
    tables := fun db hdb => (h.tables db hdb).mono hmore
    pending := fun ops hops op hop => (h.pending ops hops op hop).mono hmore
    shadow := h.shadow.mono hmore }

theorem crowdInv_init (hsecret : ControlkeyAnswer secret)
    (h : (crowd isValidIpv4 secret (factoryDefault nextUuid vrf sys curCfg)).init s) :
    CrowdInv isValidIpv4 secret named vrf s := by
  obtain rfl : s = _ := h
  refine { tables := ?_, current := List.mem_cons_self, pending := ?_, shadow := ?_, tracks := ?_,
           accepts := accepts_fresh hsecret }
  · intro db hdb
    rw [List.mem_singleton.mp hdb]
    refine { servers := ?_, keys := ?_, oneSystem := rfl, oneVrf := ⟨_, rfl, rfl⟩,
             keyUuids := List.nodup_nil, keyFresh := ?_ }
    · exact fun r hr => absurd hr List.not_mem_nil
    · exact fun r hr => absurd hr List.not_mem_nil
    · exact fun r hr => absurd hr List.not_mem_nil
  · exact fun ops hops => absurd hops List.not_mem_nil
  · exact cliShadow_start
  · refine { servers := mirrors_empty, trusted := ?_, control := by simp [Shadow.start] }
    simp [Shadow.start, Ntpd.fresh]

/-- **Step.** -/
theorem crowdInv_step (hsecret : ControlkeyAnswer secret)
    (h : CrowdInv isValidIpv4 secret named vrf s) {a : CrowdLabel}
    (hnamed : ∀ replica c, a = .decide replica c → ∀ x, NamedBy [c] x → named x)
    (hstep : crowdStep isValidIpv4 secret s a s') : CrowdInv isValidIpv4 secret named vrf s' := by
  cases a with
  | decide replica c =>
    obtain ⟨htokens, ⟨db, hdb, hre⟩, ops, out, hverdict, rfl⟩ := hstep
    have hreplica := (h.tables db hdb).reorders hre
    refine { h with pending := List.forall_mem_cons.mpr ⟨?_, h.pending⟩ }
    exact cliWrite_of_verdict hreplica htokens (hnamed replica c rfl) hverdict
  | commit ops =>
    obtain ⟨hops, rfl⟩ := hstep
    -- the tables are no longer those that the operations were decided on
    have hcommit := (h.tables s.db h.current).commit (h.pending ops hops)
    refine { h with
      tables := List.forall_mem_cons.mpr ⟨hcommit, h.tables⟩, current := List.mem_cons_self
      pending := ?_ }
    exact fun ops' hops' => h.pending ops' (List.mem_of_mem_erase hops')
  | fail ops =>
    obtain ⟨_, rfl⟩ := hstep
    exact { h with pending := fun ops' hops' => h.pending ops' (List.mem_of_mem_erase hops') }
  -- the daemon may see any table of the run, also an older one than before
  | pass replica =>
    obtain ⟨hreplica, sh, b, n, hpass, hsync, rfl⟩ := hstep
    have hdb := h.tables replica hreplica
    refine { h with
      shadow := hdb.rows.shadow_of_pass hpass, tracks := (hdb.pass h.tracks hpass hsync).1
      accepts := ?_ }
    exact accepts_in_pass hsecret h.accepts hdb.rows h.shadow hpass (List.prefix_refl _) hsync

/-- **Run.** -/
theorem crowdInv_run (hsecret : ControlkeyAnswer secret)
    (h : (crowd isValidIpv4 secret (factoryDefault nextUuid vrf sys curCfg)).Trace tr s) :
    CrowdInv isValidIpv4 secret (NamedBy (decided tr)) vrf s := by
  induction h with
  | init hi => exact crowdInv_init hsecret hi
  | @step tr s s' a _ hstep ih =>
    have hmore : ∀ x, NamedBy (decided tr) x → NamedBy (decided ((s, a) :: tr)) x := by
      intro x hx
      refine hx.mono ?_
      cases a with
      | decide replica c => exact List.subset_append_left _ _
      | _ => exact List.Subset.refl _
    refine crowdInv_step hsecret (ih.mono hmore) ?_ hstep
    intro replica c ha x hx
    rw [ha]
    exact hx.mono (List.subset_append_right _ _)

/-- **No interleaving breaks the daemon.** Whatever commands any number of
    sessions decide on, however stale what they have seen, and in whatever order
    their transactions commit or fail: no table makes a pass raise an exception,
    in no order of its rows and of the daemon's maps, and after a pass over it
    ntpd serves the table. All its servers have been entered, and it takes the
    login of the daemon. -/
theorem crowd_serves (hsecret : ControlkeyAnswer secret)
    (h : (crowd isValidIpv4 secret (factoryDefault nextUuid vrf sys curCfg)).Trace tr s)
    {db : Db} (hdb : db ∈ s.history) :
    (∀ db' o, db.Reorders db' →
      ∃ sh b, checkUpdatesFromOvsdb secret db' s.shadow o = .ok (sh, b)) ∧
    (∃ sh b, IsPass secret db s.shadow sh b) ∧
    ∀ sh b n, IsPass secret db s.shadow sh b → b.Synced true true s.ntpd n →
      ServesTables secret db n ∧ Accepts n controlkey secret ∧
        ∀ a ∈ n.servers.keys, NamedBy (decided tr) a := by
  have hinv := crowdInv_run hsecret h
  have htables := hinv.tables db hdb
  have hfilled := htables.rows.filled_reorders
  refine ⟨?_, exists_pass_of_filled (hfilled db (Db.Reorders.refl db)) s.shadow, ?_⟩
  · exact fun db' o hre => checkUpdatesFromOvsdb_ok (hfilled db' hre) s.shadow o
  · intro sh b n hpass hsync
    obtain ⟨_, hserves⟩ := htables.pass hinv.tracks hpass hsync
    refine ⟨hserves, ?_, ?_⟩
    · exact accepts_in_pass hsecret hinv.accepts htables.rows hinv.shadow hpass
        (List.prefix_refl _) hsync
    · intro a ha
      obtain ⟨r, hr, rfl⟩ := (hserves.addresses a).mp ha
      exact (htables.servers r hr).address.named

end runs

/-- `ntp server 10.0.0.1 prefer` -/
def preferredServerCommand : Command := .ntpServer "10.0.0.1" true none none

/-- What both commands decide on when the server is not there yet. -/
def insertServer (prefer : Bool) : List DbOp :=
  [.insertAssociation (ntpServerReplaceParameters newDb ∅
    (ntpServerParams "10.0.0.1" prefer none none) none false)]

/-- Two sessions add the same server, so that there are two rows for it. -/
theorem crowd_serves_two_rows :
    ∃ tr s n, (crowd (fun _ => true) "0123456789abcdef" newDb).Trace tr s ∧
      s.db.ntpAssociation.map NtpAssociationRow.address = ["10.0.0.1", "10.0.0.1"] ∧
      ServesTables "0123456789abcdef" s.db n := by
  let sys := crowd (fun _ => true) "0123456789abcdef" newDb
  let s₀ : CrowdState :=
    { db := newDb, history := [newDb], pending := [], shadow := .start
      ntpd := .fresh "0123456789abcdef" }
  let s₁ : CrowdState := { s₀ with pending := [insertServer false] }
  let s₂ : CrowdState := { s₁ with pending := [insertServer true, insertServer false] }
  let db₃ := newDb.commit (insertServer true)
  let s₃ : CrowdState :=
    { s₂ with db := db₃, history := [db₃, newDb], pending := [insertServer false] }
  let db₄ := db₃.commit (insertServer false)
  let s₄ : CrowdState := { s₃ with db := db₄, history := [db₄, db₃, newDb], pending := [] }
  have hseen : ∃ db ∈ [newDb], db.Reorders newDb :=
    ⟨newDb, List.mem_cons_self, Db.Reorders.refl _⟩
  have h₁ : sys.step s₀ (.decide newDb oneServerCommand) s₁ :=
    ⟨⟨by decide, by simp, by simp⟩, hseen, insertServer false, "", rfl, rfl⟩
  have h₂ : sys.step s₁ (.decide newDb preferredServerCommand) s₂ :=
    ⟨⟨by decide, by simp, by simp⟩, hseen, insertServer true, "", rfl, rfl⟩
  have hrest : [insertServer true, insertServer false].erase (insertServer true) =
      [insertServer false] := List.erase_cons_head ..
  have h₃ : sys.step s₂ (.commit (insertServer true)) s₃ :=
    ⟨List.mem_cons_self, congrArg (CrowdState.mk db₃ [db₃, newDb] · _ _) hrest.symm⟩
  have hnone : [insertServer false].erase (insertServer false) = [] := List.erase_cons_head ..
  have h₄ : sys.step s₃ (.commit (insertServer false)) s₄ :=
    ⟨List.mem_cons_self, congrArg (CrowdState.mk db₄ [db₄, db₃, newDb] · _ _) hnone.symm⟩
  have htrace : sys.Trace _ s₄ :=
    ((((System.Trace.init rfl).step _ h₁).step _ h₂).step _ h₃).step _ h₄
  obtain ⟨_, ⟨sh, b, hpass⟩, hall⟩ := crowd_serves (by decide) htrace List.mem_cons_self
  obtain ⟨n, hrun⟩ := Ntpd.exists_run (s₄.ntpd.readkeys b.keysFileContent) b.configs
  obtain ⟨hserves, _⟩ := hall sh b n hpass hrun
  exact ⟨_, s₄, n, htrace, rfl, hserves⟩

end OpsNtpd
