import OpsNtpd.Daemon.MainLoop

/-! # Daemon: Passes Whose Commands Fail

  `ops_ntpd_sync_updates_to_ntpd` logs the error output of `ntpdc` and `ntpq`
  and goes on; by then the shadow state is that of the database already. Here
  each invocation may fail, and a run is a sequence of passes.

  What a lost `ntpq` invocation should have done is made up for by a later
  pass if it was the addition of trusted keys, which every pass repeats. It is
  not if it concerned a server or took trust from a key: the main result says
  exactly which failures a run recovers from.
-/

namespace OpsNtpd.Daemon

open Transition

/-! ## Section 1: The system -/

/-- What is there between two passes. -/
structure SyncState where
  shadow : Shadow
  ntpd : Ntpd

/-- A pass: its database, and which of its two invocations succeed. -/
structure Attempt where
  db : Db
  ntpdcOk : Bool
  ntpqOk : Bool

/-- One pass. -/
def syncStep (secret : String) (s : SyncState) (a : Attempt) (s' : SyncState) : Prop :=
  Proper a.db ∧ ∃ b, IsPass secret a.db s.shadow s'.shadow b ∧
    b.Synced a.ntpdcOk a.ntpqOk s.ntpd s'.ntpd

/-- An empty shadow state and a fresh ntpd. -/
def SyncState.start (secret : String) : SyncState :=
  { shadow := Shadow.start, ntpd := Ntpd.fresh secret }

/-- The passes over proper databases. -/
def syncSystem (secret : String) : System SyncState Attempt :=
  { init := fun s => s = SyncState.start secret
    step := syncStep secret }

/-! ## Section 2: Following a database -/

/-- ntpd has one server per row, with the options of the row, and no others. -/
def ServersFollow (db : Db) (n : Ntpd) : Prop :=
  ∀ a o, n.servers.lookup a = some o ↔ ∃ r ∈ db.ntpAssociation, r.address = a ∧ rowOpts db r = o

/-- The database asks ntpd to trust the key. -/
def AsksToTrust (db : Db) (key : Int) : Prop :=
  authenticationEnable db = "true" ∧ ∃ r ∈ db.ntpKey, r.trustEnable = true ∧ r.keyId = key

/-- The servers and the trusted keys of ntpd, apart from the control key, are
    those of the database. -/
structure Follows (db : Db) (n : Ntpd) : Prop where
  servers : ServersFollow db n
  trusted : ∀ key, key ≠ controlkey → (key ∈ n.trusted ↔ AsksToTrust db key)

/-- A pass whose `ntpq` invocation fails is harmless for `n` if `n` has the
    servers of the database already, and trusts no key that the database does
    not ask for. -/
def Attempt.Harmless (a : Attempt) (n : Ntpd) : Prop :=
  a.ntpqOk = true ∨
    (ServersFollow a.db n ∧ ∀ key ∈ n.trusted, key ≠ controlkey → AsksToTrust a.db key)

/-- Whichever proper database comes next, a pass over it whose invocations
    both succeed makes ntpd follow it. -/
def SyncState.Recovers (secret : String) (s : SyncState) : Prop :=
  ∀ a s', syncStep secret s a s' → a.ntpdcOk = true → a.ntpqOk = true → Follows a.db s'.ntpd

section follows
variable {db : Db} {n : Ntpd}

theorem serversFollow_iff (h : Proper db) : ServersFollow db n ↔ n.servers = demandedServers db := by
  constructor
  · intro hfollow
    apply Finmap.ext_lookup
    intro a
    apply Option.ext
    intro o
    rw [hfollow]
    exact (Rows.lookup_index h.addresses).symm
  · intro heq a o
    rw [heq]
    exact Rows.lookup_index h.addresses

theorem asksToTrust_iff (h : Proper db) {key : Int} :
    AsksToTrust db key ↔ key ∈ (demandedKeys db).keys :=
  (mem_demandedKeys h).symm

end follows

/-! ## Section 3: Failures that are made up for -/

/-- The shadow state stands for what ntpd has: its servers are those of the
    shadow map, and it trusts no key that the shadow map does not have. -/
structure Held (s : SyncState) : Prop where
  servers : Mirrors s.ntpd.servers s.shadow.gNtpaMap
  trusted : ∀ key ∈ s.ntpd.trusted, key = controlkey ∨ key ∈ s.shadow.gNtpkDb.keys

section recovery
variable {secret : String} {s s' s'' : SyncState} {a : Attempt}

theorem held_start : Held (SyncState.start secret) := by
  refine ⟨mirrors_empty, ?_⟩
  intro key hkey
  exact Or.inl (Finset.mem_singleton.mp hkey)

/-- Reading the keys file changes neither the servers nor the trusted keys. -/
theorem synced_cases {b : Batch} {n n' : Ntpd} {ntpdcOk ntpqOk : Bool}
    (h : b.Synced ntpdcOk ntpqOk n n') : ∃ n₁ : Ntpd, n₁.servers = n.servers ∧
      n₁.trusted = n.trusted ∧ if ntpqOk then Ntpd.Run n₁ b.configs n' else n' = n₁ := by
  refine ⟨if ntpdcOk then n.readkeys b.keysFileContent else n, ?_, ?_, h⟩
  · cases ntpdcOk <;> rfl
  · cases ntpdcOk <;> rfl

/-- After a pass, ntpd need only have the servers of the database and trust no
    key that the database does not ask for. -/
theorem held_after (hstep : syncStep secret s a s')
    (hservers : s'.ntpd.servers = demandedServers a.db)
    (htrusted : ∀ key ∈ s'.ntpd.trusted, key = controlkey ∨ key ∈ (demandedKeys a.db).keys) :
    Held s' := by
  obtain ⟨hproper, b, hpass, _⟩ := hstep
  have hshadow := pass_shadow hproper hpass
  refine { servers := ?_, trusted := ?_ }
  · rw [hservers, hshadow]
    exact mirrors_readAssocs hproper
  · rw [hshadow]
    exact htrusted

/-- **Step.** A pass whose commands are executed gives ntpd the servers of the
    database, all keys that it asks for and no others. -/
theorem held_of_success (h : Held s) (hstep : syncStep secret s a s') (hq : a.ntpqOk = true) :
    Held s' ∧ Follows a.db s'.ntpd := by
  have hproper := hstep.1
  obtain ⟨b, hpass, hsync⟩ := hstep.2
  obtain ⟨n₁, hservers₁, htrusted₁, hrun⟩ := synced_cases hsync
  rw [hq, if_pos rfl] at hrun
  have hmirror : Mirrors n₁.servers s.shadow.gNtpaMap := by
    rw [hservers₁]
    exact h.servers
  have hn := pass_spec hproper hpass hmirror hrun
  have hservers : s'.ntpd.servers = demandedServers a.db := by rw [hn]
  have htrusted : ∀ key, key ∈ s'.ntpd.trusted ↔
      (key ∈ s.ntpd.trusted ∧ ¬ (key ∈ s.shadow.gNtpkDb.keys ∧ key ∉ (demandedKeys a.db).keys)) ∨
        key ∈ (demandedKeys a.db).keys := by
    intro key
    rw [hn, htrusted₁, Finset.mem_union, Finset.mem_sdiff, Finset.mem_sdiff]
  have honly : ∀ key ∈ s'.ntpd.trusted, key = controlkey ∨ key ∈ (demandedKeys a.db).keys := by
    intro key hkey
    rcases (htrusted key).mp hkey with ⟨hold, hkept⟩ | hnew
    · rcases h.trusted key hold with heq | hshadow
      · exact Or.inl heq
      · by_contra hnot
        exact hkept ⟨hshadow, fun hin => hnot (Or.inr hin)⟩
    · exact Or.inr hnew
  refine ⟨held_after hstep hservers honly, ?_⟩
  refine { servers := (serversFollow_iff hproper).mpr hservers, trusted := ?_ }
  intro key hkey
  rw [asksToTrust_iff hproper]
  constructor
  · intro hin
    exact (honly key hin).resolve_left hkey
  · intro hin
    exact (htrusted key).mpr (Or.inr hin)

/-- A pass whose `ntpq` invocation fails leaves the servers and the trusted
    keys alone. -/
theorem unchanged_of_failure (hstep : syncStep secret s a s') (hq : a.ntpqOk = false) :
    s'.ntpd.servers = s.ntpd.servers ∧ s'.ntpd.trusted = s.ntpd.trusted := by
  obtain ⟨_, b, _, hsync⟩ := hstep
  obtain ⟨n₁, hservers₁, htrusted₁, hrun⟩ := synced_cases hsync
  rw [hq] at hrun
  have heq : s'.ntpd = n₁ := hrun
  rw [heq]
  exact ⟨hservers₁, htrusted₁⟩

/-- **Step.** Harmless passes keep the shadow state true. -/
theorem held_step (h : Held s) (hstep : syncStep secret s a s') (hharmless : a.Harmless s.ntpd) :
    Held s' := by
  by_cases hq : a.ntpqOk = true
  · exact (held_of_success h hstep hq).1
  · obtain ⟨hfollow, hkeys⟩ := hharmless.resolve_left hq
    obtain ⟨hservers, htrusted⟩ := unchanged_of_failure hstep (Bool.eq_false_iff.mpr hq)
    refine held_after hstep ?_ ?_
    · rw [hservers]
      exact (serversFollow_iff hstep.1).mp hfollow
    · intro key hkey
      rw [htrusted] at hkey
      by_cases hcontrol : key = controlkey
      · exact Or.inl hcontrol
      · exact Or.inr ((asksToTrust_iff hstep.1).mp (hkeys key hkey hcontrol))

/-- **Run.** A run of harmless passes keeps the shadow state true. -/
theorem held_run {tr : List (SyncState × Attempt)} (htr : (syncSystem secret).Trace tr s)
    (hharmless : ∀ p ∈ tr, p.2.Harmless p.1.ntpd) : Held s := by
  refine System.trace_invariant (fun s a => a.Harmless s.ntpd) ?_ ?_ htr hharmless
  · intro s₀ hs₀
    have heq : s₀ = SyncState.start secret := hs₀
    rw [heq]
    exact held_start
  · intro s₁ a s₂ hs₁ hguard hstep
    exact held_step hs₁ hstep hguard

theorem recovers_of_held (h : Held s) : s.Recovers secret := by
  intro a s' hstep _ hq
  exact (held_of_success h hstep hq).2

/-! ## Section 4: Failures that are not -/

/-- After a pass whose `ntpq` invocation failed, a pass over the same database
    has no server commands, and takes trust from no key. -/
theorem pass_after_failure (hlost : syncStep secret s a s') (hq : a.ntpqOk = false)
    {ntpdcOk : Bool} (hnext : syncStep secret s' ⟨a.db, ntpdcOk, true⟩ s'') :
    s''.ntpd.servers = s.ntpd.servers ∧ s.ntpd.trusted ⊆ s''.ntpd.trusted := by
  obtain ⟨hservers, htrusted⟩ := unchanged_of_failure hlost hq
  have hproper : Proper a.db := hlost.1
  obtain ⟨b₁, hpass₁, _⟩ := hlost.2
  obtain ⟨b₂, hpass₂, hsync⟩ := hnext.2
  obtain ⟨n₁, hservers₁, htrusted₁, hrun⟩ := synced_cases hsync
  have hrun' : Ntpd.Run n₁ b₂.configs s''.ntpd := hrun
  have hnone := pass_again hproper hpass₁ hpass₂
  have hconfigs : b₂.configs = b₂.keyConfigs := by
    rw [Batch.configs, hnone]
    rfl
  rw [hconfigs] at hrun'
  rw [pass_keys hproper hpass₂ hrun', pass_shadow hproper hpass₁]
  refine ⟨hservers₁.trans hservers, ?_⟩
  intro key hkey
  show key ∈ (n₁.trusted \ ((demandedKeys a.db).keys \ (demandedKeys a.db).keys)) ∪ _
  rw [Finset.sdiff_self, Finset.sdiff_empty, htrusted₁, htrusted]
  exact Finset.mem_union_left _ hkey

variable (secret) in
/-- Every pass can be made. -/
theorem exists_syncStep (s : SyncState) (a : Attempt) (hproper : Proper a.db) :
    ∃ s', syncStep secret s a s' := by
  obtain ⟨shadow, b, hpass⟩ := exists_pass secret hproper s.shadow
  let n₁ := if a.ntpdcOk then s.ntpd.readkeys b.keysFileContent else s.ntpd
  obtain ⟨n', hrun⟩ := Ntpd.exists_run n₁ b.configs
  refine ⟨⟨shadow, if a.ntpqOk then n' else n₁⟩, hproper, b, hpass, ?_⟩
  show if a.ntpqOk then Ntpd.Run n₁ b.configs _ else _ = n₁
  cases a.ntpqOk with
  | true => exact hrun
  | false => rfl

/-- A pass from which the daemon recovers was harmless. -/
theorem harmless_of_recovers (hstep : syncStep secret s a s') (hrec : s'.Recovers secret) :
    a.Harmless s.ntpd := by
  by_cases hq : a.ntpqOk = true
  · exact Or.inl hq
  · have hq' : a.ntpqOk = false := Bool.eq_false_iff.mpr hq
    obtain ⟨s'', hnext⟩ := exists_syncStep secret s' ⟨a.db, true, true⟩ hstep.1
    obtain ⟨hservers, htrusted⟩ := pass_after_failure hstep hq' hnext
    have hfollow := hrec _ _ hnext rfl rfl
    refine Or.inr ⟨?_, ?_⟩
    · intro addr o
      rw [← hservers]
      exact hfollow.servers addr o
    · intro key hkey hcontrol
      exact (hfollow.trusted key hcontrol).mp (htrusted hkey)

/-- **No change is lost exactly when the failures are harmless.** In a run,
    every pass whose invocations both succeed makes ntpd follow its database,
    and so would such a pass after any pass of the run, if and only if every
    pass of the run was harmless. -/
theorem recovers_iff {tr : List (SyncState × Attempt)} (htr : (syncSystem secret).Trace tr s) :
    (s.Recovers secret ∧ ∀ p ∈ tr, p.1.Recovers secret) ↔
      ∀ p ∈ tr, p.2.Harmless p.1.ntpd := by
  constructor
  · intro hrec
    induction htr with
    | init _ => exact fun p hp => absurd hp List.not_mem_nil
    | @step tr s s' a htr hstep ih =>
      obtain ⟨hlast, hearlier⟩ := hrec
      intro p hp
      rcases List.mem_cons.mp hp with heq | hmem
      · rw [heq]
        exact harmless_of_recovers hstep hlast
      · refine ih ⟨hearlier (s, a) List.mem_cons_self, ?_⟩ p hmem
        intro q hq
        exact hearlier q (List.mem_cons_of_mem _ hq)
  · intro hharmless
    refine ⟨recovers_of_held (held_run htr hharmless), ?_⟩
    intro p hp
    obtain ⟨tr', htr', hsub⟩ := htr.of_mem hp
    exact recovers_of_held (held_run htr' fun q hq => hharmless q (hsub q hq))

/-- A failure between two passes over one database is harmless: the run
    recovers from it. -/
theorem recovers_iff_same_database : ∃ s₀ s₁ s₂, s₀ = SyncState.start "0123456789abcdef" ∧
    syncStep "0123456789abcdef" s₀ ⟨keyedServerDb, true, true⟩ s₁ ∧
    syncStep "0123456789abcdef" s₁ ⟨keyedServerDb, true, false⟩ s₂ ∧
    s₂.Recovers "0123456789abcdef" := by
  have hproper := admissible_keyedServerDb.proper
  obtain ⟨s₁, h₁⟩ := exists_syncStep "0123456789abcdef"
    (SyncState.start "0123456789abcdef") ⟨keyedServerDb, true, true⟩ hproper
  obtain ⟨s₂, h₂⟩ := exists_syncStep "0123456789abcdef"
    s₁ ⟨keyedServerDb, true, false⟩ hproper
  refine ⟨_, s₁, s₂, rfl, h₁, h₂, ?_⟩
  have hfollow : Follows keyedServerDb s₁.ntpd := (held_of_success held_start h₁ rfl).2
  have htr : (syncSystem "0123456789abcdef").Trace _ s₂ := .step _ (.step _ (.init rfl) h₁) h₂
  refine ((recovers_iff htr).mpr ?_).1
  intro p hp
  rcases List.mem_cons.mp hp with heq | hmem
  · rw [heq]
    exact Or.inr ⟨hfollow.servers, fun key hkey hcontrol => (hfollow.trusted key hcontrol).mp hkey⟩
  · rw [List.mem_singleton.mp hmem]
    exact Or.inl rfl

/-- A server whose addition is lost stays lost: the next pass, whose
    invocations succeed, does not add it again. -/
theorem lost_server : ∃ s₁ s₂,
    syncStep "0123456789abcdef" (SyncState.start "0123456789abcdef")
      ⟨keyedServerDb, true, false⟩ s₁ ∧
    syncStep "0123456789abcdef" s₁ ⟨keyedServerDb, true, true⟩ s₂ ∧
    ¬ Follows keyedServerDb s₂.ntpd := by
  have hproper := admissible_keyedServerDb.proper
  obtain ⟨s₁, h₁⟩ := exists_syncStep "0123456789abcdef"
    (SyncState.start "0123456789abcdef") ⟨keyedServerDb, true, false⟩ hproper
  obtain ⟨s₂, h₂⟩ := exists_syncStep "0123456789abcdef"
    s₁ ⟨keyedServerDb, true, true⟩ hproper
  refine ⟨s₁, s₂, h₁, h₂, ?_⟩
  intro hfollow
  obtain ⟨hservers, _⟩ := pass_after_failure h₁ rfl h₂
  have hthere := (hfollow.servers "10.0.0.1" _).mpr ⟨_, List.mem_cons_self, rfl, rfl⟩
  rw [hservers] at hthere
  cases hthere

end recovery

end OpsNtpd.Daemon
