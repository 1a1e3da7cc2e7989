import OpsNtpd.Intent
import OpsNtpd.Daemon.Associations

/-! # The Event Log

  A pass logs an `NTP_GLOBAL` event when authentication has been switched, an
  `NTP_KEY` event with the keys that it tells ntpd to trust and no longer to
  trust, and an `NTP_ASSOC` event for each server that has changed. Here the
  log is read: somebody who has nothing but the events keeps account of the
  servers, the trusted keys and the flag.

  The main result is that the account is right after every pass.
-/

namespace OpsNtpd

open Cli Daemon Text Transition

/-! ## Section 1: Reading the log -/

/-- What a reader of the log keeps account of. -/
structure Account where
  /-- `server_info`, by server. -/
  servers : Dict String String
  trusted : Finset Int
  auth : String

/-- Nothing has been logged. -/
def Account.start : Account := { servers := ∅, trusted := ∅, auth := "false" }

/-- The keys that a value of an `NTP_KEY` event lists. -/
def listedKeys (value : String) : List Int :=
  if value = "-" then [] else (words value).map leadingInt

/-- The account after an event. -/
def Account.read (a : Account) (e : Event) : Account :=
  match e.category, e.args with
  | "NTP_GLOBAL", [("old", _), ("new", new)] => { a with auth := new }
  | "NTP_KEY", [("trusted_keys", trusted), ("untrusted_keys", untrusted)] =>
      { a with
        trusted :=
          (a.trusted \ (listedKeys untrusted).toFinset) ∪ (listedKeys trusted).toFinset }
  | "NTP_ASSOC", [("event", event), ("server", server), ("server_info", info)] =>
      { a with
        servers := if event = "Delete" then a.servers.erase server else a.servers.insert server info }
  | _, _ => a

/-- The account after a log. -/
def Account.readAll (a : Account) (log : List Event) : Account := log.foldl Account.read a

section reading
variable (a : Account)

@[simp] theorem readAll_nil : a.readAll [] = a := rfl

@[simp] theorem readAll_singleton (e : Event) : a.readAll [e] = a.read e := rfl

theorem readAll_append (log log' : List Event) :
    a.readAll (log ++ log') = (a.readAll log).readAll log' := List.foldl_append

end reading

/-! ## Section 2: The events of the keys -/

/-- `t_keys_str` and `unt_keys_str` -/
def keysStr (keys : List Int) : String := if keys.length > 0 then joinKeys keys else "-"

/-- The `NTP_KEY` event. -/
def keyEvent (trusted untrusted : List Int) : Event :=
  { category := "NTP_KEY"
    args := [("trusted_keys", keysStr trusted), ("untrusted_keys", keysStr untrusted)] }

section keys
variable {l g : KeyMap} {us ts is : List Int}

theorem words_joinKeys {keys : List Int} (h : ∀ key ∈ keys, 0 ≤ key) :
    words (joinKeys keys) = keys.map toString := by
  refine words_intercalate fun w hw => ?_
  obtain ⟨key, hkey, rfl⟩ := List.mem_map.mp hw
  exact (isNumeral_toString_int (h key hkey)).isWord

/-- A listing is read back. -/
theorem listedKeys_keysStr {keys : List Int} (h : ∀ key ∈ keys, 0 ≤ key) :
    listedKeys (keysStr keys) = keys := by
  by_cases hnil : keys = []
  · rw [hnil]
    rfl
  · have hpos : keys.length > 0 := List.length_pos_iff.mpr hnil
    have hwords := words_joinKeys h
    have hdash : joinKeys keys ≠ "-" := by
      intro heq
      -- the only word would be a numeral
      have hone : ["-"] = keys.map toString := by
        rw [← hwords, heq]
        decide
      have hmem : "-" ∈ keys.map toString := by
        rw [← hone]
        exact List.mem_singleton.mpr rfl
      obtain ⟨key, hkey, htext⟩ := List.mem_map.mp hmem
      have hnum := isNumeral_toString_int (h key hkey)
      rw [htext] at hnum
      exact absurd (hnum.2 '-' (by decide)) (by decide)
    have hback : ∀ key ∈ keys, (leadingInt ∘ toString) key = key := fun key hkey =>
      leadingInt_toString (h key hkey)
    unfold listedKeys keysStr
    rw [if_pos hpos, if_neg hdash, hwords, List.map_map, List.map_congr_left hback, List.map_id']

theorem eq_nil_of_keysStr {keys : List Int} (h : ∀ key ∈ keys, 0 ≤ key)
    (hdash : keysStr keys = "-") : keys = [] := by
  rw [← listedKeys_keysStr h, hdash]
  rfl

/-- The three branches log the same event. -/
theorem events_keys (secret : String) (h : KeyOrders l g us ts is) :
    (checkUpdatesWithNtpKeys secret l g us ts is).events =
      if keysStr ts ≠ "-" ∨ keysStr us ≠ "-" then [keyEvent ts us] else [] := by
  unfold checkUpdatesWithNtpKeys
  by_cases hboth : l.keys.card > 0 ∧ g.keys.card > 0
  · rw [if_pos hboth]
    rfl
  · rw [if_neg hboth]
    by_cases hg : g.keys.card = 0
    · have hgEmpty : g.keys = ∅ := Finset.card_eq_zero.mp hg
      have hus : us = [] := h.untrusted.eq_nil_iff.mpr (by rw [hgEmpty]; exact Finset.empty_sdiff _)
      rw [if_pos hg, hus]
      rfl
    · rw [if_neg hg]
      have hl : l.keys = ∅ := by
        by_contra hne
        exact hboth ⟨Finset.card_pos.mpr (Finset.nonempty_iff_ne_empty.mpr hne), by omega⟩
      have hts : ts = [] := h.trusted.eq_nil_iff.mpr hl
      rw [hts]
      rfl

/-- The event of the keys brings the account up to date. -/
theorem readAll_keys (secret : String) (h : KeyOrders l g us ts is) (hl : ∀ key ∈ l.keys, 0 ≤ key)
    (hg : ∀ key ∈ g.keys, 0 ≤ key) {a : Account} (ha : a.trusted = g.keys) :
    a.readAll (checkUpdatesWithNtpKeys secret l g us ts is).events = { a with trusted := l.keys } := by
  have hts : ∀ key ∈ ts, 0 ≤ key := fun key hkey => hl key (h.trusted.mem_iff.mp hkey)
  have hus : ∀ key ∈ us, 0 ≤ key := fun key hkey =>
    hg key (Finset.mem_sdiff.mp (h.untrusted.mem_iff.mp hkey)).1
  have hset : (g.keys \ (g.keys \ l.keys)) ∪ l.keys = l.keys := by
    rw [sdiff_sdiff_right_self]
    exact Finset.union_eq_right.mpr Finset.inter_subset_right
  rw [events_keys secret h]
  by_cases hlogged : keysStr ts ≠ "-" ∨ keysStr us ≠ "-"
  · rw [if_pos hlogged, readAll_singleton]
    -- the event lists all keys that are to be trusted, not only the new ones
    show { a with
      trusted := (a.trusted \ (listedKeys (keysStr us)).toFinset) ∪
        (listedKeys (keysStr ts)).toFinset } = { a with trusted := l.keys }
    rw [listedKeys_keysStr hus, listedKeys_keysStr hts, ha, h.untrusted.2, h.trusted.2, hset]
  · -- nothing to trust and nothing to give up: both maps are empty
    rw [if_neg hlogged, readAll_nil]
    rw [not_or, not_not, not_not] at hlogged
    have hnone : l.keys = ∅ := h.trusted.eq_nil_iff.mp (eq_nil_of_keysStr hts hlogged.1)
    have hgone : g.keys \ l.keys = ∅ := h.untrusted.eq_nil_iff.mp (eq_nil_of_keysStr hus hlogged.2)
    rw [hnone, Finset.sdiff_empty] at hgone
    rw [hgone] at ha
    rw [hnone, ← ha]

end keys

/-! ## Section 3: The events of the servers -/

section servers
variable {l g : AssocMap} {vrf : Uuid}

/-- The event of one server. -/
theorem readAll_assocChange {a : Account} {address : String} {new old : Option AssocTuple}
    (hnew : ∀ v ∈ new, v.address = address) (hold : ∀ w ∈ old, w.address = address)
    (ha : a.servers.lookup address = old.map serverInfo) :
    ∃ servers, a.readAll (assocChange new old).toList = { a with servers := servers } ∧
      ∀ x, servers.lookup x = if x = address then new.map serverInfo else a.servers.lookup x := by
  cases new with
  | none =>
    cases old with
    | none =>
      refine ⟨a.servers, rfl, fun x => ?_⟩
      -- no event, and the account had no such server
      split
      · next heq => rw [heq, ha]
      · rfl
    | some w =>
      refine ⟨a.servers.erase w.address, rfl, fun x => ?_⟩
      rw [hold w rfl]
      exact Dict.lookup_erase_eq _ _ _
  | some v =>
    have hinsert : ∀ x, (a.servers.insert v.address (serverInfo v)).lookup x =
        if x = address then some (serverInfo v) else a.servers.lookup x := by
      intro x
      rw [hnew v rfl]
      exact Dict.lookup_insert_eq _ _ _ _
    cases old with
    | none => exact ⟨_, rfl, hinsert⟩
    | some w =>
      by_cases hsame : v = w
      · refine ⟨a.servers, by rw [hsame, assocChange_self]; rfl, fun x => ?_⟩
        -- an unchanged server is not logged, and the account has it already
        split
        · next heq => rw [heq, ha, hsame]
        · rfl
      · refine ⟨_, ?_, hinsert⟩
        rw [assocChange, if_neg hsame]
        rfl

/-- The entries of a map are stored under the VRF and their own addresses. -/
def InVrf (vrf : Uuid) (m : AssocMap) : Prop :=
  ∀ k v, m.lookup k = some v → k.1 = vrf ∧ v.address = k.2

/-- **Loop.** The events of the keys `ks` bring the account of their servers up
    to date. -/
theorem readAll_assocChanges (hl : InVrf vrf l) (hg : InVrf vrf g) {ks : List (Uuid × String)}
    (hnd : ks.Nodup) (hks : ∀ k ∈ ks, k.1 = vrf) {a : Account}
    (ha : ∀ k ∈ ks, a.servers.lookup k.2 = (g.lookup k).map serverInfo) :
    ∃ servers,
      a.readAll (ks.filterMap fun k => assocChange (l.lookup k) (g.lookup k)) =
        { a with servers := servers } ∧
      ∀ x, servers.lookup x =
        if (vrf, x) ∈ ks then (l.lookup (vrf, x)).map serverInfo else a.servers.lookup x := by
  induction ks generalizing a with
  | nil => exact ⟨a.servers, rfl, fun x => (if_neg List.not_mem_nil).symm⟩
  | cons k ks ih =>
    obtain ⟨hk, hnd⟩ := List.nodup_cons.mp hnd
    obtain ⟨hkvrf, hksvrf⟩ := List.forall_mem_cons.mp hks
    obtain ⟨hak, haks⟩ := List.forall_mem_cons.mp ha
    have heq : ∀ x, (vrf, x) = k ↔ x = k.2 := by
      intro x
      rw [← hkvrf]
      exact Prod.ext_iff.trans (and_iff_right rfl)
    obtain ⟨servers₁, hread₁, hlook₁⟩ := readAll_assocChange
      (fun v hv => (hl k v hv).2) (fun w hw => (hg k w hw).2) hak
    -- the events of the other keys are about other addresses
    have hothers : ∀ k' ∈ ks, servers₁.lookup k'.2 = (g.lookup k').map serverInfo := by
      intro k' hk'
      rw [hlook₁, if_neg, haks k' hk']
      intro haddr
      have hsame : k' = k := by
        rw [← (heq k'.2).mpr haddr, ← hksvrf k' hk']
      rw [hsame] at hk'
      exact hk hk'
    obtain ⟨servers, hread, hlook⟩ := @ih hnd hksvrf { a with servers := servers₁ } hothers
    have hcons : (k :: ks).filterMap (fun k => assocChange (l.lookup k) (g.lookup k)) =
        (assocChange (l.lookup k) (g.lookup k)).toList ++
          ks.filterMap fun k => assocChange (l.lookup k) (g.lookup k) := by
      rw [List.filterMap_cons]
      cases assocChange (l.lookup k) (g.lookup k) <;> rfl
    refine ⟨servers, by rw [hcons, readAll_append, hread₁, hread], fun x => ?_⟩
    rw [hlook]
    by_cases hx : (vrf, x) ∈ ks
    · rw [if_pos hx, if_pos (List.mem_cons_of_mem _ hx)]
    · rw [if_neg hx]
      show servers₁.lookup x = _
      rw [hlook₁]
      by_cases hself : x = k.2
      · rw [if_pos hself, if_pos (List.mem_cons.mpr (Or.inl ((heq x).mpr hself))),
          (heq x).mpr hself]
      · rw [if_neg hself, if_neg]
        intro hmem
        rcases List.mem_cons.mp hmem with hin | hin
        · exact hself ((heq x).mp hin)
        · exact hx hin

end servers

/-! ## Section 4: Runs -/

/-- The databases of the CLI over this VRF. -/
structure CliDb (isValidIpv4 : Nat → Bool) (vrf : Uuid) (db : Db) : Prop where
  wellFormed : WellFormed isValidIpv4 db
  oneSystem : db.system.length ≤ 1
  vrf : db.vrf.map VrfRow.uuid = [vrf]

/-- The passes of the daemon, over databases that are `allowed`, with its log. -/
def passes (secret : String) (allowed : Db → Prop) : System (Shadow × List Event) Db :=
  { init := fun s => s = (Shadow.start, [])
    step := fun s db s' =>
      allowed db ∧ ∃ b, IsPass secret db s.1 s'.1 b ∧ s'.2 = s.2 ++ b.events }

/-- The account agrees with the shadow state. -/
structure Follows (vrf : Uuid) (a : Account) (sh : Shadow) : Prop where
  inVrf : InVrf vrf sh.gNtpaMap
  servers : ∀ x, a.servers.lookup x = (sh.gNtpaMap.lookup (vrf, x)).map serverInfo
  keyRange : ∀ key ∈ sh.gNtpkDb.keys, 0 ≤ key
  trusted : a.trusted = sh.gNtpkDb.keys
  auth : a.auth = sh.authState

section runs
variable {isValidIpv4 : Nat → Bool} {secret : String} {vrf : Uuid} {db : Db}

theorem follows_start : Follows vrf Account.start Shadow.start :=
  { inVrf := fun _ _ hv => by cases hv
    servers := fun _ => rfl
    keyRange := fun key hkey => by cases hkey
    trusted := Finmap.keys_empty.symm
    auth := rfl }

theorem CliDb.admissible (h : CliDb isValidIpv4 vrf db) : Admissible db :=
  admissible_of_wellFormed h.wellFormed h.oneSystem

theorem CliDb.vrf_eq (h : CliDb isValidIpv4 vrf db) {r : NtpAssociationRow}
    (hr : r ∈ db.ntpAssociation) : r.vrf = some vrf := by
  obtain ⟨v, hv, hid⟩ := List.map_eq_singleton_iff.mp h.vrf
  rw [h.wellFormed.assocVrf r hr, hv, ← hid]
  rfl

theorem CliDb.keys_nonneg (h : CliDb isValidIpv4 vrf db) :
    ∀ key ∈ (demandedKeys db).keys, 0 ≤ key := by
  intro key hkey
  obtain ⟨_, r, hr, _, rfl⟩ := (mem_demandedKeys h.admissible.proper).mp hkey
  have hmin : (1 : Int) ≤ r.keyId := (h.wellFormed.keyValid r hr).1.1
  omega

theorem CliDb.lookup_readAssocs (h : CliDb isValidIpv4 vrf db) {k : Uuid × String} {v : AssocTuple} :
    (readAssocs db).lookup k = some v ↔
      ∃ r ∈ db.ntpAssociation, k = (vrf, r.address) ∧ v = assocTuple db r vrf := by
  rw [Daemon.lookup_readAssocs h.admissible.proper]
  refine exists_congr fun r => and_congr_right fun hr => ?_
  rw [assocEntry_eq_some, h.vrf_eq hr]
  constructor
  · intro hex
    obtain ⟨vrf', hvrf', hk, hv⟩ := hex
    rw [Option.some.inj hvrf']
    exact ⟨hk, hv⟩
  · intro hand
    exact ⟨vrf, rfl, hand⟩

theorem CliDb.inVrf (h : CliDb isValidIpv4 vrf db) : InVrf vrf (readAssocs db) := by
  intro k v hv
  obtain ⟨r, _, rfl, rfl⟩ := h.lookup_readAssocs.mp hv
  exact ⟨rfl, rfl⟩

/-- **Step.** A pass logs what brings the account up to date. -/
theorem follows_pass (hdb : CliDb isValidIpv4 vrf db) {a : Account} {sh sh' : Shadow} {b : Batch}
    (h : Follows vrf a sh) (hpass : IsPass secret db sh sh' b) :
    Follows vrf (a.readAll b.events) sh' := by
  have hproper := hdb.admissible.proper
  have hshadow := pass_shadow hproper hpass
  obtain ⟨o, hvalid, hrun⟩ := (isPass_iff hproper).mp hpass
  rw [checkUpdatesFromOvsdb_eq hproper] at hrun
  have hevents := congrArg (fun p : Shadow × Batch => p.2.events) (Except.ok.inj hrun)
  dsimp only at hevents
  -- the flag
  have hflag : a.readAll (if decide (sh.authState ≠ authenticationEnable db) = true then
      [authEvent sh.authState (authenticationEnable db)] else []) =
      { a with auth := authenticationEnable db } := by
    split
    · rfl
    · next hsame =>
      rw [decide_eq_true_iff, not_not] at hsame
      rw [readAll_nil, ← hsame, ← h.auth]
  -- the keys
  have hkeys := @readAll_keys _ _ _ _ _ secret hvalid.keys hdb.keys_nonneg h.keyRange
    { a with auth := authenticationEnable db } h.trusted
  -- the servers
  have hassocs : (checkUpdatesWithNtpAssociations (readAssocs db) sh.gNtpaMap
      (decide (sh.authState ≠ authenticationEnable db)) o.ks o.rs).events =
      o.ks.filterMap fun k => assocChange ((readAssocs db).lookup k) (sh.gNtpaMap.lookup k) :=
    events_assocDiff hvalid.ks.1
  have hvrf : ∀ k ∈ o.ks, k.1 = vrf := by
    intro k hk
    rcases Finset.mem_union.mp (hvalid.ks.mem_iff.mp hk) with hnew | hold
    · obtain ⟨v, hv⟩ := Dict.mem_keys_iff.mp hnew
      exact (hdb.inVrf k v hv).1
    · obtain ⟨w, hw⟩ := Dict.mem_keys_iff.mp hold
      exact (h.inVrf k w hw).1
  have hbefore : ∀ k ∈ o.ks, a.servers.lookup k.2 = (sh.gNtpaMap.lookup k).map serverInfo := by
    intro k hk
    rw [h.servers, ← hvrf k hk]
  obtain ⟨servers, hread, hlook⟩ := @readAll_assocChanges _ _ _ hdb.inVrf h.inVrf _ hvalid.ks.1 hvrf
    { a with auth := authenticationEnable db, trusted := (demandedKeys db).keys } hbefore
  rw [← hevents, readAll_append, readAll_append, hflag, hkeys, hassocs, hread, hshadow]
  refine { inVrf := hdb.inVrf, servers := ?_, keyRange := hdb.keys_nonneg, trusted := rfl
           auth := rfl }
  intro x
  show servers.lookup x = _
  rw [hlook]
  by_cases hx : (vrf, x) ∈ o.ks
  · rw [if_pos hx]
  · -- a server that is in neither map is in no account
    rw [if_neg hx]
    have hnot : (vrf, x) ∉ (readAssocs db).keys ∪ sh.gNtpaMap.keys := fun hmem =>
      hx (hvalid.ks.mem_iff.mpr hmem)
    rw [Finset.mem_union, not_or] at hnot
    show a.servers.lookup x = _
    rw [h.servers, Dict.lookup_eq_none_of_not_mem_keys hnot.1,
      Dict.lookup_eq_none_of_not_mem_keys hnot.2]

/-- **Run.** -/
theorem follows_run {s : Shadow × List Event}
    (h : (passes secret (CliDb isValidIpv4 vrf)).Reachable s) :
    Follows vrf (Account.start.readAll s.2) s.1 := by
  refine @System.invariant _ _ _ (fun s => Follows vrf (Account.start.readAll s.2) s.1) ?_ ?_ s h
  · intro s₀ hs₀
    have heq : s₀ = (Shadow.start, []) := hs₀
    rw [heq]
    exact follows_start
  · intro s₁ db s₂ hs₁ hstep
    obtain ⟨hdb, b, hpass, hlog⟩ := hstep
    rw [hlog, readAll_append]
    exact follows_pass hdb hs₁ hpass

/-- `server_info` of a server with these options. -/
def entryInfo (e : ServerEntry) : String :=
  "prefer " ++ (if e.prefer then "true" else "false") ++ ", ver " ++ e.version ++
    match e.key with
    | none => ""
    | some key => ", key " ++ toString key

theorem serverInfo_assocTuple (h : WellFormed isValidIpv4 db) {row : NtpAssociationRow}
    (hrow : row ∈ db.ntpAssociation) :
    serverInfo (assocTuple db row vrf) = entryInfo (serverEntry db row) := by
  obtain ⟨version, prefer, _, hattr⟩ := h.assocAttributes row hrow
  unfold serverInfo entryInfo assocTuple serverEntry
  cases db.keyOf row <;> cases prefer <;> simp [hattr, String.append_assoc]

/-- **The log is complete.** After every run of passes over databases of the
    CLI, whatever was configured in between and however the loops have been
    iterated, the events alone tell which servers are configured and with which
    options, which keys are trusted, and whether authentication is enabled. -/
theorem eventLog_complete {tr : List ((Shadow × List Event) × Db)} {s s' : Shadow × List Event}
    (h : (passes secret (CliDb isValidIpv4 vrf)).Trace ((s, db) :: tr) s') :
    (Account.start.readAll s'.2).servers = Dict.mapValues entryInfo (configOf db).servers ∧
      (∀ key, key ∈ (Account.start.readAll s'.2).trusted ↔
        ∃ pwd, (intentOf db).Trusts key pwd) ∧
      (Account.start.readAll s'.2).auth = authenticationEnable db := by
  have hfollows := follows_run ⟨_, h⟩
  cases h with
  | step _ _ hstep =>
    obtain ⟨hdb, b, hpass, _⟩ := hstep
    have hproper := hdb.admissible.proper
    rw [pass_shadow hproper hpass] at hfollows
    refine ⟨?_, ?_, hfollows.auth⟩
    · apply Finmap.ext_lookup
      intro x
      rw [hfollows.servers, Dict.lookup_mapValues]
      apply Option.ext
      intro info
      rw [Option.map_eq_some_iff, Option.map_eq_some_iff]
      have hconfig : ∀ e, (configOf db).servers.lookup x = some e ↔
          ∃ r ∈ db.ntpAssociation, r.address = x ∧ serverEntry db r = e := fun e =>
        Rows.lookup_index hdb.wellFormed.addresses
      constructor
      · intro hex
        obtain ⟨v, hv, rfl⟩ := hex
        obtain ⟨r, hr, hk, rfl⟩ := hdb.lookup_readAssocs.mp hv
        refine ⟨_, (hconfig _).mpr ⟨r, hr, (congrArg Prod.snd hk).symm, rfl⟩, ?_⟩
        exact (serverInfo_assocTuple hdb.wellFormed hr).symm
      · intro hex
        obtain ⟨e, he, rfl⟩ := hex
        obtain ⟨r, hr, rfl, rfl⟩ := (hconfig _).mp he
        exact ⟨_, hdb.lookup_readAssocs.mpr ⟨r, hr, rfl, rfl⟩,
          serverInfo_assocTuple hdb.wellFormed hr⟩
    · intro key
      rw [hfollows.trusted, Dict.mem_keys_iff]
      -- the map of trusted keys is empty unless authentication is enabled
      constructor
      · intro hex
        obtain ⟨v, hv⟩ := hex
        exact ⟨v.1, ((lookup_demandedKeys_intent hdb.wellFormed hproper).mp hv).1⟩
      · intro hex
        obtain ⟨pwd, hpwd⟩ := hex
        exact ⟨(pwd, true), (lookup_demandedKeys_intent hdb.wellFormed hproper).mpr ⟨hpwd, rfl⟩⟩

end runs

/-! ## Section 5: Examples -/

/-- A switch on which `ntp server 10.0.0.1 prefer` has been entered. -/
def loggedDb : Db :=
  Command.exec (fun _ => true) (factoryDefault 2 0 1 1) (.ntpServer "10.0.0.1" true none none)

theorem cliDb_loggedDb : CliDb (fun _ => true) 0 loggedDb :=
  { wellFormed := wellFormed_exec (wellFormed_emptyTables _ 2 0 _) _
    oneSystem := by decide
    vrf := by decide }

theorem eventLog_complete_one_server :
    ∃ s, (passes "0123456789abcdef" (CliDb (fun _ => true) 0)).Trace
        [((Shadow.start, []), loggedDb)] s ∧
      (Account.start.readAll s.2).servers.lookup "10.0.0.1" = some "prefer true, ver 3" := by
  obtain ⟨sh, b, hpass⟩ :=
    exists_pass "0123456789abcdef" cliDb_loggedDb.admissible.proper Shadow.start
  have htrace : (passes "0123456789abcdef" (CliDb (fun _ => true) 0)).Trace
      [((Shadow.start, []), loggedDb)] (sh, [] ++ b.events) :=
    .step _ (.init rfl) ⟨cliDb_loggedDb, b, hpass, rfl⟩
  obtain ⟨hservers, _⟩ := eventLog_complete htrace
  refine ⟨_, htrace, ?_⟩
  rw [hservers, Dict.lookup_mapValues]
  decide

end OpsNtpd
