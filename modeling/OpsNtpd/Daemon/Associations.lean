import OpsNtpd.Daemon.Pass
import OpsNtpd.Framework.Numbered

/-! # Daemon: The Associations that a Pass Leaves Alone

  ntpd gives an association id to each server that it mobilises, and a server
  that is unconfigured and configured again has to be synchronised anew. The
  commands of `ops_ntpd_check_updates_with_ntp_associations` name the servers
  that have changed and, after a change of authentication, those with a key;
  every other server keeps its association.

  - `assocChange`: the event of one key of the two maps.
  - `Affected`: the keys whose servers the commands name.
  - `associations_undisturbed`: what a run of the commands keeps, and the events.
-/

namespace OpsNtpd.Daemon

open Keyed

/-! ## Section 1: The event of one key -/

/-- The event for a key with the entry `new` in the map read from the tables
    and the entry `old` in the shadow map. -/
def assocChange : (new old : Option AssocTuple) → Option Event
  | some v, none =>
      some
        { category := "NTP_ASSOC"
          args := [("event", "Add"), ("server", v.address), ("server_info", serverInfo v)] }
  | some v, some w =>
      if v = w then none
      else
        some
          { category := "NTP_ASSOC"
            args := [("event", "Change"), ("server", v.address), ("server_info", serverInfo v)] }
  | none, some w =>
      some
        { category := "NTP_ASSOC"
          args := [("event", "Delete"), ("server", w.address), ("server_info", "")] }
  | none, none => none

/-- An event that names the server `address`. -/
def Event.names (address : String) (e : Event) : Prop := ("server", address) ∈ e.args

instance (address : String) (e : Event) : Decidable (e.names address) :=
  inferInstanceAs (Decidable (_ ∈ _))

section events
variable {l g : AssocMap} {ks rs : List (Uuid × String)}

theorem assocChange_self (v : Option AssocTuple) : assocChange v v = none := by
  cases v with
  | none => rfl
  | some v => exact if_pos rfl

/-- **Step.** One key of the loop logs its event. -/
theorem events_assocDiffStep (st : AssocDiff) (k : Uuid × String) :
    (assocDiffStep l st k).events =
      st.events ++ (assocChange (l.lookup k) (st.gNtpaMap.lookup k)).toList := by
  unfold assocDiffStep
  cases l.lookup k with
  | some v =>
    cases st.gNtpaMap.lookup k with
    | none => rfl
    | some w =>
      by_cases hsame : v = w
      · rw [hsame, assocChange_self, Option.toList_none, List.append_nil]
        exact congrArg AssocDiff.events (if_neg (not_not.mpr rfl))
      · simp only [assocChange, if_pos hsame, if_neg hsame, Option.toList_some]
        rfl
  | none =>
    cases st.gNtpaMap.lookup k with
    | none => exact (List.append_nil _).symm
    | some w => rfl

/-- **Run.** The loop logs the events of its keys, in their order. -/
theorem events_assocDiff (hnd : ks.Nodup) :
    (assocDiff l g ks).events = ks.filterMap fun k => assocChange (l.lookup k) (g.lookup k) := by
  induction ks using List.reverseRecOn with
  | nil => rfl
  | append_singleton ks k ih =>
    have hnd' := List.nodup_append.mp hnd
    have hk : k ∉ ks := fun hmem => hnd'.2.2 k hmem k (List.mem_singleton.mpr rfl) rfl
    -- the key has not come up before, so its shadow entry is the old one
    have hold : (assocDiff l g ks).gNtpaMap.lookup k = g.lookup k := by
      rw [(assocDiff_loop hnd'.1).shadow, if_neg hk]
    rw [assocDiff_append, events_assocDiffStep, ih hnd'.1, hold, List.filterMap_append,
      List.filterMap_cons, List.filterMap_nil]
    cases assocChange (l.lookup k) (g.lookup k) <;> rfl

theorem names_assocEvent {event server info address : String} :
    (assocEvent event server info).names address ↔ server = address := by
  simp [Event.names, assocEvent, eq_comm]

end events

/-! ## Section 2: The servers that the commands name -/

/-- The entries of both maps are stored under their own addresses, and no two
    keys of the maps have one address. -/
structure AddressesDiffer (l g : AssocMap) : Prop where
  new : ∀ k v, l.lookup k = some v → v.address = k.2
  old : ∀ k v, g.lookup k = some v → v.address = k.2
  unique : ∀ k ∈ l.keys ∪ g.keys, ∀ k' ∈ l.keys ∪ g.keys, k.2 = k'.2 → k = k'

/-- The entry of a key has changed, or has a key that a reconfiguration is about. -/
def Affected (l g : AssocMap) (triggerReconfig : Bool) (k : Uuid × String) : Prop :=
  l.lookup k ≠ g.lookup k ∨
    triggerReconfig = true ∧ ∃ v, l.lookup k = some v ∧ v.keyId ≠ none

section commands
variable {l g : AssocMap} {triggerReconfig : Bool} {ks rs : List (Uuid × String)}

theorem mem_union_of_new {k : Uuid × String} {v : AssocTuple} (hv : l.lookup k = some v) :
    k ∈ l.keys ∪ g.keys :=
  Finset.mem_union_left _ (Dict.mem_keys_iff.mpr ⟨v, hv⟩)

theorem mem_union_of_old {k : Uuid × String} {w : AssocTuple} (hw : g.lookup k = some w) :
    k ∈ l.keys ∪ g.keys :=
  Finset.mem_union_right _ (Dict.mem_keys_iff.mpr ⟨w, hw⟩)

theorem key_replace {p : String × ServerOpts} {c : Cmd String ServerOpts}
    (hc : c ∈ replace p) : c.key = p.1 := by
  rcases List.mem_cons.mp hc with rfl | hc'
  · rfl
  · rw [List.mem_singleton.mp hc']
    rfl

/-- Every command is about the server of an affected key. -/
theorem affected_of_named (h : AddressesDiffer l g) (hks : IterOrder ks (l.keys ∪ g.keys))
    {a : String}
    (ha : a ∈ ((checkUpdatesWithNtpAssociations l g triggerReconfig ks rs).serverConfigs).map
      Cmd.key) :
    ∃ k ∈ l.keys ∪ g.keys, k.2 = a ∧ Affected l g triggerReconfig k := by
  obtain ⟨_, hadd, hdel⟩ := assocDiff_after hks
  rw [serverConfigs_eq _ hks] at ha
  obtain ⟨c, hc, hca⟩ := List.mem_map.mp ha
  rw [List.mem_append, List.mem_append] at hc
  rcases hc with (hrevise | hdelete) | hadds
  · -- a reconfiguration names the entries of the new map that have a key
    obtain ⟨p, hp, hc'⟩ := List.mem_flatMap.mp hrevise
    cases triggerReconfig with
    | false => exact absurd hp List.not_mem_nil
    | true =>
      obtain ⟨k, _, v, hv, hkey, hp'⟩ := mem_reviseConfigs.mp hp
      refine ⟨k, mem_union_of_new hv, ?_, Or.inr ⟨rfl, v, hv, hkey⟩⟩
      rw [← hca, key_replace hc', ← hp', h.new k v hv]
  · -- `unconfig` takes the address from the key, not from the tuple
    obtain ⟨_, haddr, hc'⟩ := List.mem_map.mp hdelete
    obtain ⟨k, hk, hka⟩ := List.mem_map.mp haddr
    obtain ⟨w, hw, hne⟩ := (hdel k).mp hk
    refine ⟨k, mem_union_of_old hw, ?_, Or.inl (by rw [hw]; exact hne)⟩
    rw [← hca, ← hc', ← hka]
    rfl
  · obtain ⟨p, hp, hc'⟩ := List.mem_map.mp hadds
    obtain ⟨k, hk, v, hv, hp'⟩ := mem_addConfigs.mp hp
    obtain ⟨v', hv', hne⟩ := (hadd k).mp hk
    refine ⟨k, mem_union_of_new hv, ?_, Or.inl (by rw [hv']; exact hne.symm)⟩
    rw [← hca, ← hc', ← hp', ← h.new k v hv]
    rfl

/-- The server of an affected key that ntpd has is unconfigured. -/
theorem drop_of_affected (h : AddressesDiffer l g) (hks : IterOrder ks (l.keys ∪ g.keys))
    (hrs : IterOrder rs l.keys) {k : Uuid × String} {w : AssocTuple}
    (hw : g.lookup k = some w) (haff : Affected l g triggerReconfig k) :
    Cmd.drop k.2 ∈
      (checkUpdatesWithNtpAssociations l g triggerReconfig ks rs).serverConfigs := by
  obtain ⟨_, _, hdel⟩ := assocDiff_after hks
  rw [serverConfigs_eq _ hks, List.mem_append, List.mem_append]
  -- not by `add_configs`, which only puts
  refine Or.inl ?_
  rcases haff with hne | ⟨htrigger, v, hv, hkey⟩
  · rw [hw] at hne
    have hmem : k ∈ (assocDiff l g ks).delete := (hdel k).mpr ⟨w, hw, hne⟩
    exact Or.inr (List.mem_map_of_mem (List.mem_map_of_mem hmem))
  · refine Or.inl (List.mem_flatMap.mpr ⟨(v.address, v.opts), ?_, ?_⟩)
    · rw [if_pos htrigger]
      have hk : k ∈ rs := hrs.mem_iff.mpr (Dict.mem_keys_iff.mpr ⟨v, hv⟩)
      exact mem_reviseConfigs.mpr ⟨k, hk, v, hv, hkey, rfl⟩
    · rw [← h.new k v hv]
      exact List.mem_cons_self

/-- A new map whose addresses differ stands for some servers. -/
theorem exists_mirrored (h : AddressesDiffer l g) : ∃ servers, Mirrors servers l := by
  have hunique : ∀ k k' v v', l.lookup k = some v → l.lookup k' = some v' → k.2 = k'.2 →
      k = k' := by
    intro k k' v v' hv hv' heq
    exact h.unique k (mem_union_of_new hv) k' (mem_union_of_new hv') heq
  let entry : Uuid × String → Option (String × ServerOpts) := fun k =>
    (l.lookup k).map fun v => (k.2, v.opts)
  have hentry : ∀ k p, entry k = some p ↔ ∃ v, l.lookup k = some v ∧ (k.2, v.opts) = p :=
    fun k p => Option.map_eq_some_iff
  -- different keys have different addresses, so no entry overwrites another
  have hnd : ((l.keys.toList.filterMap entry).map Prod.fst).Nodup := by
    rw [List.map_filterMap]
    refine l.keys.nodup_toList.filterMap ?_
    intro k k' a ha ha'
    obtain ⟨p, hp, hpa⟩ := Option.map_eq_some_iff.mp ha
    obtain ⟨p', hp', hpa'⟩ := Option.map_eq_some_iff.mp ha'
    obtain ⟨v, hv, hvp⟩ := (hentry k p).mp hp
    obtain ⟨v', hv', hvp'⟩ := (hentry k' p').mp hp'
    refine hunique k k' v v' hv hv' ?_
    rw [← hpa, ← hvp] at hpa'
    rw [← hvp'] at hpa'
    exact hpa'.symm
  refine ⟨Dict.ofPairs (l.keys.toList.filterMap entry),
    { address := h.new, unique := hunique, opts := ?_ }⟩
  intro a o
  rw [Dict.lookup_ofPairs hnd, List.mem_filterMap]
  constructor
  · intro hex
    obtain ⟨k, _, hk⟩ := hex
    obtain ⟨v, hv, hvp⟩ := (hentry k _).mp hk
    cases hvp
    exact ⟨k, v, hv, rfl, rfl⟩
  · intro hex
    obtain ⟨k, v, hv, hka, hvo⟩ := hex
    refine ⟨k, Finset.mem_toList.mpr (Dict.mem_keys_iff.mpr ⟨v, hv⟩), (hentry k _).mpr ?_⟩
    exact ⟨v, hv, by rw [hka, hvo]⟩

end commands

/-! ## Section 3: Two passes over an unchanged database -/

/-- Two readings of a database that has not changed: the rows make the same
    map, in whatever order they come up. -/
structure Unchanged (db db' : Db) (lNtpaMap : AssocMap) : Prop where
  first : readAssociationRows db db.ntpAssociation = .ok lNtpaMap
  second : readAssociationRows db' db'.ntpAssociation = .ok lNtpaMap
  auth : authenticationEnable db' = authenticationEnable db

theorem unchanged_of_reorders {db db' : Db} (h : Proper db) (hre : db.Reorders db') :
    Unchanged db db' (readAssocs db) :=
  { first := readAssociationRows_eq h
    second := by rw [readAssociationRows_eq (h.reorders hre), readAssocs_reorders h hre]
    auth := authenticationEnable_reorders h hre }

section passes
variable {secret : String} {db db' : Db} {sh sh' sh₁ sh₂ : Shadow} {o o' : PassOrders}
  {b b' : Batch} {m : AssocMap}

/-- The comparison of the keys logs `NTP_KEY` events only. -/
theorem category_keyEvent {l g : KeyMap} {us ts is : List Int} {e : Event}
    (he : e ∈ (checkUpdatesWithNtpKeys secret l g us ts is).events) : e.category = "NTP_KEY" := by
  simp only [checkUpdatesWithNtpKeys, List.mem_ite_nil_right, List.mem_singleton] at he
  rw [he.2]

/-- What a pass without an exception takes from the comparison of the servers. -/
theorem checkUpdatesFromOvsdb_ok (hread : readAssociationRows db db.ntpAssociation = .ok m)
    (hrun : checkUpdatesFromOvsdb secret db sh o = .ok (sh', b)) :
    let assocs := checkUpdatesWithNtpAssociations m sh.gNtpaMap
      (decide (sh.authState ≠ authenticationEnable db)) o.ks o.rs
    sh'.gNtpaMap = assocs.gNtpaMap ∧ sh'.authState = authenticationEnable db ∧
      b.serverConfigs = assocs.serverConfigs ∧
      ∀ e ∈ b.events, e.category = "NTP_ASSOC" → e ∈ assocs.events := by
  cases hkeys : readKeyRows (authenticationEnable db) db.ntpKey with
  | error e =>
    simp only [checkUpdatesFromOvsdb, hkeys] at hrun
    cases hrun
  | ok lNtpkDb =>
    simp only [checkUpdatesFromOvsdb, hkeys, hread] at hrun
    cases hrun
    refine ⟨rfl, rfl, rfl, ?_⟩
    intro e he hcat
    rw [List.mem_append, List.mem_append] at he
    rcases he with (hauth | hkey) | hassoc
    · split at hauth
      · rw [List.mem_singleton.mp hauth] at hcat
        exact absurd hcat (show "NTP_GLOBAL" ≠ "NTP_ASSOC" by decide)
      · cases hauth
    · rw [category_keyEvent hkey] at hcat
      exact absurd hcat (by decide)
    · exact hassoc

/-- Against an equal shadow map the loop logs nothing. -/
theorem events_self {ks : List (Uuid × String)} (hnd : ks.Nodup) :
    (assocDiff m m ks).events = [] := by
  rw [events_assocDiff hnd]
  exact List.filterMap_eq_nil_iff.mpr fun k _ => assocChange_self _

/-- The second of two passes over an unchanged database has no server commands
    and logs no `NTP_ASSOC` event. -/
theorem second_pass_quiet (h : Unchanged db db' m)
    (hks : IterOrder o.ks (m.keys ∪ sh.gNtpaMap.keys))
    (hks' : IterOrder o'.ks (m.keys ∪ sh₁.gNtpaMap.keys))
    (hfirst : checkUpdatesFromOvsdb secret db sh o = .ok (sh₁, b))
    (hsecond : checkUpdatesFromOvsdb secret db' sh₁ o' = .ok (sh₂, b')) :
    b'.serverConfigs = [] ∧ ∀ e ∈ b'.events, e.category ≠ "NTP_ASSOC" := by
  obtain ⟨hshadow, hauth, _, _⟩ := checkUpdatesFromOvsdb_ok h.first hfirst
  obtain ⟨_, _, hconfigs, hevents⟩ := checkUpdatesFromOvsdb_ok h.second hsecond
  -- the first pass has put the map that the second one reads into the shadow
  have hmap : sh₁.gNtpaMap = m := hshadow.trans (assocDiff_after hks).1
  have htrigger : decide (sh₁.authState ≠ authenticationEnable db') = false := by
    rw [hauth, h.auth, decide_eq_false_iff_not, not_not]
  rw [hmap] at hks' hconfigs hevents
  rw [htrigger] at hconfigs
  refine ⟨hconfigs.trans (serverConfigs_self hks'), ?_⟩
  intro e he hcat
  have hmem : e ∈ (assocDiff m m o'.ks).events := hevents e he hcat
  rw [events_self hks'.1] at hmem
  cases hmem

end passes

/-! ## Section 4: What is kept -/

/-- The servers that ntpd has mobilised, by address, each with its association id. -/
abbrev Associations : Type := Numbered String ServerOpts

section kept
variable {l g : AssocMap} {n n' : Associations} {triggerReconfig : Bool}
  {ks rs : List (Uuid × String)}

/-- An association keeps its id exactly if the pass is not about it. -/
theorem number_kept_iff (h : AddressesDiffer l g) (hg : Mirrors n.values g)
    (hks : IterOrder ks (l.keys ∪ g.keys)) (hrs : IterOrder rs l.keys)
    (hrun : Numbered.Run n
      (checkUpdatesWithNtpAssociations l g triggerReconfig ks rs).serverConfigs n')
    {k : Uuid × String} {w : AssocTuple} (hw : g.lookup k = some w) :
    (∃ i, n.number k.2 = some i ∧ n'.number k.2 = some i) ↔
      ¬ Affected l g triggerReconfig k := by
  obtain ⟨i, hi⟩ := Numbered.lookup_values.mp ((hg.opts k.2 w.opts).mpr ⟨k, w, hw, rfl, rfl⟩)
  have hnum : n.number k.2 = some i := Numbered.number_eq_some.mpr ⟨_, hi⟩
  constructor
  · intro hkept haff
    obtain ⟨j, hj, hj'⟩ := hkept
    rw [hnum] at hj
    rw [← hj] at hj'
    exact Numbered.run_number_of_drop hrun (drop_of_affected h hks hrs hw haff)
      (n.given _ _ hi) hj'
  · intro hnot
    -- a command with this address would be about an affected key, hence this one
    have hnamed : k.2 ∉
        ((checkUpdatesWithNtpAssociations l g triggerReconfig ks rs).serverConfigs).map
          Cmd.key := by
      intro hmem
      obtain ⟨k', hk', haddr, haff⟩ := affected_of_named h hks hmem
      rw [h.unique k' hk' k (mem_union_of_old hw) haddr] at haff
      exact hnot haff
    refine ⟨i, hnum, Numbered.number_eq_some.mpr ⟨w.opts, ?_⟩⟩
    rw [Numbered.run_entry_of_not_named hrun hnamed]
    exact hi

theorem not_affected_iff {k : Uuid × String} {w : AssocTuple} (hw : g.lookup k = some w) :
    ¬ Affected l g triggerReconfig k ↔
      l.lookup k = some w ∧ (w.keyId = none ∨ triggerReconfig = false) := by
  unfold Affected
  rw [not_or, not_not, hw]
  refine and_congr_right fun hl => ?_
  rw [hl]
  cases triggerReconfig <;> simp

/-- An event names the server of its key. -/
theorem names_of_assocChange (h : AddressesDiffer l g) {k : Uuid × String} {e : Event}
    (he : assocChange (l.lookup k) (g.lookup k) = some e) (a : String) :
    e.names a ↔ k.2 = a := by
  cases hl : l.lookup k with
  | some v =>
    rw [hl] at he
    rw [← h.new k v hl]
    cases hg : g.lookup k with
    | none =>
      rw [hg] at he
      cases he
      exact names_assocEvent
    | some w =>
      rw [hg] at he
      by_cases hsame : v = w
      · rw [hsame, assocChange_self] at he
        cases he
      · rw [assocChange, if_neg hsame] at he
        cases he
        exact names_assocEvent
  | none =>
    rw [hl] at he
    cases hg : g.lookup k with
    | none =>
      rw [hg] at he
      cases he
    | some w =>
      rw [hg] at he
      cases he
      rw [← h.old k w hg]
      exact names_assocEvent

/-- The events about one key: the events of the others name other servers. -/
theorem events_of_key (h : AddressesDiffer l g) (hks : IterOrder ks (l.keys ∪ g.keys))
    {k : Uuid × String} (hk : k ∈ l.keys ∪ g.keys) :
    (assocDiff l g ks).events.filter (fun e => e.names k.2) =
      (assocChange (l.lookup k) (g.lookup k)).toList := by
  rw [events_assocDiff hks.1]
  refine Rows.filter_filterMap_eq hks.1 (hks.mem_iff.mpr hk) ?_
  intro k' hk' e he
  rw [decide_eq_true_iff, names_of_assocChange h he]
  constructor
  · intro haddr
    exact h.unique k' (hks.mem_iff.mp hk') k hk haddr
  · intro heq
    rw [heq]

/-- **Unaffected associations are not disturbed.** Let ntpd have the servers of
    the shadow map `g`. In every run of the commands that bring it to the new
    map `l`, an association keeps its id exactly if its entry is the same in
    both maps and it has no key or there is no reconfiguration, and ntpd has
    the servers of `l` at the end. Every key of the maps logs the event of its
    change, and no other event is logged. A second pass over an unchanged
    database has no server commands and no `NTP_ASSOC` event. -/
theorem associations_undisturbed (h : AddressesDiffer l g) (hg : Mirrors n.values g)
    (hks : IterOrder ks (l.keys ∪ g.keys)) (hrs : IterOrder rs l.keys)
    (hrun : Numbered.Run n
      (checkUpdatesWithNtpAssociations l g triggerReconfig ks rs).serverConfigs n') :
    (∀ k w, g.lookup k = some w →
      ((∃ i, n.number k.2 = some i ∧ n'.number k.2 = some i) ↔
        l.lookup k = some w ∧ (w.keyId = none ∨ triggerReconfig = false))) ∧
    Mirrors n'.values l ∧
    (∀ k ∈ l.keys ∪ g.keys,
      (checkUpdatesWithNtpAssociations l g triggerReconfig ks rs).events.filter
        (fun e => e.names k.2) = (assocChange (l.lookup k) (g.lookup k)).toList) ∧
    (∀ e ∈ (checkUpdatesWithNtpAssociations l g triggerReconfig ks rs).events,
      ∃ k ∈ l.keys ∪ g.keys, assocChange (l.lookup k) (g.lookup k) = some e) ∧
    (∀ (secret : String) (db db' : Db) (m : AssocMap) (sh sh₁ sh₂ : Shadow)
      (o o' : PassOrders) (b b' : Batch), Unchanged db db' m →
      IterOrder o.ks (m.keys ∪ sh.gNtpaMap.keys) →
      IterOrder o'.ks (m.keys ∪ sh₁.gNtpaMap.keys) →
      checkUpdatesFromOvsdb secret db sh o = .ok (sh₁, b) →
      checkUpdatesFromOvsdb secret db' sh₁ o' = .ok (sh₂, b') →
      b'.serverConfigs = [] ∧ ∀ e ∈ b'.events, e.category ≠ "NTP_ASSOC") := by
  refine ⟨?_, ?_, ?_, ?_, ?_⟩
  · intro k w hw
    exact (number_kept_iff h hg hks hrs hrun hw).trans (not_affected_iff hw)
  · obtain ⟨new, hnew⟩ := exists_mirrored h
    have hvalues : n'.values = new :=
      run_serverConfigs hg hnew hks (Numbered.run_values hrun)
    rw [hvalues]
    exact hnew
  · intro k hk
    exact events_of_key h hks hk
  · intro e he
    have he' : e ∈ (assocDiff l g ks).events := he
    rw [events_assocDiff hks.1] at he'
    obtain ⟨k, hk, hchange⟩ := List.mem_filterMap.mp he'
    exact ⟨k, hks.mem_iff.mp hk, hchange⟩
  · intro secret db db' m sh sh₁ sh₂ o o' b b' hdb ho ho' hfirst hsecond
    exact second_pass_quiet hdb ho ho' hfirst hsecond

end kept

/-- A database with servers without a key. -/
def plainServersDb (addresses : List String) : Db :=
  { nextUuid := 5
    system := [⟨0, 1, ∅, ∅, ∅⟩]
    vrf := [⟨1, "vrf_default"⟩]
    ntpKey := []
    ntpAssociation := addresses.map fun a => ⟨3, a, some 1, none, ∅, ∅⟩ }

theorem proper_plainServersDb {addresses : List String} (hnd : addresses.Nodup)
    (hne : ∀ a ∈ addresses, a ≠ "") : Proper (plainServersDb addresses) := by
  have hrows : (plainServersDb addresses).ntpAssociation.map NtpAssociationRow.address =
      addresses := by
    rw [plainServersDb, List.map_map]
    exact List.map_id _
  refine { oneSystem := Nat.le_refl 1, keyUuids := List.nodup_nil, keyIds := List.nodup_nil
           addresses := ?_, filled := { keys := ?_, associations := ?_ } }
  · rw [hrows]
    exact hnd
  · intro r hr
    cases hr
  · intro r hr
    obtain ⟨a, ha, hrow⟩ := List.mem_map.mp hr
    rw [← hrow]
    exact ⟨hne a ha, by simp⟩

/-- A second server comes while authentication changes; then the rows come up
    in another order. -/
theorem associations_undisturbed_second_server :
    ∃ (n n' : Associations) (sh₁ sh₂ : Shadow) (b b' : Batch) (o : PassOrders),
      Numbered.Run n
        (checkUpdatesWithNtpAssociations (readAssocs (plainServersDb ["10.0.0.1", "10.0.0.2"]))
          (readAssocs (plainServersDb ["10.0.0.1"])) true o.ks o.rs).serverConfigs n' ∧
      (∃ i, n.number "10.0.0.1" = some i ∧ n'.number "10.0.0.1" = some i) ∧
      checkUpdatesFromOvsdb "0123456789abcdef" (plainServersDb ["10.0.0.1", "10.0.0.2"])
        Shadow.start o = .ok (sh₁, b) ∧
      checkUpdatesFromOvsdb "0123456789abcdef" (plainServersDb ["10.0.0.2", "10.0.0.1"])
        sh₁ o = .ok (sh₂, b') ∧
      b'.serverConfigs = [] := by
  have h : Proper (plainServersDb ["10.0.0.1"]) := proper_plainServersDb (by decide) (by decide)
  have h' : Proper (plainServersDb ["10.0.0.1", "10.0.0.2"]) :=
    proper_plainServersDb (by decide) (by decide)
  have hreversed : (plainServersDb ["10.0.0.1", "10.0.0.2"]).Reorders
      (plainServersDb ["10.0.0.2", "10.0.0.1"]) :=
    { Db.Reorders.refl _ with ntpAssociation := List.Perm.swap _ _ _ }
  let opts : ServerOpts := { version := "3", key := none, prefer := false }
  let orders : List (Uuid × String) := [(1, "10.0.0.2"), (1, "10.0.0.1")]
  let o : PassOrders := { us := [], ts := [], is := [], ks := orders, rs := orders }
  let n : Associations := Numbered.empty.make "10.0.0.1" opts
  have hvalues : n.values = demandedServers (plainServersDb ["10.0.0.1"]) := by decide
  have hmirror : Mirrors n.values (readAssocs (plainServersDb ["10.0.0.1"])) := by
    rw [hvalues]
    exact mirrors_readAssocs h
  have hdiffer : AddressesDiffer (readAssocs (plainServersDb ["10.0.0.1", "10.0.0.2"]))
      (readAssocs (plainServersDb ["10.0.0.1"])) :=
    { new := (mirrors_readAssocs h').address
      old := (mirrors_readAssocs h).address
      unique := by decide }
  have hrun : Numbered.Run n
      (checkUpdatesWithNtpAssociations (readAssocs (plainServersDb ["10.0.0.1", "10.0.0.2"]))
        (readAssocs (plainServersDb ["10.0.0.1"])) true o.ks o.rs).serverConfigs
      (n.make "10.0.0.2" opts) := .cons (.make _ _) (.nil _)
  obtain ⟨hkept, _, _, _, hquiet⟩ :=
    associations_undisturbed hdiffer hmirror (by decide) (by decide) hrun
  have hpass : ∀ (db : Db) (sh : Shadow), Proper db →
      ∃ sh' b, checkUpdatesFromOvsdb "0123456789abcdef" db sh o = .ok (sh', b) :=
    fun _ _ h => ⟨_, _, checkUpdatesFromOvsdb_eq h⟩
  obtain ⟨sh₁, b, hfirst⟩ := hpass _ Shadow.start h'
  obtain ⟨sh₂, b', hsecond⟩ := hpass _ sh₁ (h'.reorders hreversed)
  have hks : IterOrder o.ks ((readAssocs (plainServersDb ["10.0.0.1", "10.0.0.2"])).keys ∪
      sh₁.gNtpaMap.keys) := by
    rw [(checkUpdatesFromOvsdb_ok (readAssociationRows_eq h') hfirst).1]
    decide
  refine ⟨n, _, sh₁, sh₂, b, b', o, hrun, (hkept (1, "10.0.0.1") _ rfl).mpr ⟨rfl, Or.inl rfl⟩,
    hfirst, hsecond, ?_⟩
  exact (hquiet _ _ _ _ _ _ _ _ _ _ _ (unchanged_of_reorders h' hreversed) (by decide) hks
    hfirst hsecond).1

end OpsNtpd.Daemon
