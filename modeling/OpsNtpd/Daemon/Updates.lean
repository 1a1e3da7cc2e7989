import OpsNtpd.Daemon.Ntpd
import OpsNtpd.Daemon.RowLoops

/-! # Daemon: Changes Against the Shadow State

  `ops_ntpd_check_updates_with_ntp_associations` and
  `ops_ntpd_check_updates_with_ntp_keys` compare the maps read from the tables
  with the shadow maps `g_ntpa_map` and `g_ntpk_db`, update the shadow maps
  and return the commands for ntpd. The order in which a Python dictionary or
  set is iterated is an argument.
-/

namespace OpsNtpd.Daemon

/-! ## Section 1: Events -/

/-- `log_event`: a category and its key-value pairs. -/
structure Event where
  category : String
  args : List (String × String)
  deriving DecidableEq, Repr

/-- The value of `server_info`. -/
def serverInfo (v : AssocTuple) : String :=
  match v.keyId with
  | none => "prefer " ++ v.prefer ++ ", ver " ++ v.version
  | some key => "prefer " ++ v.prefer ++ ", ver " ++ v.version ++ ", key " ++ key

/-- The `NTP_ASSOC` event. -/
def assocEvent (event server info : String) : Event :=
  { category := "NTP_ASSOC"
    args := [("event", event), ("server", server), ("server_info", info)] }

/-! ## Section 2: Servers -/

/-- The variables of `ops_ntpd_check_updates_with_ntp_associations` in its
    first loop. -/
structure AssocDiff where
  add : List (Uuid × String)
  delete : List (Uuid × String)
  gNtpaMap : AssocMap
  events : List Event
  deriving DecidableEq

/-- One iteration of the first loop. -/
def assocDiffStep (l : AssocMap) (st : AssocDiff) (k : Uuid × String) : AssocDiff :=
  match l.lookup k with
  | some v =>
    -- `k in l_ntpa_map.keys()`
    match st.gNtpaMap.lookup k with
    | none =>
      { add := st.add ++ [k]
        delete := st.delete
        gNtpaMap := st.gNtpaMap.insert k v
        events := st.events ++ [assocEvent "Add" v.address (serverInfo v)] }
    | some w =>
      -- a server that has changed is deleted and added again
      if v ≠ w then
        { add := st.add ++ [k]
          delete := st.delete ++ [k]
          gNtpaMap := st.gNtpaMap.insert k v
          events := st.events ++ [assocEvent "Change" v.address (serverInfo v)] }
      else st
  | none =>
    match st.gNtpaMap.lookup k with
    -- cannot be: the loop runs over the keys of the two maps
    | none => st
    | some w =>
      { add := st.add
        delete := st.delete ++ [k]
        gNtpaMap := st.gNtpaMap.erase k
        events := st.events ++ [assocEvent "Delete" w.address ""] }

/-- The first loop, over `list(set(l_ntpa_map.keys() + g_ntpa_map.keys()))` in
    the order `ks`. -/
def assocDiff (l g : AssocMap) (ks : List (Uuid × String)) : AssocDiff :=
  ks.foldl (assocDiffStep l) { add := [], delete := [], gNtpaMap := g, events := [] }

/-- The options that the commands give a server. -/
def AssocTuple.opts (v : AssocTuple) : ServerOpts :=
  { version := v.version, key := v.keyId, prefer := v.prefer ≠ defaultNtpPref }

/-- `add_configs`: the keys in `add` were put into the shadow map by the loop. -/
def addConfigs (g : AssocMap) (add : List (Uuid × String)) : List (String × ServerOpts) :=
  add.filterMap fun k => (g.lookup k).map fun v => (v.address, v.opts)

/-- `revise_configs`: remove and add again every server that has a key. -/
def reviseConfigs (g : AssocMap) (rs : List (Uuid × String)) : List (String × ServerOpts) :=
  rs.filterMap fun k =>
    (g.lookup k).bind fun v => if v.keyId = none then none else some (v.address, v.opts)

/-- The results of `ops_ntpd_check_updates_with_ntp_associations`. -/
structure AssocUpdates where
  serverConfigs : List (Keyed.Cmd String ServerOpts)
  gNtpaMap : AssocMap
  events : List Event

/-- `ops_ntpd_check_updates_with_ntp_associations`; the last loop runs over
    `list(g_ntpa_map.keys())` in the order `rs`. -/
def checkUpdatesWithNtpAssociations (l g : AssocMap) (triggerReconfig : Bool)
    (ks rs : List (Uuid × String)) : AssocUpdates :=
  let diff := assocDiff l g ks
  let deleteConfigs := diff.delete.map fun k => Keyed.Cmd.drop k.2
  let addConfigs := (addConfigs diff.gNtpaMap diff.add).map fun p => Keyed.Cmd.put p.1 p.2
  -- the loop has made the shadow map equal to `l_ntpa_map` when this runs
  let reviseConfigs :=
    if triggerReconfig then (reviseConfigs diff.gNtpaMap rs).flatMap Keyed.replace else []
  { serverConfigs := reviseConfigs ++ deleteConfigs ++ addConfigs
    gNtpaMap := diff.gNtpaMap
    events := diff.events }

/-! ## Section 3: Keys -/

/-- `ntpq_info[0]` -/
def controlkey : Int := 65535

/-- `ntpq_info[1]`, the answer for the control key: `hashlib.sha224(..).hexdigest()[:16]`. -/
structure ControlkeyAnswer (secret : String) : Prop where
  length : secret.toList.length = 16
  hex : ∀ c ∈ secret.toList, c ∈ "0123456789abcdef".toList

instance (secret : String) : Decidable (ControlkeyAnswer secret) :=
  have := List.decidableBAll (fun c => c ∈ "0123456789abcdef".toList) secret.toList
  decidable_of_iff
    (secret.toList.length = 16 ∧ ∀ c ∈ secret.toList, c ∈ "0123456789abcdef".toList)
    ⟨fun h => ⟨h.1, h.2⟩, fun h => ⟨h.length, h.hex⟩⟩

/-- `ops_ntpd_get_ntpd_default_keys_file_content` -/
def defaultKeysFileContent (secret : String) : String :=
  "#This is generated from ops-ntpd\n" ++
    " " ++ toString controlkey ++ " MD5 " ++ secret ++ "\n"

/-- `add_template_string` -/
def keyLine (key : Int) (password : String) : String :=
  " " ++ toString key ++ " MD5 " ++ password

/-- `keys_file_content` for the keys `g` met in the order `is`. -/
def keysFileContent (secret : String) (g : KeyMap) (is : List Int) : String :=
  defaultKeysFileContent secret ++
    "\n".intercalate (is.filterMap fun k => (g.lookup k).map fun v => keyLine k v.1) ++ "\n"

/-- The results of `ops_ntpd_check_updates_with_ntp_keys`. -/
structure KeyUpdates where
  keyConfigs : List ConfigCmd
  keysFileContent : String
  gNtpkDb : KeyMap
  events : List Event

/-- `ops_ntpd_check_updates_with_ntp_keys`; the untrusted keys come in the
    order `us`, the new keys in the order `ts`, and the entries of the keys
    file in the order `is`. -/
def checkUpdatesWithNtpKeys (secret : String) (l g : KeyMap) (us ts is : List Int) :
    KeyUpdates :=
  let (untrusted, g', trusted) : List Int × KeyMap × List Int :=
    if l.keys.card > 0 ∧ g.keys.card > 0 then (us, l, ts)
    else if g.keys.card = 0 then ([], l, ts)
    -- `len(l_ntpk_db) == 0`
    else (us, ∅, [])
  let trustedKeyConfig := if trusted.length > 0 then [ConfigCmd.trustedkey trusted] else []
  let untrustedKeyConfig :=
    if untrusted.length > 0 then [ConfigCmd.unconfigTrustedkey untrusted] else []
  let tKeysStr := if trusted.length > 0 then joinKeys trusted else "-"
  let untKeysStr := if untrusted.length > 0 then joinKeys untrusted else "-"
  { keyConfigs := untrustedKeyConfig ++ trustedKeyConfig
    keysFileContent := keysFileContent secret g' is
    gNtpkDb := g'
    events :=
      if tKeysStr ≠ "-" ∨ untKeysStr ≠ "-" then
        [{ category := "NTP_KEY"
           args := [("trusted_keys", tKeysStr), ("untrusted_keys", untKeysStr)] }]
      else [] }

/-! ## Section 4: What the server loop computes -/

section servers
variable {l g : AssocMap} {ks rs : List (Uuid × String)}

/-- What the first loop has done after the keys `ks`. -/
structure AssocDiff.After (l g : AssocMap) (ks : List (Uuid × String)) (st : AssocDiff) :
    Prop where
  shadow : ∀ k, st.gNtpaMap.lookup k = if k ∈ ks then l.lookup k else g.lookup k
  add : ∀ k, k ∈ st.add ↔ k ∈ ks ∧ ∃ v, l.lookup k = some v ∧ g.lookup k ≠ some v
  delete : ∀ k, k ∈ st.delete ↔ k ∈ ks ∧ ∃ w, g.lookup k = some w ∧ l.lookup k ≠ some w

/-- One key: its shadow entry becomes the new one. -/
theorem lookup_assocDiffStep (st : AssocDiff) (k k' : Uuid × String) :
    (assocDiffStep l st k).gNtpaMap.lookup k' =
      if k' = k then l.lookup k else st.gNtpaMap.lookup k' := by
  -- where the step leaves the map alone, the two entries are equal already
  have hsame : l.lookup k = st.gNtpaMap.lookup k →
      st.gNtpaMap.lookup k' = if k' = k then l.lookup k else st.gNtpaMap.lookup k' := by
    intro heq
    by_cases hk : k' = k
    · rw [if_pos hk, hk, heq]
    · rw [if_neg hk]
  unfold assocDiffStep
  cases hl : l.lookup k with
  | some v =>
    rw [hl] at hsame
    cases hg : st.gNtpaMap.lookup k with
    | none => exact Dict.lookup_insert_eq _ k k' v
    | some w =>
      by_cases hne : v ≠ w
      · simp only [if_pos hne]
        exact Dict.lookup_insert_eq _ k k' v
      · simp only [if_neg hne]
        exact hsame (by rw [hg, not_not.mp hne])
  | none =>
    rw [hl] at hsame
    cases hg : st.gNtpaMap.lookup k with
    | none => exact hsame hg.symm
    | some w => exact Dict.lookup_erase_eq _ k k'

/-- One key: it is added if its new entry differs from the shadow. -/
theorem mem_add_assocDiffStep (st : AssocDiff) (k k' : Uuid × String) :
    k' ∈ (assocDiffStep l st k).add ↔ k' ∈ st.add ∨
      (k' = k ∧ ∃ v, l.lookup k = some v ∧ st.gNtpaMap.lookup k ≠ some v) := by
  unfold assocDiffStep
  cases hl : l.lookup k with
  | some v =>
    cases hg : st.gNtpaMap.lookup k with
    | none => simp
    | some w =>
      by_cases hne : v ≠ w
      · simp [hne, hne.symm]
      · simp [not_not.mp hne]
  | none => cases hg : st.gNtpaMap.lookup k <;> simp

/-- One key: it is deleted if its shadow entry differs from the new one. -/
theorem mem_delete_assocDiffStep (st : AssocDiff) (k k' : Uuid × String) :
    k' ∈ (assocDiffStep l st k).delete ↔ k' ∈ st.delete ∨
      (k' = k ∧ ∃ w, st.gNtpaMap.lookup k = some w ∧ l.lookup k ≠ some w) := by
  unfold assocDiffStep
  cases hl : l.lookup k with
  | some v =>
    cases hg : st.gNtpaMap.lookup k with
    | none => simp
    | some w =>
      by_cases hne : v ≠ w
      · simp [hne]
      · simp [not_not.mp hne]
  | none => cases hg : st.gNtpaMap.lookup k <;> simp

/-- **Step.** One key of the loop, which is met for the first time. -/
theorem assocDiffStep_after {st : AssocDiff} (h : st.After l g ks) {k : Uuid × String}
    (hk : k ∉ ks) : (assocDiffStep l st k).After l g (ks ++ [k]) := by
  have hold : st.gNtpaMap.lookup k = g.lookup k := by rw [h.shadow, if_neg hk]
  have hmem : ∀ k', k' ∈ ks ++ [k] ↔ k' ∈ ks ∨ k' = k := by
    intro k'
    rw [List.mem_append, List.mem_singleton]
  -- both lists grow by `k` if it has the property that they collect
  have hgrow : ∀ (P : Uuid × String → Prop) (k' : Uuid × String),
      (k' ∈ ks ∧ P k' ∨ k' = k ∧ P k) ↔ k' ∈ ks ++ [k] ∧ P k' := by
    intro P k'
    have hself : k' = k ∧ P k ↔ k' = k ∧ P k' := and_congr_right fun heq => by rw [heq]
    rw [hself, ← or_and_right, hmem]
  refine { shadow := ?_, add := ?_, delete := ?_ }
  · intro k'
    rw [lookup_assocDiffStep]
    by_cases heq : k' = k
    · rw [if_pos heq, if_pos ((hmem k').mpr (Or.inr heq)), heq]
    · rw [if_neg heq, h.shadow]
      by_cases hin : k' ∈ ks
      · rw [if_pos hin, if_pos ((hmem k').mpr (Or.inl hin))]
      · rw [if_neg hin, if_neg (fun hmem' => ((hmem k').mp hmem').elim hin heq)]
  · intro k'
    rw [mem_add_assocDiffStep, h.add, hold]
    exact hgrow (fun k => ∃ v, l.lookup k = some v ∧ g.lookup k ≠ some v) k'
  · intro k'
    rw [mem_delete_assocDiffStep, h.delete, hold]
    exact hgrow (fun k => ∃ w, g.lookup k = some w ∧ l.lookup k ≠ some w) k'

theorem assocDiff_append (ks : List (Uuid × String)) (k : Uuid × String) :
    assocDiff l g (ks ++ [k]) = assocDiffStep l (assocDiff l g ks) k := by
  unfold assocDiff
  rw [List.foldl_append]
  rfl

/-- **Run.** The loop over pairwise different keys. -/
theorem assocDiff_loop (hnd : ks.Nodup) : (assocDiff l g ks).After l g ks := by
  induction ks using List.reverseRecOn with
  | nil => refine { shadow := ?_, add := ?_, delete := ?_ } <;> simp [assocDiff]
  | append_singleton ks k ih =>
    have hnd' := List.nodup_append.mp hnd
    have hk : k ∉ ks := fun hmem => hnd'.2.2 k hmem k (List.mem_singleton.mpr rfl) rfl
    rw [assocDiff_append]
    exact assocDiffStep_after (ih hnd'.1) hk

/-- The whole loop, over every key of either map once: the shadow map is the
    new map, and the keys added and deleted are those whose entries differ. -/
theorem assocDiff_after (hks : IterOrder ks (l.keys ∪ g.keys)) :
    (assocDiff l g ks).gNtpaMap = l ∧
      (∀ k, k ∈ (assocDiff l g ks).add ↔ ∃ v, l.lookup k = some v ∧ g.lookup k ≠ some v) ∧
      (∀ k, k ∈ (assocDiff l g ks).delete ↔ ∃ w, g.lookup k = some w ∧ l.lookup k ≠ some w) := by
  have hafter : (assocDiff l g ks).After l g ks := assocDiff_loop hks.1
  have hin : ∀ {m : AssocMap} {k v}, m = l ∨ m = g → m.lookup k = some v → k ∈ ks := by
    intro m k v hm hv
    rw [hks.mem_iff, Finset.mem_union, Dict.mem_keys_iff, Dict.mem_keys_iff]
    rcases hm with rfl | rfl
    · exact Or.inl ⟨v, hv⟩
    · exact Or.inr ⟨v, hv⟩
  refine ⟨?_, ?_, ?_⟩
  · apply Finmap.ext_lookup
    intro k
    rw [hafter.shadow]
    by_cases hk : k ∈ ks
    · rw [if_pos hk]
    · rw [if_neg hk]
      have hnone : ∀ {m : AssocMap}, m = l ∨ m = g → m.lookup k = none := by
        intro m hm
        rw [Option.eq_none_iff_forall_ne_some]
        intro v hv
        exact hk (hin hm hv)
      rw [hnone (Or.inl rfl), hnone (Or.inr rfl)]
  · intro k
    rw [hafter.add]
    constructor
    · intro hand
      exact hand.2
    · intro hex
      refine ⟨?_, hex⟩
      obtain ⟨v, hv, _⟩ := hex
      exact hin (Or.inl rfl) hv
  · intro k
    rw [hafter.delete]
    constructor
    · intro hand
      exact hand.2
    · intro hex
      refine ⟨?_, hex⟩
      obtain ⟨w, hw, _⟩ := hex
      exact hin (Or.inr rfl) hw

theorem mem_addConfigs {add : List (Uuid × String)} {p : String × ServerOpts} :
    p ∈ addConfigs g add ↔ ∃ k ∈ add, ∃ v, g.lookup k = some v ∧ (v.address, v.opts) = p := by
  unfold addConfigs
  rw [List.mem_filterMap]
  simp only [Option.map_eq_some_iff]

theorem mem_reviseConfigs {p : String × ServerOpts} :
    p ∈ reviseConfigs g rs ↔
      ∃ k ∈ rs, ∃ v, g.lookup k = some v ∧ v.keyId ≠ none ∧ (v.address, v.opts) = p := by
  unfold reviseConfigs
  rw [List.mem_filterMap]
  simp only [Option.bind_eq_some_iff]
  refine exists_congr fun k => and_congr_right fun _ => exists_congr fun v => ?_
  refine and_congr_right fun _ => ?_
  split
  · next hnone => simp [hnone]
  · next hsome => simp [hsome]

/-- The batch in terms of the new map: replacements, drops, puts. -/
theorem serverConfigs_eq (triggerReconfig : Bool) (hks : IterOrder ks (l.keys ∪ g.keys)) :
    (checkUpdatesWithNtpAssociations l g triggerReconfig ks rs).serverConfigs =
      (if triggerReconfig then reviseConfigs l rs else []).flatMap Keyed.replace ++
        ((assocDiff l g ks).delete.map Prod.snd).map Keyed.Cmd.drop ++
        (addConfigs l (assocDiff l g ks).add).map fun p => Keyed.Cmd.put p.1 p.2 := by
  simp only [checkUpdatesWithNtpAssociations, (assocDiff_after hks).1, List.map_map]
  cases triggerReconfig <;> rfl

end servers

/-! ## Section 5: What the servers become -/

/-- `servers` are the servers that the shadow map `m` stands for: the entries
    are stored under their own VRF and address, no two have one address, and
    each address has the options of its entry. -/
structure Mirrors (servers : Dict String ServerOpts) (m : AssocMap) : Prop where
  address : ∀ k v, m.lookup k = some v → v.address = k.2
  unique : ∀ k k' v v', m.lookup k = some v → m.lookup k' = some v' → k.2 = k'.2 → k = k'
  opts : ∀ a o, servers.lookup a = some o ↔ ∃ k v, m.lookup k = some v ∧ k.2 = a ∧ v.opts = o

theorem mirrors_empty : Mirrors ∅ ∅ := by
  refine { address := ?_, unique := ?_, opts := ?_ } <;> simp

/-- **The servers converge.** When ntpd has the servers of the shadow map, the
    commands bring it to those of the new map, in every order of the loops and
    with or without a reconfiguration. -/
theorem run_serverConfigs {l g : AssocMap} {servers new servers' : Dict String ServerOpts}
    (hg : Mirrors servers g) (hl : Mirrors new l) {triggerReconfig : Bool}
    {ks rs : List (Uuid × String)} (hks : IterOrder ks (l.keys ∪ g.keys))
    (hrun : Keyed.Run servers
      (checkUpdatesWithNtpAssociations l g triggerReconfig ks rs).serverConfigs servers') :
    servers' = new := by
  obtain ⟨_, hadd, hdel⟩ := assocDiff_after hks
  rw [serverConfigs_eq _ hks] at hrun
  have hentry : ∀ {k : Uuid × String} {v : AssocTuple}, l.lookup k = some v →
      new.lookup v.address = some v.opts := by
    intro k v hv
    exact (hl.opts _ _).mpr ⟨k, v, hv, (hl.address k v hv).symm, rfl⟩
  refine Keyed.run_sync hrun ?_ ?_ ?_ ?_
  · -- a reconfiguration names entries of the new map
    intro p hp
    cases triggerReconfig with
    | false => exact absurd hp List.not_mem_nil
    | true =>
      obtain ⟨k, _, v, hv, _, hp'⟩ := mem_reviseConfigs.mp hp
      rw [← hp']
      exact hentry hv
  · -- a server that differs or is gone is deleted
    intro a hne hdiff
    obtain ⟨o, ho⟩ := Option.ne_none_iff_exists'.mp hne
    obtain ⟨k, w, hw, hka, hwo⟩ := (hg.opts a o).mp ho
    refine List.mem_map.mpr ⟨k, (hdel k).mpr ⟨w, hw, ?_⟩, hka⟩
    intro hsame
    apply hdiff
    rw [ho]
    exact ((hl.opts a o).mpr ⟨k, w, hsame, hka, hwo⟩).symm
  · -- only entries of the new map are added
    intro p hp
    obtain ⟨k, _, v, hv, hp'⟩ := mem_addConfigs.mp hp
    rw [← hp']
    exact hentry hv
  · -- an entry of the new map is added unless it was there and is not deleted
    intro a o ho
    obtain ⟨k, v, hv, hka, hvo⟩ := (hl.opts a o).mp ho
    by_cases hsame : g.lookup k = some v
    · refine Or.inr ⟨(hg.opts a o).mpr ⟨k, v, hsame, hka, hvo⟩, ?_⟩
      intro hmem
      obtain ⟨k', hk', hka'⟩ := List.mem_map.mp hmem
      obtain ⟨w, hw, hne⟩ := (hdel k').mp hk'
      have hkk : k' = k := hg.unique k' k w v hw hsame (hka'.trans hka.symm)
      rw [hkk, hsame] at hw
      rw [hkk] at hne
      exact hne (hv.trans hw)
    · refine Or.inl (mem_addConfigs.mpr ⟨k, (hadd k).mpr ⟨v, hv, hsame⟩, v, hv, ?_⟩)
      rw [hl.address k v hv, hka, hvo]

/-- Against an equal shadow map and without a reconfiguration there is nothing
    to do. -/
theorem serverConfigs_self {l : AssocMap} {ks rs : List (Uuid × String)}
    (hks : IterOrder ks (l.keys ∪ l.keys)) :
    (checkUpdatesWithNtpAssociations l l false ks rs).serverConfigs = [] := by
  obtain ⟨_, hadd, hdel⟩ := assocDiff_after hks
  have haddNil : (assocDiff l l ks).add = [] := by
    rw [List.eq_nil_iff_forall_not_mem]
    intro k hk
    obtain ⟨v, hv, hne⟩ := (hadd k).mp hk
    exact hne hv
  have hdelNil : (assocDiff l l ks).delete = [] := by
    rw [List.eq_nil_iff_forall_not_mem]
    intro k hk
    obtain ⟨w, hw, hne⟩ := (hdel k).mp hk
    exact hne hw
  simp [checkUpdatesWithNtpAssociations, haddNil, hdelNil, addConfigs]

/-! ## Section 6: What the key comparison computes -/

section keys
variable (secret : String) {l g : KeyMap} {us ts is : List Int}

/-- The orders enumerate the sets that the code iterates. -/
structure KeyOrders (l g : KeyMap) (us ts is : List Int) : Prop where
  untrusted : IterOrder us (g.keys \ l.keys)
  trusted : IterOrder ts l.keys
  entries : IterOrder is l.keys

/-- The three branches compute the same: the shadow map becomes the new map,
    the keys that are gone are untrusted and all new keys are trusted. -/
theorem checkUpdatesWithNtpKeys_eq (h : KeyOrders l g us ts is) :
    (checkUpdatesWithNtpKeys secret l g us ts is).gNtpkDb = l ∧
      (checkUpdatesWithNtpKeys secret l g us ts is).keyConfigs =
        (if us.length > 0 then [ConfigCmd.unconfigTrustedkey us] else []) ++
          (if ts.length > 0 then [ConfigCmd.trustedkey ts] else []) ∧
      (checkUpdatesWithNtpKeys secret l g us ts is).keysFileContent =
        keysFileContent secret l is := by
  have hempty : ∀ {m : KeyMap}, ¬ m.keys.card > 0 → m = ∅ := by
    intro m hm
    have hzero : m.keys.card = 0 := by omega
    exact Dict.keys_eq_empty_iff.mp (Finset.card_eq_zero.mp hzero)
  unfold checkUpdatesWithNtpKeys
  by_cases hboth : l.keys.card > 0 ∧ g.keys.card > 0
  · simp only [if_pos hboth, and_self]
  · rw [if_neg hboth]
    by_cases hg : g.keys.card = 0
    · -- nothing was trusted, so nothing is untrusted
      have hgEmpty : g.keys = ∅ := Finset.card_eq_zero.mp hg
      have hus : us = [] := h.untrusted.eq_nil_iff.mpr (by rw [hgEmpty]; exact Finset.empty_sdiff _)
      simp only [if_pos hg, hus, and_self]
    · rw [if_neg hg]
      -- nothing is trusted any more
      have hl : l = ∅ := hempty fun hlpos => hboth ⟨hlpos, by omega⟩
      have hts : ts = [] := h.trusted.eq_nil_iff.mpr (by rw [hl]; exact Finmap.keys_empty)
      simp only [hl, hts, and_self]

/-- **The trusted keys converge.** The commands take the keys that are gone out
    of the trusted set and put the new keys in; they leave the servers alone. -/
theorem run_keyConfigs (h : KeyOrders l g us ts is) {n n' : Ntpd}
    (hrun : Ntpd.Run n (checkUpdatesWithNtpKeys secret l g us ts is).keyConfigs n') :
    n' = { n with trusted := (n.trusted \ (g.keys \ l.keys)) ∪ l.keys } := by
  rw [(checkUpdatesWithNtpKeys_eq secret h).2.1] at hrun
  have hfirst : ∃ n₁, n₁ = { n with trusted := n.trusted \ (g.keys \ l.keys) } ∧
      Ntpd.Run n₁ (if ts.length > 0 then [ConfigCmd.trustedkey ts] else []) n' := by
    by_cases hus : us.length > 0
    · rw [if_pos hus] at hrun
      cases hrun with
      | cons hstep hrest =>
        cases hstep
        exact ⟨_, by rw [h.untrusted.2], hrest⟩
    · have hnil : us = [] := List.length_eq_zero_iff.mp (by omega)
      have hset : g.keys \ l.keys = ∅ := h.untrusted.eq_nil_iff.mp hnil
      rw [if_neg hus, List.nil_append] at hrun
      exact ⟨n, by rw [hset, Finset.sdiff_empty], hrun⟩
  obtain ⟨n₁, hn₁, hrun₁⟩ := hfirst
  by_cases hts : ts.length > 0
  · rw [if_pos hts] at hrun₁
    cases hrun₁ with
    | cons hstep hrest =>
      cases hstep
      rw [Ntpd.run_nil_iff.mp hrest, hn₁, h.trusted.2]
  · have hnil : ts = [] := List.length_eq_zero_iff.mp (by omega)
    have hset : l.keys = ∅ := h.trusted.eq_nil_iff.mp hnil
    rw [if_neg hts, Ntpd.run_nil_iff] at hrun₁
    rw [hrun₁, hn₁, hset, Finset.union_empty]

end keys

end OpsNtpd.Daemon
