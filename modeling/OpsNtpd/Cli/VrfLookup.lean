import OpsNtpd.Cli.Invariant

/-! # CLI: Insertion and Lookup of Servers

  A new server refers to the row that `get_ovsrec_vrf_with_name` returns,
  which is the first VRF row whatever its name, while `ntp_ovsrec_get_assoc`
  compares the name of the VRF row that a server refers to. Whether the two
  meet is up to the order of the VRF table.

  - `Agrees`: what a server command promises when they meet.
  - `runAgrees_iff`: the sequences of server commands, from an empty table,
    that keep the promise.
-/

namespace OpsNtpd.Cli

variable (isValidIpv4 : Nat → Bool)

/-! ## Section 1: What a server command promises -/

/-- The parameters of a server command. -/
def Command.serverParams : Command → Option NtpServerParams
  | .ntpServer name prefer version keyId => some (ntpServerParams name prefer version keyId)
  | .noNtpServer name => some (noNtpServerParams name)
  | _ => none

/-- The parameters pass `ntp_server_sanitize_parameters`. -/
def Accepted (db : Db) (p : NtpServerParams) : Prop :=
  ∃ keyRow, ntpServerSanitizeParameters isValidIpv4 db p = .ok keyRow

/-- The server row that a handler writes. -/
def Verdict.writtenServer (db : Db) : Verdict → Option Uuid
  | .endDbTxn [.insertAssociation _] _ => some db.nextUuid
  | .endDbTxn [.updateAssociation row _] _ => some row
  | _ => none

/-- The promise of the server command `c`, whose parameters are `p`, in `db`. -/
structure Agrees (db : Db) (c : Command) (p : NtpServerParams) : Prop where
  /-- the lookup returns the row just written -/
  found : ∀ u, (c.verdict isValidIpv4 .committed db).writtenServer db = some u →
    (ntpOvsrecGetAssoc (c.exec isValidIpv4 db) p.vrfName p.serverName).map
      NtpAssociationRow.uuid = some u
  /-- a server that is there is updated, and no row comes or goes -/
  updated : p.noForm = false → Accepted isValidIpv4 db p →
    ∀ row ∈ db.ntpAssociation, row.address = p.serverName →
      (c.verdict isValidIpv4 .committed db).writtenServer db = some row.uuid ∧
      (c.exec isValidIpv4 db).ntpAssociation.map NtpAssociationRow.uuid =
        db.ntpAssociation.map NtpAssociationRow.uuid
  /-- the `no` form removes the server -/
  removed : p.noForm = true → Accepted isValidIpv4 db p →
    p.serverName ∉ (c.exec isValidIpv4 db).ntpAssociation.map NtpAssociationRow.address
  /-- there is at most one row per address -/
  addresses : ((c.exec isValidIpv4 db).ntpAssociation.map NtpAssociationRow.address).Nodup

/-- Every command of the sequence keeps its promise when its turn comes. -/
def RunAgrees (db : Db) : List Command → Prop
  | [] => True
  | c :: cs =>
      (∀ p, c.serverParams = some p → Agrees isValidIpv4 db c p) ∧
      RunAgrees (c.exec isValidIpv4 db) cs

/-! ## Section 2: The row that is written -/

theorem writtenServer_ntpServer (db : Db) (name : String) (prefer : Bool)
    (version keyId : Option String) :
    ((Command.ntpServer name prefer version keyId).verdict isValidIpv4
        .committed db).writtenServer db =
      match ntpServerSanitizeParameters isValidIpv4 db
          (ntpServerParams name prefer version keyId) with
      | .error _ => none
      | .ok _ =>
        match ntpOvsrecGetAssoc db defaultVrfName name with
        | some row => some row.uuid
        | none => if db.ntpAssociation.length ≥ ntpAssocMaxServers then none
            else some db.nextUuid := by
  simp only [Command.verdict, vtyshOvsdbNtpServerSet]
  cases ntpServerSanitizeParameters isValidIpv4 db
      (ntpServerParams name prefer version keyId) with
  | error e => rfl
  | ok keyRow =>
    simp only [startDbTxn_committed, ntpServerParams]
    cases ntpOvsrecGetAssoc db defaultVrfName name with
    | some row => rfl
    | none =>
      by_cases hfull : db.ntpAssociation.length ≥ ntpAssocMaxServers
      · simp [ntpServerCheckMaxNumberOfServers, hfull, Verdict.writtenServer]
      · simp [ntpServerCheckMaxNumberOfServers, hfull, Txn.committed, Verdict.writtenServer]

theorem writtenServer_noNtpServer (db : Db) (name : String) :
    ((Command.noNtpServer name).verdict isValidIpv4 .committed db).writtenServer db = none := by
  simp only [Command.verdict, vtyshOvsdbNtpServerSet]
  cases ntpServerSanitizeParameters isValidIpv4 db (noNtpServerParams name) with
  | error e => rfl
  | ok keyRow =>
    simp only [startDbTxn_committed, noNtpServerParams]
    cases ntpOvsrecGetAssoc db defaultVrfName name with
    | some row => rfl
    | none => rfl

/-! ## Section 3: With the default VRF first -/

section firstVrf
variable {isValidIpv4} {db : Db}

theorem ServerTable.agrees_ntpServer (h : ServerTable db) (name : String) (prefer : Bool)
    (version keyId : Option String) :
    Agrees isValidIpv4 db (.ntpServer name prefer version keyId)
        (ntpServerParams name prefer version keyId) ∧
      ServerTable ((Command.ntpServer name prefer version keyId).exec isValidIpv4 db) := by
  let p := ntpServerParams name prefer version keyId
  have hexec := congrArg Prod.snd (run_ntpServer isValidIpv4 db name prefer version keyId)
  have hwritten := writtenServer_ntpServer isValidIpv4 db name prefer version keyId
  change Command.exec isValidIpv4 db _ = _ at hexec
  cases hok : ntpServerSanitizeParameters isValidIpv4 db p with
  | error e =>
    -- a refused command writes nothing
    rw [hok] at hexec hwritten
    refine ⟨⟨?_, ?_, ?_, ?_⟩, by rw [hexec]; exact h⟩
    · intro u hu; rw [hwritten] at hu; cases hu
    · rintro _ ⟨keyRow, hkeyRow⟩
      cases hok.symm.trans hkeyRow
    · intro hform; cases hform
    · rw [hexec]; exact h.addresses
  | ok keyRow =>
    cases hrow : ntpOvsrecGetAssoc db defaultVrfName name with
    | some row =>
      rw [hok, hrow] at hexec hwritten
      obtain ⟨hmem, haddr⟩ := h.ntpOvsrecGetAssoc_some.mp hrow
      let w := ntpServerReplaceParameters db row.associationAttributes p keyRow true
      have htable : ServerTable (db.apply (.updateAssociation row.uuid w)) :=
        h.updateAssociation row.uuid row.associationAttributes p keyRow
      have hafter : w.apply row ∈ (db.apply (.updateAssociation row.uuid w)).ntpAssociation :=
        Rows.mem_updateWhere.mpr (Or.inr ⟨row, hmem, rfl, rfl⟩)
      refine ⟨⟨?_, ?_, ?_, ?_⟩, by rw [hexec]; exact htable⟩
      · intro u hu
        rw [hwritten] at hu
        have hlookup : ntpOvsrecGetAssoc (db.apply (.updateAssociation row.uuid w))
            defaultVrfName name = some (w.apply row) :=
          htable.ntpOvsrecGetAssoc_some.mpr ⟨hafter, haddr⟩
        rw [hexec]
        show (ntpOvsrecGetAssoc _ defaultVrfName name).map _ = _
        rw [hlookup, ← hu]
        rfl
      · intro _ _ row' hmem' haddr'
        have heq : row' = row := Rows.eq_of_index h.addresses hmem' hmem (haddr'.trans haddr.symm)
        refine ⟨by rw [hwritten, heq], ?_⟩
        rw [hexec]
        exact Rows.map_updateWhere _ fun _ => rfl
      · intro hform; cases hform
      · rw [hexec]; exact htable.addresses
    | none =>
      rw [hok, hrow] at hexec hwritten
      have hnew := h.ntpOvsrecGetAssoc_none.mp hrow
      by_cases hfull : db.ntpAssociation.length ≥ ntpAssocMaxServers
      · simp only [hfull, if_true] at hexec hwritten
        refine ⟨⟨?_, ?_, ?_, ?_⟩, by rw [hexec]; exact h⟩
        · intro u hu; rw [hwritten] at hu; cases hu
        · intro _ _ row hmem haddr
          exact absurd (List.mem_map.mpr ⟨row, hmem, haddr⟩) hnew
        · intro hform; cases hform
        · rw [hexec]; exact h.addresses
      · simp only [hfull, if_false] at hexec hwritten
        let w := ntpServerReplaceParameters db ∅ p keyRow false
        have htable : ServerTable (db.apply (.insertAssociation w)) :=
          h.insertAssociation keyRow hnew
        have hafter : w.apply (.blank db.nextUuid) ∈
            (db.apply (.insertAssociation w)).ntpAssociation := List.mem_cons_self
        refine ⟨⟨?_, ?_, ?_, ?_⟩, by rw [hexec]; exact htable⟩
        · intro u hu
          rw [hwritten] at hu
          have hlookup : ntpOvsrecGetAssoc (db.apply (.insertAssociation w))
              defaultVrfName name = some (w.apply (.blank db.nextUuid)) :=
            htable.ntpOvsrecGetAssoc_some.mpr ⟨hafter, rfl⟩
          rw [hexec]
          show (ntpOvsrecGetAssoc _ defaultVrfName name).map _ = _
          rw [hlookup, ← hu]
          rfl
        · intro _ _ row hmem haddr
          exact absurd (List.mem_map.mpr ⟨row, hmem, haddr⟩) hnew
        · intro hform; cases hform
        · rw [hexec]; exact htable.addresses

theorem ServerTable.agrees_noNtpServer (h : ServerTable db) (name : String) :
    Agrees isValidIpv4 db (.noNtpServer name) (noNtpServerParams name) ∧
      ServerTable ((Command.noNtpServer name).exec isValidIpv4 db) := by
  have hexec := congrArg Prod.snd (run_noNtpServer isValidIpv4 db name)
  have hwritten := writtenServer_noNtpServer isValidIpv4 db name
  change Command.exec isValidIpv4 db _ = _ at hexec
  have hfound : ∀ u, ((Command.noNtpServer name).verdict isValidIpv4
      .committed db).writtenServer db = some u → False := by
    intro u hu; rw [hwritten] at hu; cases hu
  have htable : ServerTable ((Command.noNtpServer name).exec isValidIpv4 db) := by
    rw [hexec]
    cases ntpServerSanitizeParameters isValidIpv4 db (noNtpServerParams name) with
    | error e => exact h
    | ok keyRow =>
      cases ntpOvsrecGetAssoc db defaultVrfName name with
      | none => exact h
      | some row => exact h.deleteAssociation row.uuid
  refine ⟨⟨fun u hu => (hfound u hu).elim, ?_, ?_, htable.addresses⟩, htable⟩
  · intro hform; cases hform
  · rintro _ ⟨keyRow, hok⟩
    cases hrow : ntpOvsrecGetAssoc db defaultVrfName name with
    | none =>
      rw [hok, hrow] at hexec
      rw [hexec]
      exact h.ntpOvsrecGetAssoc_none.mp hrow
    | some row =>
      rw [hok, hrow] at hexec
      rw [hexec]
      obtain ⟨hmem, haddr⟩ := h.ntpOvsrecGetAssoc_some.mp hrow
      -- another row with this address would be the deleted one
      intro hstill
      obtain ⟨row', hrow', haddr'⟩ := List.mem_map.mp hstill
      obtain ⟨hmem', hne⟩ := List.mem_filter.mp hrow'
      have heq : row' = row := Rows.eq_of_index h.addresses hmem' hmem (haddr'.trans haddr.symm)
      simp [heq] at hne

/-- **Step.** With the default VRF first a server command keeps its promise,
    and the table stays as the lookup needs it. -/
theorem ServerTable.step (h : ServerTable db) {c : Command} {p : NtpServerParams}
    (hp : c.serverParams = some p) :
    Agrees isValidIpv4 db c p ∧ ServerTable (c.exec isValidIpv4 db) := by
  cases c with
  | ntpServer name prefer version keyId =>
    obtain rfl : _ = p := Option.some.inj hp
    exact h.agrees_ntpServer name prefer version keyId
  | noNtpServer name =>
    obtain rfl : _ = p := Option.some.inj hp
    exact h.agrees_noNtpServer name
  | _ => cases hp

/-- **Run.** -/
theorem ServerTable.runAgrees (h : ServerTable db) {cs : List Command}
    (hcs : ∀ c ∈ cs, c.serverParams.isSome) : RunAgrees isValidIpv4 db cs := by
  induction cs generalizing db with
  | nil => trivial
  | cons c cs ih =>
    obtain ⟨p, hp⟩ := Option.isSome_iff_exists.mp (hcs c List.mem_cons_self)
    refine ⟨?_, ih (h.step hp).2 fun c' hc' => hcs c' (List.mem_cons_of_mem _ hc')⟩
    intro p' hp'
    exact (h.step hp').1

end firstVrf

/-! ## Section 4: With another VRF first -/

section otherVrf
variable {isValidIpv4} {db : Db}

/-- The row written is not found. -/
theorem not_agrees_of_accepted (hempty : db.ntpAssociation = [])
    (hfirst : ¬ ∃ v, db.vrf.head? = some v ∧ v.name = defaultVrfName) {name : String}
    {prefer : Bool} {version keyId : Option String}
    (hok : Accepted isValidIpv4 db (ntpServerParams name prefer version keyId)) :
    ¬ Agrees isValidIpv4 db (.ntpServer name prefer version keyId)
      (ntpServerParams name prefer version keyId) := by
  intro hagrees
  obtain ⟨keyRow, hkeyRow⟩ := hok
  have hnone : ntpOvsrecGetAssoc db defaultVrfName name = none := by
    rw [ntpOvsrecGetAssoc, hempty]; rfl
  have hroom : ¬ db.ntpAssociation.length ≥ ntpAssocMaxServers := by
    rw [hempty]; decide
  have hexec := congrArg Prod.snd (run_ntpServer isValidIpv4 db name prefer version keyId)
  have hwritten := writtenServer_ntpServer isValidIpv4 db name prefer version keyId
  change Command.exec isValidIpv4 db _ = _ at hexec
  simp only [hkeyRow, hnone, hroom, if_false] at hexec hwritten
  have hfound := hagrees.found db.nextUuid hwritten
  obtain ⟨row, hrow, _⟩ := Option.map_eq_some_iff.mp hfound
  rw [hexec] at hrow
  -- the only row is the new one, which refers to the first VRF row
  have hmem := List.mem_of_find?_eq_some hrow
  have hmatch := List.find?_some hrow
  simp only [Db.apply, hempty, List.mem_singleton] at hmem
  subst hmem
  rw [decide_eq_true_eq] at hmatch
  obtain ⟨_, v, hv, hname⟩ := hmatch
  change v ∈ (db.vrf.head?.map VrfRow.uuid).bind db.vrfRow at hv
  cases hhead : db.vrf.head? with
  | none => rw [hhead] at hv; cases hv
  | some v₀ =>
    obtain ⟨vs, hvs⟩ := List.head?_eq_some_iff.mp hhead
    have hderef : (db.vrf.head?.map VrfRow.uuid).bind db.vrfRow = some v₀ := by
      simp [hvs, Db.vrfRow]
    rw [hderef] at hv
    obtain rfl : v₀ = v := Option.some.inj hv
    exact hfirst ⟨v₀, hhead, hname⟩

/-- On an empty table a command that is not an accepted `ntp server` changes
    nothing, and so keeps its promise. -/
theorem step_of_not_accepted (hempty : db.ntpAssociation = []) {c : Command}
    {p : NtpServerParams} (hp : c.serverParams = some p)
    (hnot : p.noForm = false → ¬ Accepted isValidIpv4 db p) :
    Agrees isValidIpv4 db c p ∧ c.exec isValidIpv4 db = db := by
  have hunchanged : (c.verdict isValidIpv4 .committed db).writtenServer db = none ∧
      c.exec isValidIpv4 db = db := by
    cases c with
    | ntpServer name prefer version keyId =>
      obtain rfl : _ = p := Option.some.inj hp
      rw [writtenServer_ntpServer, Command.exec, run_ntpServer]
      cases hok : ntpServerSanitizeParameters isValidIpv4 db
          (ntpServerParams name prefer version keyId) with
      | error e => exact ⟨rfl, rfl⟩
      | ok keyRow => exact absurd ⟨keyRow, hok⟩ (hnot rfl)
    | noNtpServer name =>
      have hnone : ntpOvsrecGetAssoc db defaultVrfName name = none := by
        rw [ntpOvsrecGetAssoc, hempty]; rfl
      refine ⟨writtenServer_noNtpServer isValidIpv4 db name, ?_⟩
      rw [Command.exec, run_noNtpServer, hnone]
      cases ntpServerSanitizeParameters isValidIpv4 db (noNtpServerParams name) with
      | error e => rfl
      | ok keyRow => rfl
    | _ => cases hp
  obtain ⟨hwritten, hexec⟩ := hunchanged
  refine ⟨⟨?_, ?_, ?_, ?_⟩, hexec⟩
  · intro u hu; rw [hwritten] at hu; cases hu
  · intro hform hok; exact absurd hok (hnot hform)
  · intro _ _; rw [hexec, hempty]; exact List.not_mem_nil
  · rw [hexec, hempty]; exact List.nodup_nil

end otherVrf

/-! ## Section 5: The sequences that keep the promise -/

/-- Insertion and lookup agree throughout a sequence of server commands from
    an empty table if and only if the first VRF row is the default one, or no
    `ntp server` of the sequence is accepted. -/
theorem runAgrees_iff (db : Db) (cs : List Command) (hempty : db.ntpAssociation = [])
    (hcs : ∀ c ∈ cs, c.serverParams.isSome) :
    RunAgrees isValidIpv4 db cs ↔
      (∃ v, db.vrf.head? = some v ∧ v.name = defaultVrfName) ∨
      ∀ c ∈ cs, ∀ p, c.serverParams = some p → p.noForm = false →
        ¬ Accepted isValidIpv4 db p := by
  constructor
  · intro hrun
    by_cases hfirst : ∃ v, db.vrf.head? = some v ∧ v.name = defaultVrfName
    · exact Or.inl hfirst
    · right
      -- the table is still empty when the first accepted command comes
      induction cs with
      | nil => intro c hc; cases hc
      | cons c cs ih =>
        obtain ⟨p, hp⟩ := Option.isSome_iff_exists.mp (hcs c List.mem_cons_self)
        have hnot : p.noForm = false → ¬ Accepted isValidIpv4 db p := by
          intro hform hok
          cases c with
          | ntpServer name prefer version keyId =>
            obtain rfl : _ = p := Option.some.inj hp
            exact not_agrees_of_accepted hempty hfirst hok (hrun.1 _ hp)
          | noNtpServer name =>
            obtain rfl : _ = p := Option.some.inj hp
            cases hform
          | _ => cases hp
        have hsame := (step_of_not_accepted hempty hp hnot).2
        have hrest := hrun.2
        rw [hsame] at hrest
        intro c' hc' p' hp'
        rcases List.mem_cons.mp hc' with rfl | hmem
        · obtain rfl : p = p' := Option.some.inj (hp.symm.trans hp')
          exact hnot
        · exact ih (fun c₀ hc₀ => hcs c₀ (List.mem_cons_of_mem _ hc₀)) hrest c' hmem p' hp'
  · rintro (hfirst | hnot)
    · have htable : ServerTable db := by
        constructor
        · exact hfirst
        all_goals simp [hempty]
      exact htable.runAgrees hcs
    · induction cs with
      | nil => trivial
      | cons c cs ih =>
        have hstep : ∀ p, c.serverParams = some p →
            Agrees isValidIpv4 db c p ∧ c.exec isValidIpv4 db = db := by
          intro p hp
          exact step_of_not_accepted hempty hp (hnot c List.mem_cons_self p hp)
        obtain ⟨p, hp⟩ := Option.isSome_iff_exists.mp (hcs c List.mem_cons_self)
        refine ⟨fun p' hp' => (hstep p' hp').1, ?_⟩
        rw [(hstep p hp).2]
        exact ih (fun c₀ hc₀ => hcs c₀ (List.mem_cons_of_mem _ hc₀))
          fun c₀ hc₀ => hnot c₀ (List.mem_cons_of_mem _ hc₀)

/-- An empty table over two VRF rows, of which `vrf` comes first. -/
def twoVrfs (vrf other : String) : Db :=
  { nextUuid := 2, system := [], vrf := [⟨0, vrf⟩, ⟨1, other⟩], ntpKey := [],
    ntpAssociation := [] }

theorem runAgrees_iff_default_first :
    RunAgrees (fun _ => true) (twoVrfs defaultVrfName "red")
        [.ntpServer "time.example" false none none, .noNtpServer "time.example"] ↔
      (∃ v, (twoVrfs defaultVrfName "red").vrf.head? = some v ∧ v.name = defaultVrfName) ∨
      ∀ c ∈ [Command.ntpServer "time.example" false none none, .noNtpServer "time.example"],
        ∀ p, c.serverParams = some p → p.noForm = false →
          ¬ Accepted (fun _ => true) (twoVrfs defaultVrfName "red") p :=
  runAgrees_iff (fun _ => true) _ _ rfl (by simp [Command.serverParams])

/-- A VRF row before the default one: a repeated `ntp server` inserts a second
    row, and `no ntp server` removes neither. -/
theorem other_vrf_first :
    (∃ v ∈ (twoVrfs "red" defaultVrfName).vrf, v.name = defaultVrfName) ∧
    (twoVrfs "red" defaultVrfName).ntpAssociation = [] ∧
    ¬ RunAgrees (fun _ => true) (twoVrfs "red" defaultVrfName)
      [.ntpServer "time.example" false none none, .ntpServer "time.example" false none none,
        .noNtpServer "time.example"] ∧
    (execAll (fun _ => true) (twoVrfs "red" defaultVrfName)
      [.ntpServer "time.example" false none none, .ntpServer "time.example" false none none,
        .noNtpServer "time.example"]).ntpAssociation.map NtpAssociationRow.address =
      ["time.example", "time.example"] := by
  refine ⟨⟨⟨1, defaultVrfName⟩, by decide, rfl⟩, rfl, ?_, by decide +kernel⟩
  intro hrun
  -- the third command is accepted, and the server is still there
  have hremoved := (hrun.2.2.1 _ rfl).removed rfl ⟨none, by decide +kernel⟩
  exact hremoved (by decide +kernel)

end OpsNtpd.Cli
