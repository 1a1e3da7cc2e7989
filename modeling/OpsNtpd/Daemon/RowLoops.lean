import OpsNtpd.Ovsdb

/-! # Daemon: Reading the Rows

  The two row loops of `ops_ntpd_check_updates_from_ovsdb`, which turn the
  tables into `update_map`. The variables `key_id`, `key_password` and
  `ip_address` are assigned only when the column is filled, and they live
  through all iterations; they are part of the state of the loops. A name that
  is read before it is assigned raises, and so does a key that cannot be
  hashed.
-/

namespace OpsNtpd.Daemon

/-! ## Section 1: The maps -/

/-- `update_map` of the keys: from the key id to `(key_pass, trust_flag)`. -/
abbrev KeyMap : Type := Dict Int (String × Bool)

/-- The tuple that `ops_ntpd_setup_ntp_config_map` stores. `keyId` is `none`
    for `DEFAULT_NTP_KEY_ID`, which is the number 0 and no string. -/
structure AssocTuple where
  address : String
  vrf : Uuid
  keyId : Option String
  refClockId : String
  prefer : String
  version : String
  deriving DecidableEq, Repr

/-- `update_map` of the servers: from `(vrf, address)`. -/
abbrev AssocMap : Type := Dict (Uuid × String) AssocTuple

/-- `DEFAULT_NTP_PREF` -/
def defaultNtpPref : String := "false"

/-- `DEFAULT_NTP_VERSION` -/
def defaultNtpVersion : String := "3"

/-- `DEFAULT_NTP_REF_CLOCK_ID` -/
def defaultNtpRefClockId : String := ".LOCL."

/-- The exceptions that the daemon can raise. -/
inductive PyError where
  | unboundLocalError (name : String)
  | typeError (message : String)
  | attributeError (message : String)
  | indexError (message : String)
  | keyError (key : String)
  deriving DecidableEq, Repr

/-- The loop over the `System` table. -/
def authenticationEnable (db : Db) : String :=
  db.system.foldl
    (fun acc r => (r.ntpConfig.lookup systemNtpConfigAuthenticationEnable).getD acc) "false"

/-! ## Section 2: The loop over `NTP_Key` -/

/-- The variables of the loop: `none` is an unbound name. -/
structure KeyLoop where
  keyId : Option Int
  keyPassword : Option String
  updateMap : KeyMap
  deriving DecidableEq

/-- One iteration. -/
def keyLoopStep (auth : String) (st : KeyLoop) (row : NtpKeyRow) : Except PyError KeyLoop :=
  -- an empty column leaves the variable as an earlier row has set it
  let keyId := if row.keyId ≠ 0 then some row.keyId else st.keyId
  let keyPassword := if row.keyPassword ≠ "" then some row.keyPassword else st.keyPassword
  if row.trustEnable = true ∧ auth = "true" then
    match keyId, keyPassword with
    | none, _ => .error (.unboundLocalError "key_id")
    | some _, none => .error (.unboundLocalError "key_password")
    | some k, some pwd =>
        .ok { keyId := keyId, keyPassword := keyPassword
              updateMap := st.updateMap.insert k (pwd, true) }
  else .ok { keyId := keyId, keyPassword := keyPassword, updateMap := st.updateMap }

/-- The loop. -/
def readKeyRows (auth : String) (rows : List NtpKeyRow) : Except PyError KeyMap :=
  (rows.foldlM (keyLoopStep auth) { keyId := none, keyPassword := none, updateMap := ∅ }).map
    KeyLoop.updateMap

/-! ## Section 3: The loop over `NTP_Association` -/

structure AssocLoop where
  ipAddress : Option String
  updateMap : AssocMap
  deriving DecidableEq

/-- One iteration. A cleared `vrf` reads as the empty list, which no
    dictionary key may contain. -/
def assocLoopStep (db : Db) (st : AssocLoop) (row : NtpAssociationRow) :
    Except PyError AssocLoop :=
  -- like `key_id` in the other loop; the other variables start anew
  let ipAddress := if row.address ≠ "" then some row.address else st.ipAddress
  let keyId := (db.keyOf row).map toString
  let attr := fun key default => (row.associationAttributes.lookup key).getD default
  match ipAddress, row.vrf with
  | none, _ => .error (.unboundLocalError "ip_address")
  | some _, none => .error (.typeError "unhashable type: 'list'")
  | some address, some vrf =>
      let tuple : AssocTuple :=
        { address := address
          vrf := vrf
          keyId := keyId
          refClockId := attr ntpAssocAttribRefClockId defaultNtpRefClockId
          prefer := attr ntpAssocAttribPrefer defaultNtpPref
          version := attr ntpAssocAttribVersion defaultNtpVersion }
      .ok { ipAddress := ipAddress, updateMap := st.updateMap.insert (vrf, address) tuple }

/-- The loop. -/
def readAssociationRows (db : Db) (rows : List NtpAssociationRow) : Except PyError AssocMap :=
  (rows.foldlM (assocLoopStep db) { ipAddress := none, updateMap := ∅ }).map
    AssocLoop.updateMap

/-! ## Section 4: Rows with filled columns -/

/-- The row makes an entry: it is trusted and authentication is on. -/
def makesEntry (auth : String) (row : NtpKeyRow) : Bool := row.trustEnable && auth == "true"

/-- The entry that the columns of a key row stand for. -/
def keyEntry (row : NtpKeyRow) : Int × (String × Bool) := (row.keyId, row.keyPassword, true)

/-- The tuple that the columns of a server row stand for. -/
def assocTuple (db : Db) (row : NtpAssociationRow) (vrf : Uuid) : AssocTuple :=
  { address := row.address
    vrf := vrf
    keyId := (db.keyOf row).map toString
    refClockId :=
      (row.associationAttributes.lookup ntpAssocAttribRefClockId).getD defaultNtpRefClockId
    prefer := (row.associationAttributes.lookup ntpAssocAttribPrefer).getD defaultNtpPref
    version := (row.associationAttributes.lookup ntpAssocAttribVersion).getD defaultNtpVersion }

/-- The entry that the columns of a server row stand for, if it has a VRF. -/
def assocEntry (db : Db) (row : NtpAssociationRow) : Option ((Uuid × String) × AssocTuple) :=
  row.vrf.map fun vrf => ((vrf, row.address), assocTuple db row vrf)

/-- The columns of a key row that makes an entry are filled. -/
def keyFilled (auth : String) (row : NtpKeyRow) : Prop :=
  makesEntry auth row = true → row.keyId ≠ 0 ∧ row.keyPassword ≠ ""

/-- The columns of a server row are filled. -/
def assocFilled (row : NtpAssociationRow) : Prop :=
  row.address ≠ "" ∧ row.vrf ≠ none

/-- The two loops of `ops_ntpd_check_updates_from_ovsdb` treat every row by
    itself: in every order of the rows they end without an exception with the
    entries of the rows, each made of the columns of its own row, and if the
    keys are unique the order does not matter. -/
structure RowsIndependent (auth : String) (db : Db) : Prop where
  keys : ∀ rows : List NtpKeyRow, rows.Perm db.ntpKey →
    readKeyRows auth rows = .ok (Dict.ofPairs ((rows.filter (makesEntry auth)).map keyEntry))
  associations : ∀ rows : List NtpAssociationRow, rows.Perm db.ntpAssociation →
    readAssociationRows db rows = .ok (Dict.ofPairs (rows.filterMap (assocEntry db)))
  keyOrder : (db.ntpKey.map NtpKeyRow.keyId).Nodup →
    ∀ rows : List NtpKeyRow, rows.Perm db.ntpKey →
      readKeyRows auth rows = readKeyRows auth db.ntpKey
  associationOrder : (db.ntpAssociation.map fun r => (r.vrf, r.address)).Nodup →
    ∀ rows : List NtpAssociationRow, rows.Perm db.ntpAssociation →
      readAssociationRows db rows = readAssociationRows db db.ntpAssociation

/-! ## Section 5: The loops on filled rows -/

section keys
variable {auth : String}

theorem keyLoopStep_of_filled {row : NtpKeyRow} (h : keyFilled auth row) (st : KeyLoop) :
    ∃ st', keyLoopStep auth st row = .ok st' ∧
      st'.updateMap =
        if makesEntry auth row then
          st.updateMap.insert row.keyId (row.keyPassword, true)
        else st.updateMap := by
  unfold keyLoopStep
  by_cases hmakes : makesEntry auth row = true
  · obtain ⟨hid, hpwd⟩ := h hmakes
    have hcond : row.trustEnable = true ∧ auth = "true" := by
      simpa [makesEntry] using hmakes
    rw [if_pos hcond, if_pos hid, if_pos hpwd]
    exact ⟨_, rfl, by rw [if_pos hmakes]⟩
  · have hcond : ¬ (row.trustEnable = true ∧ auth = "true") := by
      simpa [makesEntry] using hmakes
    rw [if_neg hcond]
    exact ⟨_, rfl, by rw [if_neg hmakes]⟩

/-- **Run.** On filled rows every entry is made of its own row. -/
theorem readKeyRows_of_filled {rows : List NtpKeyRow} (h : ∀ r ∈ rows, keyFilled auth r) :
    readKeyRows auth rows =
      .ok (Dict.ofPairs ((rows.filter (makesEntry auth)).map keyEntry)) := by
  have hloop : ∀ (rows : List NtpKeyRow) (st : KeyLoop), (∀ r ∈ rows, keyFilled auth r) →
      ∃ st', rows.foldlM (keyLoopStep auth) st = .ok st' ∧
        st'.updateMap = ((rows.filter (makesEntry auth)).map keyEntry).foldl
          (fun m p => m.insert p.1 p.2) st.updateMap := by
    intro rows
    induction rows with
    | nil => intro st _; exact ⟨st, rfl, rfl⟩
    | cons r rows ih =>
      intro st hfill
      obtain ⟨st₁, hstep, hmap₁⟩ := keyLoopStep_of_filled (hfill r List.mem_cons_self) st
      obtain ⟨st', hrest, hmap'⟩ := ih st₁ fun r' hr' => hfill r' (List.mem_cons_of_mem _ hr')
      refine ⟨st', ?_, ?_⟩
      · rw [List.foldlM_cons, hstep]
        exact hrest
      · rw [hmap', hmap₁]
        by_cases hmakes : makesEntry auth r = true
        · rw [if_pos hmakes, List.filter_cons_of_pos hmakes]
          rfl
        · rw [if_neg hmakes, List.filter_cons_of_neg hmakes]
  obtain ⟨st', hrun, hmap⟩ := hloop rows _ h
  rw [readKeyRows, hrun]
  exact congrArg Except.ok hmap

/-- A trusted row with an empty column that comes first raises. -/
theorem readKeyRows_of_not_filled {row : NtpKeyRow} (h : ¬ keyFilled auth row)
    (rows : List NtpKeyRow) : ∃ e, readKeyRows auth (row :: rows) = .error e := by
  unfold keyFilled at h
  rw [Classical.not_imp, not_and_or, not_not, not_not] at h
  obtain ⟨hmakes, hempty⟩ := h
  have hcond : row.trustEnable = true ∧ auth = "true" := by
    simpa [makesEntry] using hmakes
  obtain ⟨e, he⟩ : ∃ e, keyLoopStep auth
      { keyId := none, keyPassword := none, updateMap := ∅ } row = .error e := by
    unfold keyLoopStep
    rw [if_pos hcond]
    rcases hempty with hid | hpwd
    · rw [if_neg (not_not.mpr hid)]
      exact ⟨_, rfl⟩
    · rw [if_neg (not_not.mpr hpwd)]
      by_cases hid : row.keyId = 0
      · rw [if_neg (not_not.mpr hid)]
        exact ⟨_, rfl⟩
      · rw [if_pos hid]
        exact ⟨_, rfl⟩
  refine ⟨e, ?_⟩
  rw [readKeyRows, List.foldlM_cons, he]
  rfl

end keys

section associations
variable {db : Db}

variable (db) in
theorem assocLoopStep_of_filled {row : NtpAssociationRow} (h : assocFilled row)
    (st : AssocLoop) :
    ∃ st' p, assocLoopStep db st row = .ok st' ∧ assocEntry db row = some p ∧
      st'.updateMap = st.updateMap.insert p.1 p.2 := by
  obtain ⟨haddr, hvrf⟩ := h
  obtain ⟨vrf, hvrf⟩ := Option.ne_none_iff_exists'.mp hvrf
  unfold assocLoopStep
  rw [if_pos haddr, hvrf]
  exact ⟨_, _, rfl, by rw [assocEntry, hvrf]; rfl, rfl⟩

variable (db) in
/-- **Run.** On filled rows every entry is made of its own row. -/
theorem readAssociationRows_of_filled {rows : List NtpAssociationRow}
    (h : ∀ r ∈ rows, assocFilled r) :
    readAssociationRows db rows = .ok (Dict.ofPairs (rows.filterMap (assocEntry db))) := by
  have hloop : ∀ (rows : List NtpAssociationRow) (st : AssocLoop), (∀ r ∈ rows, assocFilled r) →
      ∃ st', rows.foldlM (assocLoopStep db) st = .ok st' ∧
        st'.updateMap = (rows.filterMap (assocEntry db)).foldl
          (fun m p => m.insert p.1 p.2) st.updateMap := by
    intro rows
    induction rows with
    | nil => intro st _; exact ⟨st, rfl, rfl⟩
    | cons r rows ih =>
      intro st hfill
      obtain ⟨st₁, p, hstep, hentry, hmap₁⟩ :=
        assocLoopStep_of_filled db (hfill r List.mem_cons_self) st
      obtain ⟨st', hrest, hmap'⟩ := ih st₁ fun r' hr' => hfill r' (List.mem_cons_of_mem _ hr')
      refine ⟨st', ?_, ?_⟩
      · rw [List.foldlM_cons, hstep]
        exact hrest
      · rw [hmap', hmap₁, List.filterMap_cons_some hentry]
        rfl
  obtain ⟨st', hrun, hmap⟩ := hloop rows _ h
  rw [readAssociationRows, hrun]
  exact congrArg Except.ok hmap

variable (db) in
/-- A server row with an empty column that comes first raises. -/
theorem readAssociationRows_of_not_filled {row : NtpAssociationRow} (h : ¬ assocFilled row)
    (rows : List NtpAssociationRow) : ∃ e, readAssociationRows db (row :: rows) = .error e := by
  unfold assocFilled at h
  rw [not_and_or, not_not, not_not] at h
  obtain ⟨e, he⟩ : ∃ e, assocLoopStep db { ipAddress := none, updateMap := ∅ } row = .error e := by
    unfold assocLoopStep
    by_cases haddr : row.address = ""
    · rw [if_neg (not_not.mpr haddr)]
      exact ⟨_, rfl⟩
    · rw [if_pos haddr, h.resolve_left haddr]
      exact ⟨_, rfl⟩
  refine ⟨e, ?_⟩
  rw [readAssociationRows, List.foldlM_cons, he]
  rfl

end associations

/-! ## Section 6: Independence -/

/-- The columns of all rows are filled that the loops read without a default. -/
structure RowsFilled (auth : String) (db : Db) : Prop where
  keys : ∀ r ∈ db.ntpKey, keyFilled auth r
  associations : ∀ r ∈ db.ntpAssociation, assocFilled r

theorem nodup_keyEntries {auth : String} {rows : List NtpKeyRow}
    (h : (rows.map NtpKeyRow.keyId).Nodup) :
    (((rows.filter (makesEntry auth)).map keyEntry).map Prod.fst).Nodup := by
  rw [List.map_map]
  exact List.Nodup.sublist (List.Sublist.map _ List.filter_sublist) h

theorem map_fst_assocEntries (db : Db) {rows : List NtpAssociationRow}
    (h : ∀ r ∈ rows, r.vrf ≠ none) :
    ((rows.filterMap (assocEntry db)).map Prod.fst).map (fun k => (some k.1, k.2)) =
      rows.map fun r => (r.vrf, r.address) := by
  induction rows with
  | nil => rfl
  | cons r rows ih =>
    obtain ⟨vrf, hvrf⟩ := Option.ne_none_iff_exists'.mp (h r List.mem_cons_self)
    have hentry : assocEntry db r = some ((vrf, r.address), assocTuple db r vrf) := by
      rw [assocEntry, hvrf]
      rfl
    rw [List.filterMap_cons_some hentry, List.map_cons, List.map_cons,
      ih fun r' hr' => h r' (List.mem_cons_of_mem _ hr'), List.map_cons, hvrf]

theorem nodup_assocEntries {db : Db} {rows : List NtpAssociationRow}
    (hvrf : ∀ r ∈ rows, r.vrf ≠ none) (h : (rows.map fun r => (r.vrf, r.address)).Nodup) :
    ((rows.filterMap (assocEntry db)).map Prod.fst).Nodup := by
  rw [← map_fst_assocEntries db hvrf] at h
  exact List.Nodup.of_map _ h

/-- **Rows are read independently exactly when they are filled.** -/
theorem rowsIndependent_iff (auth : String) (db : Db) :
    RowsIndependent auth db ↔ RowsFilled auth db := by
  constructor
  · intro h
    refine { keys := ?_, associations := ?_ }
    · intro r hr
      by_contra hempty
      obtain ⟨e, he⟩ := readKeyRows_of_not_filled hempty (db.ntpKey.erase r)
      have hok := h.keys _ (List.perm_cons_erase hr).symm
      rw [he] at hok
      cases hok
    · intro r hr
      by_contra hempty
      obtain ⟨e, he⟩ := readAssociationRows_of_not_filled db hempty
        (db.ntpAssociation.erase r)
      have hok := h.associations _ (List.perm_cons_erase hr).symm
      rw [he] at hok
      cases hok
  · intro h
    have hkeys : ∀ rows : List NtpKeyRow, rows.Perm db.ntpKey → readKeyRows auth rows =
        .ok (Dict.ofPairs ((rows.filter (makesEntry auth)).map keyEntry)) :=
      fun rows hperm => readKeyRows_of_filled fun r hr => h.keys r (hperm.mem_iff.mp hr)
    have hassocs : ∀ rows : List NtpAssociationRow, rows.Perm db.ntpAssociation →
        readAssociationRows db rows = .ok (Dict.ofPairs (rows.filterMap (assocEntry db))) :=
      fun rows hperm =>
        readAssociationRows_of_filled db fun r hr => h.associations r (hperm.mem_iff.mp hr)
    refine { keys := hkeys, associations := hassocs, keyOrder := ?_, associationOrder := ?_ }
    · intro hnd rows hperm
      rw [hkeys rows hperm, hkeys db.ntpKey (List.Perm.refl _)]
      have hnd' : (rows.map NtpKeyRow.keyId).Nodup := (hperm.map _).nodup_iff.mpr hnd
      rw [Dict.ofPairs_perm (nodup_keyEntries hnd') ((hperm.filter _).map keyEntry)]
    · intro hnd rows hperm
      rw [hassocs rows hperm, hassocs db.ntpAssociation (List.Perm.refl _)]
      have hnd' : (rows.map fun r => (r.vrf, r.address)).Nodup := (hperm.map _).nodup_iff.mpr hnd
      have hvrf : ∀ r ∈ rows, r.vrf ≠ none :=
        fun r hr => (h.associations r (hperm.mem_iff.mp hr)).2
      rw [Dict.ofPairs_perm (nodup_assocEntries hvrf hnd') (hperm.filterMap _)]

/-- A trusted key without a password gets the password of the key before it. -/
theorem password_of_another_row :
    ¬ RowsIndependent "true"
      { nextUuid := 2, system := [], vrf := [], ntpAssociation := [],
        ntpKey := [⟨0, 5, "topsecret", true⟩, ⟨1, 6, "", true⟩] } := by
  intro h
  have hread := h.keys _ (List.Perm.refl _)
  revert hread
  decide

end OpsNtpd.Daemon
