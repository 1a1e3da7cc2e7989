import OpsNtpd.Framework.Dict
import OpsNtpd.Framework.Rows

/-! # The OVSDB Tables of the NTP Client

  The rows of the `System`, `VRF`, `NTP_Key` and `NTP_Association` tables with
  the columns that the CLI plugin and the daemon register, and the operations
  a transaction carries. A table is the list of its rows in the order in
  which a `FOR_EACH` loop or `rows.itervalues()` meets them; the order is not
  part of the database, so results about loops quantify over permutations.

  A reference is the identity of the row it points to. Deleting a key row
  clears the references to it.
-/

namespace OpsNtpd

/-! ## Section 1: Rows -/

/-- Row identity. -/
abbrev Uuid : Type := Nat

/-- A `struct smap`: a map from strings to strings. -/
abbrev Smap : Type := Dict String String

structure SystemRow where
  uuid : Uuid
  curCfg : Int
  ntpConfig : Smap
  ntpStatus : Smap
  ntpStatistics : Smap
  deriving DecidableEq

structure VrfRow where
  uuid : Uuid
  name : String
  deriving DecidableEq

structure NtpKeyRow where
  uuid : Uuid
  keyId : Int
  keyPassword : String
  trustEnable : Bool
  deriving DecidableEq

/-- A server. `vrf` is a weak reference and `keyId` an optional one. -/
structure NtpAssociationRow where
  uuid : Uuid
  address : String
  vrf : Option Uuid
  keyId : Option Uuid
  associationAttributes : Smap
  associationStatus : Smap
  deriving DecidableEq

/-- The database. `nextUuid` is the identity the next inserted row gets. -/
structure Db where
  nextUuid : Uuid
  system : List SystemRow
  vrf : List VrfRow
  ntpKey : List NtpKeyRow
  ntpAssociation : List NtpAssociationRow
  deriving DecidableEq

/-- The same database with its rows met in another order. -/
structure Db.Reorders (db db' : Db) : Prop where
  nextUuid : db'.nextUuid = db.nextUuid
  system : db'.system.Perm db.system
  vrf : db'.vrf.Perm db.vrf
  ntpKey : db'.ntpKey.Perm db.ntpKey
  ntpAssociation : db'.ntpAssociation.Perm db.ntpAssociation

theorem Db.Reorders.refl (db : Db) : db.Reorders db :=
  ⟨rfl, List.Perm.refl _, List.Perm.refl _, List.Perm.refl _, List.Perm.refl _⟩

/-- The key row a reference points to. -/
def Db.keyRow (db : Db) (key : Uuid) : Option NtpKeyRow :=
  db.ntpKey.find? fun r => r.uuid = key

/-- The key id of the key row that a server row refers to. -/
def Db.keyOf (db : Db) (row : NtpAssociationRow) : Option Int :=
  (row.keyId.bind db.keyRow).map NtpKeyRow.keyId

/-- The VRF row a reference points to. -/
def Db.vrfRow (db : Db) (vrf : Uuid) : Option VrfRow :=
  db.vrf.find? fun r => r.uuid = vrf

section references
variable {db : Db} (hnd : (db.ntpKey.map NtpKeyRow.uuid).Nodup)
include hnd

theorem Db.keyRow_eq_some {u : Uuid} {r : NtpKeyRow} :
    db.keyRow u = some r ↔ r ∈ db.ntpKey ∧ r.uuid = u :=
  Rows.find_iff hnd

/-- A server row has the key id of the key row that it refers to. -/
theorem Db.keyOf_eq_some {row : NtpAssociationRow} {key : Int} :
    db.keyOf row = some key ↔ ∃ kr ∈ db.ntpKey, row.keyId = some kr.uuid ∧ kr.keyId = key := by
  constructor
  · intro hkey
    obtain ⟨kr, hkr, hid⟩ := Option.map_eq_some_iff.mp hkey
    obtain ⟨u, hu, hfind⟩ := Option.bind_eq_some_iff.mp hkr
    obtain ⟨hmem, huuid⟩ := (Db.keyRow_eq_some hnd).mp hfind
    exact ⟨kr, hmem, by rw [hu, huuid], hid⟩
  · intro hkey
    obtain ⟨kr, hmem, hu, hid⟩ := hkey
    have hfind : db.keyRow kr.uuid = some kr := (Db.keyRow_eq_some hnd).mpr ⟨hmem, rfl⟩
    simp [Db.keyOf, hu, hfind, hid]

/-- References do not depend on the order of the rows. -/
theorem Db.keyOf_reorders {db' : Db} (hre : db.Reorders db') (row : NtpAssociationRow) :
    db'.keyOf row = db.keyOf row := by
  have hnd' : (db'.ntpKey.map NtpKeyRow.uuid).Nodup := (hre.ntpKey.map _).nodup_iff.mpr hnd
  apply Option.ext
  intro key
  rw [Db.keyOf_eq_some hnd', Db.keyOf_eq_some hnd]
  simp only [hre.ntpKey.mem_iff]

end references

/-! ## Section 2: Keys of the map columns -/

/-- `SYSTEM_NTP_CONFIG_AUTHENTICATION_ENABLE` -/
def systemNtpConfigAuthenticationEnable : String := "authentication_enable"

/-- `NTP_ASSOC_ATTRIB_REF_CLOCK_ID` -/
def ntpAssocAttribRefClockId : String := "ref_clock_id"

/-- `NTP_ASSOC_ATTRIB_PREFER` -/
def ntpAssocAttribPrefer : String := "prefer"

/-- `NTP_ASSOC_ATTRIB_VERSION` -/
def ntpAssocAttribVersion : String := "version"

/-! ## Section 3: Transactions -/

/-- The columns of an `NTP_Key` row that a transaction writes. -/
structure NtpKeyWrites where
  keyId : Option Int
  keyPassword : Option String
  trustEnable : Option Bool
  deriving DecidableEq

def NtpKeyWrites.apply (w : NtpKeyWrites) (row : NtpKeyRow) : NtpKeyRow :=
  { row with
    keyId := w.keyId.getD row.keyId
    keyPassword := w.keyPassword.getD row.keyPassword
    trustEnable := w.trustEnable.getD row.trustEnable }

/-- The columns of an `NTP_Association` row that a transaction writes. -/
structure NtpAssociationWrites where
  address : Option String
  vrf : Option (Option Uuid)
  keyId : Option (Option Uuid)
  associationAttributes : Option Smap
  associationStatus : Option Smap
  deriving DecidableEq

def NtpAssociationWrites.apply (w : NtpAssociationWrites) (row : NtpAssociationRow) :
    NtpAssociationRow :=
  { row with
    address := w.address.getD row.address
    vrf := w.vrf.getD row.vrf
    keyId := w.keyId.getD row.keyId
    associationAttributes := w.associationAttributes.getD row.associationAttributes
    associationStatus := w.associationStatus.getD row.associationStatus }

/-- One operation of a transaction. -/
inductive DbOp where
  | insertKey (w : NtpKeyWrites)
  | updateKey (row : Uuid) (w : NtpKeyWrites)
  | deleteKey (row : Uuid)
  | insertAssociation (w : NtpAssociationWrites)
  | updateAssociation (row : Uuid) (w : NtpAssociationWrites)
  | deleteAssociation (row : Uuid)
  | updateSystem (row : Uuid) (ntpConfig : Smap)
  deriving DecidableEq

/-- A fresh key row: the columns have their defaults. -/
def NtpKeyRow.blank (uuid : Uuid) : NtpKeyRow :=
  { uuid := uuid, keyId := 0, keyPassword := "", trustEnable := false }

/-- A fresh server row: the columns have their defaults. -/
def NtpAssociationRow.blank (uuid : Uuid) : NtpAssociationRow :=
  { uuid := uuid, address := "", vrf := none, keyId := none,
    associationAttributes := ∅, associationStatus := ∅ }

/-- Clear a reference to a deleted key row. -/
def NtpAssociationRow.dropKey (key : Uuid) (row : NtpAssociationRow) : NtpAssociationRow :=
  if row.keyId = some key then { row with keyId := none } else row

/-- The effect of one operation. An update or a deletion of a row that is no
    longer there has none. -/
def Db.apply (db : Db) : DbOp → Db
  | .insertKey w =>
      { db with
        nextUuid := db.nextUuid + 1
        ntpKey := w.apply (.blank db.nextUuid) :: db.ntpKey }
  | .updateKey row w =>
      { db with ntpKey := Rows.updateWhere NtpKeyRow.uuid row w.apply db.ntpKey }
  | .deleteKey row =>
      { db with
        ntpKey := db.ntpKey.filter fun r => r.uuid ≠ row
        ntpAssociation := db.ntpAssociation.map (NtpAssociationRow.dropKey row) }
  | .insertAssociation w =>
      { db with
        nextUuid := db.nextUuid + 1
        ntpAssociation := w.apply (.blank db.nextUuid) :: db.ntpAssociation }
  | .updateAssociation row w =>
      { db with
        ntpAssociation :=
          Rows.updateWhere NtpAssociationRow.uuid row w.apply db.ntpAssociation }
  | .deleteAssociation row =>
      { db with ntpAssociation := db.ntpAssociation.filter fun r => r.uuid ≠ row }
  | .updateSystem row config =>
      { db with
        system := Rows.updateWhere SystemRow.uuid row
          (fun r => { r with ntpConfig := config }) db.system }

/-- Commit a transaction: its operations take effect together. -/
def Db.commit (db : Db) (ops : List DbOp) : Db := ops.foldl Db.apply db

@[simp] theorem Db.commit_nil (db : Db) : db.commit [] = db := rfl

@[simp] theorem Db.commit_singleton (db : Db) (op : DbOp) :
    db.commit [op] = db.apply op := rfl

end OpsNtpd
