import TableAccess.Document.File
import TableAccess.Proofs.Document.Reachable
import TableAccess.Proofs.Document.RoundTrip
import TableAccess.Proofs.FileTree.Write

/-!
# Floating point numbers in saved databases

A document has the shortest digits of a number, but they are read in one pass, with a rounding for
the digits, for the power of ten and for their product.  So a cell comes back as a number at most
two places away in the format, and as the same number if its digits and the power are few enough
not to be rounded.  Everything else about the database comes back as it was.
-/

namespace TableAccess

/-- The cell at a position of a database. -/
def Database.cell? (db : Database) (table row column : Nat) : Option Value :=
  (db.tables[table]?).bind fun t => (t.rows[row]?).bind fun values => values[column]?

namespace Document

open Number Binary64

/-- The digits that are written for a number, with the one behind the point of a whole number, fit
53 bits, and so does their power of ten without its factors two. -/
def FewDigits (x : Binary64) : Prop :=
  (Json.taken (Json.decimalOf x)).digits ≤ 2 ^ 53 ∧
    (Json.taken (Json.decimalOf x)).exponent.natAbs ≤ 22

instance (x : Binary64) : Decidable (FewDigits x) := inferInstanceAs (Decidable (_ ∧ _))

/-- What may become of a finite number: a finite one of the same sign, at most two places away, and
with few digits the same one. -/
structure Survives (x y : Binary64) : Prop where
  finite : y.isFinite = true
  sign : y.negative = x.negative
  near : Json.Near (code x) (code y)
  same : FewDigits x → y = x

/-- What a reload does to a database. -/
structure ReloadLaw (db : Database) : Prop where
  parsed : ∀ origin, parse (bytes db) origin = .ok db.reloaded
  loaded : ∀ files files' path, save files path db = .ok files' →
    load files' path = .ok db.reloaded
  tables : db.reloaded.tables.map (fun t => (t.name, t.columns, t.rows.map List.length)) =
    db.tables.map fun t => (t.name, t.columns, t.rows.map List.length)
  /-- Dates become texts, and all other cells without a floating point number stay. -/
  cells : ∀ i j k v, db.cell? i j k = some v → (∀ x, v ≠ .float x) →
    db.reloaded.cell? i j k = some v.loaded
  floats : ∀ i j k x, db.cell? i j k = some (.float x) → x.isFinite = true →
    ∃ y, db.reloaded.cell? i j k = some (.float y) ∧ Survives x y

variable {db : Database} {files files' : FileTree} {path : String}

/-- A saved document is what its file holds. -/
theorem load_of_save (h : save files path db = .ok files') :
    load files' path = parse (bytes db) path := by
  rw [save] at h
  cases hwrite : files.write path (.bytes (bytes db)) with
  | error e =>
    rw [hwrite] at h
    cases h
  | ok written =>
    rw [hwrite] at h
    cases h
    obtain ⟨place, htarget, rfl⟩ := FileTree.write_eq_ok_iff.mp hwrite
    rw [load, (FileTree.wrote_set htarget _).reads]
    rfl

theorem cell?_reloaded (db : Database) (i j k : Nat) :
    db.reloaded.cell? i j k = (db.cell? i j k).map Value.reloaded := by
  rw [Database.cell?, Database.cell?, Database.reloaded, List.getElem?_map]
  cases db.tables[i]? with
  | none => rfl
  | some t =>
    rw [Option.map_some, Option.bind_some, Option.bind_some, Table.reloaded, List.getElem?_map]
    cases t.rows[j]? with
    | none => rfl
    | some values => exact List.getElem?_map

theorem exists_survives {x : Binary64} (hx : x.isFinite = true) :
    ∃ y, Value.reloaded (.float x) = .float y ∧ Survives x y := by
  obtain ⟨y, hy, hfinite, hsign, hnear⟩ := Json.exists_reread hx
  refine ⟨y, by rw [Value.reloaded, hy], hfinite, hsign, hnear, ?_⟩
  rintro ⟨hdigits, hexponent⟩
  rw [Json.reread_of_small hx hdigits hexponent] at hy
  exact (Option.some.inj hy).symm

/-- **A reload keeps a database but for the last places of its floating point numbers**, whatever
document it came from and whatever tables were added. -/
theorem reloadLaw_of_reachable {db : Database} (h : db.Reachable) : ReloadLaw db := by
  have hparsed := parse_bytes_reloaded h.wellFormed
  constructor
  case parsed => exact hparsed
  case loaded =>
    intro files files' path hsave
    rw [load_of_save hsave, hparsed]
  case tables =>
    rw [Database.reloaded, List.map_map]
    refine List.map_congr_left fun t _ => ?_
    simp only [Function.comp_apply, Table.reloaded, List.map_map]
    congr 3
    exact funext fun row => List.length_map _
  case cells =>
    intro i j k v hv hfloat
    rw [cell?_reloaded, hv, Option.map_some, reloaded_of_not_float hfloat]
  case floats =>
    intro i j k x hx hfinite
    obtain ⟨y, hy, hsurvives⟩ := exists_survives hfinite
    exact ⟨y, by rw [cell?_reloaded, hx, Option.map_some, hy], hsurvives⟩

/-- A date, and beside it two and a half, zero with a sign and the smallest number. -/
def readings : Table :=
  ⟨"Readings", ["day", "value"],
    [[.date ⟨2018, 6, 30, rfl⟩, .float ⟨0x4004000000000000⟩],
      [.null, .float ⟨0x8000000000000000⟩], [.integer (-1), .float ⟨1⟩]]⟩

theorem reachable_readings : Database.Reachable ⟨[readings]⟩ :=
  Database.Reachable.empty.afterAdding readings

theorem reloadLaw_readings :
    Database.Reachable ⟨[readings]⟩ ∧ ReloadLaw ⟨[readings]⟩ ∧ FewDigits ⟨0x4004000000000000⟩ ∧
      Database.cell? ⟨[readings]⟩ 0 0 1 = some (.float ⟨0x4004000000000000⟩) :=
  ⟨reachable_readings, reloadLaw_of_reachable reachable_readings, by decide +kernel, rfl⟩

/-- The largest whole number of 53 bits, 9007199254740991. -/
def widest : Table := ⟨"A", ["x"], [[.float ⟨0x433FFFFFFFFFFFFF⟩]]⟩

/-- It is saved with one digit behind its point, and with that the digits exceed 53 bits: it is
loaded as 9007199254740990. -/
theorem parse_bytes_widest :
    parse (bytes ⟨[widest]⟩) "out.mvo" = .ok ⟨[⟨"A", ["x"], [[.float ⟨0x433FFFFFFFFFFFFE⟩]]⟩]⟩ := by
  have hreachable : Database.Reachable ⟨[widest]⟩ := Database.Reachable.empty.afterAdding widest
  have hreloaded : Database.reloaded ⟨[widest]⟩ =
      ⟨[⟨"A", ["x"], [[.float ⟨0x433FFFFFFFFFFFFE⟩]]⟩]⟩ := by decide +kernel
  rw [parse_bytes_reloaded hreachable.wellFormed, hreloaded]

end Document

end TableAccess
