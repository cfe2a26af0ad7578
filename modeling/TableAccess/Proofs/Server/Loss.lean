import Mathlib.Data.List.Basic
import TableAccess.Proofs.Handler.Run
import TableAccess.Proofs.Number.Digits
import TableAccess.Proofs.Row.Conversion

/-!
# Which values of servers are lost

A cell that its type cannot make sense of becomes null, like a cell that is null.  Which cells are
lost in this way depends on what is wide enough for the values of a type: whole numbers, floating
point numbers, bytes and truth values always arrive, but decimal numbers only within their room,
arrays only without gaps, and times only within a day.
-/

namespace TableAccess.Server

/-! ### Decimal numbers -/

namespace Numeric

/-- The number is so large that even its nearest whole number has too many digits. -/
def IsTooLarge (coefficient places : Nat) : Prop :=
  (2 * coefficientBound - 1) * Nat.pow 10 places ≤ 2 * coefficient

/-- A digit that is not zero stands behind the most places that are kept. -/
def IsTooFine (coefficient places : Nat) : Prop := coefficient % Nat.pow 10 (places - maxPlaces) ≠ 0

variable {coefficient places : Nat}

theorem isTooLarge_iff : IsTooLarge coefficient places ↔
    2 * (coefficientBound * Nat.pow 10 places) ≤ 2 * coefficient + Nat.pow 10 places := by
  rw [IsTooLarge, Nat.sub_mul, Nat.one_mul, Nat.mul_assoc, Nat.sub_le_iff_le_add]

theorem coefficientBound_le_roundHalfUp :
    coefficientBound ≤ roundHalfUp coefficient places ↔ IsTooLarge coefficient places := by
  have hpos : 0 < Nat.pow 10 places := Nat.pow_pos (by decide)
  rw [isTooLarge_iff, roundHalfUp]
  exact (Nat.le_div_iff_mul_le (Nat.mul_pos (by decide) hpos)).trans
    (by rw [Nat.mul_left_comm])

/-- With fewer places the same digits are a larger number. -/
theorem IsTooLarge.sub (h : IsTooLarge coefficient places) (kept : Nat) :
    IsTooLarge coefficient (places - kept) :=
  Nat.le_trans (Nat.mul_le_mul_left _ (Nat.pow_le_pow_right (by decide) (Nat.sub_le ..))) h

/-- If no place is kept there is the most room. -/
theorem mostPlaces?_eq_none_iff (most : Nat) :
    mostPlaces? coefficient places most = none ↔ IsTooLarge coefficient places := by
  induction most with
  | zero =>
    show (if roundHalfUp coefficient places < coefficientBound then _ else _) = none ↔ _
    rw [← coefficientBound_le_roundHalfUp]
    split
    case isTrue hfits => exact iff_of_false nofun (Nat.not_le.mpr hfits)
    case isFalse hlarge => exact iff_of_true rfl (Nat.not_lt.mp hlarge)
  | succ most ih =>
    show (if roundHalfUp coefficient (places - (most + 1)) < coefficientBound then _ else _) =
      none ↔ _
    split
    case isTrue hfits =>
      refine iff_of_false nofun fun hlarge => Nat.not_le.mpr hfits ?_
      exact coefficientBound_le_roundHalfUp.mpr (hlarge.sub _)
    case isFalse => exact ih

theorem roundedText?_eq_none_iff (negative : Bool) :
    roundedText? (.decimal negative coefficient places) = none ↔ IsTooLarge coefficient places := by
  rw [roundedText?]
  split
  case isTrue hwhole =>
    have hwhole := (Nat.le_div_iff_mul_le (Nat.pow_pos (by decide))).mp hwhole
    refine iff_of_true rfl (isTooLarge_iff.mpr ?_)
    exact Nat.le_trans (Nat.mul_le_mul_left 2 hwhole) (Nat.le_add_right ..)
  case isFalse => rw [Option.map_eq_none_iff, mostPlaces?_eq_none_iff]

theorem cutText?_eq_none_iff (negative : Bool) :
    cutText? (.decimal negative coefficient places) = none ↔
      IsTooFine coefficient places ∨ IsTooLarge coefficient places := by
  rw [cutText?]
  split
  case isTrue hzero =>
    subst hzero
    refine iff_of_false nofun ?_
    rintro (hfine | hlarge)
    · exact hfine (Nat.zero_mod _)
    · have hpos : 0 < (2 * coefficientBound - 1) * Nat.pow 10 places :=
        Nat.mul_pos (by decide) (Nat.pow_pos (by decide))
      exact Nat.not_lt.mpr hlarge hpos
  case isFalse =>
    split
    case isTrue hcut =>
      have hfine : ¬ IsTooFine coefficient places := not_not.mpr hcut
      rw [roundedText?_eq_none_iff, or_iff_right hfine]
    case isFalse hcut => exact iff_of_true rfl (Or.inl hcut)

end Numeric

/-! ### Values that are null -/

theorem getD_map_eq_null_iff {α : Type} {make : α → Value} (hmake : ∀ a, make a ≠ .null)
    {o : Option α} : (o.map make).getD .null = .null ↔ o = none := by
  cases o with
  | none => exact iff_of_true rfl rfl
  | some a => exact iff_of_false (hmake a) nofun

theorem mapM_eq_none_iff {α β : Type} {f : α → Option β} {list : List α} :
    list.mapM f = none ↔ ∃ a ∈ list, f a = none := by
  induction list with
  | nil => exact iff_of_false nofun (by simp)
  | cons a list ih =>
    rw [List.mapM_cons]
    cases ha : f a with
    | none => exact iff_of_true rfl ⟨a, List.mem_cons_self .., ha⟩
    | some b =>
      have hrest : (∃ c ∈ a :: list, f c = none) ↔ ∃ c ∈ list, f c = none := by simp [ha]
      rw [hrest, ← ih]
      cases list.mapM f with
      | none => exact iff_of_true rfl rfl
      | some rest => exact iff_of_false nofun nofun

/-- A whole number that a word holds is read in it. -/
theorem inWord?_integer {word : Word} {i : Int} (hlow : word.least ≤ i) (hhigh : i < word.bound) :
    (Datum.integer i).inWord? word = some i :=
  if_pos ⟨hlow, hhigh⟩

/-- A whole number that its word holds is never lost. -/
theorem asInteger?_ne_null {word : Word} {i : Int} (hlow : word.least ≤ i)
    (hhigh : i < word.bound) : ((Datum.integer i).asInteger? word).getD .null ≠ .null := by
  rw [Datum.asInteger?, inWord?_integer hlow hhigh]
  nofun

theorem asText?_eq_null_iff {b : List UInt8} :
    ((Datum.bytes b).asText?).getD .null = .null ↔ Text.decode? b = none :=
  getD_map_eq_null_iff nofun

theorem asJson?_eq_null_iff {b : List UInt8} :
    ((Datum.bytes b).asJson?).getD .null = .null ↔ Json.ofBytes? b = none :=
  getD_map_eq_null_iff nofun

/-! ### PostgreSQL -/

namespace Postgres

/-- The cells that the server sends in a column of a type that is known. -/
inductive Sends : ColumnType → Cell → Prop
  | null (t : ColumnType) : Sends t (.datum .null)
  | boolean (b : Bool) : Sends .boolean (.datum (.bool b))
  | integer {word : Word} {i : Int} : word.least ≤ i → i < word.bound →
      Sends (.integer word) (.datum (.integer i))
  | single (bits : UInt32) : Sends .single (.datum (.single bits))
  | double (x : Number.Binary64) : Sends .double (.datum (.double x))
  | numeric (n : Numeric) : Sends .numeric (.datum (.numeric n))
  | text (b : List UInt8) : Sends .text (.datum (.bytes b))
  | binary (b : List UInt8) : Sends .binary (.datum (.bytes b))
  | date (d : Date) : Sends .date (.datum (.date d))
  | time (us : Int) : Sends .time (.datum (.time us))
  | timestamp (d : Date) (us : Nat) : Sends .timestamp (.datum (.moment d us))
  | zonedTimestamp (d : Date) (us : Nat) : Sends .zonedTimestamp (.datum (.moment d us))
  | uuid {b : List UInt8} : b.length = 16 → Sends .uuid (.datum (.bytes b))
  | json (b : List UInt8) : Sends .json (.datum (.bytes b))
  /-- Without a dimension there is no element. -/
  | scalarArray (element : ScalarType) {dimensions : Nat} (first : Int) {items : List Datum} :
      (dimensions = 0 → items = []) →
      (∀ d ∈ items, d = .null ∨ (scalarText? element d).isSome = true) →
        Sends (.scalarArray element) (.array dimensions first items)
  | textArray {dimensions : Nat} (first : Int) {items : List Datum} :
      (dimensions = 0 → items = []) → (∀ d ∈ items, d = .null ∨ ∃ b, d = .bytes b) →
        Sends .textArray (.array dimensions first items)

/-- The elements that spoil an array. -/
inductive Spoils : ColumnType → Datum → Prop
  | null (t : ColumnType) : Spoils t .null
  | notText {b : List UInt8} : Text.decode? b = none → Spoils .textArray (.bytes b)

/-- The cells that are lost, although they are not null. -/
inductive Loses : ColumnType → Cell → Prop
  | notNumber : Loses .numeric (.datum (.numeric .notNumber))
  | tooLarge {negative : Bool} {coefficient places : Nat} :
      Numeric.IsTooLarge coefficient places →
        Loses .numeric (.datum (.numeric (.decimal negative coefficient places)))
  | tooFine {negative : Bool} {coefficient places : Nat} :
      Numeric.IsTooFine coefficient places →
        Loses .numeric (.datum (.numeric (.decimal negative coefficient places)))
  | notText {b : List UInt8} : Text.decode? b = none → Loses .text (.datum (.bytes b))
  /-- The day after so many microseconds is out of range. -/
  | noDay {t : ColumnType} {d : Date} {us : Nat} :
      d.after? (us / Clock.microsecondsPerDay) = none → Loses t (.datum (.moment d us))
  | notJson {b : List UInt8} : Json.ofBytes? b = none → Loses .json (.datum (.bytes b))
  | manyDimensions {t : ColumnType} {dimensions : Nat} {first : Int} {items : List Datum} :
      2 ≤ dimensions → Loses t (.array dimensions first items)
  /-- Only an array with a dimension has a first index. -/
  | otherFirst {t : ColumnType} {first : Int} {items : List Datum} :
      first ≠ 1 → Loses t (.array 1 first items)
  /-- One element is enough. -/
  | element {t : ColumnType} {dimensions : Nat} {first : Int} {items : List Datum} {d : Datum} :
      d ∈ items → Spoils t d → Loses t (.array dimensions first items)

variable {t : ColumnType} {cell : Cell} {dimensions : Nat} {first : Int} {items : List Datum}

/-- A moment is lost with its day. -/
theorem momentOf?_eq_null_iff (zone : String) (d : Date) (us : Nat) :
    (momentOf? zone (.moment d us)).getD .null = .null ↔ Loses t (.datum (.moment d us)) := by
  rw [momentOf?]
  cases hday : d.after? (us / Clock.microsecondsPerDay) with
  | none => exact iff_of_true rfl (.noDay hday)
  | some day =>
    refine iff_of_false (fun h => nomatch h) fun hlost => ?_
    cases hlost with
    | noDay hnone =>
      rw [hday] at hnone
      cases hnone

/-- An array is lost by its shape or by one of its elements. -/
theorem array_eq_null_iff {element : Datum → Option (List Char)}
    {render : List (List Char) → List Char} (hempty : dimensions = 0 → items = [])
    (hvalue : arrayValue? t items =
      (items.mapM element).map fun parts => .text (String.ofList (render parts)))
    (helement : ∀ d ∈ items, element d = none ↔ Spoils t d) :
    (cellValue? t (.array dimensions first items)).getD .null = .null ↔
      Loses t (.array dimensions first items) := by
  show ((plainItems? (.array dimensions first items)).bind (arrayValue? t)).getD .null = .null ↔ _
  have hitems : ((some items).bind (arrayValue? t)).getD .null = .null ↔
      ∃ d ∈ items, Spoils t d := by
    rw [Option.bind_some, hvalue, getD_map_eq_null_iff nofun, mapM_eq_none_iff]
    exact exists_congr fun d => and_congr_right fun hd => helement d hd
  match dimensions with
  | 0 =>
    obtain rfl := hempty rfl
    refine hitems.trans ⟨fun ⟨d, hd, _⟩ => absurd hd List.not_mem_nil, fun hlost => ?_⟩
    cases hlost with
    | manyDimensions hmany => exact absurd hmany (by decide)
    | element hd hspoils => exact ⟨_, hd, hspoils⟩
  | 1 =>
    by_cases hfirst : first = 1
    · rw [plainItems?, if_pos hfirst]
      refine hitems.trans ⟨fun ⟨d, hd, hspoils⟩ => .element hd hspoils, fun hlost => ?_⟩
      cases hlost with
      | manyDimensions hmany => exact absurd hmany (by decide)
      | otherFirst hother => exact absurd hfirst hother
      | element hd hspoils => exact ⟨_, hd, hspoils⟩
    · rw [plainItems?, if_neg hfirst]
      exact iff_of_true rfl (.otherFirst hfirst)
  | dimensions + 2 => exact iff_of_true rfl (.manyDimensions (Nat.le_add_left ..))

theorem scalarText?_eq_none_iff {element : ScalarType} {d : Datum}
    (hd : d = .null ∨ (scalarText? element d).isSome = true) :
    scalarText? element d = none ↔ Spoils (.scalarArray element) d := by
  obtain rfl | hsome := hd
  · refine iff_of_true ?_ (.null _)
    cases element <;> rfl
  · refine iff_of_false (Option.isSome_iff_ne_none.mp hsome) ?_
    rintro ⟨⟩
    cases element <;> cases hsome

theorem elementText?_eq_none_iff {d : Datum} (hd : d = .null ∨ ∃ b, d = .bytes b) :
    elementText? d = none ↔ Spoils .textArray d := by
  obtain rfl | ⟨b, rfl⟩ := hd
  · exact iff_of_true rfl (.null _)
  · refine ⟨.notText, ?_⟩
    rintro ⟨⟩
    assumption

/-- Exactly the lost cells give nothing. -/
theorem cellValue?_eq_null_iff (h : Sends t cell) (hcell : cell ≠ .datum .null) :
    (cellValue? t cell).getD .null = .null ↔ Loses t cell := by
  cases h with
  | null => exact absurd rfl hcell
  | boolean b => exact iff_of_false nofun nofun
  | integer hlow hhigh => exact iff_of_false (asInteger?_ne_null hlow hhigh) nofun
  | single bits => exact iff_of_false nofun nofun
  | double x => exact iff_of_false nofun nofun
  | numeric n =>
    cases n with
    | notNumber => exact iff_of_true rfl .notNumber
    | decimal negative coefficient places =>
      refine (getD_map_eq_null_iff nofun).trans ((Numeric.cutText?_eq_none_iff negative).trans ?_)
      constructor
      · rintro (hfine | hlarge)
        · exact .tooFine hfine
        · exact .tooLarge hlarge
      · rintro (_ | hlarge | hfine)
        · exact Or.inr hlarge
        · exact Or.inl hfine
  | text b =>
    refine asText?_eq_null_iff.trans ⟨.notText, ?_⟩
    rintro ⟨⟩
    assumption
  | binary b => exact iff_of_false nofun nofun
  | date d => exact iff_of_false nofun nofun
  | time us => exact iff_of_false nofun nofun
  | timestamp d us => exact momentOf?_eq_null_iff "" d us
  | zonedTimestamp d us => exact momentOf?_eq_null_iff " UTC" d us
  | uuid hlength =>
    refine iff_of_false ?_ nofun
    show (if _ then some _ else none : Option Value).getD .null ≠ .null
    rw [if_pos hlength]
    nofun
  | json b =>
    refine asJson?_eq_null_iff.trans ⟨.notJson, ?_⟩
    rintro ⟨⟩
    assumption
  | scalarArray element first hempty hitems =>
    exact array_eq_null_iff hempty rfl fun d hd => scalarText?_eq_none_iff (hitems d hd)
  | textArray first hempty hitems =>
    exact array_eq_null_iff hempty rfl fun d hd => elementText?_eq_none_iff (hitems d hd)

end Postgres

/-! ### MySQL -/

namespace MySql

/-- The cells that the server sends in a column of a type that is known. -/
inductive Sends : ColumnType → Cell → Prop
  | null (t : ColumnType) : Sends t (.datum .null)
  | boolean (i : Int) : Sends .boolean (.datum (.integer i))
  | integer {word : Word} {i : Int} : word.least ≤ i → i < word.bound →
      Sends (.integer word) (.datum (.integer i))
  | unsignedBig {i : Int} : Word.uint64.least ≤ i → i < Word.uint64.bound →
      Sends .unsignedBig (.datum (.integer i))
  | single (bits : UInt32) : Sends .single (.datum (.single bits))
  | double (x : Number.Binary64) : Sends .double (.datum (.double x))
  | decimal (negative : Bool) (coefficient places : Nat) :
      Sends .decimal (.datum (.numeric (.decimal negative coefficient places)))
  | text (b : List UInt8) : Sends .text (.datum (.bytes b))
  | binary (b : List UInt8) : Sends .binary (.datum (.bytes b))
  | date (parts : Option (Nat × Nat × Nat)) (us : Nat) : Sends .date (.datum (.calendar parts us))
  | time (us : Int) : Sends .time (.datum (.time us))
  | datetime (parts : Option (Nat × Nat × Nat)) (us : Nat) :
      Sends .datetime (.datum (.calendar parts us))
  | timestamp (parts : Option (Nat × Nat × Nat)) (us : Nat) :
      Sends .timestamp (.datum (.calendar parts us))
  | json (b : List UInt8) : Sends .json (.datum (.bytes b))
  | set (b : List UInt8) : Sends .set (.datum (.bytes b))

/-- There is no day with these parts, as with the zero date. -/
def NoDay (parts : Option (Nat × Nat × Nat)) : Prop :=
  ∀ (day : Date) (year : Nat), day.year = year → parts ≠ some (year, day.month, day.day)

/-- The cells that are lost, although they are not null. -/
inductive Loses : ColumnType → Cell → Prop
  | tooLarge {negative : Bool} {coefficient places : Nat} :
      Numeric.IsTooLarge coefficient places →
        Loses .decimal (.datum (.numeric (.decimal negative coefficient places)))
  | notText {b : List UInt8} : Text.decode? b = none → Loses .text (.datum (.bytes b))
  | noDay {t : ColumnType} {parts : Option (Nat × Nat × Nat)} {us : Nat} :
      NoDay parts → Loses t (.datum (.calendar parts us))
  /-- A span of a day or more, in either direction. -/
  | longTime {us : Int} : Clock.microsecondsPerDay ≤ us.natAbs → Loses .time (.datum (.time us))
  /-- A time of day that no day has, where there is one. -/
  | late {t : ColumnType} {parts : Option (Nat × Nat × Nat)} {us : Nat} :
      t ≠ .date → Clock.microsecondsPerDay ≤ us → Loses t (.datum (.calendar parts us))
  | notJson {b : List UInt8} : Json.ofBytes? b = none → Loses .json (.datum (.bytes b))
  /-- Sets are never read. -/
  | set (b : List UInt8) : Loses .set (.datum (.bytes b))

variable {t : ColumnType} {cell : Cell} {parts : Option (Nat × Nat × Nat)} {us : Nat}

theorem dayOf?_eq_none_iff : dayOf? (.calendar parts us) = none ↔ NoDay parts := by
  constructor
  · rintro h day year hyear rfl
    have hday : dayOf? (.calendar (some (year, day.month, day.day)) us) = some day :=
      Date.of?_eq_some_iff.mpr ⟨hyear, rfl, rfl⟩
    rw [h] at hday
    cases hday
  · intro h
    rw [Option.eq_none_iff_forall_ne_some]
    intro day hday
    cases parts with
    | none => cases hday
    | some parts =>
      obtain ⟨hyear, hmonth, hdate⟩ := Date.of?_eq_some_iff.mp hday
      refine h day parts.1 hyear ?_
      rw [hmonth, hdate]

theorem timeWithinDay?_eq_none_iff : timeWithinDay? us = none ↔ Clock.microsecondsPerDay ≤ us := by
  rw [timeWithinDay?, ite_eq_right_iff]
  constructor
  · intro h
    exact Nat.not_lt.mp fun hlt => nomatch h hlt
  · intro h hlt
    exact absurd hlt (Nat.not_lt.mpr h)

theorem timeOf?_eq_null_iff (us : Int) : (timeOf? (.time us)).getD .null = .null ↔
    Clock.microsecondsPerDay ≤ us.natAbs := by
  rw [timeOf?, getD_map_eq_null_iff nofun, timeWithinDay?_eq_none_iff]

/-- A moment is lost with its day or with its time. -/
theorem momentOf?_eq_null_iff (ht : t ≠ .date) (zone : String) :
    (momentOf? zone (.calendar parts us)).getD .null = .null ↔
      Loses t (.datum (.calendar parts us)) := by
  have hlost : Loses t (.datum (.calendar parts us)) ↔
      dayOf? (.calendar parts us) = none ∨ timeWithinDay? us = none := by
    rw [dayOf?_eq_none_iff, timeWithinDay?_eq_none_iff]
    constructor
    · intro hlost
      cases hlost with
      | noDay hday => exact Or.inl hday
      | late _ hlate => exact Or.inr hlate
    · rintro (hday | hlate)
      · exact .noDay hday
      · exact .late ht hlate
  rw [hlost, momentOf?]
  cases dayOf? (.calendar parts us) with
  | none => exact iff_of_true rfl (Or.inl rfl)
  | some day =>
    cases timeWithinDay? us with
    | none => exact iff_of_true rfl (Or.inr rfl)
    | some us => exact iff_of_false nofun (by simp)

/-- Exactly the lost cells give nothing. -/
theorem cellValue?_eq_null_iff (h : Sends t cell) (hcell : cell ≠ .datum .null) :
    (cellValue? t cell).getD .null = .null ↔ Loses t cell := by
  cases h with
  | null => exact absurd rfl hcell
  | boolean i => exact iff_of_false nofun nofun
  | integer hlow hhigh => exact iff_of_false (asInteger?_ne_null hlow hhigh) nofun
  | @unsignedBig i hlow hhigh =>
    refine iff_of_false ?_ nofun
    show (unsignedOf? (.integer i)).getD .null ≠ .null
    rw [unsignedOf?, inWord?_integer hlow hhigh, Option.map_some]
    cases Number.toInt64? i <;> nofun
  | single bits => exact iff_of_false nofun nofun
  | double x => exact iff_of_false nofun nofun
  | decimal negative coefficient places =>
    refine (getD_map_eq_null_iff nofun).trans ((Numeric.roundedText?_eq_none_iff negative).trans ?_)
    refine ⟨.tooLarge, ?_⟩
    rintro ⟨⟩
    assumption
  | text b =>
    refine asText?_eq_null_iff.trans ⟨.notText, ?_⟩
    rintro ⟨⟩
    assumption
  | binary b => exact iff_of_false nofun nofun
  | date parts us =>
    show ((dayOf? (.calendar parts us)).map Value.date).getD .null = .null ↔ _
    have hdate (day : Date) : Value.date day ≠ .null := fun h => nomatch h
    rw [getD_map_eq_null_iff hdate, dayOf?_eq_none_iff]
    refine ⟨.noDay, fun hlost => ?_⟩
    cases hlost with
    | noDay hday => exact hday
    | late ht => exact absurd rfl ht
  | time us =>
    refine (timeOf?_eq_null_iff us).trans ⟨.longTime, ?_⟩
    rintro ⟨⟩
    assumption
  | datetime parts us => exact momentOf?_eq_null_iff (by decide) ""
  | timestamp parts us => exact momentOf?_eq_null_iff (by decide) " UTC"
  | json b =>
    refine asJson?_eq_null_iff.trans ⟨.notJson, ?_⟩
    rintro ⟨⟩
    assumption
  | set b => exact iff_of_true rfl (.set b)

end MySql

/-! ### What arrives of an answer -/

namespace Dialect

variable {d : Dialect} {typeName : String} {cell : Cell}

/-- The cells that the server sends in a column with the name of a type that is known. -/
def Sends : Dialect → String → Cell → Prop
  | .mysql, typeName, cell => MySql.Sends (.ofName typeName) cell
  | .postgres, typeName, cell => Postgres.Sends (.ofName typeName) cell

/-- The cells that are lost, although they are not null. -/
def Loses : Dialect → String → Cell → Prop
  | .mysql, typeName, cell => MySql.Loses (.ofName typeName) cell
  | .postgres, typeName, cell => Postgres.Loses (.ofName typeName) cell

theorem value_of_ne_null (hcell : cell ≠ .datum .null) :
    d.value typeName cell = (d.cellValue? typeName cell).getD .null := by
  rw [value]
  exact hcell

/-- A value is null exactly if its cell is null or lost. -/
theorem value_eq_null_iff (h : d.Sends typeName cell) :
    d.value typeName cell = .null ↔ cell = .datum .null ∨ d.Loses typeName cell := by
  by_cases hcell : cell = .datum .null
  · subst hcell
    exact iff_of_true rfl (Or.inl rfl)
  · rw [value_of_ne_null hcell, or_iff_right hcell]
    cases d with
    | mysql => exact MySql.cellValue?_eq_null_iff h hcell
    | postgres => exact Postgres.cellValue?_eq_null_iff h hcell

end Dialect

/-- What arrives of the rows that a server sends: null only in place of cells that are null or
lost. -/
def Arrives (d : Dialect) (columns : List (String × String)) (rows : List (List Cell))
    (r : Result) : Prop :=
  r.Converts Prod.fst columns rows fun column cell v =>
    d.Sends column.2 cell → (v = .null ↔ cell = .datum .null ∨ d.Loses column.2 cell)

variable {d : Dialect} {columns : List (String × String)} {rows : List (List Cell)}

theorem arrives_result : Arrives d columns rows (Fetched.result d (.rows columns rows)) :=
  Result.converts_of_values fun _ _ => Dialect.value_eq_null_iff

variable {w : World} {link : Link} {record : ConnectionRecord} {q : String}
  {parameters : List Value}

theorem ask_of_answer (hlink : link.isAlive = true)
    (hparameters : d.parameterFailure? 1 parameters = none)
    (hanswer : w.server.answer q = .rows columns rows) :
    ask d w.server link q parameters = (.ok (.rows columns rows), link) := by
  rw [ask, hparameters]
  simp only [hlink, hanswer, if_true]

theorem result_selectAll_of_answer {table : String} (hlink : link.isAlive = true)
    (hanswer : w.server.answer (Sql.selectAllFrom d.quote table) = .rows columns rows) :
    (Handler.selectAll ⟨.server d record, some link⟩ w table).result =
      .ok (Fetched.result d (.rows columns rows)) := by
  show (d.selectAll w link table).result = _
  rw [Dialect.selectAll, ask_of_answer hlink rfl hanswer]

theorem result_query_of_answer (hlink : link.isAlive = true)
    (hparameters : d.parameterFailure? 1 parameters = none)
    (hanswer : w.server.answer q = .rows columns rows) :
    (Handler.query ⟨.server d record, some link⟩ w q parameters).result =
      .ok (Fetched.result d (.rows columns rows)).rows := by
  show (d.query w link q parameters).result = _
  rw [Dialect.query, ask_of_answer hlink hparameters hanswer]

/-- A law of the value of each cell is a law of the rows that arrive, by query and by selection. -/
theorem exists_result_of_answer {law : String × String → Cell → Value → Prop}
    (hvalue : ∀ column cell, law column cell (d.value column.2 cell))
    (hlink : link.isAlive = true) (hparameters : d.parameterFailure? 1 parameters = none)
    (hanswer : w.server.answer q = .rows columns rows) :
    ∃ r : Result, r.Converts Prod.fst columns rows law ∧
      (Handler.query ⟨.server d record, some link⟩ w q parameters).result = .ok r.rows ∧
      ∀ table, Sql.selectAllFrom d.quote table = q →
        (Handler.selectAll ⟨.server d record, some link⟩ w table).result = .ok r := by
  refine ⟨Fetched.result d (.rows columns rows), Result.converts_of_values hvalue,
    result_query_of_answer hlink hparameters hanswer, ?_⟩
  rintro table rfl
  exact result_selectAll_of_answer hlink hanswer

/-- **The values that are null are those of cells that are null or lost**, whatever rows the server
answers with, among the columns of known types. -/
theorem arrives_of_answer (hlink : link.isAlive = true)
    (hparameters : d.parameterFailure? 1 parameters = none)
    (hanswer : w.server.answer q = .rows columns rows) :
    ∃ r, Arrives d columns rows r ∧
      (Handler.query ⟨.server d record, some link⟩ w q parameters).result = .ok r.rows ∧
      ∀ table, Sql.selectAllFrom d.quote table = q →
        (Handler.selectAll ⟨.server d record, some link⟩ w table).result = .ok r := by
  refine ⟨Fetched.result d (.rows columns rows), arrives_result, ?_, ?_⟩
  · show (d.query w link q parameters).result = _
    rw [Dialect.query, ask_of_answer hlink hparameters hanswer]
  · rintro table rfl
    exact result_selectAll_of_answer hlink hanswer

/-- A decimal number, a whole one of 28 digits, and an array. -/
def keptCells : List Cell :=
  [.datum (.numeric (.decimal true 150 2)), .datum (.numeric (.decimal false (Nat.pow 10 27) 0)),
    .array 1 1 [.integer 1, .integer (-2)]]

/-- A whole number of 33 digits, what is no number, and an array with a gap. -/
def lostCells : List Cell :=
  [.datum (.numeric (.decimal false (Nat.pow 10 32) 0)), .datum (.numeric .notNumber),
    .array 1 1 [.integer 1, .null]]

/-- A server with one table of these cells. -/
def cellServer : Server :=
  ⟨false, none, .ok [some "t"],
    [("SELECT * FROM \"t\"",
      .rows [("n", "NUMERIC"), ("m", "NUMERIC"), ("a", "INT4[]")] [keptCells, lostCells])]⟩

def guest : ConnectionRecord :=
  ⟨some "postgres", some "localhost", none, some "guest", some "guest", some "shop"⟩

/-- The law holds of the table. -/
theorem arrives_cells :
    ∃ columns rows r,
      cellServer.answer (Sql.selectAllFrom '"' "t") = .rows columns rows ∧
      Arrives .postgres columns rows r ∧
      (Handler.selectAll ⟨.server .postgres guest, some ⟨true⟩⟩ (Handler.alone cellServer)
        "t").result = .ok r := by
  have hanswer : (Handler.alone cellServer).server.answer (Sql.selectAllFrom '"' "t") =
      .rows _ _ := rfl
  obtain ⟨r, hr, -, hselect⟩ :=
    @arrives_of_answer .postgres _ _ (Handler.alone cellServer) ⟨true⟩ guest _ [] rfl rfl hanswer
  exact ⟨_, _, r, hanswer, hr, hselect "t" rfl⟩

/-- None of the lost cells is null, but all their values are. -/
theorem selectAll_lostCells :
    (Handler.selectAll ⟨.server .postgres guest, some ⟨true⟩⟩ (Handler.alone cellServer)
        "t").result =
        .ok ⟨["n", "m", "a"],
          [⟨[⟨"n", .text "-1.50"⟩, ⟨"m", .text "1000000000000000000000000000"⟩,
              ⟨"a", .text "\x7b1,-2\x7d"⟩]⟩,
            ⟨[⟨"n", .null⟩, ⟨"m", .null⟩, ⟨"a", .null⟩]⟩]⟩ ∧
      .datum .null ∉ lostCells := by
  have hanswer : (Handler.alone cellServer).server.answer
      (Sql.selectAllFrom Dialect.postgres.quote "t") = .rows _ _ := rfl
  refine ⟨?_, by decide⟩
  rw [result_selectAll_of_answer rfl hanswer]
  decide +kernel

end TableAccess.Server
