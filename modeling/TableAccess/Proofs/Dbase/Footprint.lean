import TableAccess.Proofs.Dbase.Acceptance

/-!
# The bytes that matter

Of a table file the reader looks at the sizes in the header, at the name, the kind, the length and
the decimals of each description, at the terminator, at the flag of every record, and at the cells
of the records that are not deleted.  This module says so of two files: if they agree there, they
hold the same table, whatever else they hold.  The bytes that do not matter are listed as well.
-/

namespace TableAccess.Dbase

open TableAccess.Number (ofLittleEndian)

variable {a b : List UInt8} {blocks : List (List UInt8)} {fields : Nat} {t : Table}

/-! ### Pieces by their bytes -/

theorem getElem?_slice {α : Type} (start size q : Nat) (items : List α) :
    (slice start size items)[q]? = if q < size then items[start + q]? else none := by
  rw [slice, List.getElem?_take, List.getElem?_drop]

theorem slice_congr {start size : Nat} (h : ∀ q < size, b[start + q]? = a[start + q]?) :
    slice start size b = slice start size a := by
  apply List.ext_getElem?
  intro q
  rw [getElem?_slice, getElem?_slice]
  by_cases hq : q < size
  · rw [if_pos hq, if_pos hq, h q hq]
  · rw [if_neg hq, if_neg hq]

theorem byteAt_slice {start size i : Nat} (hi : i < size) (bytes : List UInt8) :
    byteAt i (slice start size bytes) = byteAt (start + i) bytes := by
  rw [slice, byteAt_take hi, byteAt_drop]

theorem byteAt_congr {p : Nat} (h : b[p]? = a[p]?) : byteAt p b = byteAt p a := by
  rw [byteAt, byteAt, List.getD_eq_getElem?_getD, List.getD_eq_getElem?_getD, h]

theorem length_slice {start size : Nat} {bytes : List UInt8} (h : start + size ≤ bytes.length) :
    (slice start size bytes).length = size := by
  rw [slice, List.length_take, List.length_drop]
  omega

/-- A piece in front of another one, and what stands behind it. -/
theorem append_prefix_slice_iff {part rest : List UInt8} {start size : Nat}
    {bytes : List UInt8} :
    part ++ rest <+: slice start size bytes ↔
      part <+: slice start size bytes ∧
        rest <+: slice (start + part.length) (size - part.length) bytes := by
  have hrest : slice (start + part.length) (size - part.length) bytes =
      (slice start size bytes).drop part.length := by
    rw [slice, slice, List.drop_take, List.drop_drop]
  rw [hrest]
  constructor
  · rintro ⟨tail, htail⟩
    rw [← htail, List.append_assoc, List.drop_left]
    exact ⟨List.prefix_append _ _, List.prefix_append _ _⟩
  · rintro ⟨⟨tail, htail⟩, hprefix⟩
    rw [← htail, List.drop_left] at hprefix
    rw [← htail]
    exact (List.prefix_append_right_inj part).mpr hprefix

/-- A piece that starts with so many bytes has them at its place. -/
theorem prefix_slice_iff {part : List UInt8} {start size : Nat} {bytes : List UInt8} :
    part <+: slice start size bytes ↔
      part.length ≤ size ∧ slice start part.length bytes = part := by
  rw [List.prefix_iff_eq_take, slice, slice, List.take_take]
  constructor
  · intro h
    have hlength := congrArg List.length h
    rw [List.length_take] at hlength
    have hsize : part.length ≤ size := by omega
    rw [Nat.min_eq_left hsize] at h
    exact ⟨hsize, h.symm⟩
  · rintro ⟨hsize, h⟩
    rw [Nat.min_eq_left hsize, h]

/-- What stands in front of the first item without a property is the same in lists that agree up to
that item. -/
theorem takeWhile_congr {α : Type} {p : α → Bool} {l m : List α}
    (h : ∀ q : Nat, (∀ i < q, ∀ x, l[i]? = some x → p x = true) → m[q]? = l[q]?) :
    m.takeWhile p = l.takeWhile p := by
  induction l generalizing m with
  | nil =>
    have hnil : m[0]? = none := h 0 nofun
    rw [List.getElem?_eq_none_iff, Nat.le_zero, List.length_eq_zero_iff] at hnil
    rw [hnil]
  | cons x l ih =>
    have hfirst : m[0]? = some x := h 0 nofun
    cases m with
    | nil => cases hfirst
    | cons y m =>
      cases hfirst
      cases hx : p x with
      | false =>
        have hstop : ¬ p x = true := by rw [hx]; exact Bool.false_ne_true
        rw [List.takeWhile_cons_of_neg hstop, List.takeWhile_cons_of_neg hstop]
      | true =>
        rw [List.takeWhile_cons_of_pos hx, List.takeWhile_cons_of_pos hx, ih]
        intro q hq
        refine h (q + 1) fun i hi z hz => ?_
        cases i with
        | zero =>
          cases hz
          exact hx
        | succ i => exact hq i (Nat.lt_of_succ_lt_succ hi) z hz

/-! ### Descriptions -/

/-- The descriptions at a place agree where the reader looks: in the name up to its first zero byte,
and in the kind, the length and the decimals. -/
structure SameBlock (start : Nat) (a b : List UInt8) : Prop where
  name : ∀ q < 11, (∀ i < q, a[start + i]? ≠ some 0) → b[start + q]? = a[start + q]?
  kind : b[start + 11]? = a[start + 11]?
  length : b[start + 16]? = a[start + 16]?
  decimals : b[start + 17]? = a[start + 17]?

theorem SameBlock.nameOf_eq {start : Nat} (h : SameBlock start a b) :
    nameOf (slice start 32 b) = nameOf (slice start 32 a) := by
  have hroom : ∀ bytes : List UInt8,
      (slice start 32 bytes).take nameRoom = slice start 11 bytes := by
    intro bytes
    rw [slice, List.take_take]
    rfl
  have hname : (slice start 11 b).takeWhile (· != 0) = (slice start 11 a).takeWhile (· != 0) := by
    refine takeWhile_congr fun q hq => ?_
    rw [getElem?_slice, getElem?_slice]
    by_cases hlt : q < 11
    · rw [if_pos hlt, if_pos hlt]
      refine h.name q hlt fun i hi hzero => ?_
      have hbyte := hq i hi 0 (by rw [getElem?_slice, if_pos (by omega), hzero])
      exact absurd hbyte (by decide)
    · rw [if_neg hlt, if_neg hlt]
  rw [nameOf, nameOf, hroom, hroom, hname]

theorem SameBlock.fieldOf_eq {start : Nat} (h : SameBlock start a b) :
    fieldOf (slice start 32 b) = fieldOf (slice start 32 a) := by
  have hat : ∀ i < 32, b[start + i]? = a[start + i]? →
      byteAt i (slice start 32 b) = byteAt i (slice start 32 a) := by
    intro i hi hbyte
    rw [byteAt_slice hi, byteAt_slice hi, byteAt_congr hbyte]
  rw [fieldOf, fieldOf, h.nameOf_eq, hat 11 (by decide) h.kind, hat 16 (by decide) h.length,
    hat 17 (by decide) h.decimals]

/-- A block goes over to the other file. -/
theorem SameBlock.isBlock {start : Nat} (h : SameBlock start a b)
    (hblock : IsBlock (slice start 32 a)) (hlong : start + 32 ≤ b.length) :
    IsBlock (slice start 32 b) := by
  have hfirst : (slice start 32 b).head? = (slice start 32 a).head? := by
    rw [List.head?_eq_getElem?, List.head?_eq_getElem?, getElem?_slice, getElem?_slice]
    simpa using h.name 0 (by decide) nofun
  have hfield := h.fieldOf_eq
  refine ⟨length_slice hlong, ?_, ?_, ?_⟩
  · rw [hfirst]
    exact hblock.start
  · rw [h.nameOf_eq]
    exact hblock.name
  · rw [show byteAt 16 (slice start 32 b) = byteAt 16 (slice start 32 a) from
      congrArg Field.length hfield]
    exact hblock.length

/-- The descriptions in front of a terminator have counterparts with the same fields. -/
theorem exists_blocks {start size : Nat}
    (harea : blocks.flatten ++ [terminator] <+: slice start size a)
    (hblocks : ∀ block ∈ blocks, IsBlock block)
    (hsame : ∀ j < blocks.length, SameBlock (start + 32 * j) a b)
    (hend : b[start + 32 * blocks.length]? = a[start + 32 * blocks.length]?)
    (hlong : start + size ≤ b.length) :
    ∃ others : List (List UInt8), others.flatten ++ [terminator] <+: slice start size b ∧
      (∀ block ∈ others, IsBlock block) ∧ others.map fieldOf = blocks.map fieldOf := by
  induction blocks generalizing start size with
  | nil =>
    obtain ⟨hsize, hat⟩ := prefix_slice_iff.mp harea
    refine ⟨[], prefix_slice_iff.mpr ⟨hsize, (slice_congr fun q hq => ?_).trans hat⟩, nofun, rfl⟩
    have hzero : q = 0 := Nat.lt_one_iff.mp hq
    rw [hzero]
    exact hend
  | cons block blocks ih =>
    obtain ⟨hblock, hrest⟩ := List.forall_mem_cons.mp hblocks
    rw [List.flatten_cons, List.append_assoc, append_prefix_slice_iff, hblock.size] at harea
    obtain ⟨hfirst, hothers⟩ := harea
    obtain ⟨hsize, hat⟩ := prefix_slice_iff.mp hfirst
    rw [hblock.size] at hsize hat
    have hplace : ∀ j, start + 32 * (j + 1) = start + 32 + 32 * j := by
      intro j
      omega
    have htail := ih hothers hrest
      (fun j hj => by
        have hnext := hsame (j + 1) (Nat.succ_lt_succ hj)
        rwa [hplace] at hnext)
      (by rwa [List.length_cons, hplace] at hend) (by omega)
    obtain ⟨others, hprefix, hall, hfields⟩ := htail
    have hhere : SameBlock start a b := hsame 0 (Nat.succ_pos _)
    have hother : IsBlock (slice start 32 b) := hhere.isBlock (by rwa [hat]) (by omega)
    refine ⟨slice start 32 b :: others, ?_, List.forall_mem_cons.mpr ⟨hother, hall⟩, ?_⟩
    · rw [List.flatten_cons, List.append_assoc, append_prefix_slice_iff, hother.size]
      refine ⟨prefix_slice_iff.mpr ?_, hprefix⟩
      rw [hother.size]
      exact ⟨hsize, rfl⟩
    · rw [List.map_cons, List.map_cons, hhere.fieldOf_eq, hat, hfields]

/-! ### Files with the same header -/

/-- Where a record starts. -/
def recordPlace (bytes : List UInt8) (i : Nat) : Nat :=
  announcedHeader bytes + i * announcedRecord bytes

/-- The files agree in all that the reader looks at in front of the records, and the second one is
long enough for them. -/
structure SameHeader (fields : Nat) (a b : List UInt8) : Prop where
  long : recordsEnd a ≤ b.length
  sizes : ∀ p, 4 ≤ p → p < 12 → b[p]? = a[p]?
  block : ∀ j < fields, SameBlock (32 + 32 * j) a b
  terminator : b[32 + 32 * fields]? = a[32 + 32 * fields]?

namespace SameHeader

theorem count_eq (h : SameHeader fields a b) : announcedCount b = announcedCount a := by
  rw [announcedCount, announcedCount, slice_congr fun q hq => h.sizes (4 + q) (by omega) (by omega)]

theorem header_eq (h : SameHeader fields a b) : announcedHeader b = announcedHeader a := by
  rw [announcedHeader, announcedHeader,
    slice_congr fun q hq => h.sizes (8 + q) (by omega) (by omega)]

theorem record_eq (h : SameHeader fields a b) : announcedRecord b = announcedRecord a := by
  rw [announcedRecord, announcedRecord,
    slice_congr fun q hq => h.sizes (10 + q) (by omega) (by omega)]

theorem recordPlace_eq (h : SameHeader fields a b) (i : Nat) :
    recordPlace b i = recordPlace a i := by
  rw [recordPlace, recordPlace, h.header_eq, h.record_eq]

/-- The other file is a table file with the same fields. -/
theorem exists_isFile (h : SameHeader blocks.length a b) (hfile : IsFile a blocks) :
    ∃ others, IsFile b others ∧ others.map fieldOf = blocks.map fieldOf := by
  have hlong := h.long
  rw [recordsEnd] at hlong
  obtain ⟨hlow, -⟩ := hfile.header
  obtain ⟨others, harea, hblocks, hfields⟩ := exists_blocks hfile.area hfile.block h.block
    h.terminator (by omega)
  refine ⟨others, ⟨by omega, ?_, ?_, hblocks, ?_, ?_, ?_⟩, hfields⟩
  · rw [h.header_eq]
    omega
  · rintro rfl
    exact hfile.nonempty (List.map_eq_nil_iff.mp hfields.symm)
  · rwa [h.header_eq]
  · rw [h.record_eq, totalLength_eq, hfields, ← totalLength_eq, hfile.record]
  · rw [h.count_eq, h.header_eq, h.record_eq]
    omega

end SameHeader

/-! ### Records -/

/-- A record, with its flag. -/
def recordAt (i : Nat) (bytes : List UInt8) : List UInt8 :=
  slice (recordPlace bytes i) (announcedRecord bytes) bytes

theorem liveRecords_eq_map (bytes : List UInt8) :
    liveRecords bytes = ((List.range (announcedCount bytes)).filter fun i =>
      (recordAt i bytes).head? != some deletedFlag).map fun i => recordAt i bytes :=
  List.filter_map

/-- There is room for the flag in every record. -/
theorem IsFile.record_pos (h : IsFile a blocks) : 0 < announcedRecord a := by
  rw [h.record]
  omega

theorem IsFile.recordsEnd_le (h : IsFile a blocks) : recordsEnd a ≤ a.length := by
  have hheader := h.header.2
  have hrecords := h.records
  rw [recordsEnd]
  omega

theorem head?_recordAt (h : 0 < announcedRecord a) (i : Nat) :
    (recordAt i a).head? = a[recordPlace a i]? := by
  rw [List.head?_eq_getElem?, recordAt, getElem?_slice, if_pos h, Nat.add_zero]

/-- The files agree in all that the reader looks at: in the header, in the flags of the records, and
in the records that are not deleted. -/
structure SameMeaning (fields : Nat) (a b : List UInt8) : Prop extends SameHeader fields a b where
  flag : ∀ i < announcedCount a, b[recordPlace a i]? = a[recordPlace a i]?
  content : ∀ i < announcedCount a, a[recordPlace a i]? ≠ some deletedFlag →
    ∀ q < announcedRecord a, b[recordPlace a i + q]? = a[recordPlace a i + q]?

theorem SameMeaning.liveRecords_eq (h : SameMeaning fields a b) (hpos : 0 < announcedRecord a) :
    liveRecords b = liveRecords a := by
  have hsize := h.record_eq
  have hposb : 0 < announcedRecord b := by rwa [hsize]
  rw [liveRecords_eq_map, liveRecords_eq_map, h.count_eq]
  have hfilter : ((List.range (announcedCount a)).filter fun i =>
      (recordAt i b).head? != some deletedFlag) =
        (List.range (announcedCount a)).filter fun i =>
          (recordAt i a).head? != some deletedFlag := by
    refine List.filter_congr fun i hi => ?_
    rw [head?_recordAt hpos, head?_recordAt hposb, h.recordPlace_eq,
      h.flag i (List.mem_range.mp hi)]
  rw [hfilter]
  refine List.map_congr_left fun i hi => ?_
  obtain ⟨hrange, hlive⟩ := List.mem_filter.mp hi
  rw [head?_recordAt hpos, bne_iff_ne] at hlive
  rw [recordAt, recordAt, h.recordPlace_eq, hsize]
  exact slice_congr (h.content i (List.mem_range.mp hrange) hlive)

/-- A file that agrees with a table file holds the same table. -/
theorem SameMeaning.parse_eq (h : SameMeaning blocks.length a b) (hfile : IsFile a blocks)
    (origin : String) : parse b origin = .ok (tableIn a blocks) := by
  obtain ⟨others, hother, hfields⟩ := h.exists_isFile hfile
  rw [parse, ofBytes_of_isFile hother, tableIn, tableIn, hfields,
    h.liveRecords_eq hfile.record_pos]

/-! ### The bytes that do not matter -/

/-- The places at which nothing matters in a file with so many fields: the mark of the format and
the day of the last change, the rest of the fixed header, a name behind its first zero byte, the
rest of a description, what stands between the terminator and the records, the cells of deleted
records, and what stands behind the last record. -/
inductive IsFree (fields : Nat) (bytes : List UInt8) : Nat → Prop where
  | changed {p : Nat} (h : p < 4) : IsFree fields bytes p
  | reserved {p : Nat} (hlow : 12 ≤ p) (hhigh : p < 32) : IsFree fields bytes p
  | name {j q i : Nat} (hj : j < fields) (hq : q < 11) (hi : i < q)
      (zero : bytes[32 + 32 * j + i]? = some 0) : IsFree fields bytes (32 + 32 * j + q)
  | described {j q : Nat} (hj : j < fields) (hq : (12 ≤ q ∧ q < 16) ∨ (18 ≤ q ∧ q < 32)) :
      IsFree fields bytes (32 + 32 * j + q)
  | between {p : Nat} (hlow : 32 + 32 * fields < p) (hhigh : p < announcedHeader bytes) :
      IsFree fields bytes p
  | deleted {i q : Nat} (hi : i < announcedCount bytes)
      (flag : bytes[recordPlace bytes i]? = some deletedFlag) (hpos : 0 < q)
      (hq : q < announcedRecord bytes) : IsFree fields bytes (recordPlace bytes i + q)
  | behind {p : Nat} (h : recordsEnd bytes ≤ p) : IsFree fields bytes p

/-- The terminator stands in front of the records. -/
theorem IsFile.terminator_lt (h : IsFile a blocks) :
    32 + 32 * blocks.length < announcedHeader a := by
  have hflatten : ∀ blocks : List (List UInt8), (∀ block ∈ blocks, IsBlock block) →
      blocks.flatten.length = 32 * blocks.length := by
    intro blocks hblocks
    induction blocks with
    | nil => rfl
    | cons block blocks ih =>
      obtain ⟨hblock, hrest⟩ := List.forall_mem_cons.mp hblocks
      rw [List.flatten_cons, List.length_append, hblock.size, ih hrest, List.length_cons]
      omega
  have hsize := (prefix_slice_iff.mp h.area).1
  rw [List.length_append, hflatten blocks h.block, List.length_singleton] at hsize
  have hlow := h.header.1
  omega

/-- A place in a row of pieces of one size belongs to one of them only. -/
theorem eq_of_place_eq {size i j q r : Nat} (hq : q < size) (hr : r < size)
    (h : i * size + q = j * size + r) : i = j := by
  rcases Nat.lt_trichotomy i j with hlt | heq | hgt
  · have hnext : (i + 1) * size ≤ j * size := Nat.mul_le_mul_right size hlt
    rw [Nat.succ_mul] at hnext
    omega
  · exact heq
  · have hnext : (j + 1) * size ≤ i * size := Nat.mul_le_mul_right size hgt
    rw [Nat.succ_mul] at hnext
    omega

variable {p : Nat}

/-- What is free in front of the records. -/
theorem IsFree.header_cases (h : IsFree fields a p) (hlt : p < announcedHeader a) :
    p < 4 ∨ (12 ≤ p ∧ p < 32) ∨ 32 + 32 * fields < p ∨
      ∃ j q, j < fields ∧ p = 32 + 32 * j + q ∧
        ((q < 11 ∧ ∃ i < q, a[32 + 32 * j + i]? = some 0) ∨ (12 ≤ q ∧ q < 16) ∨
          (18 ≤ q ∧ q < 32)) := by
  cases h with
  | changed hp => exact Or.inl hp
  | reserved hlow hhigh => exact Or.inr (Or.inl ⟨hlow, hhigh⟩)
  | between hlow hhigh => exact Or.inr (Or.inr (Or.inl hlow))
  | @name j q i hj hq hi zero =>
    exact Or.inr (Or.inr (Or.inr ⟨j, q, hj, rfl, Or.inl ⟨hq, i, hi, zero⟩⟩))
  | @described j q hj hq => exact Or.inr (Or.inr (Or.inr ⟨j, q, hj, rfl, Or.inr hq⟩))
  | deleted hi =>
    rw [recordPlace] at hlt
    omega
  | behind hp =>
    rw [recordsEnd] at hp
    omega

/-- In the fixed header the sizes matter and nothing else. -/
theorem IsFile.not_isFree_of_lt (h : IsFile a blocks) (hlow : 4 ≤ p) (hhigh : p < 12) :
    ¬ IsFree blocks.length a p := by
  have hend := h.terminator_lt
  intro hfree
  rcases hfree.header_cases (by omega) with hp | hp | hp | ⟨j, q, hj, rfl, -⟩
  all_goals omega

/-- In a description the name matters up to its first zero byte, and of what follows it the kind,
the length and the decimals. -/
theorem IsFile.not_isFree_described (h : IsFile a blocks) {j q : Nat} (hj : j < blocks.length)
    (hq : (q < 11 ∧ ∀ i < q, a[32 + 32 * j + i]? ≠ some 0) ∨ q = 11 ∨ q = 16 ∨ q = 17) :
    ¬ IsFree blocks.length a (32 + 32 * j + q) := by
  have hend := h.terminator_lt
  intro hfree
  rcases hfree.header_cases (by omega) with
    hp | hp | hp | ⟨k, r, hk, hp, ⟨hr, i, hi, zero⟩ | hr⟩
  · omega
  · omega
  · omega
  · obtain ⟨rfl, rfl⟩ : k = j ∧ r = q := ⟨by omega, by omega⟩
    rcases hq with ⟨-, hname⟩ | hq
    · exact hname i hi zero
    · omega
  · omega

theorem IsFile.not_isFree_terminator (h : IsFile a blocks) :
    ¬ IsFree blocks.length a (32 + 32 * blocks.length) := by
  have hend := h.terminator_lt
  intro hfree
  rcases hfree.header_cases hend with hp | hp | hp | ⟨j, q, hj, hp, hq⟩
  all_goals omega

/-- Of a record the flag matters, and the cells if it is not deleted. -/
theorem IsFile.not_isFree_record (h : IsFile a blocks) {i q : Nat} (hi : i < announcedCount a)
    (hq : q < announcedRecord a) (hlive : q = 0 ∨ a[recordPlace a i]? ≠ some deletedFlag) :
    ¬ IsFree blocks.length a (recordPlace a i + q) := by
  have hend := h.terminator_lt
  have hbelow : recordPlace a i + q < recordsEnd a := by
    have hnext : (i + 1) * announcedRecord a ≤ announcedCount a * announcedRecord a :=
      Nat.mul_le_mul_right _ hi
    rw [Nat.succ_mul] at hnext
    rw [recordPlace, recordsEnd]
    omega
  have hstart : announcedHeader a ≤ recordPlace a i := Nat.le_add_right _ _
  intro hfree
  generalize hp : recordPlace a i + q = p at hfree
  cases hfree with
  | changed hlt => omega
  | reserved hlow hhigh => omega
  | name hk => omega
  | described hk hr => omega
  | between hlow hhigh => omega
  | @deleted k r hk flag hpos hr =>
    rw [recordPlace, recordPlace, Nat.add_assoc, Nat.add_assoc, Nat.add_left_cancel_iff] at hp
    obtain rfl : i = k := eq_of_place_eq hq hr hp
    have hsame : q = r := Nat.add_left_cancel hp
    rcases hlive with hzero | hlive
    · omega
    · exact hlive flag
  | behind hle => omega

/-- Files that differ in free places only agree in all that the reader looks at. -/
theorem IsFile.sameMeaning (h : IsFile a blocks) (hlong : recordsEnd a ≤ b.length)
    (hsame : ∀ p, ¬ IsFree blocks.length a p → b[p]? = a[p]?) :
    SameMeaning blocks.length a b where
  long := hlong
  sizes p hlow hhigh := hsame p (h.not_isFree_of_lt hlow hhigh)
  block _ hj :=
    { name := fun _ hq hname => hsame _ (h.not_isFree_described hj (Or.inl ⟨hq, hname⟩))
      kind := hsame _ (h.not_isFree_described hj (Or.inr (Or.inl rfl)))
      length := hsame _ (h.not_isFree_described hj (Or.inr (Or.inr (Or.inl rfl))))
      decimals := hsame _ (h.not_isFree_described hj (Or.inr (Or.inr (Or.inr rfl)))) }
  terminator := hsame _ h.not_isFree_terminator
  flag _ hi := hsame _ (h.not_isFree_record hi h.record_pos (Or.inl rfl))
  content _ hi hlive _ hq := hsame _ (h.not_isFree_record hi hq (Or.inr hlive))

/-! ### Two files -/

theorem exists_isFile_of_parse {origin : String} (h : parse a origin = .ok t) :
    ∃ blocks, IsFile a blocks ∧ t = tableIn a blocks := by
  cases hread : ofBytes a with
  | error problem =>
    rw [parse, hread] at h
    cases h
  | ok found =>
    obtain ⟨blocks, hfile⟩ := exists_isFile_of_ofBytes hread
    rw [parse, ofBytes_of_isFile hfile] at h
    cases h
    exact ⟨blocks, hfile, rfl⟩

/-- What the table of a file depends on. -/
structure FootprintLaw (a : List UInt8) (t : Table) : Prop where
  /-- Every file that agrees in what the reader looks at holds the same table. -/
  same : ∀ (b : List UInt8) (origin : String), SameMeaning t.fields.length a b →
    parse b origin = .ok t
  /-- So does every file that differs in free places only, or behind the records. -/
  free : ∀ (b : List UInt8) (origin : String), recordsEnd a ≤ b.length →
    (∀ p, ¬ IsFree t.fields.length a p → b[p]? = a[p]?) → parse b origin = .ok t

/-- **Only the meaningful bytes of a table file matter.**  A file that agrees with a table file in
the sizes, the descriptions, the terminator, the flags and the records that are not deleted holds
the same table, and no other byte has any influence. -/
theorem footprintLaw_of_parse {origin : String} (h : parse a origin = .ok t) :
    FootprintLaw a t := by
  obtain ⟨blocks, hfile, rfl⟩ := exists_isFile_of_parse h
  have hfields : (tableIn a blocks).fields.length = blocks.length := List.length_map fieldOf
  constructor
  · intro b other hsame
    rw [hfields] at hsame
    exact hsame.parse_eq hfile other
  · intro b other hlong hsame
    rw [hfields] at hsame
    exact (hfile.sameMeaning hlong hsame).parse_eq hfile other

/-- Two letters, of which the first is deleted. -/
def letters : List UInt8 :=
  [3, 126, 1, 5, 2, 0, 0, 0, 66, 0, 2, 0] ++ zeros 20 ++
    ([65, 0] ++ zeros 9 ++ [67] ++ zeros 4 ++ [1, 0] ++ zeros 14) ++ [13, 0] ++
      [42, 120, 32, 121] ++ [26]

/-- The same two letters as another program would write them, with other bytes at all free places
and no mark at the end. -/
def foreignLetters : List UInt8 :=
  [131, 99, 12, 31, 2, 0, 0, 0, 66, 0, 2, 0] ++ List.replicate 20 7 ++
    ([65, 0] ++ List.replicate 9 200 ++ [67] ++ List.replicate 4 9 ++ [1, 0] ++
      List.replicate 14 13) ++ [13, 77] ++ [42, 13, 32, 121]

theorem sameMeaning_letters : SameMeaning 1 letters foreignLetters where
  long := by decide
  sizes p hlow hhigh :=
    (by decide : ∀ p < 12, 4 ≤ p → foreignLetters[p]? = letters[p]?) p hhigh hlow
  block j hj := by
    obtain rfl : j = 0 := Nat.lt_one_iff.mp hj
    exact ⟨by decide, by decide, by decide, by decide⟩
  terminator := by decide
  flag := by decide
  content := by decide

theorem parse_letters : parse letters "a.dbf" = .ok ⟨[.character "A" 1], [[.text "y"]]⟩ := by
  decide +kernel

theorem footprintLaw_letters :
    parse letters "a.dbf" = .ok ⟨[.character "A" 1], [[.text "y"]]⟩ ∧
      SameMeaning 1 letters foreignLetters ∧
      parse foreignLetters "b.dbf" = .ok ⟨[.character "A" 1], [[.text "y"]]⟩ :=
  ⟨parse_letters, sameMeaning_letters,
    (footprintLaw_of_parse parse_letters).same foreignLetters "b.dbf" sameMeaning_letters⟩

end TableAccess.Dbase
