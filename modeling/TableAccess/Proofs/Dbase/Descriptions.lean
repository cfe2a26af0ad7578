import TableAccess.Proofs.Dbase.RoundTrip

/-!
# The fields that come back

The writer asks of a field only that its name fits into the description.  The reader cuts the name
at a zero character, trims it, and refuses an empty one and a length of zero; and where a name
starts with a carriage return it finds the terminator.  So not every field that can be written
comes back.  This module says what is read where fields alone were written, and that the same
fields come back exactly if each of them survives by itself.
-/

namespace TableAccess.Dbase

open TableAccess.Text (isBlank FrontSharp BackSharp)

variable {f : Field} {fields read : List Field} {position : Nat} {changed : Date} {t : Table}
  {bytes : List UInt8}

/-! ### What is read of a field -/

/-- The field is read as it was described: its name has no zero character and no blanks around it,
its length is not zero, and its code stands for its kind. -/
structure Field.Survives (f : Field) : Prop where
  noZero : '\x00' ∉ f.name.toList
  front : FrontSharp isBlank f.name.toList
  back : BackSharp isBlank f.name.toList
  length : f.length ≠ 0
  kind : FieldKind.ofCode f.kind.code = f.kind

theorem described_eq_self_iff :
    f.described = f ↔ shownName f.name = f.name ∧ FieldKind.ofCode f.kind.code = f.kind := by
  obtain ⟨name, kind, length, decimals⟩ := f
  simp [Field.described]

theorem survives_iff : f.Survives ↔ f.described = f ∧ f.length ≠ 0 := by
  rw [described_eq_self_iff, shownName_eq_self_iff]
  constructor
  · intro h
    exact ⟨⟨⟨h.noZero, h.front, h.back⟩, h.kind⟩, h.length⟩
  · rintro ⟨⟨⟨hzero, hfront, hback⟩, hkind⟩, hlength⟩
    exact ⟨hzero, hfront, hback, hlength, hkind⟩

/-- The name of the field starts with the character of the terminator. -/
def Field.LooksLikeEnd (f : Field) : Prop := f.name.toList.head? = some '\r'

instance (f : Field) : Decidable f.LooksLikeEnd :=
  inferInstanceAs (Decidable (f.name.toList.head? = some '\r'))

/-- A carriage return is a blank, so no field that survives starts with one. -/
theorem Field.Survives.not_looksLikeEnd (h : f.Survives) : ¬ f.LooksLikeEnd := by
  intro hend
  exact absurd (h.front '\r' hend) (by decide)

theorem problem?_eq_none_iff :
    f.problem? position = none ↔ f.name ≠ "" ∧ f.length ≠ 0 := by
  rw [Field.problem?, ← String.isEmpty_eq_false_iff]
  cases f.name.isEmpty with
  | true => simp
  | false => simp

theorem Field.Survives.problem?_described (h : f.Survives) (hname : isStorableName f.name = true)
    (position : Nat) : f.described.problem? position = none := by
  rw [(survives_iff.mp h).1, problem?_eq_none_iff]
  exact ⟨String.isEmpty_eq_false_iff.mp (isStorableName_iff.mp hname).1, h.length⟩

/-! ### What is read of all fields -/

/-- What is read of fields, the first one at a position: each as its description says, up to one
that looks like the end.  A field without a name or a length is refused. -/
def readBack (position : Nat) : List Field → Except FormatProblem (List Field)
  | [] => .ok []
  | f :: r =>
    if f.LooksLikeEnd then .ok []
    else
      match f.described.problem? position with
      | some problem => .error problem
      | none => (readBack (position + 1) r).map (f.described :: ·)

theorem readFields_blocks (hn : ∀ f ∈ fields, isStorableName f.name = true) (position : Nat)
    (rest : List UInt8) :
    readFields position
        ((fields.flatMap Field.block ++ terminator :: rest).length / blockLength)
        (fields.flatMap Field.block ++ terminator :: rest) = readBack position fields := by
  induction fields generalizing position with
  | nil => exact readFields_terminator position _ rest
  | cons f fields ih =>
    obtain ⟨hname, hnames⟩ := List.forall_mem_cons.mp hn
    have hstart : f.block.head? = some terminator ↔ f.LooksLikeEnd := by
      obtain ⟨b, r, hb, hterminator⟩ := exists_block_eq_cons hname
      rw [hb, List.head?_cons, Option.some.injEq]
      exact hterminator
    rw [List.flatMap_cons, List.append_assoc, readFields_block (length_block hname),
      fieldOf_block_eq hname, ih hnames, readBack]
    by_cases hend : f.LooksLikeEnd
    · exact (if_pos (hstart.mpr hend)).trans (if_pos hend).symm
    · refine (if_neg fun h => hend (hstart.mp h)).trans (Eq.trans ?_ (if_neg hend).symm)
      cases f.described.problem? position with
      | none => rfl
      | some problem => rfl

theorem readArea_blocks_eq (hn : ∀ f ∈ fields, isStorableName f.name = true) :
    readArea (fields.flatMap Field.block ++ [terminator]) = readBack 1 fields := by
  rw [readArea, readFields_blocks hn]

/-- The fields that are read are those at the front, as their descriptions say. -/
theorem prefix_of_readBack (h : readBack position fields = .ok read) :
    read <+: fields.map Field.described ∧
      ((∀ f ∈ fields, ¬ f.LooksLikeEnd) → read = fields.map Field.described) := by
  induction fields generalizing position read with
  | nil =>
    cases h
    exact ⟨List.prefix_rfl, fun _ => rfl⟩
  | cons f fields ih =>
    rw [readBack] at h
    split at h
    case isTrue hend =>
      cases h
      exact ⟨List.nil_prefix, fun hnone => absurd hend (hnone f List.mem_cons_self)⟩
    case isFalse =>
      split at h
      case h_1 => cases h
      case h_2 =>
        obtain ⟨others, hothers, rfl⟩ := map_eq_ok_iff.mp h
        obtain ⟨hshort, hwhole⟩ := ih hothers
        refine ⟨List.cons_prefix_cons.mpr ⟨rfl, hshort⟩, fun hnone => ?_⟩
        rw [List.map_cons, hwhole fun g hg => hnone g (List.mem_cons_of_mem f hg)]

theorem readBack_of_survives (hn : ∀ f ∈ fields, isStorableName f.name = true)
    (hf : ∀ f ∈ fields, f.Survives) (position : Nat) : readBack position fields = .ok fields := by
  induction fields generalizing position with
  | nil => rfl
  | cons f fields ih =>
    obtain ⟨hname, hnames⟩ := List.forall_mem_cons.mp hn
    obtain ⟨hfirst, hothers⟩ := List.forall_mem_cons.mp hf
    rw [readBack, if_neg hfirst.not_looksLikeEnd, hfirst.problem?_described hname,
      ih hnames hothers, (survives_iff.mp hfirst).1]
    rfl

theorem survives_of_readBack (h : readBack position fields = .ok fields) :
    ∀ f ∈ fields, f.Survives := by
  induction fields generalizing position with
  | nil => exact nofun
  | cons f fields ih =>
    rw [readBack] at h
    split at h
    case isTrue => cases h
    case isFalse =>
      split at h
      case h_1 => cases h
      case h_2 hproblem =>
        obtain ⟨others, hothers, heq⟩ := map_eq_ok_iff.mp h
        obtain ⟨hdescribed, rfl⟩ := List.cons.inj heq
        have hlength : f.length ≠ 0 := (problem?_eq_none_iff.mp hproblem).2
        exact List.forall_mem_cons.mpr ⟨survives_iff.mpr ⟨hdescribed, hlength⟩, ih hothers⟩

/-! ### Files without rows -/

/-- What is read of a file of fields alone.  The record length that was written counts all fields,
so fields that are not read must not have had any. -/
def readBackTable (fields : List Field) : Except FormatProblem Table :=
  match readBack 1 fields with
  | .error problem => .error problem
  | .ok [] => .error .noFields
  | .ok (f :: r) =>
    if recordLength fields ≠ recordLength (f :: r) then
      .error (.recordLength (recordLength fields) (recordLength (f :: r)))
    else .ok ⟨f :: r, []⟩

theorem ofBytes_of_fields (h : toBytes changed ⟨fields, []⟩ = .ok bytes) :
    Fits fields 0 ∧ ofBytes bytes = readBackTable fields := by
  obtain ⟨hfits, records, hrecords, rfl⟩ := toBytes_eq h
  cases hrecords
  have hnone : ∀ (length : Nat) (data : List UInt8), ¬ data.length < 0 * length := by
    intro length data
    rw [Nat.zero_mul]
    exact Nat.not_lt_zero _
  refine ⟨hfits, ?_⟩
  show ofBytes (header changed fields 0 ++ [endMark]) = readBackTable fields
  have hempty : Fits fields 0 := hfits
  rw [ofBytes_header hempty, readArea_blocks_eq hempty.names, readBackTable]
  cases readBack 1 fields with
  | error problem => rfl
  | ok read =>
    cases read with
    | nil => rfl
    | cons f r =>
      simp only [hnone, if_false]
      rfl

theorem readBackTable_eq_ok (h : readBackTable fields = .ok t) :
    readBack 1 fields = .ok t.fields ∧ t.rows = [] := by
  rw [readBackTable] at h
  split at h
  case h_1 => cases h
  case h_2 => cases h
  case h_3 f r hread =>
    split at h
    case isTrue => cases h
    case isFalse =>
      cases h
      exact ⟨hread, rfl⟩

theorem readBackTable_eq_self_iff (hfits : Fits fields 0) :
    readBackTable fields = .ok ⟨fields, []⟩ ↔ ∀ f ∈ fields, f.Survives := by
  constructor
  · intro h
    exact survives_of_readBack (readBackTable_eq_ok h).1
  · intro hf
    rw [readBackTable, readBack_of_survives hfits.names hf]
    cases fields with
    | nil => exact absurd rfl hfits.nonempty
    | cons f r => exact if_neg (Decidable.not_not.mpr rfl)

/-- What reading gives of fields that were written without rows. -/
structure DescriptionLaw (fields : List Field) (bytes : List UInt8) (origin : String) : Prop where
  returned_iff : parse bytes origin = .ok ⟨fields, []⟩ ↔ ∀ f ∈ fields, f.Survives
  /-- What is read in every case. -/
  outcome : parse bytes origin =
    (readBackTable fields).mapError fun problem => .corrupt origin problem.message
  /-- There are never rows, and the fields are those at the front as they were described: all of
  them, unless one looks like the end. -/
  read : ∀ t, parse bytes origin = .ok t → t.rows = [] ∧
    t.fields <+: fields.map Field.described ∧
    ((∀ f ∈ fields, ¬ f.LooksLikeEnd) → t.fields = fields.map Field.described)

/-- **Fields come back from their descriptions exactly if each of them survives.** -/
theorem descriptionLaw_of_encode {changed : Date} {fields : List Field} {bytes : List UInt8}
    (h : encode changed ⟨fields, []⟩ = .ok bytes) (origin : String) :
    DescriptionLaw fields bytes origin := by
  obtain ⟨hfits, hread⟩ := ofBytes_of_fields (toBytes_of_encode h)
  have houtcome : parse bytes origin =
      (readBackTable fields).mapError fun problem => .corrupt origin problem.message := by
    rw [parse, hread]
    cases readBackTable fields with
    | ok t => rfl
    | error problem => rfl
  have hparse : ∀ t, parse bytes origin = .ok t ↔ readBackTable fields = .ok t := by
    intro t
    rw [houtcome]
    cases readBackTable fields with
    | ok found => simp [Except.mapError]
    | error problem => simp [Except.mapError]
  refine ⟨?_, houtcome, ?_⟩
  · rw [hparse, readBackTable_eq_self_iff hfits]
  · intro t ht
    obtain ⟨hfields, hrows⟩ := readBackTable_eq_ok ((hparse t).mp ht)
    exact ⟨hrows, prefix_of_readBack hfields⟩

/-- Fields of which all come back: letters of two bytes, a blank inside a name, a kind that is only
a code, and the longest name. -/
def surviving : List Field :=
  [⟨"größe", .numeric, 5, 2⟩, ⟨"A B", .other 77, 255, 9⟩, .logical "0123456789"]

theorem survives_surviving : ∀ f ∈ surviving, f.Survives := by
  have hzero : ∀ f ∈ surviving, '\x00' ∉ f.name.toList := by decide
  have hends : ∀ f ∈ surviving, (f.name.toList.head?.all fun c => !isBlank c) = true ∧
      (f.name.toList.getLast?.all fun c => !isBlank c) = true := by decide
  have hlength : ∀ f ∈ surviving, f.length ≠ 0 := by decide
  have hkind : ∀ f ∈ surviving, FieldKind.ofCode f.kind.code = f.kind := by decide
  intro f hf
  obtain ⟨hfront, hback⟩ := hends f hf
  refine ⟨hzero f hf, fun c hc => ?_, fun c hc => ?_, hlength f hf, hkind f hf⟩
  · simpa [hc] using hfront
  · simpa [hc] using hback

theorem descriptionLaw_surviving :
    ∃ bytes, encode ⟨2026, 1, 5, rfl⟩ ⟨surviving, []⟩ = .ok bytes ∧
      DescriptionLaw surviving bytes "s.dbf" ∧ parse bytes "s.dbf" = .ok ⟨surviving, []⟩ := by
  have hencode : ∃ bytes, encode ⟨2026, 1, 5, rfl⟩ ⟨surviving, []⟩ = .ok bytes := ⟨_, rfl⟩
  obtain ⟨bytes, h⟩ := hencode
  have hlaw := descriptionLaw_of_encode h "s.dbf"
  exact ⟨bytes, h, hlaw, hlaw.returned_iff.mpr survives_surviving⟩

/-- A field without a length is written, and its file is refused when it is read again. -/
theorem parse_encode_unsized :
    ∃ bytes, encode ⟨2026, 1, 5, rfl⟩ ⟨[.character "A" 0], []⟩ = .ok bytes ∧
      parse bytes "t.dbf" = .error (.corrupt "t.dbf" "field 'A' has zero length") :=
  ⟨_, rfl, by decide +kernel⟩

end TableAccess.Dbase
