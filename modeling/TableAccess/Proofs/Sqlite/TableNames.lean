import Mathlib.Data.List.Basic
import TableAccess.Proofs.Handler.Listing
import TableAccess.Proofs.Text.Case
import TableAccess.Sample

/-!
# Which tables of a store are listed

The tables of a store are listed without those whose names match the pattern `sqlite_%`.  That is
meant to leave out the names of the engine, which begin with `sqlite_`.  In a pattern, though, the
low line stands for any one character.  So tables whose names go on in another way after the six
letters are left out as well: they are not listed and not exported, and only a selection shows them.
-/

namespace TableAccess

open TableAccess.Text (lowerAscii sameIgnoringCase)

/-! ### Patterns -/

namespace Sqlite

/-- The text matches the pattern, in which `%` stands for any text and `_` for any one character;
the other characters stand for themselves, and letters in either case. -/
inductive Like : List Char → List Char → Prop
  | done : Like [] []
  | one (c : Char) {p s : List Char} : Like p s → Like ('_' :: p) (c :: s)
  | skip {p s : List Char} : Like p s → Like ('%' :: p) s
  | more (c : Char) {p s : List Char} : Like ('%' :: p) s → Like ('%' :: p) (c :: s)
  | same {a c : Char} {p s : List Char} : a ≠ '_' → a ≠ '%' → lowerAscii c = lowerAscii a →
      Like p s → Like (a :: p) (c :: s)

namespace Like

theorem any (s : List Char) : Like ['%'] s := by
  induction s with
  | nil => exact skip done
  | cons c s ih => exact more c ih

theorem one_iff {p s : List Char} : Like ('_' :: p) s ↔ ∃ c r, s = c :: r ∧ Like p r := by
  constructor
  · intro h
    cases h with
    | one c h => exact ⟨c, _, rfl, h⟩
    | same hone => exact absurd rfl hone
  · rintro ⟨c, r, rfl, h⟩
    exact one c h

/-- Characters that stand for themselves match the same characters in either case. -/
theorem append_iff {front p s : List Char} (hfront : ∀ a ∈ front, a ≠ '_' ∧ a ≠ '%') :
    Like (front ++ p) s ↔ ∃ t r, s = t ++ r ∧ sameIgnoringCase t front = true ∧ Like p r := by
  induction front generalizing s with
  | nil =>
    constructor
    · intro h
      exact ⟨[], s, rfl, rfl, h⟩
    · rintro ⟨t, r, rfl, ht, h⟩
      rw [List.eq_nil_of_length_eq_zero (Text.length_eq_of_sameIgnoringCase ht)]
      exact h
  | cons a front ih =>
    have hplain := hfront a (List.mem_cons_self ..)
    have hrest : ∀ b ∈ front, b ≠ '_' ∧ b ≠ '%' := fun b hb => hfront b (List.mem_cons_of_mem a hb)
    constructor
    · intro h
      cases h with
      | one => exact absurd rfl hplain.1
      | skip => exact absurd rfl hplain.2
      | more => exact absurd rfl hplain.2
      | same _ _ hcase h =>
        obtain ⟨t, r, rfl, ht, h⟩ := (ih hrest).mp h
        exact ⟨_ :: t, r, rfl, Text.sameIgnoringCase_cons.mpr ⟨hcase, ht⟩, h⟩
    · rintro ⟨t, r, rfl, ht, h⟩
      cases t with
      | nil => exact absurd (Text.length_eq_of_sameIgnoringCase ht) (by simp)
      | cons c t =>
        obtain ⟨hcase, ht⟩ := Text.sameIgnoringCase_cons.mp ht
        exact same hplain.1 hplain.2 hcase ((ih hrest).mpr ⟨t, r, rfl, ht, h⟩)

end Like

/-! ### Names of the engine and names like them -/

/-- The pattern of the names that are left out, as it stands in `tableQuery`. -/
def systemPattern : String := "sqlite_%"

/-- The name is left out. -/
def IsHidden (name : String) : Prop := Like systemPattern.toList name.toList

/-- The name begins with the seven characters of the names of the engine. -/
def IsSystemName (name : String) : Prop :=
  sameIgnoringCase (name.toList.take 7) "sqlite_".toList = true

instance (name : String) : Decidable (IsSystemName name) :=
  inferInstanceAs (Decidable (_ = true))

/-- The name begins with the six letters and then goes on with something else than a low line. -/
def IsLookalike (name : String) : Prop :=
  ∃ t c r, name.toList = t ++ c :: r ∧ sameIgnoringCase t "sqlite".toList = true ∧ c ≠ '_'

variable {name : String}

theorem isHidden_iff : IsHidden name ↔
    ∃ t c r, name.toList = t ++ c :: r ∧ sameIgnoringCase t "sqlite".toList = true := by
  have hpattern : systemPattern.toList = "sqlite".toList ++ ['_', '%'] := rfl
  have hplain : ∀ a ∈ "sqlite".toList, a ≠ '_' ∧ a ≠ '%' := by simp
  rw [IsHidden, hpattern, Like.append_iff hplain]
  constructor
  · rintro ⟨t, r, hname, ht, h⟩
    obtain ⟨c, r, rfl, -⟩ := Like.one_iff.mp h
    exact ⟨t, c, r, hname, ht⟩
  · rintro ⟨t, c, r, hname, ht⟩
    exact ⟨t, c :: r, hname, ht, Like.one c (Like.any r)⟩

/-- The filter of the listing is the pattern. -/
theorem isReserved_iff : isReserved name = true ↔ IsHidden name := by
  rw [isHidden_iff, isReserved, sameName, String.toList_ofList, Bool.and_eq_true,
    decide_eq_true_eq, ← String.length_toList]
  constructor
  · rintro ⟨hsame, hlength⟩
    have hrest : 0 < (name.toList.drop 6).length := by
      rw [List.length_drop]
      omega
    obtain ⟨c, r, hdrop⟩ := List.exists_cons_of_length_pos hrest
    refine ⟨name.toList.take 6, c, r, ?_, hsame⟩
    rw [← hdrop, List.take_append_drop]
  · rintro ⟨t, c, r, hname, ht⟩
    have hlength : t.length = 6 := Text.length_eq_of_sameIgnoringCase ht
    rw [hname, List.take_left' hlength]
    refine ⟨ht, ?_⟩
    rw [List.length_append, List.length_cons, hlength]
    omega

/-- After the six letters one character decides whose name it is. -/
theorem isSystemName_iff_of_append {t r : List Char} {c : Char} (hname : name.toList = t ++ c :: r)
    (ht : sameIgnoringCase t "sqlite".toList = true) : IsSystemName name ↔ c = '_' := by
  have hlength : t.length = 6 := Text.length_eq_of_sameIgnoringCase ht
  have htake : name.toList.take 7 = t ++ [c] := by
    rw [hname, List.append_cons, List.take_left']
    rw [List.length_append, hlength]
    rfl
  rw [Text.sameIgnoringCase_iff] at ht
  rw [IsSystemName, htake, Text.sameIgnoringCase_iff, List.map_append, ht]
  constructor
  · intro h
    have hlast : lowerAscii c = lowerAscii '_' := by simpa using h
    exact Text.lowerAscii_eq_lowLine hlast
  · rintro rfl
    rfl

theorem IsSystemName.isHidden (h : IsSystemName name) : IsHidden name := by
  have hlength : (name.toList.take 7).length = 7 := Text.length_eq_of_sameIgnoringCase h
  have hsix := congrArg (List.take 6) (Text.sameIgnoringCase_iff.mp h)
  rw [← List.map_take, List.take_take] at hsix
  rw [← isReserved_iff, isReserved, sameName, String.toList_ofList, Bool.and_eq_true,
    decide_eq_true_eq, ← String.length_toList]
  refine ⟨Text.sameIgnoringCase_iff.mpr hsix, ?_⟩
  rw [List.length_take] at hlength
  omega

theorem IsLookalike.isHidden (h : IsLookalike name) : IsHidden name := by
  obtain ⟨t, c, r, hname, ht, -⟩ := h
  exact isHidden_iff.mpr ⟨t, c, r, hname, ht⟩

theorem IsLookalike.not_isSystemName (h : IsLookalike name) : ¬ IsSystemName name := by
  obtain ⟨t, c, r, hname, ht, hc⟩ := h
  rw [isSystemName_iff_of_append hname ht]
  exact hc

/-- A name that is left out is one of the engine or one like it. -/
theorem IsHidden.isLookalike (h : IsHidden name) (hname : ¬ IsSystemName name) :
    IsLookalike name := by
  obtain ⟨t, c, r, hsplit, ht⟩ := isHidden_iff.mp h
  exact ⟨t, c, r, hsplit, ht, fun hc => hname ((isSystemName_iff_of_append hsplit ht).mpr hc)⟩

/-! ### Stores in which names differ -/

theorem sameName_refl (name : String) : sameName name name = true := beq_self_eq_true _

namespace Store

variable {s : Store} {t : Table}

/-- No two tables have matching names. -/
def Distinct (s : Store) : Prop := s.tables.Pairwise fun t u => sameName t.name u.name = false

theorem distinct_empty : empty.Distinct := List.Pairwise.nil

theorem Distinct.nodup (hs : s.Distinct) : (s.tables.map Table.name).Nodup := by
  rw [List.Nodup, List.pairwise_map]
  refine hs.imp ?_
  intro t u hne heq
  rw [heq, sameName_refl] at hne
  cases hne

/-- A name stands for the table that has it. -/
theorem Distinct.relation?_of_mem (hs : s.Distinct) (ht : t ∈ s.tables) :
    s.relation? t.name = some t := by
  obtain ⟨before, after, hsplit⟩ := List.append_of_mem ht
  rw [Distinct, hsplit, List.pairwise_append] at hs
  refine relation?_of_table? (List.find?_eq_some_iff_append.mpr ⟨sameName_refl _, before, after,
    hsplit, fun u hu => ?_⟩)
  rw [hs.2.2 u hu t (List.mem_cons_self ..)]
  rfl

theorem Distinct.clear (hs : s.Distinct) (name : String) : (s.clear name).Distinct := by
  rw [Distinct, Store.clear, List.pairwise_map]
  refine hs.imp ?_
  intro t u hne
  split <;> split <;> exact hne

/-- No statement brings up two tables with matching names. -/
theorem Distinct.execute (hs : s.Distinct) (statement : String) (parameters : List Value) :
    (execute s statement parameters).2.Distinct := by
  rw [Sqlite.execute]
  split
  case h_6 table _ =>
    rw [clearTable]
    split
    case h_1 hafter =>
      split at hafter
      case isTrue =>
        cases hafter
        exact hs.clear table
      case isFalse => split at hafter <;> cases hafter
    case h_2 => exact hs
  all_goals exact hs

/-- A table is created only under a new name. -/
theorem Distinct.createTable {after : Store} (hs : s.Distinct)
    (h : Sample.createTable s t = .ok after) : after.Distinct := by
  rw [Sample.createTable] at h
  split at h
  case isTrue => cases h
  case isFalse hnew =>
    split at h
    case isTrue => cases h
    case isFalse =>
      cases h
      refine List.pairwise_append.mpr ⟨hs, List.pairwise_singleton .., fun u hu v hv => ?_⟩
      rw [List.mem_singleton.mp hv]
      have hnone : s.table? t.name = none := by simpa using hnew
      exact Bool.eq_false_iff.mpr (List.find?_eq_none.mp hnone u hu)

theorem Distinct.createTables {after : Store} (list : List (Table × String)) (hs : s.Distinct)
    (h : Sample.createTables s list = .ok after) : after.Distinct := by
  induction list generalizing s with
  | nil =>
    cases h
    exact hs
  | cons item list ih =>
    rw [Sample.createTables] at h
    split at h
    case h_1 => cases h
    case h_2 hcreate => exact ih (hs.createTable hcreate) h

end Store

/-! ### What is listed -/

/-- The names of the tables that are kept, in ascending order and each of them once. -/
structure Names (store : Store) (keeps : String → Prop) (names : List String) : Prop where
  ascending : names.Pairwise (· < ·)
  mem_iff : ∀ name, name ∈ names ↔ (∃ t ∈ store.tables, t.name = name) ∧ keeps name

variable {store : Store}

theorem ascending_tableNames (hstore : store.Distinct) : (tableNames store).Pairwise (· < ·) := by
  have htrans : ∀ a b c : String, decide (a ≤ b) = true → decide (b ≤ c) = true →
      decide (a ≤ c) = true := fun _ _ _ hab hbc =>
    decide_eq_true (String.le_trans (of_decide_eq_true hab) (of_decide_eq_true hbc))
  have htotal : ∀ a b : String, (decide (a ≤ b) || decide (b ≤ a)) = true := fun a b =>
    by simpa using String.le_total a b
  have hsorted : (tableNames store).Pairwise fun a b => decide (a ≤ b) = true :=
    List.pairwise_mergeSort htrans htotal _
  have hnodup : (tableNames store).Nodup :=
    (List.mergeSort_perm _ _).nodup_iff.mpr (hstore.nodup.filter _)
  refine (hsorted.and hnodup).imp ?_
  intro a b h
  have hle := of_decide_eq_true h.1
  exact String.not_le.mp fun hge => h.2 (String.le_antisymm hle hge)

theorem names_tableNames (hstore : store.Distinct) :
    Names store (fun name => ¬ IsHidden name) (tableNames store) where
  ascending := ascending_tableNames hstore
  mem_iff name := by
    rw [tableNames, List.mem_mergeSort, List.mem_filter, List.mem_map, ← isReserved_iff,
      Bool.not_eq_true, Bool.not_eq_true']

/-- The names without those of the engine are listed exactly if no table has a name like them. -/
theorem names_tableNames_iff (hstore : store.Distinct) :
    Names store (fun name => ¬ IsSystemName name) (tableNames store) ↔
      ∀ t ∈ store.tables, ¬ IsLookalike t.name := by
  have hnames := names_tableNames hstore
  constructor
  · intro h t ht hlike
    have hlisted := (h.mem_iff t.name).mpr ⟨⟨t, ht, rfl⟩, hlike.not_isSystemName⟩
    exact ((hnames.mem_iff t.name).mp hlisted).2 hlike.isHidden
  · intro h
    refine ⟨hnames.ascending, fun name => (hnames.mem_iff name).trans (and_congr_right ?_)⟩
    rintro ⟨t, ht, rfl⟩
    refine not_congr ⟨fun hhidden => ?_, IsSystemName.isHidden⟩
    by_contra hname
    exact h t ht (hhidden.isLookalike hname)

/-! ### What handlers make of it -/

variable {w : World} {path : String} {s : Session}

/-- What a handler tells about the tables of a store, and which of them it exports. -/
structure ListingLaw (store : Store) (h : Handler) (w : World) : Prop where
  /-- All names are listed that do not match the pattern. -/
  listed : ∃ names, (h.tables w).result = .ok names ∧
    Names store (fun name => ¬ IsHidden name) names ∧
    (Names store (fun name => ¬ IsSystemName name) names ↔
      ∀ t ∈ store.tables, ¬ IsLookalike t.name)
  selected : ∀ t ∈ store.tables, (h.selectAll w t.name).result = .ok t.result
  exported : ∀ t ∈ store.tables, ¬ IsHidden t.name → ∀ out,
    (h.exportTable w t.name out).result = (Csv.save w.files out t.result).1 ∧
      (h.exportTable w t.name out).files = (Csv.save w.files out t.result).2
  /-- A table whose name matches the pattern is not exported. -/
  refused : ∀ t ∈ store.tables, IsHidden t.name → ∀ out,
    (h.exportTable w t.name out).result = .error (.tableNotFound t.name) ∧
      (h.exportTable w t.name out).files = w.files

/-- **The tables whose names do not match the pattern are listed in ascending order**, and these can
be exported.  So all tables but those of the engine are listed exactly if none has a name that only
looks like theirs. -/
theorem listingLaw_of_current (hcurrent : s.current w.files path = .ok store)
    (hstore : store.Distinct) : ListingLaw store ⟨.sqlite path, some s⟩ w := by
  have hshows := shows_of_current hcurrent
  have hnames := names_tableNames hstore
  constructor
  case listed =>
    exact ⟨tableNames store, (Handler.tables_of_shows hshows).1, hnames,
      names_tableNames_iff hstore⟩
  case selected =>
    intro t ht
    exact result_selectAll_of_current hcurrent (hstore.relation?_of_mem ht)
  case exported =>
    intro t ht hname out
    have hlisted := (hnames.mem_iff t.name).mpr ⟨⟨t, ht, rfl⟩, hname⟩
    have hwhole := whole_ofStore (hstore.relation?_of_mem ht)
    exact Handler.exportTable_of_shows hshows hlisted hwhole out
  case refused =>
    intro t ht hname out
    have hlisted : t.name ∉ tableNames store :=
      fun hin => ((hnames.mem_iff t.name).mp hin).2 hname
    exact Handler.exportTable_of_not_listed hshows hlisted out

/-- Two tables that are created one after the other, and a view of one of them. -/
def clinic : Store :=
  ⟨[⟨"visits", [⟨"day", "DATE"⟩], [[.text "2024-02-29"]]⟩, ⟨"Owners", [⟨"name", "TEXT"⟩], []⟩],
    [⟨"all visits", "visits"⟩]⟩

/-- The law holds of the handler that has seen them. -/
theorem listingLaw_clinic :
    Session.current ⟨clinic⟩ FileTree.empty "a.db" = .ok clinic ∧ clinic.Distinct ∧
      ListingLaw clinic ⟨.sqlite "a.db", some ⟨clinic⟩⟩ (Handler.alone .absent) := by
  have hcurrent : Session.current ⟨clinic⟩ (Handler.alone .absent).files "a.db" = .ok clinic := rfl
  have hcreated : Sample.createTables .empty (clinic.tables.map fun t => (t, "")) =
      .ok ⟨clinic.tables, []⟩ := rfl
  have hdistinct : Store.Distinct ⟨clinic.tables, []⟩ :=
    Store.distinct_empty.createTables _ hcreated
  exact ⟨rfl, hdistinct, listingLaw_of_current hcurrent hdistinct⟩

/-- A table whose name goes on with a letter after the six letters. -/
def lookalike : Store := ⟨[⟨"sqliteX", [⟨"id", "INTEGER"⟩], [[.integer 1]]⟩], []⟩

/-- It is no table of the engine, but it is neither listed nor exported. -/
theorem tables_lookalike :
    (Handler.tables ⟨.sqlite "t.db", some ⟨lookalike⟩⟩ (Handler.alone .absent)).result = .ok [] ∧
      ¬ Names lookalike (fun name => ¬ IsSystemName name) [] ∧
      (Handler.exportTable ⟨.sqlite "t.db", some ⟨lookalike⟩⟩ (Handler.alone .absent) "sqliteX"
        "out.csv").result = .error (.tableNotFound "sqliteX") := by
  have hcurrent : Session.current ⟨lookalike⟩ (Handler.alone .absent).files "t.db" =
      .ok lookalike := rfl
  have hshows := shows_of_current hcurrent
  have hfilter : (lookalike.tables.map Table.name).filter (fun name => !isReserved name) = [] := by
    decide
  have hnames : tableNames lookalike = [] := by rw [tableNames, hfilter, List.mergeSort_nil]
  have hlisted : (Listing.ofStore lookalike).names = [] := hnames
  refine ⟨?_, fun h => ?_, ?_⟩
  · rw [(Handler.tables_of_shows hshows).1, hlisted]
  · have hname : ¬ IsSystemName "sqliteX" := by decide
    have hin := (h.mem_iff "sqliteX").mpr ⟨⟨_, List.mem_singleton_self _, rfl⟩, hname⟩
    cases hin
  · refine (Handler.exportTable_of_not_listed hshows ?_ "out.csv").1
    rw [hlisted]
    exact List.not_mem_nil

end Sqlite

end TableAccess
