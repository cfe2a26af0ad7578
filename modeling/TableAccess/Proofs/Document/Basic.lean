import TableAccess.Document.Basic

/-!
# Databases that were built table by table

A table is added exactly if it keeps the database well-formed.  So every database that grew from
the empty one by adding tables is well-formed, and nothing else about its history matters.
-/

namespace TableAccess

variable {db db' : Database} {t : Table}

/-! ### The checks of a table -/

theorem firstRepeated?_eq_none_iff {seen columns : List String} :
    firstRepeated? seen columns = none ↔ columns.Nodup ∧ ∀ c ∈ columns, c ∉ seen := by
  induction columns generalizing seen with
  | nil => simp [firstRepeated?]
  | cons c r ih =>
    rw [firstRepeated?]
    by_cases hc : c ∈ seen
    · have hseen : seen.contains c = true := List.contains_iff_mem.mpr hc
      rw [if_pos hseen]
      constructor
      · intro h
        cases h
      · intro h
        exact absurd hc (h.2 c List.mem_cons_self)
    · -- behind a new name, a repeated one is among the names seen before or equal to this one
      have hseen : ¬ seen.contains c = true := fun h => hc (List.contains_iff_mem.mp h)
      rw [if_neg hseen, ih, List.nodup_cons]
      constructor
      · rintro ⟨hnodup, hnew⟩
        refine ⟨⟨fun hr => hnew c hr List.mem_cons_self, hnodup⟩, fun d hd => ?_⟩
        rcases List.mem_cons.mp hd with rfl | hd
        · exact hc
        · exact fun hs => hnew d hd (List.mem_cons_of_mem c hs)
      · rintro ⟨⟨hcr, hnodup⟩, hnew⟩
        refine ⟨hnodup, fun d hd hs => ?_⟩
        rcases List.mem_cons.mp hs with rfl | hs
        · exact hcr hd
        · exact hnew d (List.mem_cons_of_mem c hd) hs

theorem firstMisfit?_eq_none_iff {α : Type} {width index : Nat} {rows : List (List α)} :
    firstMisfit? width index rows = none ↔ ∀ row ∈ rows, row.length = width := by
  induction rows generalizing index with
  | nil => simp [firstMisfit?]
  | cons row r ih =>
    rw [firstMisfit?, List.forall_mem_cons]
    by_cases hrow : row.length = width
    · rw [if_pos hrow, ih]
      exact ⟨fun h => ⟨hrow, h⟩, fun h => h.2⟩
    · rw [if_neg hrow]
      constructor
      · intro h
        cases h
      · intro h
        exact absurd h.1 hrow

namespace Database

/-- What a table needs to be added to a database. -/
structure Accepts (db : Database) (t : Table) : Prop where
  noMetadata : isMetadataName t.name = false
  newName : t.name ∉ db.tableNames
  columns : t.columns.Nodup
  widths : ∀ row ∈ t.rows, row.length = t.columns.length

theorem table?_isSome_iff {name : String} :
    (db.table? name).isSome = true ↔ name ∈ db.tableNames := by
  rw [table?, List.find?_isSome, tableNames, List.mem_map]
  constructor
  · rintro ⟨t, ht, hname⟩
    exact ⟨t, ht, beq_iff_eq.mp hname⟩
  · rintro ⟨t, ht, hname⟩
    exact ⟨t, ht, beq_iff_eq.mpr hname⟩

theorem addProblem?_eq_none_iff : db.addProblem? t = none ↔ db.Accepts t := by
  rw [addProblem?]
  constructor
  · intro h
    split at h
    case isTrue => cases h
    case isFalse hmetadata =>
      split at h
      case isTrue => cases h
      case isFalse hname =>
        split at h
        case h_1 => cases h
        case h_2 hcolumns =>
          rw [Option.map_eq_none_iff] at h
          exact ⟨Bool.of_not_eq_true hmetadata, fun hin => hname (table?_isSome_iff.mpr hin),
            (firstRepeated?_eq_none_iff.mp hcolumns).1, firstMisfit?_eq_none_iff.mp h⟩
  · intro h
    have hname : ¬ (db.table? t.name).isSome = true :=
      fun hin => h.newName (table?_isSome_iff.mp hin)
    have hcolumns : firstRepeated? [] t.columns = none :=
      firstRepeated?_eq_none_iff.mpr ⟨h.columns, fun _ _ => List.not_mem_nil⟩
    have hwidths : firstMisfit? t.columns.length 0 t.rows = none :=
      firstMisfit?_eq_none_iff.mpr h.widths
    simp only [h.noMetadata, hname, hcolumns, hwidths, if_false, Bool.false_eq_true]
    rfl

/-- The tables that can be added are the accepted ones, and they are put behind the others. -/
theorem addTable_eq_ok_iff : db.addTable t = .ok db' ↔ db.Accepts t ∧ db' = ⟨db.tables ++ [t]⟩ := by
  rw [addTable, ← addProblem?_eq_none_iff]
  cases db.addProblem? t with
  | none =>
    constructor
    · intro h
      cases h
      exact ⟨rfl, rfl⟩
    · rintro ⟨-, rfl⟩
      rfl
  | some problem =>
    constructor
    · intro h
      cases h
    · rintro ⟨h, -⟩
      cases h

/-! ### Adding tables one after the other -/

/-- Databases that grow from the empty one by tables that are added. -/
inductive Built : Database → Prop where
  | empty : Built Database.empty
  | add {db db' : Database} {t : Table} (h : Built db) (ht : db.addTable t = .ok db') : Built db'

theorem WellFormed.addTable (h : db.WellFormed) (ht : db.addTable t = .ok db') :
    db'.WellFormed := by
  obtain ⟨haccepts, rfl⟩ := addTable_eq_ok_iff.mp ht
  refine ⟨?_, ?_, ?_, ?_⟩
  · rw [tableNames, List.map_append, List.nodup_append]
    refine ⟨h.names, by simp, fun name hname other hother hsame => haccepts.newName ?_⟩
    rw [← List.mem_singleton.mp hother, ← hsame]
    exact hname
  · intro u hu
    rcases List.mem_append.mp hu with hu | hu
    · exact h.noMetadata u hu
    · rw [List.mem_singleton.mp hu]
      exact haccepts.noMetadata
  · intro u hu
    rcases List.mem_append.mp hu with hu | hu
    · exact h.columns u hu
    · rw [List.mem_singleton.mp hu]
      exact haccepts.columns
  · intro u hu
    rcases List.mem_append.mp hu with hu | hu
    · exact h.widths u hu
    · rw [List.mem_singleton.mp hu]
      exact haccepts.widths

theorem Built.wellFormed (h : db.Built) : db.WellFormed := by
  induction h with
  | empty => exact wellFormed_empty
  | add _ ht ih => exact ih.addTable ht

end Database

end TableAccess
