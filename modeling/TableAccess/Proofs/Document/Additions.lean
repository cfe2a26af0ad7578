import TableAccess.Proofs.Document.Basic
import TableAccess.Proofs.Document.Reachable

/-!
# Runs of additions

Tables are added to a database in place, one after the other, and each attempt succeeds or fails on
its own.  An attempt makes its checks one by one and changes the database behind the last of them,
so one that fails has changed nothing.  What a run adds are the tables that fit the database at
their turn, in order and behind those that were there, and none is altered or hidden by later
attempts.
-/

namespace TableAccess

namespace Database

variable {db after : Database} {t : Table} {e : Error} {attempts : List Table}

/-! ### Adding in place -/

/-- Fail with a problem of a table, if there is one. -/
def refuse (t : Table) : Option AddProblem → EStateM Error Database Unit
  | some problem => throw (.schema (problem.message t))
  | none => pure ()

/-- Add a table at the end. -/
def addInPlace (t : Table) : EStateM Error Database Unit := do
  refuse t (if isMetadataName t.name then some .reserved else none)
  refuse t (if ((← get).table? t.name).isSome then some .exists else none)
  refuse t ((firstRepeated? [] t.columns).map .repeatedColumn)
  refuse t ((firstMisfit? t.columns.length 0 t.rows).map fun (i, width) => .rowWidth i width)
  modify fun db => ⟨db.tables ++ [t]⟩

/-- Try to add tables one after the other, each to the database that the attempt before it left,
whether that failed or not.  Gives the database at the end, and for each attempt why it failed, if
it did. -/
def addEach (db : Database) : List Table → Database × List (Option Error)
  | [] => (db, [])
  | t :: r =>
    match addInPlace t db with
    | .ok _ next => ((next.addEach r).1, none :: (next.addEach r).2)
    | .error e next => ((next.addEach r).1, some e :: (next.addEach r).2)

theorem bind_refuse_some (problem : AddProblem) (next : Unit → EStateM Error Database Unit) :
    (refuse t (some problem) >>= next) db = .error (.schema (problem.message t)) db := rfl

theorem bind_refuse_none (next : Unit → EStateM Error Database Unit) :
    (refuse t none >>= next) db = next () db := rfl

theorem addInPlace_eq (t : Table) (db : Database) :
    addInPlace t db =
      match db.addTable t with
      | .ok after => .ok () after
      | .error e => .error e db := by
  rw [addTable, addProblem?, addInPlace]
  by_cases hname : isMetadataName t.name = true
  · rw [if_pos hname, if_pos hname, bind_refuse_some]
  · rw [if_neg hname, if_neg hname, bind_refuse_none]
    show (refuse t (if (db.table? t.name).isSome then some .exists else none) >>= _) db = _
    by_cases hfound : (db.table? t.name).isSome = true
    · rw [if_pos hfound, if_pos hfound, bind_refuse_some]
    · rw [if_neg hfound, if_neg hfound, bind_refuse_none]
      cases firstRepeated? [] t.columns with
      | some column => rfl
      | none =>
        cases firstMisfit? t.columns.length 0 t.rows with
        | some misfit => rfl
        | none => rfl

/-! ### Runs of attempts -/

/-- Why a table cannot be added. -/
def failure? (db : Database) (t : Table) : Option Error :=
  match db.addTable t with
  | .ok _ => none
  | .error e => some e

/-- An attempt adds a table that the database accepts, or it fails and changes nothing. -/
theorem afterAdding_cases (db : Database) (t : Table) :
    (db.Accepts t ∧ db.failure? t = none ∧ db.afterAdding t = ⟨db.tables ++ [t]⟩) ∨
      ∃ e, ¬ db.Accepts t ∧ db.failure? t = some e ∧ db.afterAdding t = db := by
  cases hadd : db.addTable t with
  | ok after =>
    obtain ⟨haccepts, rfl⟩ := addTable_eq_ok_iff.mp hadd
    exact Or.inl ⟨haccepts, by rw [failure?, hadd], by rw [afterAdding, hadd]; rfl⟩
  | error e =>
    refine Or.inr ⟨e, fun haccepts => ?_, by rw [failure?, hadd], by rw [afterAdding, hadd]; rfl⟩
    cases hadd.symm.trans (addTable_eq_ok_iff.mpr ⟨haccepts, rfl⟩)

theorem addEach_cons (db : Database) (t : Table) (attempts : List Table) :
    db.addEach (t :: attempts) =
      (((db.afterAdding t).addEach attempts).1,
        db.failure? t :: ((db.afterAdding t).addEach attempts).2) := by
  rw [addEach, addInPlace_eq, failure?, afterAdding]
  cases db.addTable t <;> rfl

theorem addEach_append (db : Database) (first rest : List Table) :
    db.addEach (first ++ rest) =
      (((db.addEach first).1.addEach rest).1,
        (db.addEach first).2 ++ ((db.addEach first).1.addEach rest).2) := by
  induction first generalizing db with
  | nil => rfl
  | cons t first ih => rw [List.cons_append, addEach_cons, ih, addEach_cons, List.cons_append]

theorem length_failures (db : Database) (attempts : List Table) :
    (db.addEach attempts).2.length = attempts.length := by
  induction attempts generalizing db with
  | nil => rfl
  | cons t attempts ih => rw [addEach_cons, List.length_cons, ih, List.length_cons]

/-- An attempt fails as it would on the database that the attempts before it left. -/
theorem failures_at (db : Database) (before : List Table) (t : Table) (rest : List Table) :
    (db.addEach (before ++ t :: rest)).2[before.length]? =
      some ((db.addEach before).1.failure? t) := by
  rw [addEach_append, List.getElem?_append_right (Nat.le_of_eq (length_failures db before)),
    length_failures, Nat.sub_self, addEach_cons]
  rfl

theorem addEach_eq_foldl (db : Database) (attempts : List Table) :
    (db.addEach attempts).1 = attempts.foldl afterAdding db := by
  induction attempts generalizing db with
  | nil => rfl
  | cons t attempts ih => rw [addEach_cons, ih, List.foldl_cons]

theorem WellFormed.addEach (h : db.WellFormed) (attempts : List Table) :
    (db.addEach attempts).1.WellFormed := by
  induction attempts generalizing db with
  | nil => exact h
  | cons t attempts ih =>
    rw [addEach_cons]
    exact ih (h.afterAdding t)

/-! ### What a run adds -/

/-- The tables of the attempts that did not fail. -/
def added (db : Database) (attempts : List Table) : List Table :=
  ((attempts.zip (db.addEach attempts).2).filter fun p => p.2.isNone).map Prod.fst

theorem added_cons (db : Database) (t : Table) (attempts : List Table) :
    db.added (t :: attempts) =
      if db.failure? t = none then t :: (db.afterAdding t).added attempts
      else (db.afterAdding t).added attempts := by
  rw [added, addEach_cons, List.zip_cons_cons]
  cases db.failure? t <;> rfl

theorem tables_addEach (db : Database) (attempts : List Table) :
    (db.addEach attempts).1.tables = db.tables ++ db.added attempts := by
  induction attempts generalizing db with
  | nil => exact (List.append_nil _).symm
  | cons t attempts ih =>
    rw [addEach_cons, ih, added_cons]
    rcases afterAdding_cases db t with ⟨-, hnone, hafter⟩ | ⟨e, -, hsome, hafter⟩
    · rw [if_pos hnone, hafter, List.append_assoc, List.singleton_append]
    · rw [if_neg (by rw [hsome]; nofun), hafter]

/-- The tables of a database stand in front of those that are added to it. -/
theorem tables_prefix_addEach (db : Database) (attempts : List Table) :
    db.tables <+: (db.addEach attempts).1.tables := by
  rw [tables_addEach]
  exact List.prefix_append _ _

/-- What a name finds, it finds after every run of attempts. -/
theorem table?_addEach (h : db.WellFormed) {name : String} (ht : db.table? name = some t)
    (attempts : List Table) : (db.addEach attempts).1.table? name = some t := by
  obtain ⟨hmem, hname⟩ := (table?_eq_some_iff h).mp ht
  exact (table?_eq_some_iff (h.addEach attempts)).mpr
    ⟨(tables_prefix_addEach db attempts).subset hmem, hname⟩

/-! ### The law of additions -/

/-- What callers rely on when they try to add tables to a database one after the other. -/
structure AdditionLaw (db : Database) (attempts : List Table) : Prop where
  /-- What is changed attempt by attempt is what the attempts give as values. -/
  inPlace : (db.addEach attempts).1 = attempts.foldl afterAdding db
  /-- An attempt succeeds exactly if its table fits the database that it finds. -/
  succeeds_iff : ∀ before t rest, attempts = before ++ t :: rest →
    ((db.addEach attempts).2[before.length]? = some none ↔
      isMetadataName t.name = false ∧ t.name ∉ (db.addEach before).1.tableNames ∧
        t.columns.Nodup ∧ ∀ row ∈ t.rows, row.length = t.columns.length)
  /-- An attempt that fails has changed nothing. -/
  unchanged : ∀ before t rest e after, attempts = before ++ t :: rest →
    addInPlace t (db.addEach before).1 = .error e after → after = (db.addEach before).1
  /-- The tables that were there, and those of the attempts that succeeded in their order. -/
  tables : (db.addEach attempts).1.tables = db.tables ++ db.added attempts
  /-- Every table is found under its name with the columns and rows with which it was added. -/
  found : ∀ t ∈ (db.addEach attempts).1.tables, (db.addEach attempts).1.table? t.name = some t
  /-- Later attempts neither move nor alter nor hide a table. -/
  kept : ∀ before rest, attempts = before ++ rest →
    (db.addEach before).1.tables <+: (db.addEach attempts).1.tables ∧
      ∀ name t, (db.addEach before).1.table? name = some t →
        (db.addEach attempts).1.table? name = some t

/-- **Adding a table is all or nothing**, in every run of attempts on a well-formed database. -/
theorem additionLaw_of_wellFormed (db : Database) (h : db.WellFormed) (attempts : List Table) :
    AdditionLaw db attempts where
  inPlace := addEach_eq_foldl db attempts
  succeeds_iff before t rest hattempts := by
    rw [hattempts, failures_at, Option.some_inj]
    rcases afterAdding_cases (db.addEach before).1 t with ⟨haccepts, hnone, -⟩ | ⟨e, hnot, hsome, -⟩
    · exact iff_of_true hnone
        ⟨haccepts.noMetadata, haccepts.newName, haccepts.columns, haccepts.widths⟩
    · refine iff_of_false (by rw [hsome]; nofun) ?_
      rintro ⟨hmetadata, hname, hcolumns, hwidths⟩
      exact hnot ⟨hmetadata, hname, hcolumns, hwidths⟩
  unchanged before t rest e after _ hfailed := by
    rw [addInPlace_eq] at hfailed
    cases hadd : (db.addEach before).1.addTable t with
    | ok next =>
      rw [hadd] at hfailed
      cases hfailed
    | error problem =>
      rw [hadd] at hfailed
      cases hfailed
      rfl
  tables := tables_addEach db attempts
  found t ht := (table?_eq_some_iff (h.addEach attempts)).mpr ⟨ht, rfl⟩
  kept before rest hattempts := by
    rw [hattempts, addEach_append]
    exact ⟨tables_prefix_addEach _ rest, fun name t ht => table?_addEach (h.addEach before) ht rest⟩

/-- A database with one table without rows. -/
def staff : Database := ⟨[⟨"Staff", ["id"], []⟩]⟩

/-- Two tables that fit, and between them one for each reason to be refused. -/
def mixed : List Table :=
  [⟨"Pay", ["id", "sum"], [[.integer 1, .null]]⟩, ⟨"$meta", [], []⟩, ⟨"Pay", ["id"], []⟩,
    ⟨"Twice", ["id", "id"], []⟩, ⟨"Short", ["id"], [[.integer 1], []]⟩, ⟨"staff", [], [[]]⟩]

theorem wellFormed_staff : staff.WellFormed :=
  ⟨by decide, by decide, by decide, by decide⟩

/-- The two tables that fit are added. -/
theorem additionLaw_mixed :
    staff.WellFormed ∧ (staff.addEach mixed).1.tables =
      [⟨"Staff", ["id"], []⟩, ⟨"Pay", ["id", "sum"], [[.integer 1, .null]]⟩, ⟨"staff", [], [[]]⟩] := by
  refine ⟨wellFormed_staff, ?_⟩
  rw [(additionLaw_of_wellFormed staff wellFormed_staff mixed).tables]
  rfl

end Database

end TableAccess
