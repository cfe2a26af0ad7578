import TableAccess.Cursor.Run

/-!
# What a run of a cursor returns

After a selection the rows returned so far are a beginning of the rows of the table, and the
position counts them.  A call that selects nothing extends that beginning or leaves the cursor as
it is; so the calls up to the next selection together return each row once and in order.
-/

namespace TableAccess

namespace Cursor

variable {db : Database} {t : Table} {c : Cursor} {answers : List Answer}

/-! ### Single calls -/

theorem selectTable_of_table {name : String} (h : c.database.table? name = some t) :
    c.selectTable name = .ok { c with selection := some ⟨t, 0⟩ } := by
  rw [selectTable, h]

theorem selectTable_of_no_table {name : String} (h : c.database.table? name = none) :
    c.selectTable name = .error (.tableNotFound name) := by
  rw [selectTable, h]

/-- A call that selects a table puts the cursor in front of its first row. -/
theorem call_of_selects {call : Call} (h : call.selects? c.database = some t) :
    c.call call = ({ c with selection := some ⟨t, 0⟩ }, .selected) := by
  obtain ⟨name, hname, htable⟩ := Option.bind_eq_some_iff.mp h
  cases call with
  | execute q =>
    cases hq : Query.parse q with
    | error e =>
      rw [Call.target?, hq] at hname
      cases hname
    | ok n =>
      rw [Call.target?, hq] at hname
      cases hname
      rw [Cursor.call, execute, hq]
      show c.settleSelection (c.selectTable name) = _
      rw [selectTable_of_table htable]
      rfl
  | selectTable n =>
    cases hname
    rw [Cursor.call, selectTable_of_table htable]
    rfl
  | fetchOne => cases hname
  | fetchAll => cases hname

/-- A call that selects nothing is a fetch, or it fails and leaves the cursor as it is. -/
theorem call_of_selects_none {call : Call} (h : call.selects? c.database = none) :
    call = .fetchOne ∨ call = .fetchAll ∨ ∃ e, c.call call = (c, .failed e) := by
  cases call with
  | execute q =>
    refine Or.inr (Or.inr ?_)
    cases hq : Query.parse q with
    | error e =>
      refine ⟨e, ?_⟩
      rw [Cursor.call, execute, hq]
      rfl
    | ok name =>
      rw [Call.selects?, Call.target?, hq] at h
      have htable : c.database.table? name = none := h
      refine ⟨.tableNotFound name, ?_⟩
      rw [Cursor.call, execute, hq]
      show c.settleSelection (c.selectTable name) = _
      rw [selectTable_of_no_table htable]
      rfl
  | selectTable name =>
    have htable : c.database.table? name = none := h
    refine Or.inr (Or.inr ⟨.tableNotFound name, ?_⟩)
    rw [Cursor.call, selectTable_of_no_table htable]
    rfl
  | fetchOne => exact Or.inl rfl
  | fetchAll => exact Or.inr (Or.inl rfl)

theorem call_fetchOne_of_row {s : Selection} {values : List Value} (hc : c.selection = some s)
    (h : s.table.rows[s.position]? = some values) :
    c.call .fetchOne =
      ({ c with selection := some { s with position := s.position + 1 } },
        .row (some (Row.ofColumns s.table.columns values))) := by
  rw [Cursor.call, fetchOne, hc]
  simp only [h]
  rfl

theorem call_fetchOne_of_end {s : Selection} (hc : c.selection = some s)
    (h : s.table.rows[s.position]? = none) : c.call .fetchOne = (c, .row none) := by
  rw [Cursor.call, fetchOne, hc]
  simp only [h]
  rfl

theorem call_fetchAll {s : Selection} (hc : c.selection = some s) :
    c.call .fetchAll =
      ({ c with selection := some { s with position := s.table.rows.length } },
        .rows s.remaining) := by
  rw [Cursor.call, fetchAll, hc]
  rfl

theorem call_fetchOne_of_idle (hc : c.selection = none) :
    c.call .fetchOne = (c, .failed .noActiveQuery) := by
  rw [Cursor.call, fetchOne, hc]
  rfl

theorem call_fetchAll_of_idle (hc : c.selection = none) :
    c.call .fetchAll = (c, .failed .noActiveQuery) := by
  rw [Cursor.call, fetchAll, hc]
  rfl

/-- What a call that selects nothing can do: leave the cursor as it is and return no row, return
the next row, or return all rows that remain. -/
theorem call_cases {call : Call} (h : call.selects? c.database = none) :
    (∃ a, c.call call = (c, a) ∧ a.returned = []) ∨
    (∃ s values, c.selection = some s ∧ s.table.rows[s.position]? = some values ∧
      c.call call =
        ({ c with selection := some { s with position := s.position + 1 } },
          .row (some (Row.ofColumns s.table.columns values)))) ∨
    (∃ s, c.selection = some s ∧
      c.call call =
        ({ c with selection := some { s with position := s.table.rows.length } },
          .rows s.remaining)) := by
  rcases call_of_selects_none h with rfl | rfl | ⟨e, he⟩
  · cases hc : c.selection with
    | none => exact Or.inl ⟨_, call_fetchOne_of_idle hc, rfl⟩
    | some s =>
      cases hrow : s.table.rows[s.position]? with
      | none => exact Or.inl ⟨_, call_fetchOne_of_end hc hrow, rfl⟩
      | some values => exact Or.inr (Or.inl ⟨s, values, rfl, hrow, call_fetchOne_of_row hc hrow⟩)
  · cases hc : c.selection with
    | none => exact Or.inl ⟨_, call_fetchAll_of_idle hc, rfl⟩
    | some s => exact Or.inr (Or.inr ⟨s, rfl, call_fetchAll hc⟩)
  · exact Or.inl ⟨_, he, rfl⟩

/-- No call changes the database. -/
theorem database_call (c : Cursor) (call : Call) : (c.call call).1.database = c.database := by
  cases hs : call.selects? c.database with
  | some t => rw [call_of_selects hs]
  | none =>
    rcases call_cases hs with ⟨a, hcall, -⟩ | ⟨s, values, -, -, hcall⟩ | ⟨s, -, hcall⟩
    · rw [hcall]
    · rw [hcall]
    · rw [hcall]

/-! ### Runs -/

theorem run_cons (c : Cursor) (call : Call) (calls : List Call) :
    c.run (call :: calls) =
      (((c.call call).1.run calls).1, (c.call call).2 :: ((c.call call).1.run calls).2) := rfl

theorem run_append (c : Cursor) (first rest : List Call) :
    c.run (first ++ rest) =
      (((c.run first).1.run rest).1, (c.run first).2 ++ ((c.run first).1.run rest).2) := by
  induction first generalizing c with
  | nil => rfl
  | cons call first ih => rw [List.cons_append, run_cons, ih, run_cons, List.cons_append]

theorem database_run (c : Cursor) (calls : List Call) :
    (c.run calls).1.database = c.database := by
  induction calls generalizing c with
  | nil => rfl
  | cons call calls ih => rw [run_cons, ih, database_call]

theorem length_answers (c : Cursor) (calls : List Call) :
    (c.run calls).2.length = calls.length := by
  induction calls generalizing c with
  | nil => rfl
  | cons call calls ih => rw [run_cons, List.length_cons, ih, List.length_cons]

/-- The first answers are those of the first calls. -/
theorem answers_take (c : Cursor) (calls : List Call) (n : Nat) :
    (c.run (calls.take n)).2 = (c.run calls).2.take n := by
  induction calls generalizing c n with
  | nil => rw [List.take_nil, run, List.take_nil]
  | cons call calls ih =>
    cases n with
    | zero => rfl
    | succ n => rw [List.take_succ_cons, run_cons, run_cons, ih, List.take_succ_cons]

/-! ### The position -/

/-- The position does not exceed the number of rows. -/
def InRange (c : Cursor) : Prop :=
  ∀ s, c.selection = some s → s.position ≤ s.table.rows.length

theorem inRange_call (h : c.InRange) (call : Call) : (c.call call).1.InRange := by
  cases hs : call.selects? c.database with
  | some t =>
    rw [call_of_selects hs]
    rintro s ⟨⟩
    exact Nat.zero_le _
  | none =>
    rcases call_cases hs with ⟨a, hcall, -⟩ | ⟨s, values, -, hrow, hcall⟩ | ⟨s, -, hcall⟩
    · rwa [hcall]
    · rw [hcall]
      rintro s' ⟨⟩
      exact (List.getElem?_eq_some_iff.mp hrow).1
    · rw [hcall]
      rintro s' ⟨⟩
      exact Nat.le_refl _

theorem inRange_run (h : c.InRange) (calls : List Call) : (c.run calls).1.InRange := by
  induction calls generalizing c with
  | nil => exact h
  | cons call calls ih => exact ih (inRange_call h call)

/-! ### The calls before the first selection -/

/-- A cursor has a selection exactly if a call has selected a table. -/
theorem selection_run_eq_none_iff (calls : List Call) :
    (c.run calls).1.selection = none ↔
      c.selection = none ∧ ∀ call ∈ calls, call.selects? c.database = none := by
  induction calls generalizing c with
  | nil => simp [run]
  | cons call calls ih =>
    rw [run_cons, ih, database_call, List.forall_mem_cons, ← and_assoc]
    refine and_congr_left fun _ => ?_
    cases hs : call.selects? c.database with
    | some t => simp [call_of_selects hs]
    | none =>
      rcases call_cases hs with ⟨a, hcall, -⟩ | ⟨s, values, hc, -, hcall⟩ | ⟨s, hc, hcall⟩
      · simp [hcall]
      · simp [hcall, hc]
      · simp [hcall, hc]

/-! ### The calls after a selection -/

/-- The cursor stands in a table after the rows of some answers: the answers hold a beginning of
the rows, as many as the position says, and all of them once an answer said that none is left. -/
structure Reading (t : Table) (answers : List Answer) (c : Cursor) : Prop where
  selection : c.selection = some ⟨t, (returned answers).length⟩
  rows : returned answers <+: t.rowList
  complete : (∃ a ∈ answers, a.isEnd = true) → returned answers = t.rowList

theorem length_rowList (t : Table) : t.rowList.length = t.rows.length := List.length_map _

theorem returned_append (first rest : List Answer) :
    returned (first ++ rest) = returned first ++ returned rest := List.flatMap_append

theorem returned_snoc (answers : List Answer) (a : Answer) :
    returned (answers ++ [a]) = returned answers ++ a.returned := by
  rw [returned_append]
  show _ ++ (a.returned ++ []) = _
  rw [List.append_nil]

namespace Reading

theorem of_selects {call : Call} (h : call.selects? c.database = some t) :
    Reading t [] (c.call call).1 := by
  rw [call_of_selects h]
  exact ⟨rfl, List.nil_prefix, fun ⟨a, ha, _⟩ => absurd ha List.not_mem_nil⟩

/-- An answer without rows that leaves the cursor as it is, and that does not announce the end
before all rows are returned. -/
theorem snoc_empty {a : Answer} (h : Reading t answers c) (ha : a.returned = [])
    (hend : a.isEnd = true → returned answers = t.rowList) : Reading t (answers ++ [a]) c := by
  have hr : returned (answers ++ [a]) = returned answers := by
    rw [returned_snoc, ha, List.append_nil]
  refine ⟨?_, ?_, ?_⟩
  · rw [hr]
    exact h.selection
  · rw [hr]
    exact h.rows
  · rintro ⟨b, hb, hbend⟩
    rw [hr]
    rcases List.mem_append.mp hb with hb | hb
    · exact h.complete ⟨b, hb, hbend⟩
    · rw [List.mem_singleton.mp hb] at hbend
      exact hend hbend

theorem after_fetchOne (h : Reading t answers c) :
    Reading t (answers ++ [(c.call .fetchOne).2]) (c.call .fetchOne).1 := by
  have hlen : (returned answers).length ≤ t.rowList.length := h.rows.length_le
  rw [length_rowList] at hlen
  cases hrow : t.rows[(returned answers).length]? with
  | none =>
    have hle : t.rows.length ≤ (returned answers).length := List.getElem?_eq_none_iff.mp hrow
    have hall : returned answers = t.rowList :=
      h.rows.eq_of_length (by rw [length_rowList]; omega)
    rw [call_fetchOne_of_end h.selection hrow]
    exact h.snoc_empty rfl fun _ => hall
  | some values =>
    obtain ⟨hlt, hget⟩ := List.getElem?_eq_some_iff.mp hrow
    have hnext : returned (answers ++ [.row (some (Row.ofColumns t.columns values))]) =
        t.rowList.take ((returned answers).length + 1) := by
      rw [returned_snoc, List.take_add_one, ← List.prefix_iff_eq_take.mp h.rows, Table.rowList,
        List.getElem?_map, hrow]
      rfl
    rw [call_fetchOne_of_row h.selection hrow]
    refine ⟨?_, ?_, ?_⟩
    · rw [hnext, List.length_take, length_rowList, Nat.min_eq_left hlt]
    · rw [hnext]
      exact List.take_prefix _ _
    · rintro ⟨b, hb, hbend⟩
      rcases List.mem_append.mp hb with hb | hb
      · -- an earlier end would have left no row to fetch
        have := congrArg List.length (h.complete ⟨b, hb, hbend⟩)
        rw [length_rowList] at this
        omega
      · rw [List.mem_singleton.mp hb] at hbend
        cases hbend

theorem after_fetchAll (h : Reading t answers c) :
    Reading t (answers ++ [(c.call .fetchAll).2]) (c.call .fetchAll).1 := by
  obtain ⟨rest, hrest⟩ := h.rows
  have hdrop : Selection.remaining ⟨t, (returned answers).length⟩ = rest := by
    rw [Selection.remaining, ← hrest, List.drop_left]
  have hall : returned (answers ++ [.rows (Selection.remaining ⟨t, (returned answers).length⟩)]) =
      t.rowList := by
    rw [returned_snoc, hdrop]
    exact hrest
  rw [call_fetchAll h.selection]
  refine ⟨?_, hall ▸ List.prefix_refl _, fun _ => hall⟩
  rw [hall, length_rowList]

/-- A call that selects nothing goes on reading. -/
theorem after_call {call : Call} (h : Reading t answers c)
    (hs : call.selects? c.database = none) :
    Reading t (answers ++ [(c.call call).2]) (c.call call).1 := by
  rcases call_of_selects_none hs with rfl | rfl | ⟨e, he⟩
  · exact h.after_fetchOne
  · exact h.after_fetchAll
  · rw [he]
    exact h.snoc_empty rfl (fun hend => by cases hend)

theorem after_run {calls : List Call} (h : Reading t answers c)
    (hs : ∀ call ∈ calls, call.selects? c.database = none) :
    Reading t (answers ++ (c.run calls).2) (c.run calls).1 := by
  induction calls generalizing c answers with
  | nil =>
    show Reading t (answers ++ []) c
    rwa [List.append_nil]
  | cons call calls ih =>
    obtain ⟨hcall, hcalls⟩ := List.forall_mem_cons.mp hs
    have hnext := ih (h.after_call hcall) (by rwa [database_call])
    rwa [List.append_assoc] at hnext

theorem state_eq_exhausted_iff (h : Reading t answers c) :
    c.state = .exhausted ↔ returned answers = t.rowList := by
  have hlen := length_rowList t
  rw [Cursor.state, h.selection]
  simp only
  constructor
  · intro hstate
    split at hstate
    · exact h.rows.eq_of_length_le (by omega)
    · cases hstate
  · intro hall
    rw [hall, if_pos (by omega)]

theorem state_eq_executed_iff (h : Reading t answers c) :
    c.state = .executed ↔ returned answers ≠ t.rowList := by
  rw [ne_eq, ← h.state_eq_exhausted_iff, Cursor.state, h.selection]
  simp only
  split <;> simp

end Reading

/-! ### The law of runs -/

theorem values_rowList (h : db.WellFormed) (ht : t ∈ db.tables) :
    t.rowList.map Row.values = t.rows := by
  rw [Table.rowList, List.map_map]
  refine (List.map_congr_left fun row hrow => ?_).trans (List.map_id t.rows)
  exact Row.values_ofColumns (h.widths t ht row hrow).symm

theorem columns_of_mem_rowList (h : db.WellFormed) (ht : t ∈ db.tables) {r : Row}
    (hr : r ∈ t.rowList) : r.columns = t.columns := by
  obtain ⟨row, hrow, rfl⟩ := List.mem_map.mp hr
  exact Row.columns_ofColumns (h.widths t ht row hrow).symm

theorem mem_tables_of_selects {call : Call} (h : call.selects? db = some t) : t ∈ db.tables := by
  obtain ⟨name, -, htable⟩ := Option.bind_eq_some_iff.mp h
  exact List.mem_of_find?_eq_some htable

/-- What holds of the answers since the selection of a table, and of the cursor after them. -/
structure Walk (t : Table) (answers : List Answer) (c : Cursor) : Prop where
  /-- The rows of the table are its values with its columns. -/
  values : t.rowList.map Row.values = t.rows
  columns : ∀ r ∈ t.rowList, r.columns = t.columns
  /-- No row is lost, repeated or out of order. -/
  rows : returned answers <+: t.rowList
  /-- Once an answer says that no row is left, all have been returned and none comes after. -/
  complete : ∀ first rest, answers = first ++ rest → (∃ a ∈ first, a.isEnd = true) →
    returned first = t.rowList ∧ returned rest = []
  exhausted_iff : c.state = .exhausted ↔ returned answers = t.rowList
  executed_iff : c.state = .executed ↔ returned answers ≠ t.rowList

/-- What holds of a run of calls on a new cursor, of its answers and of the cursor at the end. -/
structure RunLaw (db : Database) (calls : List Call) (answers : List Answer) (c : Cursor) :
    Prop where
  inRange : c.InRange
  /-- The calls that select a table are those that succeed as selections. -/
  selected_iff : ∀ before call after, calls = before ++ call :: after →
    (answers[before.length]? = some .selected ↔ ∃ t, call.selects? db = some t)
  idle_iff : c.state = .idle ↔ ∀ call ∈ calls, call.selects? db = none
  fetchOne_fails_iff : ∀ e, c.fetchOne = .error e ↔ e = .noActiveQuery ∧ c.state = .idle
  fetchAll_fails_iff : ∀ e, c.fetchAll = .error e ↔ e = .noActiveQuery ∧ c.state = .idle
  walk : ∀ before call after t, calls = before ++ call :: after → call.selects? db = some t →
    (∀ call ∈ after, call.selects? db = none) →
    Walk t (answers.drop (before.length + 1)) c

theorem state_eq_idle_iff (c : Cursor) : c.state = .idle ↔ c.selection = none := by
  rw [state]
  cases c.selection with
  | none => simp
  | some s =>
    simp only
    split <;> simp

theorem fetchOne_eq_error_iff (c : Cursor) (e : Error) :
    c.fetchOne = .error e ↔ e = .noActiveQuery ∧ c.state = .idle := by
  rw [state_eq_idle_iff, fetchOne]
  cases c.selection with
  | none => simp [eq_comm]
  | some s =>
    simp only
    split <;> simp

theorem fetchAll_eq_error_iff (c : Cursor) (e : Error) :
    c.fetchAll = .error e ↔ e = .noActiveQuery ∧ c.state = .idle := by
  rw [state_eq_idle_iff, fetchAll]
  cases c.selection with
  | none => simp [eq_comm]
  | some s => simp

/-- A call answers that it selected exactly if it selects a table. -/
theorem answer_eq_selected_iff (c : Cursor) (call : Call) :
    (c.call call).2 = .selected ↔ ∃ t, call.selects? c.database = some t := by
  cases hs : call.selects? c.database with
  | some t => simp [call_of_selects hs]
  | none =>
    rcases call_of_selects_none hs with rfl | rfl | ⟨e, he⟩
    · rw [Cursor.call]
      cases c.fetchOne <;> simp [settleFetch]
    · rw [Cursor.call]
      cases c.fetchAll <;> simp [settleFetch]
    · simp [he]

theorem answers_at (c : Cursor) (before : List Call) (call : Call) (after : List Call) :
    (c.run (before ++ call :: after)).2[before.length]? =
      some ((c.run before).1.call call).2 := by
  rw [run_append, List.getElem?_append_right (Nat.le_of_eq (length_answers c before)),
    length_answers, Nat.sub_self, run_cons]
  rfl

theorem answers_drop (c : Cursor) (before : List Call) (call : Call) (after : List Call) :
    (c.run (before ++ call :: after)).2.drop (before.length + 1) =
      (((c.run before).1.call call).1.run after).2 := by
  rw [run_append, ← length_answers c before, List.drop_append, Nat.add_sub_cancel_left, run_cons,
    List.drop_eq_nil_of_le (Nat.le_succ _)]
  rfl

/-- The calls after a selection, up to the next one, walk over the rows of the table. -/
theorem walk_of_reading (h : db.WellFormed) (ht : t ∈ db.tables) (hc : Reading t [] c)
    {calls : List Call} (hs : ∀ call ∈ calls, call.selects? c.database = none) :
    Walk t (c.run calls).2 (c.run calls).1 := by
  have hend := hc.after_run hs
  rw [List.nil_append] at hend
  refine ⟨values_rowList h ht, fun r => columns_of_mem_rowList h ht, hend.rows, ?_,
    hend.state_eq_exhausted_iff, hend.state_eq_executed_iff⟩
  intro first rest hanswers hfirst
  -- the first answers are those of a shorter run, to which the same invariant applies
  have htake : (c.run (calls.take first.length)).2 = first := by
    rw [answers_take, hanswers, List.take_left]
  have hquiet : ∀ call ∈ calls.take first.length, call.selects? c.database = none :=
    fun call hcall => hs call (List.mem_of_mem_take hcall)
  have hshort := hc.after_run hquiet
  rw [List.nil_append, htake] at hshort
  have hall : returned first = t.rowList := hshort.complete hfirst
  refine ⟨hall, ?_⟩
  have hprefix := hend.rows.length_le
  rw [hanswers, returned_append, hall, List.length_append] at hprefix
  exact List.eq_nil_of_length_eq_zero (by omega)

/-- **The law of runs.**  Whatever calls are made on a new cursor over a well-formed database,
the position stays in range, and the rows returned between a selection and the next one are the
rows of the selected table from the first one on. -/
theorem runLaw_of_wellFormed (db : Database) (h : db.WellFormed) (calls : List Call) :
    RunLaw db calls ((ofDatabase db).run calls).2 ((ofDatabase db).run calls).1 := by
  refine ⟨?_, ?_, ?_, fetchOne_eq_error_iff _, fetchAll_eq_error_iff _, ?_⟩
  · refine inRange_run ?_ calls
    rintro s ⟨⟩
  · rintro before call after rfl
    rw [answers_at, Option.some_inj, answer_eq_selected_iff, database_run]
    rfl
  · rw [state_eq_idle_iff, selection_run_eq_none_iff]
    exact and_iff_right rfl
  · rintro before call after t rfl ht hafter
    have hbefore : ((ofDatabase db).run before).1.database = db := database_run _ _
    have hselected : call.selects? ((ofDatabase db).run before).1.database = some t := by
      rw [hbefore]
      exact ht
    have hquiet : ∀ call' ∈ after,
        call'.selects? (((ofDatabase db).run before).1.call call).1.database = none := by
      rw [database_call, hbefore]
      exact hafter
    rw [answers_drop, run_append, run_cons]
    exact walk_of_reading h (mem_tables_of_selects ht) (Reading.of_selects hselected) hquiet

/-- A database with one table of two rows. -/
def twoRows : Database := ⟨[⟨"T", ["a"], [[.integer 1], [.null]]⟩]⟩

theorem wellFormed_twoRows : twoRows.WellFormed :=
  ⟨by decide, by decide, by decide, by decide⟩

/-- The law at a run that fetches too early, selects, fails to select again and reads to the end. -/
theorem runLaw_twoRows :
    twoRows.WellFormed ∧
      RunLaw twoRows
        [.fetchOne, .selectTable "T", .fetchOne, .execute "SELECT a FROM T", .fetchAll, .fetchOne]
        [.failed .noActiveQuery, .selected, .row (some ⟨[⟨"a", .integer 1⟩]⟩),
          .failed (.unsupportedQuery "SELECT a FROM T" Query.Reason.projection.message),
          .rows [⟨[⟨"a", .null⟩]⟩], .row none]
        ⟨twoRows, some ⟨⟨"T", ["a"], [[.integer 1], [.null]]⟩, 2⟩⟩ :=
  ⟨wellFormed_twoRows, runLaw_of_wellFormed twoRows wellFormed_twoRows
    [.fetchOne, .selectTable "T", .fetchOne, .execute "SELECT a FROM T", .fetchAll, .fetchOne]⟩

end Cursor

end TableAccess
