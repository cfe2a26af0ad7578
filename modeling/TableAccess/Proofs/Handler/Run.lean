import TableAccess.Handler.Run

/-!
# Which runs of a handler leave it connected

The surroundings of an operation in a run are not tied to what the operations before it left
there.  So what holds of every run holds whatever others do to the files in between, and also if
the handler itself exports over a file that it reads.

Only connecting and closing can change whether a handler is connected, and the last one of them
in a run decides.
-/

namespace TableAccess

namespace Handler

variable {h : Handler} {w : World} {operation : Operation} {steps : List (World × Operation)}

/-- The operation connects or closes. -/
def Operation.isSwitch : Operation → Bool
  | .connect => true
  | .close => true
  | .tables => false
  | .query _ _ => false
  | .selectAll _ => false
  | .exportTable _ _ => false

theorem Operation.isSwitch_iff :
    operation.isSwitch = true ↔ operation = .connect ∨ operation = .close := by
  cases operation <;> simp [isSwitch]

/-- Surroundings with nothing but a server. -/
def alone (server : Server) : World := ⟨.empty, server, ⟨2023, 4, 30, rfl⟩⟩

/-- The records of a shop. -/
def shop (password : String) : ConnectionRecord :=
  ⟨some "mysql", some "localhost", none, some "root", some password, some "shop"⟩

/-- A server with one table, that lets everybody in. -/
def shopServer : Server :=
  ⟨false, none, .ok [some "Stock"],
    [("SELECT * FROM \x60Stock\x60", .rows [("id", "INT")] [[.datum (.integer 7)]])]⟩

/-! ### Starting a session -/

theorem files_openFile (files : FileTree) (path : String) :
    (Sqlite.openFile false files path).2 = files := by
  rw [Sqlite.openFile]
  split
  · rfl
  · rfl

/-- No engine changes a file when it starts a session, whether or not it succeeds. -/
theorem files_start (t : Target) (w : World) : (t.engine.start w).files = w.files := by
  cases t with
  | document path =>
    show (MemoryFormat.document.start path w).files = w.files
    rw [MemoryFormat.start]
    split <;> rfl
  | dbase path =>
    show (MemoryFormat.dbase.start path w).files = w.files
    rw [MemoryFormat.start]
    split <;> rfl
  | sqlite path =>
    have hfiles := files_openFile w.files path
    show (Sqlite.start path w).files = w.files
    rw [Sqlite.start]
    split
    case isFalse => rfl
    case isTrue =>
      split
      case h_1 hopen => rw [← hfiles, hopen]
      case h_2 hopen => split <;> rw [← hfiles, hopen]
  | access path =>
    show (Access.start path w).files = w.files
    rw [Access.start]
    split <;> rfl
  | server d record =>
    show (d.start record w).files = w.files
    rw [Server.Dialect.start]
    split
    · rfl
    · split <;> rfl

/-! ### Single operations -/

/-- Connecting holds a new session and says so, or holds none and says why. -/
theorem step_connect (h : Handler) (w : World) :
    (∃ s, (h.target.engine.start w).result = .ok s ∧ (h.step w .connect).result = .ok .done ∧
      (h.step w .connect).handler = ⟨h.target, some s⟩) ∨
    ∃ e, (h.target.engine.start w).result = .error e ∧ (h.step w .connect).result = .error e ∧
      (h.step w .connect).handler = ofTarget h.target := by
  rw [step, connect]
  cases (h.target.engine.start w).result with
  | ok s => exact Or.inl ⟨s, rfl, rfl, rfl⟩
  | error e => exact Or.inr ⟨e, rfl, rfl, rfl⟩

/-- Connecting leaves the files as they are; the log and the server are told of the session that is
finished before they are told of the new one. -/
theorem surroundings_connect (h : Handler) (w : World) :
    (h.step w .connect).files = w.files ∧
      (h.step w .connect).events = h.finishEvents ++ (h.target.engine.start w).events ∧
      (h.step w .connect).contacts = h.farewell ++ (h.target.engine.start w).contacts := by
  rw [← files_start h.target w, step, connect]
  cases (h.target.engine.start w).result with
  | ok s => exact ⟨rfl, rfl, rfl⟩
  | error e => exact ⟨rfl, rfl, rfl⟩

theorem files_connect (h : Handler) (w : World) : (h.step w .connect).files = w.files :=
  (surroundings_connect h w).1

/-- A handler is connected by an operation that connects exactly if that succeeds. -/
theorem isConnected_connect_iff :
    (h.step w .connect).handler.isConnected = true ↔ (h.step w .connect).result = .ok .done := by
  rcases step_connect h w with ⟨s, -, hresult, hhandler⟩ | ⟨e, -, hresult, hhandler⟩
  · rw [hresult, hhandler]
    exact iff_of_true rfl rfl
  · rw [hresult, hhandler]
    exact iff_of_false Bool.false_ne_true nofun

theorem step_close (h : Handler) (w : World) :
    h.step w .close = ⟨.ok .done, ofTarget h.target, w.files, h.finishEvents, h.farewell⟩ := rfl

/-- Without a session every question and every export fails, and nothing happens. -/
theorem step_of_not_connected (hh : h.isConnected = false) (hop : operation.isSwitch = false) :
    h.step w operation = ⟨.error .notConnected, h, w.files, [], []⟩ := by
  obtain ⟨target, session⟩ := h
  cases session with
  | some s => cases hh
  | none =>
    cases operation with
    | connect => cases hop
    | close => cases hop
    | tables => rfl
    | query q parameters => rfl
    | selectAll table => rfl
    | exportTable table path => rfl

theorem handler_exportResult (table path : String) (selected : Outcome Result) :
    (exportResult table path selected).handler = selected.handler := by
  rw [exportResult]
  cases selected.result with
  | error e => rfl
  | ok result =>
    simp only
    split
    · rfl
    · rfl

/-- An export leaves the handler as the questions leave it that it asks. -/
theorem handler_exportTable (h : Handler) (w : World) (table path : String) :
    (h.exportTable w table path).handler = (h.tables w).handler ∨
      (h.exportTable w table path).handler =
        ((h.tables w).handler.selectAll { w with files := (h.tables w).files } table).handler := by
  rw [exportTable]
  simp only
  split
  · exact Or.inl rfl
  · split
    · exact Or.inr (handler_exportResult table path _)
    · exact Or.inl rfl

/-- A handler for the same target, connected if the other is. -/
structure SameState (h other : Handler) : Prop where
  target : h.target = other.target
  isConnected : h.isConnected = other.isConnected

theorem sameState_ask {α : Type} (h : Handler) (w : World)
    (question : h.target.Session → Reply h.target.Session α) :
    (h.ask w question).handler.SameState h := by
  obtain ⟨target, session⟩ := h
  cases session with
  | none => exact ⟨rfl, rfl⟩
  | some s => exact ⟨rfl, rfl⟩

theorem SameState.trans {first second third : Handler} (h : first.SameState second)
    (h' : second.SameState third) : first.SameState third :=
  ⟨h.target.trans h'.target, h.isConnected.trans h'.isConnected⟩

/-- No question and no export connects or disconnects a handler. -/
theorem sameState_step (h : Handler) (w : World) (hop : operation.isSwitch = false) :
    (h.step w operation).handler.SameState h := by
  cases operation with
  | connect => cases hop
  | close => cases hop
  | tables => exact sameState_ask h w (h.target.engine.tables w)
  | query q parameters =>
    exact sameState_ask h w fun s => h.target.engine.query w s q parameters
  | selectAll table => exact sameState_ask h w fun s => h.target.engine.selectAll w s table
  | exportTable table path =>
    have htables : (h.tables w).handler.SameState h := sameState_ask h w _
    show (h.exportTable w table path).handler.SameState h
    rcases handler_exportTable h w table path with heq | heq
    · rw [heq]
      exact htables
    · rw [heq]
      exact (sameState_ask _ _ _).trans htables

theorem target_step (h : Handler) (w : World) (operation : Operation) :
    (h.step w operation).handler.target = h.target := by
  cases hop : operation.isSwitch with
  | false => exact (sameState_step h w hop).target
  | true =>
    rcases Operation.isSwitch_iff.mp hop with rfl | rfl
    · rcases step_connect h w with ⟨s, -, -, hhandler⟩ | ⟨e, -, -, hhandler⟩
      · rw [hhandler]
      · rw [hhandler]
        rfl
    · rfl

/-! ### Runs -/

theorem run_cons (h : Handler) (w : World) (operation : Operation)
    (steps : List (World × Operation)) :
    h.run ((w, operation) :: steps) =
      (h.step w operation :: ((h.step w operation).handler.run steps).1,
        ((h.step w operation).handler.run steps).2) := rfl

theorem run_append (h : Handler) (first rest : List (World × Operation)) :
    h.run (first ++ rest) =
      ((h.run first).1 ++ ((h.run first).2.run rest).1, ((h.run first).2.run rest).2) := by
  induction first generalizing h with
  | nil => rfl
  | cons step first ih => rw [List.cons_append, run_cons, ih, run_cons, List.cons_append]

theorem length_outcomes (h : Handler) (steps : List (World × Operation)) :
    (h.run steps).1.length = steps.length := by
  induction steps generalizing h with
  | nil => rfl
  | cons step steps ih => rw [run_cons, List.length_cons, ih, List.length_cons]

theorem outcomes_at (h : Handler) (before : List (World × Operation)) (w : World)
    (operation : Operation) (after : List (World × Operation)) :
    (h.run (before ++ (w, operation) :: after)).1[before.length]? =
      some ((h.run before).2.step w operation) := by
  rw [run_append, List.getElem?_append_right (Nat.le_of_eq (length_outcomes h before)),
    length_outcomes, Nat.sub_self, run_cons]
  rfl

theorem target_run (h : Handler) (steps : List (World × Operation)) :
    (h.run steps).2.target = h.target := by
  induction steps generalizing h with
  | nil => rfl
  | cons step steps ih => rw [run_cons, ih, target_step]

/-- None of the steps connects or closes. -/
def Quiet (steps : List (World × Operation)) : Prop := ∀ step ∈ steps, step.2.isSwitch = false

theorem isConnected_run_of_quiet (h : Handler) (hsteps : Quiet steps) :
    (h.run steps).2.isConnected = h.isConnected := by
  induction steps generalizing h with
  | nil => rfl
  | cons step steps ih =>
    obtain ⟨hstep, hrest⟩ := List.forall_mem_cons.mp hsteps
    rw [run_cons, ih _ hrest, (sameState_step h step.1 hstep).isConnected]

/-- A run is quiet, or one of its steps is the last that connects or closes. -/
theorem quiet_or_exists_last_switch (steps : List (World × Operation)) :
    Quiet steps ∨ ∃ before w operation after, steps = before ++ (w, operation) :: after ∧
      operation.isSwitch = true ∧ Quiet after := by
  induction steps with
  | nil => exact Or.inl (List.forall_mem_nil _)
  | cons step steps ih =>
    obtain ⟨w, operation⟩ := step
    rcases ih with hquiet | ⟨before, v, last, after, rfl, hlast, hafter⟩
    · cases hop : operation.isSwitch with
      | false => exact Or.inl (List.forall_mem_cons.mpr ⟨hop, hquiet⟩)
      | true => exact Or.inr ⟨[], w, operation, steps, rfl, hop, hquiet⟩
    · exact Or.inr ⟨(w, operation) :: before, v, last, after, rfl, hlast, hafter⟩

/-- The last step of a run that connects or closes is a connect in these surroundings, and its
outcome is a success. -/
def ConnectsLast (h : Handler) (steps : List (World × Operation)) (w : World) : Prop :=
  ∃ before after outcome, steps = before ++ (w, .connect) :: after ∧ Quiet after ∧
    (h.run steps).1[before.length]? = some outcome ∧ outcome.result = .ok .done

/-- The handler at the end of a run whose last connect or close succeeded in connecting. -/
theorem exists_run_of_connectsLast (hlast : h.ConnectsLast steps w) :
    ∃ before after, Quiet after ∧ ((h.run before).2.step w .connect).result = .ok .done ∧
      (h.run steps).2 = (((h.run before).2.step w .connect).handler.run after).2 := by
  obtain ⟨before, after, outcome, rfl, hafter, hat, hresult⟩ := hlast
  rw [outcomes_at] at hat
  obtain rfl := Option.some.inj hat
  exact ⟨before, after, hafter, hresult, by rw [run_append, run_cons]⟩

/-- A handler that was not connected is so after a run exactly if the last connect or close of
the run is a connect that succeeds. -/
theorem isConnected_run_iff (hh : h.isConnected = false) (steps : List (World × Operation)) :
    (h.run steps).2.isConnected = true ↔ ∃ w, h.ConnectsLast steps w := by
  constructor
  · intro hconnected
    rcases quiet_or_exists_last_switch steps with
      hquiet | ⟨before, w, operation, after, rfl, hop, hafter⟩
    · rw [isConnected_run_of_quiet h hquiet, hh] at hconnected
      cases hconnected
    · rw [run_append, run_cons] at hconnected
      simp only [isConnected_run_of_quiet _ hafter] at hconnected
      rcases Operation.isSwitch_iff.mp hop with rfl | rfl
      · exact ⟨w, before, after, _, rfl, hafter, outcomes_at h before w .connect after,
          isConnected_connect_iff.mp hconnected⟩
      · cases hconnected
  · rintro ⟨w, hlast⟩
    obtain ⟨before, after, hafter, hresult, hrun⟩ := exists_run_of_connectsLast hlast
    rw [hrun, isConnected_run_of_quiet _ hafter]
    exact isConnected_connect_iff.mpr hresult

end Handler

end TableAccess
