import TableAccess.Proofs.Handler.Memory

/-!
# Sessions of handlers that hold their database in memory

A run is any sequence of operations, each in any surroundings.  What a handler answers after it is
settled by the last step that connected: by the bytes that the file had in the surroundings of
that step, and not by any file before or since.
-/

namespace TableAccess

namespace Handler

variable {kind : MemoryKind} {path : String} {db : Database} {w : World}
  {steps : List (World × Operation)}

/-! ### What is held at the end of a run -/

theorem isConnected_handler (kind : MemoryKind) (path : String) (held : Option Database) :
    (kind.handler path held).isConnected = held.isSome := by
  cases kind <;> rfl

/-- A handler of a file is one of the same file after every run. -/
theorem exists_held_run (kind : MemoryKind) (path : String) (steps : List (World × Operation)) :
    ∃ held, ((ofTarget (kind.target path)).run steps).2 = kind.handler path held :=
  exists_held_of_target (target_run _ steps)

/-- Whatever is asked of a handler or exported from it, it stays as it is. -/
theorem handler_step (kind : MemoryKind) (path : String) (held : Option Database) (w : World)
    {operation : Operation} (hop : operation.isSwitch = false) :
    ((kind.handler path held).step w operation).handler = kind.handler path held := by
  cases held with
  | none => rw [step_of_not_connected (isConnected_handler kind path none) hop]
  | some db => exact (step_of_held kind path db w hop).1

theorem run_of_quiet (kind : MemoryKind) (path : String) (held : Option Database)
    (hsteps : Quiet steps) : ((kind.handler path held).run steps).2 = kind.handler path held := by
  induction steps with
  | nil => rfl
  | cons step steps ih =>
    obtain ⟨hstep, hrest⟩ := List.forall_mem_cons.mp hsteps
    rw [run_cons, handler_step kind path held step.1 hstep, ih hrest]

/-- A run whose last connect or close succeeded in connecting ends with the database in the bytes
that the file had then. -/
theorem exists_held_of_connectsLast (hlast : (ofTarget (kind.target path)).ConnectsLast steps w) :
    ∃ content db, w.files.read path = .ok content ∧ kind.parse content.toBytes path = .ok db ∧
      ((ofTarget (kind.target path)).run steps).2 = kind.handler path (some db) := by
  obtain ⟨before, after, hafter, hresult, hrun⟩ := exists_run_of_connectsLast hlast
  obtain ⟨held, hheld⟩ := exists_held_run kind path before
  rw [hheld] at hresult hrun
  rcases connect_cases kind path held w with ⟨db, hload, -, hhandler⟩ | ⟨e, -, herror, -⟩
  · obtain ⟨content, hread, hparse⟩ := load_eq_ok_iff.mp hload
    refine ⟨content, db, hread, hparse, ?_⟩
    rw [hrun, hhandler, run_of_quiet kind path (some db) hafter]
  · rw [herror] at hresult
    cases hresult

/-! ### The law of sessions -/

/-- What callers rely on at the end of a run of a new handler. -/
structure SessionLaw (kind : MemoryKind) (path : String) (steps : List (World × Operation))
    (last : Handler) : Prop where
  connected_iff : last.isConnected = true ↔
    ∃ w, (ofTarget (kind.target path)).ConnectsLast steps w
  /-- A connect that fails drops what was held before. -/
  dropped : ∀ w e, (last.step w .connect).result = .error e →
    (last.step w .connect).handler = ofTarget (kind.target path)
  refused_iff : ∀ w operation, operation.isSwitch = false →
    ((last.step w operation).result = .error .notConnected ↔ last.isConnected = false)
  kept : ∀ w operation, operation.isSwitch = false → (last.step w operation).handler = last
  /-- Answers in any surroundings are those of the database in the bytes that the file had at the
  last connect. -/
  snapshot : ∀ w, (ofTarget (kind.target path)).ConnectsLast steps w →
    ∃ content db, w.files.read path = .ok content ∧ kind.parse content.toBytes path = .ok db ∧
      ∀ v (question : Question), (last.step v question.operation).result = question.answer db
  /-- After a close, another one does nothing. -/
  closed : ∀ w v, (last.step w .close).result = .ok .done ∧
    (last.step w .close).handler = ofTarget (kind.target path) ∧
    (last.step w .close).handler.step v .close =
      ⟨.ok .done, (last.step w .close).handler, v.files, [], []⟩

/-- **A handler holds what its last successful connect read**, whatever happened to its file since
and whatever was asked, exported or refused in between. -/
theorem sessionLaw_of_run (kind : MemoryKind) (path : String) (steps : List (World × Operation)) :
    SessionLaw kind path steps ((ofTarget (kind.target path)).run steps).2 := by
  obtain ⟨held, hheld⟩ := exists_held_run kind path steps
  refine ⟨isConnected_run_iff rfl steps, ?_, ?_, ?_, ?_, ?_⟩
  · intro w e herror
    rw [hheld] at herror ⊢
    rcases connect_cases kind path held w with ⟨db, -, hdone, -⟩ | ⟨e', -, -, hhandler⟩
    · rw [hdone] at herror
      cases herror
    · rw [hhandler, ofTarget_eq]
  · intro w operation hop
    rw [hheld, isConnected_handler]
    cases held with
    | none =>
      rw [step_of_not_connected (isConnected_handler kind path none) hop]
      exact iff_of_true rfl rfl
    | some db => exact iff_of_false (step_of_held kind path db w hop).2 nofun
  · intro w operation hop
    rw [hheld]
    exact handler_step kind path held w hop
  · intro w hlast
    obtain ⟨content, db, hread, hparse, hrun⟩ := exists_held_of_connectsLast hlast
    refine ⟨content, db, hread, hparse, ?_⟩
    intro v question
    obtain ⟨events, hstep⟩ := exists_step_of_question kind path db v question
    rw [hrun, hstep]
  · intro w v
    have htarget := target_run (ofTarget (kind.target path)) steps
    rw [step_close, htarget]
    exact ⟨rfl, rfl, rfl⟩

/-- A document with one table. -/
def small : List Char :=
  "\x7b\"T\":\x7b\"columns\":[\"a\"],\"rows\":[[\"b\"]]\x7d\x7d".toList

def smallDatabase : Database := ⟨[⟨"T", ["a"], [[.text "b"]]⟩]⟩

/-- Surroundings with a single file. -/
def holding (text : List Char) : World :=
  ⟨⟨[(["work".toList], .directory),
    (["work".toList, "m.mvo".toList], .file (.bytes (Text.encode text)))], ["work".toList]⟩,
    .absent, ⟨2000, 2, 29, rfl⟩⟩

/-- The document is opened, and its table is exported over it. -/
def exportOver : List (World × Operation) :=
  [(holding small, .connect), (holding small, .exportTable "T" "m.mvo")]

theorem parse_small :
    MemoryKind.document.parse (Text.encode small) "m.mvo" = .ok smallDatabase := by
  rw [MemoryKind.parse, Document.parse, Document.ofBytes, Json.ofBytes?, Text.decode_encode]
  rfl

theorem connect_small :
    ((ofTarget (MemoryKind.document.target "m.mvo")).step (holding small) .connect).result =
        .ok .done ∧
      ((ofTarget (MemoryKind.document.target "m.mvo")).step (holding small) .connect).handler =
        MemoryKind.document.handler "m.mvo" (some smallDatabase) := by
  have hload : MemoryKind.document.format.load (holding small).files "m.mvo" =
      .ok smallDatabase :=
    load_eq_ok_iff.mpr ⟨.bytes (Text.encode small), rfl, parse_small⟩
  rcases connect_cases .document "m.mvo" none (holding small) with
    ⟨db, hdb, hdone, hhandler⟩ | ⟨e, herror, -, -⟩
  · obtain rfl : smallDatabase = db := Except.ok.inj (hload.symm.trans hdb)
    exact ⟨hdone, hhandler⟩
  · rw [hload] at herror
    cases herror

theorem connectsLast_exportOver :
    (ofTarget (MemoryKind.document.target "m.mvo")).ConnectsLast exportOver (holding small) := by
  refine ⟨[], [(holding small, .exportTable "T" "m.mvo")], _, rfl, ?_, rfl, connect_small.1⟩
  exact List.forall_mem_singleton.mpr rfl

/-- The export replaces the document, and the table that is selected then is still the one of the
document. -/
theorem sessionLaw_exportOver :
    (exported smallDatabase (holding small).files "T" "m.mvo").2 =
        (holding "a\nb\n".toList).files ∧
      (((ofTarget (MemoryKind.document.target "m.mvo")).run exportOver).2.step
        (holding "a\nb\n".toList) (.selectAll "T")).result =
          .ok (.result ⟨["a"], [⟨[⟨"a", .text "b"⟩]⟩]⟩) := by
  refine ⟨rfl, ?_⟩
  obtain ⟨content, db, hread, hparse, hanswer⟩ :=
    (sessionLaw_of_run .document "m.mvo" exportOver).snapshot _ connectsLast_exportOver
  obtain rfl : Content.bytes (Text.encode small) = content := Except.ok.inj hread
  obtain rfl := Except.ok.inj (parse_small.symm.trans hparse)
  exact hanswer _ (.selectAll "T")

end Handler

end TableAccess
