import Mathlib.Data.List.Chain
import TableAccess.Proofs.Handler.Run

/-!
# Sessions in the log

A session that is started is told by an event of level info, and so is one that is finished.  In
the log of a handler these two take turns: a session is finished before the next one is started,
and none is finished twice.

What an engine tells is said once for every kind of engine (`Tells`).  A single operation then
takes the handler from connected or not to connected or not along the turns that it tells, and
`follow` carries this through a run.
-/

namespace TableAccess

/-- What an event tells about a session. -/
inductive Turn where
  | opened
  | closed
deriving DecidableEq

namespace Turn

/-- What the message of an event of level info tells. -/
def ofMessage? (message : String) : Option Turn :=
  let begins (word : String) : Bool := word.toList.isPrefixOf message.toList
  if begins "loaded " || begins "connected to " then some .opened
  else if begins "closed " then some .closed
  else none

/-- Whether a session is held after turns, if there was one before or not.  Nothing if they do not
take turns. -/
def follow : Bool → List Turn → Option Bool
  | held, [] => some held
  | false, .opened :: r => follow true r
  | true, .closed :: r => follow false r
  | false, .closed :: _ => none
  | true, .opened :: _ => none

end Turn

/-- What an event tells about a session, if anything. -/
def Event.turn? (e : Event) : Option Turn :=
  match e.level with
  | .info => Turn.ofMessage? e.message
  | _ => none

/-- What events tell about sessions, in order. -/
def turns (events : List Event) : List Turn := events.filterMap Event.turn?

/-! ### Turns of events -/

@[simp]
theorem turns_nil : turns [] = [] := rfl

theorem turns_append (first rest : List Event) :
    turns (first ++ rest) = turns first ++ turns rest := List.filterMap_append

@[simp]
theorem turns_error (message : String) (fields : List (String × FieldValue)) :
    turns [.error message fields] = [] := rfl

@[simp]
theorem turns_warn (message : String) (fields : List (String × FieldValue)) :
    turns [.warn message fields] = [] := rfl

@[simp]
theorem turns_debug (message : String) (fields : List (String × FieldValue)) :
    turns [.debug message fields] = [] := rfl

theorem turns_info (message : String) (fields : List (String × FieldValue)) :
    turns [.info message fields] = (Turn.ofMessage? message).toList := by
  show List.filterMap Event.turn? [Event.info message fields] = _
  have hturn : (Event.info message fields).turn? = Turn.ofMessage? message := rfl
  rw [List.filterMap_cons, hturn]
  cases Turn.ofMessage? message <;> rfl

theorem turns_exported (table path : String) (rows : Nat) :
    turns [Handler.exportedEvent table path rows] = [] := by
  rw [Handler.exportedEvent, turns_info]
  decide

/-! ### What engines tell -/

/-- The turns of an attempt to start a session. -/
def Turn.ofStart {σ : Type} : Except Error σ → List Turn
  | .ok _ => [.opened]
  | .error _ => []

/-- An engine tells each start and each finish of a session once, and nothing else about
sessions. -/
structure Engine.Tells {σ : Type} (engine : Engine σ) : Prop where
  started : ∀ w, turns (engine.start w).events = Turn.ofStart (engine.start w).result
  finished : ∀ s, turns (engine.finish s) = [.closed]
  tables : ∀ w s, turns (engine.tables w s).events = []
  query : ∀ w s q parameters, turns (engine.query w s q parameters).events = []
  selectAll : ∀ w s table, turns (engine.selectAll w s table).events = []

namespace MemoryFormat

/-- Files that are held in memory, if what they are called makes the two messages. -/
theorem tells {f : MemoryFormat} (hloaded : Turn.ofMessage? ("loaded " ++ f.noun) = some .opened)
    (hclosed : Turn.ofMessage? ("closed " ++ f.noun) = some .closed) (path : String) :
    (f.engine path).Tells where
  started w := by
    show turns (f.start path w).events = Turn.ofStart (f.start path w).result
    rw [start]
    cases f.load w.files path with
    | error e => rfl
    | ok db =>
      rw [turns_info, hloaded]
      rfl
  finished db := by
    show turns [.info ("closed " ++ f.noun) [("path", .text path)]] = [.closed]
    rw [turns_info, hclosed]
    rfl
  tables w db := by
    show turns (f.tables w db).events = []
    rw [tables]
    cases f.tellsTables <;> simp
  query w db q parameters := by
    show turns (f.query w db q parameters).events = []
    rw [query]
    cases db.execute q parameters <;> simp
  selectAll w db table := rfl

end MemoryFormat

namespace Sqlite

theorem tells (path : String) : (engine path).Tells where
  started w := by
    show turns (start path w).events = Turn.ofStart (start path w).result
    rw [start]
    split
    case isFalse => rfl
    case isTrue =>
      split
      · rfl
      · split
        · rfl
        · have hmessage : Turn.ofMessage? "connected to SQLite database" = some .opened := by decide
          rw [turns_info, hmessage]
          rfl
  finished s := by
    show turns [.info "closed SQLite database" [("path", .text path)]] = [.closed]
    rw [turns_info]
    decide
  tables w s := by
    show turns (askTables path w s).events = []
    rw [askTables]
    cases s.current w.files path <;> simp
  query w s q parameters := by
    show turns (askQuery path w s q parameters).events = []
    rw [askQuery]
    split <;> simp
  selectAll w s table := by
    show turns (askAll path w s table).events = []
    rw [askAll]
    split <;> rfl

end Sqlite

theorem Access.tells (path : String) : (Access.engine path).Tells where
  started w := by
    show turns (start path w).events = Turn.ofStart (start path w).result
    rw [start]
    split <;> rfl
  finished s := nomatch s
  tables w s := nomatch s
  query w s := nomatch s
  selectAll w s := nomatch s

namespace Server

/-- Cells that cannot be read leave events of level debug. -/
theorem turns_unreadableEvents (d : Dialect) (index : Nat) (columns : List (String × String))
    (cells : List Cell) : turns (unreadableEvents d index columns cells) = [] := by
  induction columns generalizing index cells with
  | nil => rfl
  | cons column columns ih =>
    cases cells with
    | nil => rfl
    | cons cell cells =>
      simp only [unreadableEvents]
      split
      · rw [← List.singleton_append, turns_append, ih]
        rfl
      · exact ih _ _

theorem turns_fetched (d : Dialect) (f : Fetched) : turns (f.events d) = [] := by
  cases f with
  | parameters values => rfl
  | rows columns rows =>
    show turns (rows.flatMap (unreadableEvents d 0 columns)) = []
    induction rows with
    | nil => rfl
    | cons row rows ih => rw [List.flatMap_cons, turns_append, turns_unreadableEvents, ih]; rfl

theorem opened_message (d : Dialect) :
    Turn.ofMessage? ("connected to " ++ d.name) = some .opened := by
  cases d <;> decide

theorem closed_message (d : Dialect) :
    Turn.ofMessage? ("closed " ++ d.name ++ " connection") = some .closed := by
  cases d <;> decide

theorem tells (d : Dialect) (record : ConnectionRecord) : (d.engine record).Tells where
  started w := by
    show turns (d.start record w).events = Turn.ofStart (d.start record w).result
    rw [Dialect.start]
    split
    · rfl
    · split
      · rfl
      · rw [turns_info, opened_message]
        rfl
  finished link := by
    show turns (d.finish record link) = [.closed]
    rw [Dialect.finish]
    split
    · rw [turns_info, closed_message]
      rfl
    · rw [← List.singleton_append, turns_append, turns_info, closed_message]
      rfl
  tables w link := by
    show turns (d.tables w link).events = []
    rw [Dialect.tables]
    cases askTables d w.server link <;> simp
  query w link q parameters := by
    show turns (d.query w link q parameters).events = []
    rw [Dialect.query]
    split
    · simp
    · simp [turns_append, turns_fetched]
  selectAll w link table := by
    show turns (d.selectAll w link table).events = []
    rw [Dialect.selectAll]
    split
    · rfl
    · exact turns_fetched d _

end Server

theorem Target.tells (t : Target) : t.engine.Tells := by
  cases t with
  | document path => exact MemoryFormat.tells (by decide) (by decide) path
  | dbase path => exact MemoryFormat.tells (by decide) (by decide) path
  | sqlite path => exact Sqlite.tells path
  | access path => exact Access.tells path
  | server d record => exact Server.tells d record

/-! ### Turns that follow one another -/

namespace Turn

theorem follow_append (held : Bool) (first rest : List Turn) :
    follow held (first ++ rest) = (follow held first).bind fun next => follow next rest := by
  induction first generalizing held with
  | nil => rfl
  | cons turn first ih => cases held <;> cases turn <;> first | exact ih _ | rfl

/-- The turn that leads to a session that is held, or to none. -/
def leadingTo : Bool → Turn
  | true => .opened
  | false => .closed

variable {held next : Bool} {ts : List Turn}

theorem follow_cons {turn : Turn} (h : follow held (turn :: ts) = some next) :
    turn = leadingTo (!held) ∧ follow (!held) ts = some next := by
  cases held <;> cases turn
  · exact ⟨rfl, h⟩
  · cases h
  · cases h
  · exact ⟨rfl, h⟩

theorem head_of_follow (h : follow held ts = some next) {turn : Turn}
    (hhead : ts.head? = some turn) : turn = leadingTo (!held) := by
  cases ts with
  | nil => cases hhead
  | cons first rest =>
    obtain rfl := Option.some.inj hhead
    exact (follow_cons h).1

theorem isChain_of_follow (h : follow held ts = some next) : ts.IsChain (· ≠ ·) := by
  induction ts generalizing held with
  | nil => exact .nil
  | cons turn rest ih =>
    obtain ⟨hturn, hrest⟩ := follow_cons h
    apply List.isChain_cons.mpr
    refine ⟨?_, ih hrest⟩
    intro second hsecond
    rw [hturn, head_of_follow hrest hsecond]
    cases held <;> decide

/-- The last turn leads to what is held after it. -/
theorem last_of_follow (h : follow held ts = some next) :
    ts.getLast?.getD (leadingTo held) = leadingTo next := by
  induction ts generalizing held with
  | nil =>
    obtain rfl := Option.some.inj h
    rfl
  | cons turn rest ih =>
    obtain ⟨hturn, hrest⟩ := follow_cons h
    rw [List.getLast?_cons, hturn]
    exact ih hrest

theorem leadingTo_eq_opened_iff : leadingTo held = .opened ↔ held = true := by
  cases held <;> decide

/-- A session is held after turns that began without one exactly if the last of them opened it. -/
theorem last_opened_iff_of_follow (h : follow false ts = some next) :
    ts.getLast? = some .opened ↔ next = true := by
  rw [← leadingTo_eq_opened_iff, ← last_of_follow h]
  cases ts.getLast? with
  | none => exact iff_of_false nofun nofun
  | some turn => exact Option.some_inj

/-- What was opened has been closed, except for the session that is held. -/
theorem count_of_follow (h : follow held ts = some next) :
    ts.count .opened + held.toNat = ts.count .closed + next.toNat := by
  induction ts generalizing held with
  | nil =>
    obtain rfl := Option.some.inj h
    rfl
  | cons turn rest ih =>
    obtain ⟨rfl, hrest⟩ := follow_cons h
    have := ih hrest
    cases held <;> simp [leadingTo] at this ⊢ <;> omega

end Turn

namespace Handler

variable {h : Handler} {w : World} {operation : Operation} {steps : List (World × Operation)}

/-! ### Single operations -/

theorem finishEvents_of_not_connected (hh : h.isConnected = false) : h.finishEvents = [] := by
  obtain ⟨target, session⟩ := h
  cases session with
  | none => rfl
  | some s => cases hh

theorem turns_finishEvents (h : Handler) :
    turns h.finishEvents = if h.isConnected then [.closed] else [] := by
  obtain ⟨target, session⟩ := h
  cases session with
  | none => rfl
  | some s => exact target.tells.finished s

theorem turns_connect (h : Handler) (w : World) :
    turns (h.step w .connect).events =
      (if h.isConnected then [.closed] else []) ++ Turn.ofStart (h.step w .connect).result := by
  rw [(surroundings_connect h w).2.1, turns_append, turns_finishEvents, h.target.tells.started]
  congr 1
  rcases step_connect h w with ⟨s, hstart, hresult, -⟩ | ⟨e, hstart, hresult, -⟩
  · rw [hstart, hresult]
    rfl
  · rw [hstart, hresult]
    rfl

theorem turns_ask {α : Type} (h : Handler) (w : World)
    (question : h.target.Session → Reply h.target.Session α)
    (hquestion : ∀ s, turns (question s).events = []) : turns (h.ask w question).events = [] := by
  rw [ask]
  split
  · rfl
  · exact hquestion _

theorem turns_exportResult (table path : String) (selected : Outcome Result)
    (hselected : turns selected.events = []) :
    turns (exportResult table path selected).events = [] := by
  rw [exportResult]
  split
  · exact hselected
  · split
    · exact hselected
    · simp only [turns_append, hselected, turns_exported, List.append_nil]

theorem turns_exportTable (h : Handler) (w : World) (table path : String) :
    turns (h.exportTable w table path).events = [] := by
  have hlisted : turns (h.tables w).events = [] := turns_ask h w _ (h.target.tells.tables w)
  rw [exportTable]
  simp only
  split
  · exact hlisted
  · split
    · rw [turns_append, hlisted]
      apply turns_exportResult
      exact turns_ask _ _ _ fun s => (h.tables w).handler.target.tells.selectAll _ s table
    · rw [turns_append, hlisted]
      rfl

/-- No question and no export tells anything about the session. -/
theorem turns_step (h : Handler) (w : World) (hop : operation.isSwitch = false) :
    turns (h.step w operation).events = [] := by
  cases operation with
  | connect => cases hop
  | close => cases hop
  | tables => exact turns_ask h w _ (h.target.tells.tables w)
  | query q parameters => exact turns_ask h w _ fun s => h.target.tells.query w s q parameters
  | selectAll table => exact turns_ask h w _ fun s => h.target.tells.selectAll w s table
  | exportTable table path => exact turns_exportTable h w table path

/-- An operation takes a handler to where the turns lead that it tells. -/
theorem follow_step (h : Handler) (w : World) (operation : Operation) :
    Turn.follow h.isConnected (turns (h.step w operation).events) =
      some (h.step w operation).handler.isConnected := by
  cases hop : operation.isSwitch with
  | false => rw [turns_step h w hop, (sameState_step h w hop).isConnected]; rfl
  | true =>
    rcases Operation.isSwitch_iff.mp hop with rfl | rfl
    · rw [turns_connect]
      rcases step_connect h w with ⟨s, -, hresult, hhandler⟩ | ⟨e, -, hresult, hhandler⟩
      · rw [hresult, hhandler]
        cases h.isConnected <;> rfl
      · rw [hresult, hhandler]
        cases h.isConnected <;> rfl
    · show Turn.follow h.isConnected (turns h.finishEvents) = some false
      rw [turns_finishEvents]
      cases h.isConnected <;> rfl

/-! ### Runs -/

/-- The log of a run. -/
def log (h : Handler) (steps : List (World × Operation)) : List Event :=
  (h.run steps).1.flatMap Outcome.events

theorem log_cons (h : Handler) (w : World) (operation : Operation)
    (steps : List (World × Operation)) :
    h.log ((w, operation) :: steps) =
      (h.step w operation).events ++ (h.step w operation).handler.log steps := by
  rw [log, run_cons, List.flatMap_cons]
  rfl

/-- A run takes a handler to where the turns in its log lead. -/
theorem follow_run (h : Handler) (steps : List (World × Operation)) :
    Turn.follow h.isConnected (turns (h.log steps)) = some (h.run steps).2.isConnected := by
  induction steps generalizing h with
  | nil => rfl
  | cons step steps ih =>
    obtain ⟨w, operation⟩ := step
    rw [log_cons, turns_append, Turn.follow_append, follow_step, Option.bind_some, ih, run_cons]

/-- Closing a handler without a session leaves no events, however often it is done. -/
theorem log_closes (hh : h.isConnected = false) (worlds : List World) :
    h.log (worlds.map fun w => (w, .close)) = [] := by
  induction worlds generalizing h with
  | nil => rfl
  | cons w worlds ih =>
    rw [List.map_cons, log_cons, step_close, ih rfl, finishEvents_of_not_connected hh]
    rfl

/-- The turns when the handler goes away after a run. -/
theorem follow_drop (h : Handler) (steps : List (World × Operation))
    (hdrop : (h.run steps).2.target.finishesOnDrop = true) :
    Turn.follow h.isConnected (turns (h.log steps ++ (h.run steps).2.dropEvents)) =
      some false := by
  rw [turns_append, Turn.follow_append, follow_run, Option.bind_some, dropEvents, if_pos hdrop,
    turns_finishEvents]
  cases (h.run steps).2.isConnected <;> rfl

/-! ### The law of turns -/

/-- What a log tells about the sessions of a handler that has come to a state. -/
structure TurnLaw (log : List Event) (last : Handler) : Prop where
  alternate : (turns log).IsChain (· ≠ ·)
  first_opened : ∀ turn, (turns log).head? = some turn → turn = .opened
  last_opened_iff : (turns log).getLast? = some .opened ↔ last.isConnected = true
  /-- The session that is held is finished before another one is started. -/
  reconnected : ∀ w, last.isConnected = true → (last.step w .connect).result = .ok .done →
    turns (last.step w .connect).events = [.closed, .opened]
  /-- A connect that fails finishes the session that is held and starts none. -/
  released : ∀ w e, last.isConnected = true → (last.step w .connect).result = .error e →
    turns (last.step w .connect).events = [.closed]
  closed : ∀ w, last.isConnected = true → turns (last.step w .close).events = [.closed]
  /-- After a close, any number of others leave no events. -/
  closed_once : ∀ (w : World) (worlds : List World),
    (last.step w .close).handler.log (worlds.map fun v => (v, .close)) = []
  /-- When the handler of a store or of a server goes away, the session that it holds is
  finished. -/
  dropped : (∃ path, last.target = .sqlite path) ∨ (∃ d record, last.target = .server d record) →
    (turns (log ++ last.dropEvents)).IsChain (· ≠ ·) ∧
      (turns (log ++ last.dropEvents)).getLast? ≠ some .opened ∧
      (turns (log ++ last.dropEvents)).count .opened =
        (turns (log ++ last.dropEvents)).count .closed

/-- **A session is finished exactly once**, and before the next one is started, in every run of
every new handler. -/
theorem turnLaw_of_run (t : Target) (steps : List (World × Operation)) :
    TurnLaw ((ofTarget t).log steps) ((ofTarget t).run steps).2 := by
  have hrun := follow_run (ofTarget t) steps
  constructor
  case alternate => exact Turn.isChain_of_follow hrun
  case first_opened =>
    intro turn hturn
    exact Turn.head_of_follow hrun hturn
  case last_opened_iff => exact Turn.last_opened_iff_of_follow hrun
  case reconnected =>
    intro w hconnected hresult
    rw [turns_connect, hconnected, hresult]
    rfl
  case released =>
    intro w e hconnected hresult
    rw [turns_connect, hconnected, hresult]
    rfl
  case closed =>
    intro w hconnected
    rw [step_close, turns_finishEvents, hconnected]
    rfl
  case closed_once =>
    intro w worlds
    exact log_closes rfl worlds
  case dropped =>
    intro htarget
    have hdrop : ((ofTarget t).run steps).2.target.finishesOnDrop = true := by
      rcases htarget with ⟨path, hpath⟩ | ⟨d, record, hserver⟩
      · rw [hpath]
        rfl
      · rw [hserver]
        rfl
    have hall := follow_drop (ofTarget t) steps hdrop
    refine ⟨Turn.isChain_of_follow hall, ?_, Turn.count_of_follow hall⟩
    intro hlast
    exact Bool.false_ne_true ((Turn.last_opened_iff_of_follow hall).mp hlast)

/-- The handler of a shop is connected, closed and connected again. -/
def visits : List (World × Operation) :=
  [(alone shopServer, .connect), (alone shopServer, .close), (alone shopServer, .connect)]

/-- Then it is connected, and whatever ends that is told once: another connect, one that fails, a
close, or the end of the handler. -/
theorem turnLaw_visits :
    ∃ last, ((ofTarget (.server .mysql (shop "secret"))).run visits).2 = last ∧
      turns ((ofTarget (.server .mysql (shop "secret"))).log visits) =
        [.opened, .closed, .opened] ∧
      turns (last.step (alone shopServer) .connect).events = [.closed, .opened] ∧
      turns (last.step (alone .absent) .connect).events = [.closed] ∧
      turns (last.step (alone .absent) .close).events = [.closed] ∧
      (turns ((ofTarget (.server .mysql (shop "secret"))).log visits ++ last.dropEvents)).count
        .closed = 2 := by
  have hlaw := turnLaw_of_run (.server .mysql (shop "secret")) visits
  have hconnected :
      ((ofTarget (.server .mysql (shop "secret"))).run visits).2.isConnected = true := rfl
  obtain ⟨-, -, hcount⟩ := hlaw.dropped (Or.inr ⟨_, _, rfl⟩)
  exact ⟨_, rfl, by decide, hlaw.reconnected _ hconnected rfl, hlaw.released _ _ hconnected rfl,
    hlaw.closed _ hconnected, hcount.symm.trans (by decide)⟩

end Handler

end TableAccess
