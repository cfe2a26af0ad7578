import TableAccess.Proofs.FileTree.Write
import TableAccess.Proofs.Handler.Memory

/-!
# Sessions of handlers that send SQL

Stores and servers are asked again at every question, and whatever they answer then, a failure
does not end the session.  A record without a required parameter never reaches its server: the
handler does the same in every run, whatever server there is.
-/

namespace TableAccess

/-- An error of a question or an export that reached a session. -/
def Error.isData : Error → Bool
  | .schema _ | .query _ _ | .io _ _ => true
  | _ => false

theorem Sql.isData_toError (query : String) (failure : Failure) :
    (failure.toError query).isData = true := by
  cases failure with
  | client text => rfl
  | reported code message text =>
    rw [Failure.toError]
    split <;> rfl

/-- A result is a value, or an error of a question that reached a session. -/
def Answered {α : Type} (result : Except Error α) : Prop :=
  ∀ e, result = .error e → e.isData = true

theorem answered_ok {α : Type} (a : α) : Answered (.ok a : Except Error α) := nofun

theorem answered_error {α : Type} {e : Error} (h : e.isData = true) :
    Answered (.error e : Except Error α) := by
  intro e' he
  cases he
  exact h

theorem Answered.map {α β : Type} {result : Except Error α} (h : Answered result) (f : α → β) :
    Answered (result.map f) := by
  cases result with
  | ok a => exact answered_ok (f a)
  | error e => exact answered_error (h e rfl)

/-- Nothing is put at a place where there was nothing. -/
def FileTree.CreatesNone (before after : FileTree) : Prop :=
  ∀ place, before.node? place = none → after.node? place = none

theorem FileTree.createsNone_refl (t : FileTree) : t.CreatesNone t := fun _ => id

/-- What a path leads to is at its place. -/
theorem FileTree.node?_of_find {t : FileTree} {path : String} {place : Place} {node : Node}
    (h : t.find path = .ok (place, node)) : t.node? place = some node := by
  rw [find] at h
  cases hplace : t.place path with
  | error e => simp [hplace] at h
  | ok found =>
    simp only [hplace] at h
    split at h
    · cases h
    · cases h
      assumption
    · split at h
      · cases h
      · cases h
        assumption

/-! ### What can be asked of stores and servers -/

/-- A question is answered or fails in itself, and creates no file. -/
structure Reply.Proper {σ α : Type} (reply : Reply σ α) (files : FileTree) : Prop where
  answered : Answered reply.result
  createsNone : files.CreatesNone reply.files

/-- Every question to a session of the engine has a proper reply. -/
structure Engine.Answers {σ : Type} (engine : Engine σ) : Prop where
  tables : ∀ w s, (engine.tables w s).Proper w.files
  query : ∀ w s q parameters, (engine.query w s q parameters).Proper w.files
  selectAll : ∀ w s table, (engine.selectAll w s table).Proper w.files

namespace Sqlite

/-- A store that has changed is only written over a file. -/
theorem createsNone_writeBack (files : FileTree) (path : String) (before after : Store) :
    files.CreatesNone (writeBack files path before after) := by
  intro place hplace
  rw [writeBack]
  split
  · exact hplace
  · split
    case h_1 found content hfind =>
      have hne : place ≠ found := by
        intro heq
        rw [heq, FileTree.node?_of_find hfind] at hplace
        cases hplace
      rw [FileTree.node?_set_of_ne hne, hplace]
    case h_2 => exact hplace

theorem createsNone_run (files : FileTree) (path : String) (s : Session) (statement : String)
    (parameters : List Value) : files.CreatesNone (run files path s statement parameters).2.2 := by
  rw [run]
  split
  · exact files.createsNone_refl
  · exact createsNone_writeBack files path _ _

/-- Where there is no file, no store is opened. -/
theorem start_of_absent {path : String} {w : World} (habsent : w.files.isFile path = false) :
    start path w = ⟨.error (.connection ("SQLite database not found: " ++ path)), w.files,
      [.error "SQLite file not found" [("path", .text path)]], []⟩ := by
  rw [start, if_neg (Bool.eq_false_iff.mp habsent)]

theorem answers (path : String) : (engine path).Answers where
  tables w s := by
    show (askTables path w s).Proper w.files
    rw [askTables]
    split
    · exact ⟨answered_error (Sql.isData_toError _ _), w.files.createsNone_refl⟩
    · exact ⟨answered_ok _, w.files.createsNone_refl⟩
  query w s q parameters := by
    show (askQuery path w s q parameters).Proper w.files
    have hfiles := createsNone_run w.files path s q parameters
    rw [askQuery]
    split
    case h_1 hrun =>
      rw [hrun] at hfiles
      exact ⟨answered_error (Sql.isData_toError _ _), hfiles⟩
    case h_2 hrun =>
      rw [hrun] at hfiles
      exact ⟨answered_ok _, hfiles⟩
  selectAll w s table := by
    show (askAll path w s table).Proper w.files
    have hfiles := createsNone_run w.files path s (Sql.selectAllFrom '"' table) []
    rw [askAll]
    split
    case h_1 hrun =>
      rw [hrun] at hfiles
      exact ⟨answered_error (Sql.isData_toError _ _), hfiles⟩
    case h_2 hrun =>
      rw [hrun] at hfiles
      exact ⟨answered_ok _, hfiles⟩

end Sqlite

theorem Server.answers (d : Dialect) (record : ConnectionRecord) : (d.engine record).Answers where
  tables w link := by
    show (d.tables w link).Proper w.files
    rw [Dialect.tables]
    split
    · exact ⟨answered_error (Sql.isData_toError _ _), w.files.createsNone_refl⟩
    · exact ⟨answered_ok _, w.files.createsNone_refl⟩
  query w link q parameters := by
    show (d.query w link q parameters).Proper w.files
    rw [Dialect.query]
    split
    · exact ⟨answered_error (Sql.isData_toError _ _), w.files.createsNone_refl⟩
    · exact ⟨answered_ok _, w.files.createsNone_refl⟩
  selectAll w link table := by
    show (d.selectAll w link table).Proper w.files
    rw [Dialect.selectAll]
    split
    · exact ⟨answered_error (Sql.isData_toError _ _), w.files.createsNone_refl⟩
    · exact ⟨answered_ok _, w.files.createsNone_refl⟩

namespace Handler

variable {h : Handler} {w : World} {operation : Operation} {steps : List (World × Operation)}

theorem answered_ask {α : Type} (hh : h.isConnected = true) (w : World)
    (question : h.target.Session → Reply h.target.Session α)
    (hquestion : ∀ s, Answered (question s).result) : Answered (h.ask w question).result := by
  obtain ⟨target, session⟩ := h
  cases session with
  | none => cases hh
  | some s => exact hquestion s

theorem answered_exportResult (table path : String) (selected : Outcome Result)
    (hselected : Answered selected.result) :
    Answered (exportResult table path selected).result := by
  rw [exportResult]
  split
  case h_1 e he => exact answered_error (hselected e he)
  case h_2 result _ =>
    split
    case h_1 e files hsave =>
      obtain ⟨cause, rfl⟩ := Csv.save_eq_error (congrArg Prod.fst hsave)
      exact answered_error rfl
    case h_2 => exact answered_ok _

theorem answered_exportTable (hh : h.isConnected = true) (hanswers : h.target.engine.Answers)
    (w : World) (table path : String) : Answered (h.exportTable w table path).result := by
  have hlisted : Answered (h.tables w).result :=
    answered_ask hh w _ fun s => (hanswers.tables w s).answered
  have hstate : (h.tables w).handler.SameState h := sameState_ask h w (h.target.engine.tables w)
  rw [exportTable]
  simp only
  split
  case h_1 e he => exact answered_error (hlisted e he)
  case h_2 names _ =>
    split
    · apply answered_exportResult
      apply answered_ask (hstate.isConnected.trans hh)
      have hnext : (h.tables w).handler.target.engine.Answers := by
        rw [hstate.target]
        exact hanswers
      exact fun s => (hnext.selectAll _ s table).answered
    · exact answered_error rfl

/-- Whatever is asked of a connected handler is answered. -/
theorem answered_step (hh : h.isConnected = true) (hanswers : h.target.engine.Answers) (w : World)
    (hop : operation.isSwitch = false) : Answered (h.step w operation).result := by
  cases operation with
  | connect => cases hop
  | close => cases hop
  | tables => exact (answered_ask hh w _ fun s => (hanswers.tables w s).answered).map _
  | query q parameters => exact (answered_ask hh w _ fun s =>
      (hanswers.query w s q parameters).answered).map _
  | selectAll table => exact (answered_ask hh w _ fun s =>
      (hanswers.selectAll w s table).answered).map _
  | exportTable table path => exact (answered_exportTable hh hanswers w table path).map _

end Handler

/-! ### Records without a required parameter -/

namespace ConnectionRecord

/-- The fields that connecting needs, in the order in which they are looked for. -/
def required (r : ConnectionRecord) : List (String × Option String) :=
  [("host", r.host), ("user", r.user), ("password", r.password), ("database", r.database)]

/-- The first required field that is absent. -/
def firstMissing? (r : ConnectionRecord) : Option String :=
  (r.required.find? fun field => field.2.isNone).map Prod.fst

/-- A record is refused for the first field that is absent, and for nothing else. -/
theorem validate_cases (r : ConnectionRecord) :
    match r.firstMissing? with
    | some field => r.validate = .error (.missingParameter field)
    | none => ∃ login, r.validate = .ok login := by
  obtain ⟨kind, host, port, user, password, database⟩ := r
  cases host with
  | none => rfl
  | some host =>
    cases user with
    | none => rfl
    | some user =>
      cases password with
      | none => rfl
      | some password =>
        cases database with
        | none => rfl
        | some database => exact ⟨_, rfl⟩

end ConnectionRecord

namespace Handler

variable {d : Server.Dialect} {record : ConnectionRecord} {field : String}

theorem validate_of_missing (hmissing : record.firstMissing? = some field) :
    record.validate = .error (.missingParameter field) := by
  have hvalidate := record.validate_cases
  rw [hmissing] at hvalidate
  exact hvalidate

theorem exists_validate_of_complete (hcomplete : record.firstMissing? = none) :
    ∃ login, record.validate = .ok login := by
  have hvalidate := record.validate_cases
  rw [hcomplete] at hvalidate
  exact hvalidate

theorem start_of_missing (hmissing : record.firstMissing? = some field) (w : World) :
    (Target.server d record).engine.start w =
      ⟨.error (.missingParameter field), w.files,
        [.error ("invalid " ++ d.name ++ " connection record")
          [("error", .text (Error.missingParameter field).message)]], []⟩ := by
  show d.start record w = _
  rw [Server.Dialect.start, validate_of_missing hmissing]
  rfl

theorem step_connect_of_error {h : Handler} {w : World} {e : Error} {files : FileTree}
    {events : List Event} {contacts : List Server.Contact}
    (hstart : h.target.engine.start w = ⟨.error e, files, events, contacts⟩) :
    h.step w .connect =
      ⟨.error e, ofTarget h.target, files, h.finishEvents ++ events, h.farewell ++ contacts⟩ := by
  rw [step, connect, hstart]
  rfl

theorem result_connect_of_error {h : Handler} {t : Target} {w : World} {e : Error}
    (ht : h.target = t) (hstart : (t.engine.start w).result = .error e) :
    (h.step w .connect).result = .error e := by
  subst ht
  rcases step_connect h w with ⟨s, hs, -, -⟩ | ⟨e', he, hresult, -⟩
  · cases hs.symm.trans hstart
  · cases he.symm.trans hstart
    exact hresult

/-- The handler of a complete record connects exactly if the server lets it in. -/
theorem connect_of_complete (hcomplete : record.firstMissing? = none) {h : Handler}
    (ht : h.target = .server d record) (w : World) :
    (h.step w .connect).result = .ok .done ↔
      w.server.isDown = false ∧ w.server.loginFailure = none := by
  obtain ⟨target, session⟩ := h
  obtain rfl : target = .server d record := ht
  obtain ⟨login, hlogin⟩ := exists_validate_of_complete hcomplete
  have hstart : (∃ link, (d.start record w).result = .ok link) ↔
      w.server.isDown = false ∧ w.server.loginFailure = none := by
    rw [Server.Dialect.start, hlogin, Server.connect]
    cases w.server.isDown with
    | true => simp
    | false => cases w.server.loginFailure <;> simp
  rw [← hstart]
  rcases step_connect ⟨.server d record, session⟩ w with
    ⟨link, hlink, hresult, -⟩ | ⟨e, he, hresult, -⟩
  · exact iff_of_true hresult ⟨link, hlink⟩
  · rw [hresult]
    constructor
    · intro hdone
      cases hdone
    · intro hin
      obtain ⟨link, hlink⟩ := hin
      cases he.symm.trans hlink

/-- A new handler for a record without a required parameter stays as it is, and the server is told
nothing and has no part in what it does. -/
theorem step_of_missing (hmissing : record.firstMissing? = some field) {w v : World}
    (hfiles : w.files = v.files) (operation : Operation) :
    ((ofTarget (.server d record)).step w operation).handler = ofTarget (.server d record) ∧
      ((ofTarget (.server d record)).step w operation).contacts = [] ∧
      (ofTarget (.server d record)).step w operation =
        (ofTarget (.server d record)).step v operation := by
  cases hop : operation.isSwitch with
  | false =>
    rw [step_of_not_connected rfl hop, step_of_not_connected rfl hop, hfiles]
    exact ⟨rfl, rfl, rfl⟩
  | true =>
    rcases Operation.isSwitch_iff.mp hop with rfl | rfl
    · have hstart := start_of_missing (d := d) hmissing
      rw [step_connect_of_error (hstart w), step_connect_of_error (hstart v), hfiles]
      exact ⟨rfl, rfl, rfl⟩
    · rw [step_close, step_close, hfiles]
      exact ⟨rfl, rfl, rfl⟩

/-- Such a handler tells its server nothing in any run. -/
theorem contacts_of_missing (hmissing : record.firstMissing? = some field)
    (steps : List (World × Operation)) :
    ∀ outcome ∈ ((ofTarget (.server d record)).run steps).1, outcome.contacts = [] := by
  induction steps with
  | nil => exact List.forall_mem_nil _
  | cons step steps ih =>
    obtain ⟨w, operation⟩ := step
    obtain ⟨hhandler, hcontacts, -⟩ := step_of_missing (d := d) (w := w) hmissing rfl operation
    rw [run_cons, hhandler]
    exact List.forall_mem_cons.mpr ⟨hcontacts, ih⟩

/-- Giving up a session tells a server no login. -/
theorem not_mem_farewell {h : Handler} (ht : h.target = .server d record) (login : Login) :
    Server.Contact.login login ∉ h.farewell := by
  obtain ⟨target, session⟩ := h
  obtain rfl : target = .server d record := ht
  cases session with
  | none => exact List.not_mem_nil
  | some link =>
    intro hmem
    cases List.mem_singleton.mp hmem

/-- Connecting tells a server a login exactly if no required parameter is missing. -/
theorem exists_login_iff {h : Handler} (ht : h.target = .server d record) (w : World) :
    (∃ login, Server.Contact.login login ∈ (h.step w .connect).contacts) ↔
      record.firstMissing? = none := by
  have hcontacts := (surroundings_connect h w).2.2
  rw [ht] at hcontacts
  rw [hcontacts]
  simp only [List.mem_append, not_mem_farewell ht, false_or]
  show (∃ login, Server.Contact.login login ∈ (d.start record w).contacts) ↔ _
  rw [Server.Dialect.start]
  cases hmissing : record.firstMissing? with
  | some field =>
    rw [validate_of_missing hmissing]
    refine iff_of_false ?_ (Option.some_ne_none field)
    rintro ⟨login, hmem⟩
    cases hmem
  | none =>
    obtain ⟨login, hlogin⟩ := exists_validate_of_complete hmissing
    refine iff_of_true ?_ rfl
    rw [hlogin]
    cases Server.connect d w.server with
    | error e => exact ⟨_, List.mem_singleton.mpr rfl⟩
    | ok link => exact ⟨_, List.mem_singleton.mpr rfl⟩

/-- All that surrounds a step but the server. -/
def besideServer (step : World × Operation) : FileTree × Date × Operation :=
  (step.1.files, step.1.today, step.2)

/-- In runs that differ in nothing but the servers, the handler does the same. -/
def IgnoresServer (h : Handler) : Prop :=
  ∀ steps others, steps.map besideServer = others.map besideServer → h.run steps = h.run others

theorem ignoresServer_of_missing (hmissing : record.firstMissing? = some field) :
    (ofTarget (.server d record)).IgnoresServer := by
  intro steps others heq
  induction steps generalizing others with
  | nil =>
    cases others with
    | nil => rfl
    | cons other others => cases heq
  | cons step steps ih =>
    cases others with
    | nil => cases heq
    | cons other others =>
      obtain ⟨w, operation⟩ := step
      obtain ⟨v, operation'⟩ := other
      obtain ⟨hhead, hrest⟩ := List.cons.inj heq
      obtain ⟨hfiles, hlast⟩ := Prod.mk.inj hhead
      obtain rfl : operation = operation' := (Prod.mk.inj hlast).2
      obtain ⟨-, -, hstep⟩ := step_of_missing (d := d) hmissing hfiles operation
      obtain ⟨hhandler, -, -⟩ := step_of_missing (d := d) hmissing hfiles.symm operation
      rw [run_cons, run_cons, hstep, hhandler, ih others hrest]

/-- A server that lets everybody in and has nothing to tell. -/
def hospitable : Server := ⟨false, none, .ok [], []⟩

/-- A handler never reaches its server exactly if its record lacks a required parameter. -/
theorem ignoresServer_iff :
    (ofTarget (.server d record)).IgnoresServer ↔ ∃ field, record.firstMissing? = some field := by
  constructor
  · intro hignores
    cases hfirst : record.firstMissing? with
    | some field => exact ⟨field, rfl⟩
    | none =>
      -- connecting tells a server that lets the handler in from one that is down
      have hsame := hignores [(alone hospitable, .connect)] [(alone .absent, .connect)] rfl
      rw [run_cons, run_cons] at hsame
      have hstep := (List.cons.inj (congrArg Prod.fst hsame)).1
      have hin := (connect_of_complete (h := ofTarget (.server d record)) hfirst rfl
        (alone hospitable)).mpr ⟨rfl, rfl⟩
      rw [hstep] at hin
      cases ((connect_of_complete hfirst rfl (alone .absent)).mp hin).1
  · rintro ⟨field, hmissing⟩
    exact ignoresServer_of_missing hmissing

/-! ### The law of sessions -/

/-- The targets of handlers that send SQL. -/
inductive SqlTarget where
  | store (path : String)
  | server (dialect : Server.Dialect) (record : ConnectionRecord)
deriving DecidableEq

namespace SqlTarget

def target : SqlTarget → Target
  | .store path => .sqlite path
  | .server d record => .server d record

theorem answers (t : SqlTarget) : t.target.engine.Answers := by
  cases t with
  | store path => exact Sqlite.answers path
  | server d record => exact Server.answers d record

end SqlTarget

theorem createsNone_ask {α : Type} (h : Handler) (w : World)
    (question : h.target.Session → Reply h.target.Session α)
    (hquestion : ∀ s, (question s).Proper w.files) :
    w.files.CreatesNone (h.ask w question).files := by
  rw [ask]
  split
  · exact w.files.createsNone_refl
  · exact (hquestion _).createsNone

/-- Connecting and closing leave the files as they are, and questions create none. -/
theorem createsNone_step (h : Handler) (hanswers : h.target.engine.Answers) (w : World)
    (hop : ∀ table path, operation ≠ .exportTable table path) :
    w.files.CreatesNone (h.step w operation).files := by
  cases operation with
  | connect =>
    rw [files_connect]
    exact w.files.createsNone_refl
  | close => exact w.files.createsNone_refl
  | tables => exact createsNone_ask h w _ (hanswers.tables w)
  | query q parameters => exact createsNone_ask h w _ fun s => hanswers.query w s q parameters
  | selectAll table => exact createsNone_ask h w _ fun s => hanswers.selectAll w s table
  | exportTable table path => exact absurd rfl (hop table path)

/-- What callers rely on at the end of a run of a new handler. -/
structure SqlLaw (t : SqlTarget) (steps : List (World × Operation)) (last : Handler) : Prop where
  connected_iff : last.isConnected = true ↔ ∃ w, (ofTarget t.target).ConnectsLast steps w
  refused_iff : ∀ w operation, operation.isSwitch = false →
    ((last.step w operation).result = .error .notConnected ↔ last.isConnected = false)
  /-- A question or an export that fails on a session fails in itself, and the session stays. -/
  kept : ∀ w operation e, operation.isSwitch = false → last.isConnected = true →
    (last.step w operation).result = .error e →
      e.isData = true ∧ (last.step w operation).handler.isConnected = true
  /-- A record is refused for its first missing field, and its server is told nothing in any run
  and has no part in it. -/
  missing : ∀ d record field, t = .server d record → record.firstMissing? = some field →
    (∀ w, (last.step w .connect).result = .error (.missingParameter field)) ∧
      (∀ outcome ∈ ((ofTarget t.target).run steps).1, outcome.contacts = []) ∧
      (ofTarget t.target).IgnoresServer
  /-- A server is told a login exactly if no field is missing. -/
  login_iff : ∀ d record, t = .server d record → ∀ w,
    ((∃ login, Server.Contact.login login ∈ (last.step w .connect).contacts) ↔
      record.firstMissing? = none)
  /-- Of a complete record the server decides. -/
  complete : ∀ d record, t = .server d record → record.firstMissing? = none → ∀ w,
    ((last.step w .connect).result = .ok .done ↔
      w.server.isDown = false ∧ w.server.loginFailure = none)
  /-- Where there is no file, connecting to a store fails and leaves everything as it is. -/
  absent : ∀ path, t = .store path → ∀ w, w.files.isFile path = false →
    (last.step w .connect).result = .error (.connection ("SQLite database not found: " ++ path)) ∧
      (last.step w .connect).files = w.files
  /-- Only an export creates a file. -/
  createsNone : ∀ (w : World) (operation : Operation),
    (∀ table path, operation ≠ .exportTable table path) →
      w.files.CreatesNone (last.step w operation).files

/-- **Errors of statements are no loss of the session**, an incomplete record never reaches its
server, and a store is never created, in every run of every handler that sends SQL. -/
theorem sqlLaw_of_run (t : SqlTarget) (steps : List (World × Operation)) :
    SqlLaw t steps ((ofTarget t.target).run steps).2 := by
  have htarget : ((ofTarget t.target).run steps).2.target = t.target := target_run _ steps
  have hanswers : ((ofTarget t.target).run steps).2.target.engine.Answers := by
    rw [htarget]
    exact t.answers
  constructor
  case connected_iff => exact isConnected_run_iff rfl steps
  case refused_iff =>
    intro w operation hop
    cases hconnected : ((ofTarget t.target).run steps).2.isConnected with
    | false =>
      rw [step_of_not_connected hconnected hop]
      exact iff_of_true rfl rfl
    | true =>
      refine iff_of_false ?_ nofun
      intro hresult
      cases answered_step hconnected hanswers w hop _ hresult
  case kept =>
    intro w operation e hop hconnected hresult
    refine ⟨answered_step hconnected hanswers w hop e hresult, ?_⟩
    rw [(sameState_step _ w hop).isConnected, hconnected]
  case missing =>
    rintro d record field rfl hmissing
    refine ⟨?_, contacts_of_missing hmissing steps, ignoresServer_of_missing hmissing⟩
    intro w
    apply result_connect_of_error htarget
    exact congrArg Started.result (start_of_missing hmissing w)
  case login_iff =>
    rintro d record rfl w
    exact exists_login_iff htarget w
  case complete =>
    rintro d record rfl hcomplete w
    exact connect_of_complete hcomplete htarget w
  case absent =>
    rintro path rfl w habsent
    refine ⟨result_connect_of_error htarget ?_, files_connect _ w⟩
    exact congrArg Started.result (Sqlite.start_of_absent habsent)
  case createsNone =>
    intro w operation hop
    exact createsNone_step _ hanswers w hop

/-- The handler of a shop is connected. -/
def visit : List (World × Operation) := [(alone shopServer, .connect)]

/-- The record of a shop whose password is missing. -/
def lockedShop : ConnectionRecord := { shop "secret" with password := none }

/-- A statement that the server refuses does not end the session, and a server that is down is told
the login all the same.  Without the password the server is told nothing.  Without a file no store
is opened. -/
theorem sqlLaw_visit :
    (∃ last e, ((ofTarget (.server .mysql (shop "secret"))).run visit).2 = last ∧
      (last.step (alone shopServer) (.selectAll "Orders")).result = .error e ∧ e.isData = true ∧
      (last.step (alone shopServer) (.selectAll "Orders")).handler.isConnected = true ∧
      (last.step (alone shopServer) .connect).result = .ok .done ∧
      ∃ login, Server.Contact.login login ∈ (last.step (alone .absent) .connect).contacts) ∧
    (((ofTarget (.server .mysql lockedShop)).step (alone shopServer) .connect).result =
        .error (.missingParameter "password") ∧
      ∀ outcome ∈ ((ofTarget (.server .mysql lockedShop)).run visit).1, outcome.contacts = []) ∧
    ∃ o, (ofTarget (.sqlite "a.db")).step (alone .absent) .connect = o ∧
      o.result = .error (.connection "SQLite database not found: a.db") ∧
      FileTree.empty.CreatesNone o.files := by
  have hshop := sqlLaw_of_run (.server .mysql (shop "secret")) visit
  have hlocked := sqlLaw_of_run (.server .mysql lockedShop) visit
  have hstore := sqlLaw_of_run (.store "a.db") []
  have hconnected :
      ((ofTarget (.server .mysql (shop "secret"))).run visit).2.isConnected = true := rfl
  obtain ⟨hdata, hkept⟩ :=
    hshop.kept (alone shopServer) (.selectAll "Orders") _ rfl hconnected rfl
  obtain ⟨hfield, htold, -⟩ := hlocked.missing _ _ "password" rfl rfl
  refine ⟨⟨_, _, rfl, rfl, hdata, hkept, ?_, ?_⟩, ⟨hfield (alone shopServer), htold⟩, _, rfl, ?_⟩
  · exact (hshop.complete _ _ rfl rfl _).mpr ⟨rfl, rfl⟩
  · exact (hshop.login_iff _ _ rfl _).mpr rfl
  · refine ⟨(hstore.absent _ rfl _ rfl).1, hstore.createsNone (alone .absent) .connect ?_⟩
    intro table path h
    cases h

end Handler

end TableAccess
