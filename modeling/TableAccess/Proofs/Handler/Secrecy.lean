import Mathlib.Data.List.Forall2
import TableAccess.Handler.Shown
import TableAccess.Proofs.Handler.Run

/-!
# Passwords stay secret

Two records differ in nothing but the text of a password, and two runs of the same operations meet
servers that give the same answers.  Then nothing that callers or the log can see tells the two
runs apart, and what the servers are told differs in the passwords of the logins alone.  The
handlers themselves are not equal, for each holds its own record; what carries through the runs is
that they hold equal sessions.
-/

namespace TableAccess

/-- Records that may differ in the text of a password, but not in whether there is one. -/
structure ConnectionRecord.SameButPassword (first second : ConnectionRecord) : Prop where
  kind : first.kind = second.kind
  host : first.host = second.host
  port : first.port = second.port
  user : first.user = second.user
  database : first.database = second.database
  password : first.password.isSome = second.password.isSome

/-- Servers that give the same answers, whatever they are asked. -/
structure Server.SameAnswers (first second : Server) : Prop where
  isDown : first.isDown = second.isDown
  loginFailure : first.loginFailure = second.loginFailure
  tables : first.tables = second.tables
  answer : ∀ statement, first.answer statement = second.answer statement

/-- Surroundings with the same files, and with servers that give the same answers. -/
structure World.SameAnswers (first second : World) : Prop where
  files : first.files = second.files
  server : first.server.SameAnswers second.server

/-- Parameters with the text of the password left out. -/
def Login.withoutPassword (login : Login) : Login := { login with password := "" }

/-- What a server is told, with the text of a password left out. -/
def Server.Contact.withoutPassword : Server.Contact → Server.Contact
  | .login parameters => .login parameters.withoutPassword
  | contact => contact

variable {first second : ConnectionRecord} {w v : World}

/-! ### Texts of a record -/

namespace ConnectionRecord

theorem label_eq (h : first.SameButPassword second) : first.label = second.label := by
  simp only [label, h.user, h.host, h.port, h.database]

theorem jsonText_eq (h : first.SameButPassword second) : first.jsonText = second.jsonText := by
  simp only [jsonText, toJson, h.kind, h.host, h.port, h.user, h.database]

/-- Both records are refused for the same reason, or both give the same parameters. -/
theorem validate_eq (h : first.SameButPassword second) :
    first.validate.map Login.withoutPassword = second.validate.map Login.withoutPassword := by
  obtain ⟨kind, host, port, user, password, database⟩ := first
  obtain ⟨kind', host', port', user', password', database'⟩ := second
  obtain ⟨rfl, rfl, rfl, rfl, rfl, hpassword⟩ := h
  cases host with
  | none => rfl
  | some host =>
    cases user with
    | none => rfl
    | some user =>
      cases password with
      | none =>
        cases password' with
        | none => rfl
        | some password' => cases hpassword
      | some password =>
        cases password' with
        | none => cases hpassword
        | some password' => cases database <;> rfl

end ConnectionRecord

/-! ### Sessions -/

namespace Server

variable {d : Dialect}

theorem connect_eq (h : w.SameAnswers v) : connect d w.server = connect d v.server := by
  rw [connect, connect, h.server.isDown, h.server.loginFailure]

theorem ask_eq (h : w.SameAnswers v) (link : Link) (statement : String) (parameters : List Value) :
    ask d w.server link statement parameters = ask d v.server link statement parameters := by
  rw [ask, ask, h.server.answer]

theorem loginContact_eq {login login' : Login}
    (h : login.withoutPassword = login'.withoutPassword) :
    (d.loginContact login).withoutPassword = (d.loginContact login').withoutPassword := by
  obtain ⟨host, port, user, password, database⟩ := login
  obtain ⟨host', port', user', password', database'⟩ := login'
  simp only [Login.withoutPassword, Login.mk.injEq] at h
  obtain ⟨rfl, rfl, rfl, -, rfl⟩ := h
  rfl

/-- Sessions that are started alike, but for the passwords that the servers are told. -/
structure SameStart (s s' : Started Link) : Prop where
  result : s.result = s'.result
  files : s.files = s'.files
  events : s.events = s'.events
  contacts : s.contacts.map Contact.withoutPassword = s'.contacts.map Contact.withoutPassword

theorem sameStart_start (hrecord : first.SameButPassword second) (h : w.SameAnswers v) :
    SameStart (d.start first w) (d.start second v) := by
  have hvalidate := ConnectionRecord.validate_eq hrecord
  rw [Dialect.start, Dialect.start, connect_eq h, ConnectionRecord.label_eq hrecord, h.files]
  cases hfirst : first.validate with
  | error e =>
    cases hsecond : second.validate with
    | error e' =>
      rw [hfirst, hsecond] at hvalidate
      cases hvalidate
      exact ⟨rfl, rfl, rfl, rfl⟩
    | ok login =>
      rw [hfirst, hsecond] at hvalidate
      cases hvalidate
  | ok login =>
    cases hsecond : second.validate with
    | error e' =>
      rw [hfirst, hsecond] at hvalidate
      cases hvalidate
    | ok login' =>
      rw [hfirst, hsecond] at hvalidate
      have hcontact : (d.loginContact login).withoutPassword =
          (d.loginContact login').withoutPassword := loginContact_eq (Except.ok.inj hvalidate)
      cases connect d v.server with
      | error e => exact ⟨rfl, rfl, rfl, congrArg ([·]) hcontact⟩
      | ok link => exact ⟨rfl, rfl, rfl, congrArg ([·]) hcontact⟩

theorem finish_eq (hrecord : first.SameButPassword second) (link : Link) :
    d.finish first link = d.finish second link := by
  rw [Dialect.finish, Dialect.finish, ConnectionRecord.label_eq hrecord]

theorem tables_eq (h : w.SameAnswers v) (link : Link) : d.tables w link = d.tables v link := by
  rw [Dialect.tables, Dialect.tables, askTables, askTables, h.server.tables, h.files]

theorem query_eq (h : w.SameAnswers v) (link : Link) (q : String) (parameters : List Value) :
    d.query w link q parameters = d.query v link q parameters := by
  rw [Dialect.query, Dialect.query, ask_eq h, h.files]

theorem selectAll_eq (h : w.SameAnswers v) (link : Link) (table : String) :
    d.selectAll w link table = d.selectAll v link table := by
  simp only [Dialect.selectAll, ask_eq h, h.files]

end Server

namespace Handler

variable {d : Server.Dialect} {session : Option Server.Link}

/-- The handler of a server, with its session if there is one. -/
def ofServer (d : Server.Dialect) (record : ConnectionRecord) (session : Option Server.Link) :
    Handler :=
  ⟨.server d record, session⟩

/-- All that can be seen of a handler. -/
structure View where
  label : String
  shown : String
  isConnected : Bool
  /-- The events when it goes away. -/
  dropEvents : List Event
deriving DecidableEq

theorem finishEvents_eq (hrecord : first.SameButPassword second) (session : Option Server.Link) :
    (ofServer d first session).finishEvents = (ofServer d second session).finishEvents := by
  cases session with
  | none => rfl
  | some link => exact Server.finish_eq hrecord link

def view (h : Handler) : View := ⟨h.target.label, h.shown, h.isConnected, h.dropEvents⟩

theorem view_eq (hrecord : first.SameButPassword second) (session : Option Server.Link) :
    (ofServer d first session).view = (ofServer d second session).view := by
  have hlabel := ConnectionRecord.label_eq hrecord
  have hshown : (ofServer d first session).shown = (ofServer d second session).shown := by
    cases d with
    | mysql =>
      show shownConnection _ _ first.label _ session.isSome = _
      rw [hlabel]
      rfl
    | postgres =>
      show shownConnection _ _ first.label _ session.isSome = _
      rw [hlabel]
      rfl
  have hdrop : (ofServer d first session).dropEvents = (ofServer d second session).dropEvents :=
    finishEvents_eq hrecord session
  show View.mk first.label _ session.isSome _ = View.mk second.label _ session.isSome _
  rw [hlabel, hshown, hdrop]

/-! ### Single operations -/

/-- Outcomes of which each has a handler for its own record, with equal sessions, and which are
equal otherwise, but for the passwords that the servers are told. -/
structure SameOutcome {α : Type} (d : Server.Dialect) (first second : ConnectionRecord)
    (o o' : Outcome α) : Prop where
  result : o.result = o'.result
  files : o.files = o'.files
  events : o.events = o'.events
  contacts : o.contacts.map Server.Contact.withoutPassword =
    o'.contacts.map Server.Contact.withoutPassword
  handlers : ∃ session, o.handler = ofServer d first session ∧
    o'.handler = ofServer d second session

theorem SameOutcome.map {α β : Type} {o o' : Outcome α} (h : SameOutcome d first second o o')
    (f : α → β) : SameOutcome d first second (o.map f) (o'.map f) :=
  ⟨congrArg (Except.map f) h.result, h.files, h.events, h.contacts, h.handlers⟩

theorem farewell_eq (session : Option Server.Link) :
    (ofServer d first session).farewell = (ofServer d second session).farewell := by
  cases session with
  | none => rfl
  | some link => rfl

theorem connect_ofServer (record : ConnectionRecord) (session : Option Server.Link) (w : World) :
    (ofServer d record session).connect w =
      ⟨(d.start record w).result.map fun _ => (),
        ofServer d record (d.start record w).result.toOption, (d.start record w).files,
        (ofServer d record session).finishEvents ++ (d.start record w).events,
        (ofServer d record session).farewell ++ (d.start record w).contacts⟩ := by
  have hengine : (ofServer d record session).target.engine.start w = d.start record w := rfl
  rw [connect]
  simp only [hengine]
  cases (d.start record w).result with
  | ok link => rfl
  | error e => rfl

theorem sameOutcome_connect (hrecord : first.SameButPassword second) (h : w.SameAnswers v)
    (session : Option Server.Link) :
    SameOutcome d first second ((ofServer d first session).connect w)
      ((ofServer d second session).connect v) := by
  have hfarewell : (ofServer d first session).farewell = (ofServer d second session).farewell :=
    farewell_eq session
  have hstart : Server.SameStart (d.start first w) (d.start second v) :=
    Server.sameStart_start hrecord h
  rw [connect_ofServer, connect_ofServer, hstart.result, hstart.files, hstart.events,
    finishEvents_eq hrecord, hfarewell]
  refine ⟨rfl, rfl, rfl, ?_, _, rfl, rfl⟩
  rw [List.map_append, List.map_append, hstart.contacts]

theorem sameOutcome_close (hrecord : first.SameButPassword second) (h : w.SameAnswers v)
    (session : Option Server.Link) :
    SameOutcome d first second ((ofServer d first session).close w)
      ((ofServer d second session).close v) :=
  ⟨rfl, h.files, finishEvents_eq hrecord session, congrArg (List.map _) (farewell_eq session), none,
    rfl, rfl⟩

theorem sameOutcome_ask {α : Type} (h : w.SameAnswers v) (session : Option Server.Link)
    {question question' : Server.Link → Reply Server.Link α} (hquestion : question = question') :
    SameOutcome d first second ((ofServer d first session).ask w question)
      ((ofServer d second session).ask v question') := by
  subst hquestion
  cases session with
  | none => exact ⟨rfl, h.files, rfl, rfl, none, rfl, rfl⟩
  | some link => exact ⟨rfl, rfl, rfl, rfl, some (question link).session, rfl, rfl⟩

theorem sameOutcome_tables (h : w.SameAnswers v) (session : Option Server.Link) :
    SameOutcome d first second ((ofServer d first session).tables w)
      ((ofServer d second session).tables v) :=
  sameOutcome_ask h session (funext fun link => Server.tables_eq h link)

theorem sameOutcome_query (h : w.SameAnswers v) (session : Option Server.Link) (q : String)
    (parameters : List Value) :
    SameOutcome d first second ((ofServer d first session).query w q parameters)
      ((ofServer d second session).query v q parameters) :=
  sameOutcome_ask h session (funext fun link => Server.query_eq h link q parameters)

theorem sameOutcome_selectAll (h : w.SameAnswers v) (session : Option Server.Link)
    (table : String) :
    SameOutcome d first second ((ofServer d first session).selectAll w table)
      ((ofServer d second session).selectAll v table) :=
  sameOutcome_ask h session (funext fun link => Server.selectAll_eq h link table)

theorem sameOutcome_exportResult (table path : String) {o o' : Outcome Result}
    (h : SameOutcome d first second o o') :
    SameOutcome d first second (exportResult table path o) (exportResult table path o') := by
  rw [exportResult, exportResult, ← h.result, ← h.files, ← h.events]
  split
  · exact ⟨rfl, rfl, rfl, h.contacts, h.handlers⟩
  · split
    · exact ⟨rfl, rfl, rfl, h.contacts, h.handlers⟩
    · exact ⟨rfl, rfl, rfl, h.contacts, h.handlers⟩

theorem sameOutcome_exportTable (h : w.SameAnswers v) (session : Option Server.Link)
    (table path : String) :
    SameOutcome d first second ((ofServer d first session).exportTable w table path)
      ((ofServer d second session).exportTable v table path) := by
  have hlisted : SameOutcome d first second ((ofServer d first session).tables w)
      ((ofServer d second session).tables v) := sameOutcome_tables h session
  rw [exportTable, exportTable]
  simp only [← hlisted.result, ← hlisted.files, ← hlisted.events]
  split
  · exact ⟨rfl, rfl, rfl, hlisted.contacts, hlisted.handlers⟩
  · split
    · obtain ⟨next, hnext, hnext'⟩ := hlisted.handlers
      have hworlds : World.SameAnswers
          { w with files := ((ofServer d first session).tables w).files }
          { v with files := ((ofServer d first session).tables w).files } :=
        ⟨rfl, h.server⟩
      rw [hnext, hnext']
      have hselected : SameOutcome d first second
          ((ofServer d first next).selectAll _ table) ((ofServer d second next).selectAll _ table) :=
        sameOutcome_selectAll hworlds next table
      have hwritten := sameOutcome_exportResult table path hselected
      refine ⟨hwritten.result, hwritten.files, by rw [hwritten.events], ?_, hwritten.handlers⟩
      rw [List.map_append, List.map_append, hlisted.contacts, hwritten.contacts]
    · exact ⟨rfl, rfl, rfl, hlisted.contacts, hlisted.handlers⟩

/-- No operation tells the two records apart. -/
theorem sameOutcome_step (hrecord : first.SameButPassword second) (h : w.SameAnswers v)
    (session : Option Server.Link) (operation : Operation) :
    SameOutcome d first second ((ofServer d first session).step w operation)
      ((ofServer d second session).step v operation) := by
  cases operation with
  | connect => exact (sameOutcome_connect hrecord h session).map _
  | close => exact (sameOutcome_close hrecord h session).map _
  | tables => exact (sameOutcome_tables h session).map _
  | query q parameters => exact (sameOutcome_query h session q parameters).map _
  | selectAll table => exact (sameOutcome_selectAll h session table).map _
  | exportTable table path => exact (sameOutcome_exportTable h session table path).map _

/-! ### Runs -/

/-- All that can be seen of an outcome, and of the handler that it leaves. -/
structure Seen where
  result : Except Error Answer
  files : FileTree
  events : List Event
  /-- What the server was told, but for the text of the password. -/
  contacts : List Server.Contact
  view : View

def seen (o : Outcome Answer) : Seen :=
  ⟨o.result, o.files, o.events, o.contacts.map Server.Contact.withoutPassword, o.handler.view⟩

/-- The same operation in surroundings with the same answers. -/
def SameStep (step other : World × Operation) : Prop :=
  step.1.SameAnswers other.1 ∧ step.2 = other.2

theorem seen_run (hrecord : first.SameButPassword second) {steps others : List (World × Operation)}
    (hsteps : List.Forall₂ SameStep steps others) (session : Option Server.Link) :
    ((ofServer d first session).run steps).1.map seen =
      ((ofServer d second session).run others).1.map seen := by
  induction hsteps generalizing session with
  | nil => rfl
  | @cons step other steps others hstep _ ih =>
    obtain ⟨w, operation⟩ := step
    obtain ⟨v, operation'⟩ := other
    obtain ⟨hworlds, rfl⟩ := hstep
    have hsame := sameOutcome_step (d := d) hrecord hworlds session operation
    obtain ⟨next, hnext, hnext'⟩ := hsame.handlers
    have hseen : seen ((ofServer d first session).step w operation) =
        seen ((ofServer d second session).step v operation) := by
      rw [seen, seen, hsame.result, hsame.files, hsame.events, hsame.contacts, hnext, hnext',
        view_eq hrecord]
    rw [run_cons, run_cons, List.map_cons, List.map_cons, hseen, hnext, hnext', ih]

/-- Two records, and two runs of the handlers that are made for them, look the same. -/
structure SecrecyLaw (d : Server.Dialect) (first second : ConnectionRecord)
    (steps others : List (World × Operation)) : Prop where
  label : first.label = second.label
  jsonText : first.jsonText = second.jsonText
  /-- The new handlers look the same. -/
  view : (ofTarget (.server d first)).view = (ofTarget (.server d second)).view
  /-- All outcomes in order, and the handlers that they leave, look the same. -/
  seen : ((ofTarget (.server d first)).run steps).1.map seen =
    ((ofTarget (.server d second)).run others).1.map seen

/-- **A password is never told**: not by a result, not by an error, not by an event and not by a
text of the record or the handler, in any run.  A server is told it in a login and nowhere else. -/
theorem secrecyLaw_of_run (d : Server.Dialect) (hrecord : first.SameButPassword second)
    {steps others : List (World × Operation)} (hsteps : List.Forall₂ SameStep steps others) :
    SecrecyLaw d first second steps others where
  label := ConnectionRecord.label_eq hrecord
  jsonText := ConnectionRecord.jsonText_eq hrecord
  view := view_eq hrecord none
  seen := seen_run hrecord hsteps none

theorem sameButPassword_shop (password other : String) :
    (shop password).SameButPassword (shop other) := ⟨rfl, rfl, rfl, rfl, rfl, rfl⟩

/-- The table is read on a connection, and the next connection is refused. -/
def shopSteps : List (World × Operation) :=
  [(alone shopServer, .connect), (alone shopServer, .selectAll "Stock"), (alone .absent, .connect)]

theorem secrecyLaw_shop :
    shop "secret" ≠ shop "other" ∧
      SecrecyLaw .mysql (shop "secret") (shop "other") shopSteps shopSteps ∧
      ((ofTarget (.server .mysql (shop "secret"))).run shopSteps).1.map Outcome.result =
        [.ok .done, .ok (.result ⟨["id"], [⟨[⟨"id", .integer 7⟩]⟩]⟩),
          .error (.connection ("cannot connect to MySQL at root@localhost/shop: " ++
            "error communicating with database: Connection refused (os error 111)"))] := by
  refine ⟨by decide, secrecyLaw_of_run .mysql (sameButPassword_shop _ _) ?_, rfl⟩
  apply List.forall₂_same.mpr
  intro step _
  exact ⟨⟨rfl, rfl, rfl, rfl, fun _ => rfl⟩, rfl⟩

end Handler

end TableAccess
