import TableAccess.Command.Basic
import TableAccess.Proofs.Command.Browse
import TableAccess.Proofs.Connection.Record
import TableAccess.Proofs.Handler.Secrecy

/-!
# What browsing tells of a password

An argument is typed with a password in it.  If it is a record, then all that browsing prints, logs
and writes is the same for every password.  If it is not, then the argument itself stands in the
report, and the password with it.
-/

namespace TableAccess.Command

open TableAccess.Handler (ofServer SameOutcome)
open TableAccess.Json (Spells isPlain)

variable {first second : ConnectionRecord} {w v : World} {d : Server.Dialect}
  {session : Option Server.Link} {p : Progress} {argument : String} {wording : Descriptor.Wording}

/-! ### The steps with a server -/

theorem after_eq {α : Type} {o o' : Outcome α} (h : SameOutcome d first second o o')
    (p : Progress) : p.after o = p.after o' := by
  rw [Progress.after, Progress.after, h.files, h.events]

theorem failed_eq (hrecord : first.SameButPassword second) (session : Option Server.Link)
    (p : Progress) (context : String) (e : Error) :
    p.failed (ofServer d first session) context e =
      p.failed (ofServer d second session) context e := by
  have hdrop : (ofServer d first session).dropEvents = (ofServer d second session).dropEvents :=
    Handler.finishEvents_eq hrecord session
  rw [Progress.failed, Progress.failed, hdrop]

/-- The same files stand on both sides while a command goes on. -/
theorem sameAnswers_with (h : w.SameAnswers v) (files : FileTree) :
    World.SameAnswers { w with files := files } { v with files := files } := ⟨rfl, h.server⟩

theorem close_eq (hrecord : first.SameButPassword second) (h : w.SameAnswers v)
    (session : Option Server.Link) (files : FileTree) (p : Progress) :
    (p.after ((ofServer d first session).close { w with files := files })).ended =
      (p.after ((ofServer d second session).close { v with files := files })).ended :=
  congrArg Progress.ended
    (after_eq (Handler.sameOutcome_close hrecord (sameAnswers_with h files) session) p)

theorem browseExport_eq (hrecord : first.SameButPassword second) (h : w.SameAnswers v)
    (session : Option Server.Link) (table : String) (p : Progress) :
    browseExport w (ofServer d first session) table p =
      browseExport v (ofServer d second session) table p := by
  have hexported : SameOutcome d first second _ _ :=
    Handler.sameOutcome_exportTable (sameAnswers_with h p.files) session table (exportPath table)
  obtain ⟨next, hnext, hnext'⟩ := hexported.handlers
  rw [browseExport, browseExport]
  simp only [after_eq hexported, hexported.result, hnext, hnext']
  split
  case h_1 e _ => exact failed_eq hrecord next _ _ e
  case h_2 rows _ => exact close_eq hrecord h next _ _

theorem browseTable_eq (hrecord : first.SameButPassword second) (h : w.SameAnswers v)
    (session : Option Server.Link) (table : String) (p : Progress) :
    browseTable w (ofServer d first session) table p =
      browseTable v (ofServer d second session) table p := by
  have hselected : SameOutcome d first second _ _ :=
    Handler.sameOutcome_selectAll (sameAnswers_with h p.files) session table
  obtain ⟨next, hnext, hnext'⟩ := hselected.handlers
  rw [browseTable, browseTable]
  simp only [after_eq hselected, hselected.result, hnext, hnext']
  split
  case h_1 e _ => exact failed_eq hrecord next _ _ e
  case h_2 result _ => exact browseExport_eq hrecord h next table _

theorem browseTables_eq (hrecord : first.SameButPassword second) (h : w.SameAnswers v)
    (session : Option Server.Link) (p : Progress) :
    browseTables w (ofServer d first session) p = browseTables v (ofServer d second session) p := by
  have hlisted : SameOutcome d first second _ _ :=
    Handler.sameOutcome_tables (sameAnswers_with h p.files) session
  obtain ⟨next, hnext, hnext'⟩ := hlisted.handlers
  rw [browseTables, browseTables]
  simp only [after_eq hlisted, hlisted.result, hnext, hnext']
  split
  case h_1 e _ => exact failed_eq hrecord next _ _ e
  case h_2 => exact close_eq hrecord h next _ _
  case h_3 table names _ => exact browseTable_eq hrecord h next table _

/-! ### Browsing with a record -/

/-- The argument is a record. -/
def Describes (argument : String) (record : ConnectionRecord) : Prop :=
  Descriptor.parse argument = .ok (.record record)

theorem Describes.parse {record : ConnectionRecord} (h : Describes argument record)
    (wording : Descriptor.Wording) : Descriptor.parse argument wording = .ok (.record record) :=
  (Descriptor.parse_eq_ok_iff wording).mpr h

/-- The argument is a record with which a server is contacted. -/
def Contacts (argument : String) : Prop :=
  ∃ d record login, Opens argument (.server d record) ∧ record.validate = .ok login

/-- Records that differ in the password alone are for the same server, or refused alike. -/
theorem target_cases (hrecord : first.SameButPassword second) :
    (∃ e, Target.ofDescriptor (.record first) = .error e ∧
        Target.ofDescriptor (.record second) = .error e) ∨
      ∃ d, Target.ofDescriptor (.record first) = .ok (.server d first) ∧
        Target.ofDescriptor (.record second) = .ok (.server d second) := by
  have hbackend : Descriptor.backendOfRecord first = Descriptor.backendOfRecord second := by
    rw [Descriptor.backendOfRecord, Descriptor.backendOfRecord, hrecord.kind]
  simp only [Target.ofDescriptor, Descriptor.backend, hbackend]
  cases Descriptor.backendOfRecord second with
  | error e => exact Or.inl ⟨e, rfl, rfl⟩
  | ok b =>
    cases b
    case mysql => exact Or.inr ⟨.mysql, rfl, rfl⟩
    case postgres => exact Or.inr ⟨.postgres, rfl, rfl⟩
    all_goals exact Or.inl ⟨_, rfl, rfl⟩

theorem browse_refused {record : ConnectionRecord} {e : Error} (h : Describes argument record)
    (htarget : Target.ofDescriptor (.record record) = .error e) :
    browse w argument wording =
      ⟨some (.ofError ("no handler for " ++ record.label) e), ⟨[], w.files, []⟩⟩ := by
  rw [browse, h.parse wording]
  simp only [Handler.ofDescriptor, htarget]
  rfl

theorem browse_server {record : ConnectionRecord} (h : Describes argument record)
    (htarget : Target.ofDescriptor (.record record) = .ok (.server d record)) :
    browse w argument wording =
      let p : Progress := ⟨[], (d.start record w).files,
        [connectingEvent (ofServer d record none)] ++ (d.start record w).events⟩
      match (d.start record w).result with
      | .ok link => browseTables w (ofServer d record (some link)) p
      | .error e =>
        p.failed (ofServer d record none) ("failed to connect to " ++ record.label) e := by
  have hconnect : (Handler.ofTarget (.server d record)).connect w = _ :=
    Handler.connect_ofServer record none w
  rw [browse, h.parse wording]
  simp only [Handler.ofDescriptor, htarget, Except.map, hconnect]
  cases (d.start record w).result with
  | ok link => rfl
  | error e => rfl

theorem connectingEvent_eq (hrecord : first.SameButPassword second) :
    connectingEvent (ofServer d first none) = connectingEvent (ofServer d second none) := by
  show Event.info _ [_, ("target", .text first.label)] = _
  rw [ConnectionRecord.label_eq hrecord]
  rfl

/-- No step tells records apart that differ in the password alone. -/
theorem browse_eq_of_describes {other : String} (hfirst : Describes argument first)
    (hsecond : Describes other second) (hrecord : first.SameButPassword second)
    (h : w.SameAnswers v) : browse w argument wording = browse v other wording := by
  rcases target_cases hrecord with ⟨e, he, he'⟩ | ⟨d, hd, hd'⟩
  · rw [browse_refused hfirst he, browse_refused hsecond he', ConnectionRecord.label_eq hrecord,
      h.files]
  · have hstart : Server.SameStart (d.start first w) (d.start second v) :=
      Server.sameStart_start hrecord h
    rw [browse_server hfirst hd, browse_server hsecond hd', hstart.result, hstart.files,
      hstart.events, ConnectionRecord.label_eq hrecord, connectingEvent_eq hrecord]
    simp only
    split
    case h_1 link _ => exact browseTables_eq hrecord h (some link) _
    case h_2 e _ => exact failed_eq hrecord none _ _ e

/-- Where no server is contacted, it does not matter which one there is. -/
theorem browse_eq_of_not_contacts (hfirst : Describes argument first)
    (hcontacts : ¬ Contacts argument) (hfiles : w.files = v.files) :
    browse w argument wording = browse v argument wording := by
  have hsame : first.SameButPassword first := ⟨rfl, rfl, rfl, rfl, rfl, rfl⟩
  rcases target_cases hsame with ⟨e, he, -⟩ | ⟨d, hd, -⟩
  · rw [browse_refused hfirst he, browse_refused hfirst he, hfiles]
  · cases hvalidate : first.validate with
    | ok login => exact absurd ⟨d, first, login, ⟨_, hfirst, hd⟩, hvalidate⟩ hcontacts
    | error e =>
      obtain ⟨events, hstart⟩ : ∃ events, ∀ u, d.start first u = ⟨.error e, u.files, events, []⟩ :=
        ⟨_, fun u => by rw [Server.Dialect.start, hvalidate]⟩
      rw [browse_server hfirst hd, browse_server hfirst hd, hstart w, hstart v, hfiles]

/-! ### Browsing with a password in the argument -/

/-- What two runs tell, of which each fills the gap of an argument with the text of a password,
however it is worded that a text is no record. -/
structure DisclosureLaw (w v : World) (g : PasswordGap) (text other : List Char)
    (wording : Descriptor.Wording) : Prop where
  /-- With both texts the argument is a record, or with neither. -/
  describes_iff : (∃ record, Describes (g.argument text) record) ↔
    ∃ record, Describes (g.argument other) record
  /-- All that a record leads to is the same, in the lines that are printed and in those of the
  report, in the events and in the files. -/
  secret : ∀ record, Describes (g.argument text) record →
    run w ["browse", g.argument text] wording = run v ["browse", g.argument other] wording
  /-- What is no record is refused with the argument as it is. -/
  told : (¬ ∃ record, Describes (g.argument text) record) →
    run w ["browse", g.argument text] wording =
      ⟨some ⟨"cannot read connection argument " ++ g.argument text,
        ["unsupported backend: invalid connection record: " ++
          wording (String.ofList (g.object text))]⟩, ⟨[], w.files, []⟩⟩

theorem message_of_no_record (reason : String) :
    (Error.unsupportedBackend ("invalid connection record: " ++ reason)).message =
      "unsupported backend: invalid connection record: " ++ reason := by
  have hfront : "unsupported backend: invalid connection record: " =
      "unsupported backend: " ++ "invalid connection record: " := by decide
  rw [hfront, String.append_assoc]
  rfl

/-- **Browsing tells nothing of the password in a record**, whatever comes of the record; the
password in an argument that is no record is told with the argument. -/
theorem disclosureLaw_of_gap (g : PasswordGap) {text other : List Char} {password another : String}
    (wording : Descriptor.Wording) (htext : Spells text password) (hother : Spells other another)
    (hfiles : w.files = v.files)
    (hserver : Contacts (g.argument text) → w.server.SameAnswers v.server) :
    DisclosureLaw w v g text other wording := by
  obtain ⟨o, hparse⟩ := g.exists_parse_argument
  cases o with
  | none =>
    have hnone : ∀ body x, Spells body x → ¬ ∃ record, Describes (g.argument body) record := by
      rintro body x hbody ⟨record, hrecord⟩
      cases (hparse body x hbody _).symm.trans hrecord
    refine ⟨iff_of_false (hnone _ _ htext) (hnone _ _ hother),
      fun record h => absurd ⟨record, h⟩ (hnone _ _ htext), fun _ => ?_⟩
    show browse w (g.argument text) wording = _
    rw [browse, hparse text password htext wording, ← message_of_no_record]
    rfl
  | some r =>
    have hfirst : Describes (g.argument text) { r with password := some password } :=
      hparse text password htext _
    have hsecond : Describes (g.argument other) { r with password := some another } :=
      hparse other another hother _
    have hrecord : ConnectionRecord.SameButPassword { r with password := some password }
        { r with password := some another } := ⟨rfl, rfl, rfl, rfl, rfl, rfl⟩
    refine ⟨iff_of_true ⟨_, hfirst⟩ ⟨_, hsecond⟩, fun _ _ => ?_, fun h => absurd ⟨_, hfirst⟩ h⟩
    show browse w (g.argument text) wording = browse v (g.argument other) wording
    by_cases hcontacts : Contacts (g.argument text)
    · exact browse_eq_of_describes hfirst hsecond hrecord ⟨hfiles, hserver hcontacts⟩
    · -- nobody asks the first server, so the second one may stand in its place
      rw [browse_eq_of_not_contacts hfirst hcontacts hfiles]
      exact browse_eq_of_describes hfirst hsecond hrecord ⟨rfl, rfl, rfl, rfl, fun _ => rfl⟩

/-- A gap between members whose keys and values are strings of plain characters. -/
def plainGap (before after : List (String × String))
    (hbefore : ∀ m ∈ before, m.1.toList.all isPlain = true ∧ m.2.toList.all isPlain = true)
    (hafter : ∀ m ∈ after, m.1.toList.all isPlain = true ∧ m.2.toList.all isPlain = true) :
    PasswordGap where
  lead := []
  before := before.map fun m => (Json.quotedText m.1, Json.quotedText m.2)
  after := after.map fun m => (Json.quotedText m.1, Json.quotedText m.2)
  key := "password".toList
  keyFront := []
  keyBack := []
  valueFront := []
  valueBack := []
  trail := []
  isBlank_lead := nofun
  texts_before := List.forall_mem_map.mpr fun m hm =>
    ⟨Json.keyText_quotedText (hbefore m hm).1, Json.valueText_quotedText (hbefore m hm).2⟩
  texts_after := List.forall_mem_map.mpr fun m hm =>
    ⟨Json.keyText_quotedText (hafter m hm).1, Json.valueText_quotedText (hafter m hm).2⟩
  spells_key := Json.spells_of_plain (by decide)
  spaces_keyFront := nofun
  spaces_keyBack := nofun
  spaces_valueFront := nofun
  spaces_valueBack := nofun
  spaces_trail := nofun

/-- The argument of a shop. -/
def shopGap : PasswordGap :=
  plainGap [("kind", "mysql"), ("host", "localhost"), ("user", "root")] [("database", "shop")]
    (by decide) (by decide)

theorem disclosureLaw_shop :
    DisclosureLaw (Handler.alone Handler.shopServer) (Handler.alone Handler.shopServer) shopGap
        "secret1".toList "hidden2".toList Descriptor.plainWording ∧
      (run (Handler.alone Handler.shopServer)
          ["browse", shopGap.argument "hidden2".toList]).output =
        ["\x7b", "  \"id\": 7", "\x7d", "exported 1 rows from Stock to Stock_export.csv"] := by
  refine ⟨?_, by decide +kernel⟩
  exact disclosureLaw_of_gap shopGap _ (Json.spells_of_plain (by decide))
    (Json.spells_of_plain (by decide)) rfl fun _ => ⟨rfl, rfl, rfl, fun _ => rfl⟩

/-- An argument with a port in quotes, which is no record. -/
def quotedPortGap : PasswordGap := plainGap [] [("port", "3306")] (by decide) (by decide)

/-- Two passwords of the same length, each in the report of its run. -/
theorem errorOutput_quotedPort :
    Spells "secret1".toList "secret1" ∧ Spells "hidden2".toList "hidden2" ∧
      (run (Handler.alone .absent)
          ["browse", quotedPortGap.argument "secret1".toList]).errorOutput.head? =
        some ("Error: cannot read connection argument " ++
          "\x7b\"password\":\"secret1\",\"port\":\"3306\"\x7d") ∧
      (run (Handler.alone .absent)
          ["browse", quotedPortGap.argument "hidden2".toList]).errorOutput.head? =
        some ("Error: cannot read connection argument " ++
          "\x7b\"password\":\"hidden2\",\"port\":\"3306\"\x7d") :=
  ⟨Json.spells_of_plain (by decide), Json.spells_of_plain (by decide), by decide +kernel,
    by decide +kernel⟩

end TableAccess.Command
