import TableAccess.Command.Browse
import TableAccess.Proofs.Connection.Resolution

/-!
# From an argument to its handler

An argument is a path or, with a brace in front, a record.  The handler follows from that alone: it
is one for the backend that the extension or the kind selects, it holds no session, and nothing is
asked of the files or of a server before it is connected.  So browsing refuses an argument in the
same way whatever the surroundings are, and announces the handler before anything else happens.
-/

namespace TableAccess

/-! ### Targets -/

namespace Target

variable {d : Descriptor} {t : Target} {b : Backend} {p : String} {r : ConnectionRecord}

/-- The descriptor of a target. -/
def descriptor : Target → Descriptor
  | .document p | .dbase p | .sqlite p | .access p => .path p
  | .server _ r => .record r

theorem label_eq (t : Target) : t.label = t.descriptor.label := by
  cases t <;> rfl

/-- Each backend of an extension opens files. -/
theorem exists_ofPath {extension : String} (hb : Backend.Extension extension b) (p : String) :
    ∃ t, ofPath p b = .ok t ∧ t.descriptor = .path p ∧ t.backend = b := by
  cases hb <;> exact ⟨_, rfl, rfl, rfl⟩

/-- Each backend of a kind is one of servers. -/
theorem exists_ofRecord {name : String} (hb : Backend.Kind name b) (r : ConnectionRecord) :
    ∃ t, ofRecord r b = .ok t ∧ t.descriptor = .record r ∧ t.backend = b := by
  cases hb <;> exact ⟨_, rfl, rfl, rfl⟩

theorem exists_of_selects (h : d.Selects b) :
    ∃ t, ofDescriptor d = .ok t ∧ t.descriptor = d ∧ t.backend = b := by
  have hbackend := Descriptor.backend_of_selects h
  cases h with
  | path hextension hb =>
    simp only [ofDescriptor, hbackend]
    exact exists_ofPath hb _
  | record hkind hletters hb =>
    simp only [ofDescriptor, hbackend]
    exact exists_ofRecord hb _

theorem ofDescriptor_cases (d : Descriptor) :
    (∃ b t, d.Selects b ∧ ofDescriptor d = .ok t ∧ t.descriptor = d ∧ t.backend = b) ∨
      ∃ message, d.Refused message ∧ ofDescriptor d = .error (.unsupportedBackend message) := by
  rcases Descriptor.backend_cases d with ⟨b, -, hselects⟩ | ⟨message, hbackend, hrefused⟩
  · obtain ⟨t, ht⟩ := exists_of_selects hselects
    exact Or.inl ⟨b, t, hselects, ht⟩
  · refine Or.inr ⟨message, hrefused, ?_⟩
    simp only [ofDescriptor, hbackend]

end Target

/-! ### Handlers -/

namespace Handler

variable {d : Descriptor} {h : Handler} {b : Backend} {argument : String}
  {wording : Descriptor.Wording}

/-- The handler is for what the descriptor describes, and holds no session. -/
structure IsNew (h : Handler) (d : Descriptor) (b : Backend) : Prop where
  descriptor : h.target.descriptor = d
  backend : h.target.backend = b
  label : h.target.label = d.label
  isConnected : h.isConnected = false

/-- What becomes of resolving a descriptor: there is a handler exactly if a backend is selected,
the handler is new and for that backend alone, and all else is an unsupported backend. -/
structure Resolves (d : Descriptor) (outcome : Except Error Handler) : Prop where
  ok_iff : (∃ h, outcome = .ok h) ↔ ∃ b, d.Selects b
  handler : ∀ h, outcome = .ok h → ∀ b, d.Selects b ↔ h.IsNew d b
  refused : ∀ e, outcome = .error e → ∃ message, d.Refused message ∧ e = .unsupportedBackend message

theorem resolves_ofDescriptor (d : Descriptor) : Resolves d (ofDescriptor d) := by
  rcases Target.ofDescriptor_cases d with ⟨b, t, hselects, ht, hdescriptor, hbackend⟩ |
    ⟨message, hrefused, he⟩
  · have hnew : (ofTarget t).IsNew d b :=
      ⟨hdescriptor, hbackend, by rw [← hdescriptor]; exact t.label_eq, rfl⟩
    have hok : ofDescriptor d = .ok (ofTarget t) := by
      rw [ofDescriptor, ht]
      rfl
    rw [hok]
    refine ⟨iff_of_true ⟨_, rfl⟩ ⟨b, hselects⟩, ?_, ?_⟩
    · intro h hh other
      cases hh
      constructor
      · intro hother
        have hsame : b = other := Descriptor.selects_unique hselects hother
        rwa [← hsame]
      · intro hother
        have hsame : b = other := hbackend.symm.trans hother.backend
        rwa [← hsame]
    · intro e he
      cases he
  · have herror : ofDescriptor d = .error (.unsupportedBackend message) := by
      rw [ofDescriptor, he]
      rfl
    have hnone : ¬ ∃ b, d.Selects b := by
      rintro ⟨b, hselects⟩
      obtain ⟨t, ht, -⟩ := Target.exists_of_selects hselects
      cases he.symm.trans ht
    rw [herror]
    refine ⟨iff_of_false ?_ hnone, ?_, ?_⟩
    · rintro ⟨h, hok⟩
      cases hok
    · intro h hok
      cases hok
    · intro e he
      cases he
      exact ⟨message, hrefused, rfl⟩

/-- The handler of an argument. -/
def ofArgument (argument : String) (wording : Descriptor.Wording) : Except Error Handler :=
  (Descriptor.parse argument wording).bind ofDescriptor

theorem exists_descriptor (hok : ofArgument argument wording = .ok h) :
    ∃ d, Descriptor.parse argument wording = .ok d ∧ ofDescriptor d = .ok h := by
  rw [ofArgument] at hok
  cases hparse : Descriptor.parse argument wording with
  | error e =>
    rw [hparse] at hok
    cases hok
  | ok d =>
    rw [hparse] at hok
    exact ⟨d, rfl, hok⟩

theorem ofArgument_of_path (h : ¬ Descriptor.StartsWithBrace argument) :
    ofArgument argument wording = ofDescriptor (.path argument) := by
  rw [ofArgument, Descriptor.parse_of_not_brace h]
  rfl

theorem ofArgument_of_brace (h : Descriptor.StartsWithBrace argument) :
    (∃ r, Descriptor.parse argument wording = .ok (.record r) ∧
        ofArgument argument wording = ofDescriptor (.record r)) ∨
      ∃ message, ofArgument argument wording = .error (.unsupportedBackend message) := by
  rcases Descriptor.parse_of_brace h wording with ⟨r, hr⟩ | ⟨message, hmessage⟩
  · refine Or.inl ⟨r, hr, ?_⟩
    rw [ofArgument, hr]
    rfl
  · refine Or.inr ⟨message, ?_⟩
    rw [ofArgument, hmessage]
    rfl

end Handler

/-! ### Browsing -/

namespace Command

variable {w : World} {h : Handler} {p : Progress} {argument table : String} {e : Error}
  {wording : Descriptor.Wording}

open TableAccess.Handler (ofArgument)

theorem prefix_after {α : Type} (p : Progress) (o : Outcome α) :
    p.events <+: (p.after o).events := List.prefix_append _ _

theorem prefix_log (p : Progress) (events : List Event) : p.events <+: (p.log events).events :=
  List.prefix_append _ _

theorem prefix_print (p : Progress) (lines : List String) : p.events <+: (p.print lines).events :=
  List.prefix_rfl

theorem prefix_failed (p : Progress) (h : Handler) (context : String) (e : Error) :
    p.events <+: (p.failed h context e).progress.events := List.prefix_append _ _

theorem prefix_browseExport (w : World) (h : Handler) (table : String) (p : Progress) :
    p.events <+: (browseExport w h table p).progress.events := by
  have hexported := prefix_after p
    (h.exportTable { w with files := p.files } table (exportPath table))
  refine hexported.trans ?_
  rw [browseExport]
  split
  case h_1 e _ => exact prefix_failed _ _ _ _
  case h_2 rows _ => exact (prefix_print _ _).trans (prefix_after _ _)

theorem prefix_browseTable (w : World) (h : Handler) (table : String) (p : Progress) :
    p.events <+: (browseTable w h table p).progress.events := by
  refine (prefix_after p (h.selectAll { w with files := p.files } table)).trans ?_
  rw [browseTable]
  split
  case h_1 e _ => exact prefix_failed _ _ _ _
  case h_2 result _ => exact (prefix_print _ _).trans (prefix_browseExport _ _ _ _)

theorem prefix_browseTables (w : World) (h : Handler) (p : Progress) :
    p.events <+: (browseTables w h p).progress.events := by
  refine (prefix_after p (h.tables { w with files := p.files })).trans ?_
  rw [browseTables]
  split
  case h_1 e _ => exact prefix_failed _ _ _ _
  case h_2 => exact (prefix_log _ _).trans (prefix_after _ _)
  case h_3 table names _ => exact (prefix_log _ _).trans (prefix_browseTable _ _ _ _)

/-- The handler of an argument is announced before it is connected. -/
theorem head?_events_browse (hok : ofArgument argument wording = .ok h) (w : World) :
    (browse w argument wording).progress.events.head? = some (connectingEvent h) := by
  obtain ⟨d, hparse, hd⟩ := Handler.exists_descriptor hok
  have hannounced : [connectingEvent h] <+: (browse w argument wording).progress.events := by
    rw [browse, hparse]
    simp only [hd]
    have hconnected : [connectingEvent h] <+:
        ((Progress.log ⟨[], w.files, []⟩ [connectingEvent h]).after (h.connect w)).events :=
      List.prefix_append _ _
    refine List.IsPrefix.trans hconnected ?_
    split
    case h_1 e _ => exact prefix_failed _ _ _ _
    case h_2 => exact prefix_browseTables _ _ _
  obtain ⟨rest, hrest⟩ := hannounced
  rw [← hrest]
  rfl

theorem browse_of_error (he : ofArgument argument wording = .error e) :
    ∃ context, ∀ w,
      browse w argument wording = ⟨some (.ofError context e), ⟨[], w.files, []⟩⟩ := by
  rw [ofArgument] at he
  cases hparse : Descriptor.parse argument wording with
  | error e' =>
    rw [hparse] at he
    cases he
    exact ⟨_, fun w => by rw [browse, hparse]⟩
  | ok d =>
    rw [hparse] at he
    have hd : Handler.ofDescriptor d = .error e := he
    refine ⟨"no handler for " ++ d.label, fun w => ?_⟩
    rw [browse, hparse]
    simp only [hd]

/-- What becomes of an argument, and of a record from anywhere. -/
structure ResolutionLaw (argument : String) (r : ConnectionRecord)
    (wording : Descriptor.Wording) : Prop where
  /-- What does not start with a brace is a path, and resolves by its extension. -/
  path : ¬ Descriptor.StartsWithBrace argument →
    Handler.Resolves (.path argument) (ofArgument argument wording)
  /-- Every record resolves by its kind. -/
  record : Handler.Resolves (.record r) (Handler.ofDescriptor (.record r))
  /-- What starts with a brace is a record, or is refused. -/
  brace : Descriptor.StartsWithBrace argument →
    (∃ s, Descriptor.parse argument wording = .ok (.record s) ∧
        Handler.Resolves (.record s) (ofArgument argument wording)) ∨
      ∃ message, ofArgument argument wording = .error (.unsupportedBackend message)
  /-- Whatever the surroundings are, the handler is announced before it is connected. -/
  announced : ∀ h, ofArgument argument wording = .ok h →
    ∀ w, (browse w argument wording).progress.events.head? = some (connectingEvent h)
  /-- A refusal is the same in all surroundings, and leaves them as they are. -/
  refused : ∀ e, ofArgument argument wording = .error e → ∃ context, ∀ w,
    browse w argument wording = ⟨some (.ofError context e), ⟨[], w.files, []⟩⟩

/-- **Resolution follows the extension or the kind exactly**, and it gives a handler without a
session or an unsupported backend, without a look at the files. -/
theorem resolutionLaw_of_argument (argument : String) (r : ConnectionRecord)
    (wording : Descriptor.Wording) : ResolutionLaw argument r wording where
  path hpath := by
    rw [Handler.ofArgument_of_path hpath]
    exact Handler.resolves_ofDescriptor _
  record := Handler.resolves_ofDescriptor _
  brace hbrace := by
    rcases Handler.ofArgument_of_brace hbrace with ⟨s, hparse, hs⟩ | hmessage
    · rw [hs]
      exact Or.inl ⟨s, hparse, Handler.resolves_ofDescriptor _⟩
    · exact Or.inr hmessage
  announced _ hok w := head?_events_browse hok w
  refused _ he := browse_of_error he

/-- The points of the directory, the point in front and the end behind the name do not matter. -/
example : (ofArgument "a.txt/..mvo//./" Descriptor.plainWording).toOption.map Handler.target =
    some (.document "a.txt/..mvo//./") := by decide +kernel

/-- The text of a record with its kind in capitals, behind a blank. -/
def kindText : String := " \x7b\"kind\":\"MYSQL\"\x7d"

/-- A path whose last name has points in front and behind it, one whose extension is spelled in
capitals, and a record whose kind is. -/
theorem resolutionLaw_points :
    (∃ h, ofArgument "a.txt/..mvo//./" Descriptor.plainWording = .ok h ∧
      h.IsNew (.path "a.txt/..mvo//./") .document ∧
      ∀ w, (browse w "a.txt/..mvo//./").progress.events.head? = some (connectingEvent h)) ∧
    (∃ e message, ofArgument "a.MVO" Descriptor.plainWording = .error e ∧
      e = .unsupportedBackend message ∧ (Descriptor.path "a.MVO").Refused message ∧
      ∃ context, ∀ w, browse w "a.MVO" = ⟨some (.ofError context e), ⟨[], w.files, []⟩⟩) ∧
    ∃ r h, Descriptor.parse kindText = .ok (.record r) ∧
      ofArgument kindText Descriptor.plainWording = .ok h ∧ h.IsNew (.record r) .mysql := by
  have hpoints := resolutionLaw_of_argument "a.txt/..mvo//./" .empty Descriptor.plainWording
  have hcapitals := resolutionLaw_of_argument "a.MVO" .empty Descriptor.plainWording
  have hkind := resolutionLaw_of_argument kindText .empty Descriptor.plainWording
  have hselects : (Descriptor.path "a.txt/..mvo//./").Selects .document :=
    Descriptor.selects_path_iff.mpr ⟨"mvo", by decide, by decide⟩
  have hmysql : (Descriptor.record { ConnectionRecord.empty with kind := some "MYSQL" }).Selects
      .mysql := Descriptor.selects_record_iff.mpr ⟨"MYSQL", rfl, by decide⟩
  have hpath := hpoints.path (mt Descriptor.head?_trimStart_iff.mpr (by decide))
  have hother := hcapitals.path (mt Descriptor.head?_trimStart_iff.mpr (by decide))
  obtain ⟨h, hok⟩ := hpath.ok_iff.mpr ⟨_, hselects⟩
  have he : ofArgument "a.MVO" Descriptor.plainWording = .error _ := rfl
  obtain ⟨message, hrefused, hmessage⟩ := hother.refused _ he
  refine ⟨⟨h, hok, (hpath.handler h hok _).mp hselects, hpoints.announced h hok⟩,
    ⟨_, message, he, hmessage, hrefused, hcapitals.refused _ he⟩, ?_⟩
  have hparse : Descriptor.parse kindText =
      .ok (.record { ConnectionRecord.empty with kind := some "MYSQL" }) := rfl
  rcases hkind.brace (Descriptor.head?_trimStart_iff.mp (by decide)) with
    ⟨r, hr, hresolves⟩ | ⟨message, hmessage⟩
  · obtain rfl : _ = r := Descriptor.record.inj (Except.ok.inj (hparse.symm.trans hr))
    obtain ⟨k, hk⟩ := hresolves.ok_iff.mpr ⟨_, hmysql⟩
    exact ⟨_, k, hr, hk, (hresolves.handler k hk _).mp hmysql⟩
  · have hok : ofArgument kindText Descriptor.plainWording = .ok _ := rfl
    cases hok.symm.trans hmessage

end Command

end TableAccess
