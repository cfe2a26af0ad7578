import TableAccess.Proofs.Json.Grammar

/-!
# Reading a value wherever it stands

What the reader makes of the text of a value depends on that text alone.  So two texts that differ
in one place are read alike up to that place and behind it.
-/

namespace TableAccess.Json

variable {mode : Mode} {depth : Nat} {s t rest : List Char} {α : Type}

/-- The reader takes the text with some blanks behind it, or refuses it, whatever follows. -/
def Reads (reader : List Char → Option (α × List Char)) (t : List Char) (o : Option α) : Prop :=
  ∀ rest, EndsNumber rest → ∃ back, Spaces back ∧
    reader (t ++ rest) = o.map fun a => (a, back ++ rest)

/-! ### Blanks -/

theorem spaces_nil : Spaces [] := by
  intro c hc
  cases hc

theorem Spaces.append (hs : Spaces s) (ht : Spaces t) : Spaces (s ++ t) := by
  intro c hc
  exact (List.mem_append.mp hc).elim (hs c) (ht c)

theorem skipSpace_append (h : Spaces s) (rest : List Char) :
    skipSpace (s ++ rest) = skipSpace rest :=
  List.dropWhile_append_of_pos h

theorem endsNumber_append (h : Spaces s) (hrest : EndsNumber rest) : EndsNumber (s ++ rest) := by
  cases s with
  | nil => exact hrest
  | cons c s =>
    intro d hd
    cases hd
    have hc : isSpace c = true := h c List.mem_cons_self
    simp only [isSpace, Bool.or_eq_true, beq_iff_eq] at hc
    rcases hc with ((rfl | rfl) | rfl) | rfl <;> decide

theorem reads_of_eq {reader : List Char → Option (α × List Char)} {o : Option α}
    (h : ∀ rest, EndsNumber rest → reader (t ++ rest) = o.map fun a => (a, rest)) :
    Reads reader t o := fun rest hrest => ⟨[], spaces_nil, h rest hrest⟩

theorem Reads.map {β : Type} {reader : List Char → Option (α × List Char)} {o : Option α}
    (h : Reads reader t o) (f : α → β) :
    Reads (fun s => (reader s).map fun (a, r) => (f a, r)) t (o.map f) := by
  intro rest hrest
  obtain ⟨back, hback, hread⟩ := h rest hrest
  refine ⟨back, hback, ?_⟩
  simp only [hread, Option.map_map]
  rfl

/-! ### Items with commas between them -/

section

variable {item : List Char → Option (α × List Char)} {close : Char}
  {entries : List (List Char × Option α)}

theorem readMore_texts (hspace : isSpace close = false) (hcomma : close ≠ ',')
    (hclose : ∀ r, EndsNumber (close :: r)) (hread : ∀ e ∈ entries, Reads item e.1 e.2)
    (hne : entries ≠ []) {fuel : Nat} (hfuel : entries.length ≤ fuel) (rest : List Char) :
    readMore item close fuel (commaText (entries.map Prod.fst) ++ close :: rest) =
      (entries.mapM Prod.snd).map fun as => (as, rest) := by
  induction entries generalizing fuel with
  | nil => exact absurd rfl hne
  | cons e entries ih =>
    obtain ⟨k, rfl⟩ :=
      Nat.exists_eq_add_one.mpr (Nat.lt_of_lt_of_le (Nat.succ_pos entries.length) hfuel)
    obtain ⟨t, o⟩ := e
    cases entries with
    | nil =>
      obtain ⟨back, hback, hitem⟩ := hread (t, o) List.mem_cons_self (close :: rest) (hclose rest)
      simp only [List.map_cons, List.map_nil, commaText, readMore, hitem]
      cases o with
      | none => rfl
      | some a =>
        simp only [Option.map_some, skipSpace_append hback, skipSpace_cons hspace,
          beq_self_eq_true, if_true]
        rfl
    | cons e' entries =>
      have htail := ih (fun e he => hread e (List.mem_cons_of_mem _ he)) (List.cons_ne_nil _ _)
        (Nat.le_of_succ_le_succ hfuel)
      obtain ⟨back, hback, hitem⟩ := hread (t, o) List.mem_cons_self
        (',' :: (commaText ((e' :: entries).map Prod.fst) ++ close :: rest))
        (endsNumber_cons _ (Or.inl rfl))
      have hopen : (',' == close) = false := beq_eq_false_iff_ne.mpr (Ne.symm hcomma)
      have htext : commaText (((t, o) :: e' :: entries).map Prod.fst) ++ close :: rest =
          t ++ ',' :: (commaText ((e' :: entries).map Prod.fst) ++ close :: rest) := by
        simp only [List.map_cons, commaText, List.append_assoc, List.cons_append]
      rw [htext, readMore, hitem, List.mapM_cons]
      cases o with
      | none => rfl
      | some a =>
        simp only [Option.map_some, skipSpace_append hback,
          skipSpace_cons (show isSpace ',' = false from rfl), hopen, beq_self_eq_true,
          Bool.false_eq_true, if_false, if_true, htail]
        cases (e' :: entries).mapM Prod.snd <;> rfl

theorem length_le_commaText_of_mem {texts : List (List Char)} (h : t ∈ texts) :
    t.length ≤ (commaText texts).length := by
  induction texts with
  | nil => cases h
  | cons u texts ih =>
    cases texts with
    | nil =>
      rw [List.mem_singleton.mp h]
      exact Nat.le_refl _
    | cons v texts =>
      rw [commaText, List.length_append, List.length_cons]
      rcases List.mem_cons.mp h with rfl | hlater
      · omega
      · have hlength := ih hlater
        omega

theorem length_le_commaText (texts : List (List Char)) :
    texts.length ≤ (commaText texts).length + 1 := by
  induction texts with
  | nil => exact Nat.zero_le _
  | cons u texts ih =>
    cases texts with
    | nil => exact Nat.le_add_left _ _
    | cons v texts =>
      have htext : (commaText (u :: v :: texts)).length =
          u.length + ((commaText (v :: texts)).length + 1) := List.length_append
      rw [htext, List.length_cons]
      omega

theorem exists_commaText_eq (t : List Char) (texts : List (List Char)) (rest : List Char) :
    ∃ behind, commaText (t :: texts) ++ rest = t ++ behind := by
  cases texts with
  | nil => exact ⟨rest, rfl⟩
  | cons u texts => exact ⟨_, List.append_assoc _ _ _⟩

variable (close) in
/-- A sequence is read item by item, and refused if one item is. -/
theorem readSequence_texts (hspace : isSpace close = false) (hcomma : close ≠ ',')
    (hclose : ∀ r, EndsNumber (close :: r)) (hread : ∀ e ∈ entries, Reads item e.1 e.2)
    (hhead : ∀ e ∈ entries, ∀ rest, ∃ c r, skipSpace (e.1 ++ rest) = c :: r ∧ c ≠ close)
    (hitem : ∀ s u, skipSpace s = skipSpace u → item s = item u) {blank : List Char}
    (hblank : Spaces blank) (rest : List Char) :
    readSequence item close (blank ++ (commaText (entries.map Prod.fst) ++ close :: rest)) =
      (entries.mapM Prod.snd).map fun as => (as, rest) := by
  cases hentries : entries with
  | nil =>
    have hskip : skipSpace (blank ++ close :: rest) = close :: rest := by
      rw [skipSpace_append hblank, skipSpace_cons hspace]
    show readSequence item close (blank ++ close :: rest) = some ([], rest)
    simp only [readSequence, hskip, beq_self_eq_true, if_true]
  | cons e others =>
    rw [← hentries]
    have hskip := skipSpace_append hblank (commaText (entries.map Prod.fst) ++ close :: rest)
    -- the first item does not start like the closing character, so the reader looks for items
    obtain ⟨behind, hbehind⟩ :=
      exists_commaText_eq e.1 (others.map Prod.fst) (close :: rest)
    obtain ⟨c, r, hfirst, hc⟩ := hhead e (by rw [hentries]; exact List.mem_cons_self) behind
    have hopen : skipSpace (blank ++ (commaText (entries.map Prod.fst) ++ close :: rest)) =
        c :: r := by
      rw [hskip, hentries, List.map_cons, hbehind, hfirst]
    have hnotClose : (c == close) = false := beq_eq_false_iff_ne.mpr hc
    have hfuel : entries.length ≤
        (blank ++ (commaText (entries.map Prod.fst) ++ close :: rest)).length := by
      have hlength := length_le_commaText (entries.map Prod.fst)
      rw [List.length_map] at hlength
      rw [List.length_append, List.length_append, List.length_cons]
      omega
    have hsame : ∀ fuel, readMore item close (fuel + 1)
          (blank ++ (commaText (entries.map Prod.fst) ++ close :: rest)) =
        readMore item close (fuel + 1) (commaText (entries.map Prod.fst) ++ close :: rest) := by
      intro fuel
      rw [readMore, readMore, hitem _ _ hskip]
    have hne : entries ≠ [] := by
      rw [hentries]
      exact List.cons_ne_nil e others
    simp only [readSequence, hopen, hnotClose, Bool.false_eq_true, if_false]
    rw [hsame, readMore_texts hspace hcomma hclose hread hne (Nat.le_succ_of_le hfuel)]

end

theorem isSome_mapM {entries : List (List Char × Option α)}
    (h : ∀ e ∈ entries, e.2.isSome = true) : (entries.mapM Prod.snd).isSome = true := by
  induction entries with
  | nil => rfl
  | cons e entries ih =>
    obtain ⟨a, ha⟩ := Option.isSome_iff_exists.mp (h e List.mem_cons_self)
    obtain ⟨as, has⟩ :=
      Option.isSome_iff_exists.mp (ih fun e he => h e (List.mem_cons_of_mem _ he))
    rw [List.mapM_cons, ha, has]
    rfl

/-- Texts that are each read in some way, with what they are read as. -/
theorem exists_entries {β : Type} {items : List β} (text : β → List Char)
    {P : List Char → Option α → Prop} (h : ∀ b ∈ items, ∃ o, P (text b) o) :
    ∃ entries : List (List Char × Option α), entries.map Prod.fst = items.map text ∧
      ∀ e ∈ entries, P e.1 e.2 := by
  induction items with
  | nil => exact ⟨[], rfl, nofun⟩
  | cons b items ih =>
    obtain ⟨o, ho⟩ := h b List.mem_cons_self
    obtain ⟨entries, htexts, hentries⟩ := ih fun b hb => h b (List.mem_cons_of_mem _ hb)
    refine ⟨(text b, o) :: entries, ?_, List.forall_mem_cons.mpr ⟨ho, hentries⟩⟩
    rw [List.map_cons, List.map_cons, htexts]

/-! ### Members of objects -/

theorem skipSpace_keyText (h : KeyText s) (rest : List Char) :
    ∃ r, skipSpace (s ++ rest) = '"' :: r := by
  obtain @⟨front, body, back, hfront, -, -⟩ := h
  refine ⟨body ++ '"' :: back ++ rest, ?_⟩
  rw [List.append_assoc, skipSpace_append hfront]
  rfl

theorem readKey?_congr (h : skipSpace s = skipSpace t) : readKey? mode s = readKey? mode t := by
  rw [readKey?, readKey?, expect?, expect?, h]

/-- A key is read as its string, up to its colon. -/
theorem readKey?_text {front body back : List Char} {o : Option String} (hfront : Spaces front)
    (hback : Spaces back)
    (hread : ∀ rest, readString? mode (body ++ '"' :: rest) = o.map fun x => (x, rest))
    (rest : List Char) :
    readKey? mode (front ++ '"' :: (body ++ '"' :: back) ++ ':' :: rest) =
      o.map fun key => (key, rest) := by
  have hopen : expect? '"' (front ++ '"' :: (body ++ '"' :: back) ++ ':' :: rest) =
      some (body ++ '"' :: (back ++ ':' :: rest)) := by
    apply expect?_of_skipSpace
    rw [List.append_assoc, skipSpace_append hfront, List.cons_append,
      skipSpace_cons (show isSpace '"' = false from rfl), List.append_assoc, List.cons_append]
  have hcolon : expect? ':' (back ++ ':' :: rest) = some rest := by
    apply expect?_of_skipSpace
    rw [skipSpace_append hback, skipSpace_cons (show isSpace ':' = false from rfl)]
  rw [readKey?, hopen]
  simp only [Option.bind_eq_bind, Option.bind_some, hread]
  cases o with
  | none => rfl
  | some key => simp only [Option.map_some, Option.bind_some, hcolon]

theorem exists_readKey (h : KeyText s) (mode : Mode) :
    ∃ o : Option String, (mode = .lenient → o.isSome = true) ∧
      ∀ rest, readKey? mode (s ++ ':' :: rest) = o.map fun key => (key, rest) := by
  obtain ⟨hfront, hbody, hback⟩ := h
  obtain ⟨o, hlenient, hread⟩ := exists_readString hbody mode
  exact ⟨o, hlenient, readKey?_text hfront hback hread⟩

theorem exists_reads_member {m : List Char × List Char} (hkey : KeyText m.1) {mode : Mode}
    {value : List Char → Option (Json × List Char)} {v : Option Json} (hvalue : Reads value m.2 v) :
    ∃ o, Reads (readMember mode value) (pairText m) o ∧
      (mode = .lenient → v.isSome = true → o.isSome = true) := by
  obtain ⟨key, hlenient, hread⟩ := exists_readKey hkey mode
  refine ⟨key.bind fun k => v.map fun v => (k, v), ?_, ?_⟩
  · intro rest hrest
    obtain ⟨back, hback, hvalue⟩ := hvalue rest hrest
    refine ⟨back, hback, ?_⟩
    rw [pairText, List.append_assoc, List.cons_append, readMember, hread]
    cases key with
    | none => rfl
    | some k =>
      simp only [Option.map_some, Option.bind_eq_bind, Option.bind_some, hvalue]
      cases v <;> rfl
  · intro hmode hv
    obtain ⟨k, rfl⟩ := Option.isSome_iff_exists.mp (hlenient hmode)
    rw [Option.bind_some, Option.isSome_map]
    exact hv

/-! ### Values -/

theorem readScalar_number {c : Char} {r : List Char} (hc : Number.isDigit c = true ∨ c = '-') :
    readScalar mode (c :: r) = (readNumber mode (c :: r)).map fun (n, r) => (.number n, r) := by
  rw [readScalar]
  · exact fun r h => ne_of_startsNumber hc (by decide) (by decide) (List.cons.inj h).1
  · exact fun r h => ne_of_startsNumber hc (by decide) (by decide) (List.cons.inj h).1
  · exact fun r h => ne_of_startsNumber hc (by decide) (by decide) (List.cons.inj h).1
  · exact fun r h => ne_of_startsNumber hc (by decide) (by decide) (List.cons.inj h).1

theorem ValueText.exists_skipSpace (h : ValueText s) (rest : List Char) :
    ∃ c r, skipSpace (s ++ rest) = c :: r ∧ c ≠ ']' := by
  induction h generalizing rest with
  | null => exact ⟨'n', _, rfl, by decide⟩
  | true => exact ⟨'t', _, rfl, by decide⟩
  | false => exact ⟨'f', _, rfl, by decide⟩
  | number h =>
    obtain ⟨c, r, rfl, hc⟩ := h.exists_eq_cons
    exact ⟨c, r ++ rest, skipSpace_cons (isSpace_of_startsNumber hc) _,
      ne_of_startsNumber hc (by decide) (by decide)⟩
  | string => exact ⟨'"', _, rfl, by decide⟩
  | array => exact ⟨'[', _, rfl, by decide⟩
  | object => exact ⟨'\x7b', _, rfl, by decide⟩
  | padded hfront _ _ ih =>
    rw [List.append_assoc, skipSpace_append hfront, List.append_assoc]
    exact ih _

theorem reads_number (h : NumberText s) (mode : Mode) (depth : Nat) :
    ∃ o, Reads (readValue mode depth) s o ∧ (mode = .lenient → o.isSome = true) := by
  obtain ⟨o, hlenient, hread⟩ := exists_readNumber h mode
  obtain ⟨c, r, rfl, hc⟩ := h.exists_eq_cons
  refine ⟨o.map Json.number, reads_of_eq fun rest hrest => ?_, fun hmode => ?_⟩
  · have hnumber := hread rest hrest
    rw [List.cons_append] at hnumber ⊢
    rw [readValue_scalar (isSpace_of_startsNumber hc)
      (ne_of_startsNumber hc (by decide) (by decide))
      (ne_of_startsNumber hc (by decide) (by decide)), readScalar_number hc, hnumber,
      Option.map_map, Option.map_map]
    rfl
  · rw [Option.isSome_map]
    exact hlenient hmode

theorem reads_quoted {mode : Mode} {o : Option String}
    (h : ∀ rest, readString? mode (s ++ '"' :: rest) = o.map fun x => (x, rest)) (depth : Nat) :
    Reads (readValue mode depth) ('"' :: (s ++ ['"'])) (o.map .string) := by
  apply reads_of_eq
  intro rest _
  rw [List.cons_append, List.append_assoc, List.singleton_append,
    readValue_scalar (by decide) (by decide) (by decide)]
  show (readString? mode (s ++ '"' :: rest)).map _ = _
  rw [h, Option.map_map, Option.map_map]
  rfl

theorem reads_string (h : StringBody s) (mode : Mode) (depth : Nat) :
    ∃ o, Reads (readValue mode depth) ('"' :: (s ++ ['"'])) o ∧
      (mode = .lenient → o.isSome = true) := by
  obtain ⟨o, hlenient, hread⟩ := exists_readString h mode
  refine ⟨o.map .string, reads_quoted hread depth, ?_⟩
  intro hmode
  rw [Option.isSome_map]
  exact hlenient hmode

theorem reads_padded {front back : List Char} {o : Option Json} (hfront : Spaces front)
    (hback : Spaces back) (h : Reads (readValue mode depth) s o) :
    Reads (readValue mode depth) (front ++ (s ++ back)) o := by
  intro rest hrest
  obtain ⟨behind, hbehind, hread⟩ := h (back ++ rest) (endsNumber_append hback hrest)
  refine ⟨behind ++ back, hbehind.append hback, ?_⟩
  rw [List.append_assoc, readValue_congr (skipSpace_append hfront _), List.append_assoc, hread,
    List.append_assoc]

theorem endsNumber_close {c : Char} (hc : c = ']' ∨ c = '\x7d') (r : List Char) :
    EndsNumber (c :: r) := by
  intro d hd
  cases hd
  rcases hc with rfl | rfl <;> decide

theorem reads_array {blank : List Char} {entries : List (List Char × Option Json)}
    (hblank : Spaces blank) (hread : ∀ e ∈ entries, Reads (readValue mode depth) e.1 e.2)
    (hhead : ∀ e ∈ entries, ∀ rest, ∃ c r, skipSpace (e.1 ++ rest) = c :: r ∧ c ≠ ']') :
    Reads (readValue mode (depth + 1))
      ('[' :: (blank ++ (commaText (entries.map Prod.fst) ++ [']'])))
      ((entries.mapM Prod.snd).map Json.array) := by
  apply reads_of_eq
  intro rest _
  have hsequence := readSequence_texts ']' (by decide) (by decide)
    (endsNumber_close (Or.inl rfl)) hread hhead (fun _ _ h => readValue_congr h) hblank rest
  rw [List.cons_append, List.append_assoc, List.append_assoc, List.singleton_append, readValue,
    skipSpace_cons (show isSpace '[' = false from rfl)]
  simp only [hsequence, Option.map_map]
  rfl

theorem reads_object {blank : List Char} {entries : List (List Char × Option (String × Json))}
    (hblank : Spaces blank)
    (hread : ∀ e ∈ entries, Reads (readMember mode (readValue mode depth)) e.1 e.2)
    (hhead : ∀ e ∈ entries, ∀ rest, ∃ c r, skipSpace (e.1 ++ rest) = c :: r ∧ c ≠ '\x7d') :
    Reads (readValue mode (depth + 1))
      ('\x7b' :: (blank ++ (commaText (entries.map Prod.fst) ++ ['\x7d'])))
      ((entries.mapM Prod.snd).map fun members => .object (ofEntries members)) := by
  apply reads_of_eq
  intro rest _
  have hitem : ∀ s u, skipSpace s = skipSpace u →
      readMember mode (readValue mode depth) s = readMember mode (readValue mode depth) u := by
    intro s u h
    rw [readMember, readMember, readKey?_congr h]
  have hsequence := readSequence_texts '\x7d' (by decide) (by decide)
    (endsNumber_close (Or.inr rfl)) hread hhead hitem hblank rest
  rw [List.cons_append, List.append_assoc, List.append_assoc, List.singleton_append, readValue,
    skipSpace_cons (show isSpace '\x7b' = false from rfl)]
  simp only [hsequence, Option.map_map]
  rfl

theorem skipSpace_pairText {m : List Char × List Char} (hkey : KeyText m.1) (rest : List Char) :
    ∃ c r, skipSpace (pairText m ++ rest) = c :: r ∧ c ≠ '\x7d' := by
  obtain ⟨r, hr⟩ := skipSpace_keyText hkey (':' :: m.2 ++ rest)
  refine ⟨'"', r, ?_, by decide⟩
  rw [pairText, List.append_assoc]
  exact hr

/-- **What the reader makes of a value depends on its text alone**, and in lenient mode it takes
every value. -/
theorem exists_reads_value (h : ValueText s) (mode : Mode) (depth : Nat) :
    ∃ o, Reads (readValue mode depth) s o ∧
      (mode = .lenient → s.length ≤ depth → o.isSome = true) := by
  induction h generalizing depth with
  | null =>
    refine ⟨some .null, reads_of_eq fun rest _ => ?_, fun _ _ => rfl⟩
    exact readValue_scalar (by decide) (by decide) (by decide)
  | true =>
    refine ⟨some (.bool Bool.true), reads_of_eq fun rest _ => ?_, fun _ _ => rfl⟩
    exact readValue_scalar (by decide) (by decide) (by decide)
  | false =>
    refine ⟨some (.bool Bool.false), reads_of_eq fun rest _ => ?_, fun _ _ => rfl⟩
    exact readValue_scalar (by decide) (by decide) (by decide)
  | number h =>
    obtain ⟨o, hread, hlenient⟩ := reads_number h mode depth
    exact ⟨o, hread, fun hmode _ => hlenient hmode⟩
  | string h =>
    obtain ⟨o, hread, hlenient⟩ := reads_string h mode depth
    exact ⟨o, hread, fun hmode _ => hlenient hmode⟩
  | padded hfront _ hback ih =>
    obtain ⟨o, hread, hlenient⟩ := ih depth
    refine ⟨o, reads_padded hfront hback hread, fun hmode hlength => hlenient hmode ?_⟩
    rw [List.length_append, List.length_append] at hlength
    omega
  | @array blank items hblank hitems ih =>
    cases depth with
    | zero => exact ⟨none, reads_of_eq fun rest _ => rfl, fun _ hlength => by cases hlength⟩
    | succ depth =>
      obtain ⟨entries, htexts, hentries⟩ := exists_entries id
        (P := fun t o => ValueText t ∧ Reads (readValue mode depth) t o ∧
          (mode = .lenient → t.length ≤ depth → o.isSome = Bool.true))
        fun t ht => (ih t ht depth).imp fun o ho => ⟨hitems t ht, ho⟩
      rw [List.map_id] at htexts
      subst htexts
      refine ⟨_, reads_array hblank (fun e he => (hentries e he).2.1)
        (fun e he => (hentries e he).1.exists_skipSpace), fun hmode hlength => ?_⟩
      rw [Option.isSome_map]
      refine isSome_mapM fun e he => (hentries e he).2.2 hmode ?_
      have hshort := length_le_commaText_of_mem (List.mem_map_of_mem (f := Prod.fst) he)
      simp only [List.length_cons, List.length_append] at hlength
      omega
  | @object blank members hblank hkeys hmembers ih =>
    cases depth with
    | zero => exact ⟨none, reads_of_eq fun rest _ => rfl, fun _ hlength => by cases hlength⟩
    | succ depth =>
      obtain ⟨entries, htexts, hentries⟩ := exists_entries pairText
        (P := fun t o => (∀ rest, ∃ c r, skipSpace (t ++ rest) = c :: r ∧ c ≠ '\x7d') ∧
          Reads (readMember mode (readValue mode depth)) t o ∧
          (mode = .lenient → t.length ≤ depth → o.isSome = Bool.true)) (by
          intro m hm
          obtain ⟨v, hvalue, hsome⟩ := ih m hm depth
          obtain ⟨o, hread, hmember⟩ := exists_reads_member (hkeys m hm) hvalue
          refine ⟨o, skipSpace_pairText (hkeys m hm), hread, fun hmode hlength => ?_⟩
          apply hmember hmode (hsome hmode _)
          rw [pairText, List.length_append, List.length_cons] at hlength
          omega)
      rw [← htexts]
      refine ⟨_, reads_object hblank (fun e he => (hentries e he).2.1)
        (fun e he => (hentries e he).1), fun hmode hlength => ?_⟩
      rw [Option.isSome_map]
      refine isSome_mapM fun e he => (hentries e he).2.2 hmode ?_
      have hshort := length_le_commaText_of_mem (List.mem_map_of_mem (f := Prod.fst) he)
      simp only [List.length_cons, List.length_append] at hlength
      omega

/-- A value that nobody looks at is passed over, however deep it is. -/
theorem reads_skipped (h : ValueText s) (a : α) :
    Reads (fun s => (skipValue? s).map fun r => (a, r)) s (some a) := by
  intro rest hrest
  obtain ⟨o, hread, hlenient⟩ := exists_reads_value h .lenient (s ++ rest).length
  obtain ⟨back, hback, hread⟩ := hread rest hrest
  obtain ⟨v, rfl⟩ := Option.isSome_iff_exists.mp
    (hlenient rfl (by rw [List.length_append]; exact Nat.le_add_right _ _))
  refine ⟨back, hback, ?_⟩
  simp only [skipValue?, hread]
  rfl

end TableAccess.Json
