import TableAccess.Proofs.Json.Escape
import TableAccess.Proofs.Json.Reread
import TableAccess.Proofs.Text.Utf8

/-!
# Reading a written value

The printer puts every item and every member on a line of its own.  The reader passes over the
start of the line, takes the text of the item and stops before the comma or the closing bracket,
so an induction over the value carries the statement that its text is read whatever stands behind
it.  What is read is the value itself, but for its floating point numbers.
-/

namespace TableAccess.Json

variable {rest : List Char} {depth level : Nat}

/-- Values with a text: whole numbers of 64 bits, objects with distinct keys, and brackets nested at
most so deep. -/
inductive Writable : Nat → Json → Prop where
  | null {depth : Nat} : Writable depth .null
  | bool {depth : Nat} (b : Bool) : Writable depth (.bool b)
  | integer {depth : Nat} {i : Int} (h : FitsWord i) : Writable depth (.number (.integer i))
  | float {depth : Nat} (x : Number.Binary64) : Writable depth (.number (.float x))
  | string {depth : Nat} (s : String) : Writable depth (.string s)
  | array {depth : Nat} {items : List Json} (h : ∀ v ∈ items, Writable depth v) :
      Writable (depth + 1) (.array items)
  | object {depth : Nat} {members : List (String × Json)} (hkeys : (members.map Prod.fst).Nodup)
      (h : ∀ m ∈ members, Writable depth m.2) : Writable (depth + 1) (.object members)

/-- The value that is read where a value was written. -/
def reread : Json → Json
  | .null => .null
  | .bool b => .bool b
  | .number (.integer i) => .number (.integer i)
  | .number (.float x) => match reread? x with
    | some y => .number (.float y)
    | none => .null
  | .string s => .string s
  | .array items => .array (items.map reread)
  | .object members => .object (members.map fun m => (m.1, reread m.2))
  termination_by v => v
  decreasing_by
    · decreasing_tactic
    · rename_i hm
      have hlt := List.sizeOf_lt_of_mem hm
      cases m
      simp only [Prod.mk.sizeOf_spec, Json.object.sizeOf_spec] at *
      omega

/-! ### Blanks between the parts -/

theorem skipSpace_cons {c : Char} (hc : isSpace c = false) (r : List Char) :
    skipSpace (c :: r) = c :: r :=
  List.dropWhile_cons_of_neg (by rw [hc]; exact Bool.false_ne_true)

theorem skipSpace_newLine (level : Nat) (s : List Char) :
    skipSpace (newLine level ++ s) = skipSpace s := by
  refine List.dropWhile_append_of_pos fun c hc => ?_
  rcases List.mem_cons.mp hc with rfl | hc
  · rfl
  · rw [(List.mem_replicate.mp hc).2]
    rfl

theorem expect?_of_skipSpace {c : Char} {s r : List Char} (h : skipSpace s = c :: r) :
    expect? c s = some r := by
  simp only [expect?, h, beq_self_eq_true, if_true]

theorem readValue_congr {mode : Mode} {s t : List Char} (h : skipSpace s = skipSpace t) :
    readValue mode depth s = readValue mode depth t := by
  cases depth with
  | zero => rw [readValue, readValue, h]
  | succ depth => rw [readValue, readValue, h]

theorem endsNumber_cons {c : Char} (r : List Char) (hc : c = ',' ∨ c = '\n') :
    EndsNumber (c :: r) := by
  intro d hd
  cases hd
  rcases hc with rfl | rfl
  · decide
  · decide

/-! ### Lines -/

/-- Texts, each on a line of its own, with commas after all but the last. -/
def lines (level : Nat) : List (List Char) → List Char
  | [] => []
  | [t] => newLine level ++ t
  | t :: u :: r => newLine level ++ (t ++ ',' :: lines level (u :: r))

/-- A key with its value. -/
def memberText (level : Nat) (m : String × Json) : List Char :=
  stringText m.1 ++ ':' :: ' ' :: prettyAt level m.2

theorem prettyItems_eq (level : Nat) (items : List Json) :
    prettyItems level items = lines level (items.map (prettyAt level)) := by
  induction items with
  | nil => rfl
  | cons v r ih =>
    cases r with
    | nil => rfl
    | cons w r =>
      rw [prettyItems, ih]
      rfl

theorem prettyMembers_eq (level : Nat) (members : List (String × Json)) :
    prettyMembers level members = lines level (members.map (memberText level)) := by
  induction members with
  | nil => rfl
  | cons m r ih =>
    cases r with
    | nil => rfl
    | cons n r =>
      rw [prettyMembers, ih]
      show _ = newLine level ++ ((stringText m.1 ++ ':' :: ' ' :: prettyAt level m.2) ++ _)
      rw [List.append_assoc]
      rfl

theorem length_le_lines (level : Nat) (texts : List (List Char)) :
    texts.length ≤ (lines level texts).length := by
  induction texts with
  | nil => exact Nat.le_refl 0
  | cons t r ih =>
    cases r with
    | nil => exact Nat.succ_le_succ (Nat.zero_le _)
    | cons u r =>
      simp only [lines, List.length_append, List.length_cons] at ih ⊢
      omega

section

variable {α β : Type} {item : List Char → Option (β × List Char)} {text : α → List Char}
  {read : α → β} {close : Char} {as : List α}

/-- Items on their lines are read one by one up to the closing character. -/
theorem readMore_lines (outer : Nat) (hspace : isSpace close = false) (hcomma : close ≠ ',')
    (hne : as ≠ []) {fuel : Nat} (hfuel : as.length ≤ fuel)
    (hitem : ∀ a ∈ as, ∀ rest, EndsNumber rest →
      item (newLine level ++ (text a ++ rest)) = some (read a, rest)) (rest : List Char) :
    readMore item close fuel (lines level (as.map text) ++ (newLine outer ++ close :: rest)) =
      some (as.map read, rest) := by
  induction as generalizing fuel with
  | nil => exact absurd rfl hne
  | cons a as ih =>
    obtain ⟨k, rfl⟩ := Nat.exists_eq_add_one.mpr (Nat.lt_of_lt_of_le (Nat.succ_pos as.length) hfuel)
    cases as with
    | nil =>
      have hread := hitem a List.mem_cons_self (newLine outer ++ close :: rest)
        (endsNumber_cons _ (Or.inr rfl))
      have hskip : skipSpace (newLine outer ++ close :: rest) = close :: rest := by
        rw [skipSpace_newLine, skipSpace_cons hspace]
      rw [List.map_cons, List.map_nil, lines, List.append_assoc, readMore, hread]
      simp only [hskip, beq_self_eq_true, if_true, List.map_cons, List.map_nil]
    | cons b as =>
      have htail := ih (List.cons_ne_nil b as) (Nat.le_of_succ_le_succ hfuel)
        fun c hc => hitem c (List.mem_cons_of_mem a hc)
      have hread := hitem a List.mem_cons_self
        (',' :: (lines level ((b :: as).map text) ++ (newLine outer ++ close :: rest)))
        (endsNumber_cons _ (Or.inl rfl))
      have hclose : (',' == close) = false := by
        rw [beq_eq_false_iff_ne]
        exact Ne.symm hcomma
      rw [List.map_cons, List.map_cons, lines, List.append_assoc, List.append_assoc,
        List.cons_append, readMore, ← List.map_cons, hread]
      simp only [skipSpace_cons (show isSpace ',' = false from rfl), hclose, beq_self_eq_true,
        if_true, Bool.false_eq_true, if_false, htail]
      rfl

theorem readSequence_lines (outer : Nat) (hspace : isSpace close = false) (hcomma : close ≠ ',')
    (hne : as ≠ [])
    (hhead : ∀ a ∈ as, ∃ c r, text a = c :: r ∧ isSpace c = false ∧ c ≠ close)
    (hitem : ∀ a ∈ as, ∀ rest, EndsNumber rest →
      item (newLine level ++ (text a ++ rest)) = some (read a, rest)) (rest : List Char) :
    readSequence item close (lines level (as.map text) ++ (newLine outer ++ close :: rest)) =
      some (as.map read, rest) := by
  have hfuel : as.length ≤
      (lines level (as.map text) ++ (newLine outer ++ close :: rest)).length + 1 := by
    have hlines := length_le_lines level (as.map text)
    rw [List.length_map] at hlines
    rw [List.length_append]
    omega
  have hread := readMore_lines outer hspace hcomma hne hfuel hitem rest
  obtain ⟨a, r, has⟩ := List.exists_cons_of_ne_nil hne
  obtain ⟨c, s, htext, hc, hclose⟩ := hhead a (by rw [has]; exact List.mem_cons_self)
  -- the first item does not start like the closing character, so the reader looks for items
  have hfirst : ∃ r', lines level (as.map text) = newLine level ++ c :: r' := by
    rw [has, List.map_cons, htext]
    cases r with
    | nil => exact ⟨s, rfl⟩
    | cons b r => exact ⟨_, rfl⟩
  obtain ⟨r', hr'⟩ := hfirst
  have hskip : skipSpace (lines level (as.map text) ++ (newLine outer ++ close :: rest)) =
      c :: (r' ++ (newLine outer ++ close :: rest)) := by
    rw [hr', List.append_assoc, skipSpace_newLine, List.cons_append, skipSpace_cons hc]
  have hopen : (c == close) = false := by rwa [beq_eq_false_iff_ne]
  simp only [readSequence, hskip, hopen, Bool.false_eq_true, if_false, hread]

end

/-! ### Scalars -/

theorem readValue_scalar {mode : Mode} {c : Char} {r : List Char} (hspace : isSpace c = false)
    (harray : c ≠ '[') (hobject : c ≠ '\x7b') :
    readValue mode depth (c :: r) = readScalar mode (c :: r) := by
  have hskip := skipSpace_cons hspace r
  cases depth with
  | zero =>
    rw [readValue, hskip]
    split
    case h_1 h => exact absurd (List.cons.inj h).1 harray
    case h_2 h => exact absurd (List.cons.inj h).1 hobject
    case h_3 => rfl
  | succ depth =>
    rw [readValue, hskip]
    split
    case h_1 h => exact absurd (List.cons.inj h).1 harray
    case h_2 h => exact absurd (List.cons.inj h).1 hobject
    case h_3 => rfl

theorem ne_of_startsNumber {c d : Char} (hc : Number.isDigit c = true ∨ c = '-')
    (hd : Number.isDigit d = false) (hminus : d ≠ '-') : c ≠ d := by
  rintro rfl
  rcases hc with hc | hc
  · rw [hc] at hd
    cases hd
  · exact hminus hc

theorem isSpace_of_startsNumber {c : Char} (hc : Number.isDigit c = true ∨ c = '-') :
    isSpace c = false := by
  simp only [isSpace, Bool.or_eq_false_iff, beq_eq_false_iff_ne]
  exact ⟨⟨⟨ne_of_startsNumber hc (by decide) (by decide),
    ne_of_startsNumber hc (by decide) (by decide)⟩,
    ne_of_startsNumber hc (by decide) (by decide)⟩,
    ne_of_startsNumber hc (by decide) (by decide)⟩

/-- A text that starts like a number is read by the reader of numbers. -/
theorem readValue_number {mode : Mode} {s : List Char} {n : JsonNumber}
    (hs : ∃ c r, s = c :: r ∧ (Number.isDigit c = true ∨ c = '-'))
    (hread : readNumber mode (s ++ rest) = some (n, rest)) :
    readValue mode depth (s ++ rest) = some (.number n, rest) := by
  obtain ⟨c, r, rfl, hc⟩ := hs
  rw [List.cons_append] at hread ⊢
  rw [readValue_scalar (isSpace_of_startsNumber hc)
    (ne_of_startsNumber hc (by decide) (by decide))
    (ne_of_startsNumber hc (by decide) (by decide)), readScalar]
  · rw [hread]
    rfl
  · exact fun r h => ne_of_startsNumber hc (by decide) (by decide) (List.cons.inj h).1
  · exact fun r h => ne_of_startsNumber hc (by decide) (by decide) (List.cons.inj h).1
  · exact fun r h => ne_of_startsNumber hc (by decide) (by decide) (List.cons.inj h).1
  · exact fun r h => ne_of_startsNumber hc (by decide) (by decide) (List.cons.inj h).1

/-- A number is read as it is written, or as null if it is not finite. -/
theorem readValue_float (x : Number.Binary64) (h : EndsNumber rest) :
    readValue .strict depth (numberText (.float x) ++ rest) =
      some (reread (.number (.float x)), rest) := by
  rw [numberText, reread]
  split
  case isTrue hx =>
    obtain ⟨y, hy, -⟩ := exists_reread hx
    have hread := readNumber_float hx h
    rw [hy, Option.map_some] at hread
    rw [hy]
    exact readValue_number (exists_text_eq_cons (Number.Binary64.code_lt_infinityBits hx)) hread
  case isFalse hx =>
    rw [reread?, if_neg hx]
    exact readValue_scalar (by decide) (by decide) (by decide)

/-! ### Members -/

/-- A key that is not there yet comes last. -/
theorem put_of_not_mem {key : String} {value : Json} {members : List (String × Json)}
    (h : key ∉ members.map Prod.fst) : put key value members = members ++ [(key, value)] := by
  induction members with
  | nil => rfl
  | cons m r ih =>
    obtain ⟨k, v⟩ := m
    rw [List.map_cons, List.mem_cons, not_or] at h
    have hk : (k == key) = false := by
      rw [beq_eq_false_iff_ne]
      exact Ne.symm h.1
    rw [put, hk, if_neg Bool.false_ne_true, ih h.2, List.cons_append]

theorem foldl_put {members entries : List (String × Json)}
    (h : ((members ++ entries).map Prod.fst).Nodup) :
    entries.foldl (fun members entry => put entry.1 entry.2 members) members =
      members ++ entries := by
  induction entries generalizing members with
  | nil => rw [List.foldl_nil, List.append_nil]
  | cons e entries ih =>
    have hnew : e.1 ∉ members.map Prod.fst := by
      rw [List.map_append, List.nodup_append] at h
      exact fun he => h.2.2 e.1 he e.1 List.mem_cons_self rfl
    have hput : put e.1 e.2 members = members ++ [e] := put_of_not_mem hnew
    have hall : members ++ e :: entries = (members ++ [e]) ++ entries := by
      rw [List.append_assoc, List.singleton_append]
    rw [hall] at h ⊢
    rw [List.foldl_cons, hput, ih h]

/-- Entries with distinct keys are the members as they stand. -/
theorem ofEntries_eq_self {entries : List (String × Json)}
    (h : (entries.map Prod.fst).Nodup) : ofEntries entries = entries := foldl_put h

theorem readMember_newLine {key : String} {v w : Json}
    (hread : readValue .strict depth (prettyAt level v ++ rest) = some (w, rest)) :
    readMember .strict (readValue .strict depth)
      (newLine level ++ (memberText level (key, v) ++ rest)) = some ((key, w), rest) := by
  have htext : memberText level (key, v) ++ rest =
      '"' :: (key.toList.flatMap escapeChar ++
        '"' :: ':' :: ' ' :: (prettyAt level v ++ rest)) := by
    rw [memberText, List.append_assoc, stringText_append]
    rfl
  have hquote : expect? '"' (newLine level ++ (memberText level (key, v) ++ rest)) =
      some (key.toList.flatMap escapeChar ++ '"' :: ':' :: ' ' :: (prettyAt level v ++ rest)) := by
    refine expect?_of_skipSpace ?_
    rw [skipSpace_newLine, htext, skipSpace_cons (by decide)]
  have hkey := readString?_escaped key (':' :: ' ' :: (prettyAt level v ++ rest))
  have hcolon : expect? ':' (':' :: ' ' :: (prettyAt level v ++ rest)) =
      some (' ' :: (prettyAt level v ++ rest)) :=
    expect?_of_skipSpace (skipSpace_cons (by decide) _)
  have hvalue : readValue .strict depth (' ' :: (prettyAt level v ++ rest)) = some (w, rest) := by
    rw [← hread]
    exact readValue_congr rfl
  have hfront : readKey? .strict (newLine level ++ (memberText level (key, v) ++ rest)) =
      some (key, ' ' :: (prettyAt level v ++ rest)) := by
    simp [readKey?, hquote, hkey, hcolon]
  simp [readMember, hfront, hvalue]

/-! ### Values -/

theorem exists_prettyAt_eq_cons {v : Json} (h : Writable depth v) (level : Nat) :
    ∃ c r, prettyAt level v = c :: r ∧ isSpace c = false ∧ c ≠ ']' := by
  cases h with
  | null => exact ⟨'n', _, rfl, by decide, by decide⟩
  | bool b =>
    cases b with
    | false => exact ⟨'f', _, rfl, by decide, by decide⟩
    | true => exact ⟨'t', _, rfl, by decide, by decide⟩
  | @integer _ i hi =>
    obtain ⟨c, r, hcr, hc⟩ := Number.exists_intText_eq_cons i
    exact ⟨c, r, hcr, isSpace_of_startsNumber hc, ne_of_startsNumber hc (by decide) (by decide)⟩
  | float x =>
    show ∃ c r, (if x.isFinite then Number.Layout.json.text x else "null".toList) = c :: r ∧ _
    split
    case isTrue hx =>
      obtain ⟨c, r, hcr, hc⟩ := exists_text_eq_cons (Number.Binary64.code_lt_infinityBits hx)
      exact ⟨c, r, hcr, isSpace_of_startsNumber hc, ne_of_startsNumber hc (by decide) (by decide)⟩
    case isFalse => exact ⟨'n', _, rfl, by decide, by decide⟩
  | string s => exact ⟨'"', _, rfl, by decide, by decide⟩
  | @array _ items hitems =>
    cases items with
    | nil => exact ⟨'[', _, rfl, by decide, by decide⟩
    | cons v r => exact ⟨'[', _, rfl, by decide, by decide⟩
  | @object _ members hkeys hmembers =>
    cases members with
    | nil => exact ⟨'\x7b', _, rfl, by decide, by decide⟩
    | cons m r => exact ⟨'\x7b', _, rfl, by decide, by decide⟩

/-- **A value is read from its text**, at any nesting level and whatever follows, as long as that
does not continue a number. -/
theorem readValue_prettyAt {v : Json} (h : Writable depth v) (level : Nat) (rest : List Char)
    (hrest : EndsNumber rest) :
    readValue .strict depth (prettyAt level v ++ rest) = some (reread v, rest) := by
  induction h generalizing level rest with
  | null =>
    rw [reread]
    exact readValue_scalar (by decide) (by decide) (by decide)
  | bool b =>
    rw [reread]
    cases b with
    | false => exact readValue_scalar (by decide) (by decide) (by decide)
    | true => exact readValue_scalar (by decide) (by decide) (by decide)
  | @integer depth i hi =>
    rw [reread]
    exact readValue_number (Number.exists_intText_eq_cons i) (readNumber_intText .strict hi hrest)
  | float x => exact readValue_float x hrest
  | @string depth s =>
    have hread := readString?_escaped s rest
    rw [reread, prettyAt, stringText_append,
      readValue_scalar (by decide) (by decide) (by decide)]
    show (readString? .strict _).map _ = _
    rw [hread]
    rfl
  | @array depth items hitems ih =>
    have hskip := skipSpace_cons (show isSpace '[' = false from rfl)
    rw [reread]
    -- the items stand one level deeper, and the closing bracket on a line of this level
    cases items with
    | nil =>
      show readValue .strict (depth + 1) ('[' :: ']' :: rest) = _
      rw [readValue, hskip]
      rfl
    | cons v r =>
      have hread : readSequence (readValue .strict depth) ']'
          (lines (level + 1) ((v :: r).map (prettyAt (level + 1))) ++
            (newLine level ++ ']' :: rest)) = some ((v :: r).map reread, rest) := by
        refine readSequence_lines level (by decide) (by decide) (List.cons_ne_nil v r)
          (fun w hw => exists_prettyAt_eq_cons (hitems w hw) (level + 1)) ?_ rest
        intro w hw rest hrest
        rw [readValue_congr (skipSpace_newLine _ _)]
        exact ih w hw (level + 1) rest hrest
      rw [prettyAt, prettyItems_eq, List.cons_append, List.append_assoc, List.append_assoc,
        List.singleton_append, readValue, hskip]
      simp only [hread]
      rfl
  | @object depth members hkeys hmembers ih =>
    have hskip := skipSpace_cons (show isSpace '\x7b' = false from rfl)
    rw [reread]
    cases members with
    | nil =>
      show readValue .strict (depth + 1) ('\x7b' :: '\x7d' :: rest) = _
      rw [readValue, hskip]
      rfl
    | cons m r =>
      have hread : readSequence (readMember .strict (readValue .strict depth)) '\x7d'
          (lines (level + 1) ((m :: r).map (memberText (level + 1))) ++
            (newLine level ++ '\x7d' :: rest)) =
              some ((m :: r).map fun n => (n.1, reread n.2), rest) := by
        refine readSequence_lines level (by decide) (by decide) (List.cons_ne_nil m r)
          (fun n hn => ⟨'"', _, rfl, by decide, by decide⟩) ?_ rest
        intro n hn rest hrest
        exact readMember_newLine (ih n hn (level + 1) rest hrest)
      have hsame : ((m :: r).map fun n => (n.1, reread n.2)).map Prod.fst = (m :: r).map Prod.fst :=
        List.map_map
      rw [prettyAt, prettyMembers_eq, List.cons_append, List.append_assoc, List.append_assoc,
        List.singleton_append, readValue, hskip]
      simp only [hread, Option.map_some, ofEntries_eq_self (hsame ▸ hkeys)]

theorem parse?_pretty {v : Json} (h : Writable maxDepth v) : parse? v.pretty = some (reread v) := by
  have hread := readValue_prettyAt h 0 [] endsNumber_nil
  rw [List.append_nil] at hread
  rw [parse?, pretty, hread]
  rfl

/-- The bytes of a written text are read as the value. -/
theorem ofBytes?_pretty {v : Json} (h : Writable maxDepth v) :
    ofBytes? (String.ofList v.pretty).toUTF8.toList = some (reread v) := by
  rw [ofBytes?, Text.toUTF8_toList, Text.decode_encode, Option.bind_some, parse?_pretty h]

end TableAccess.Json
