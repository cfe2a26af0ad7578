import TableAccess.Proofs.Text.Blank
import TableAccess.Proofs.Text.Case
import TableAccess.Query

/-!
# The grammar of queries

A query is the word `SELECT`, a star, the word `FROM` and a table, with blanks between them, and
perhaps a semicolon.  The grammar says so without a reader; the reader accepts exactly its texts,
and each with the name that the grammar gives it.
-/

namespace TableAccess.Query

open TableAccess.Text

/-! ### The grammar -/

/-- A run of blanks. -/
def Blanks (w : List Char) : Prop := ∀ c ∈ w, isBlank c = true

/-- The quotes that open and close the name of a table. -/
def quotePairs : List (Char × Char) := [('"', '"'), ('\'', '\''), ('\x60', '\x60'), ('[', ']')]

/-- The texts that name a table. -/
inductive TableText (name : List Char) : List Char → Prop
  | bare : name ≠ [] → (∀ c ∈ name, isNameChar c = true) → TableText name name
  | quoted {opening close : Char} : (opening, close) ∈ quotePairs → name ≠ [] →
      (∀ c ∈ name, isQuote c = false) → TableText name (opening :: (name ++ [close]))

/-- The texts from the first word to the name of a table. -/
inductive Core (name : List Char) : List Char → Prop
  | intro {select w₁ w₂ source w₃ t : List Char} :
      sameIgnoringCase select "SELECT".toList = true → Blanks w₁ → w₁ ≠ [] →
      Blanks w₂ → w₂ ≠ [] →
      sameIgnoringCase source "FROM".toList = true → Blanks w₃ → w₃ ≠ [] →
      TableText name t →
      Core name (select ++ (w₁ ++ '*' :: (w₂ ++ (source ++ (w₃ ++ t)))))

/-- What may end a query: nothing, or a semicolon and blanks. -/
inductive Ending : List Char → Prop
  | nothing : Ending []
  | semicolon {w : List Char} : Blanks w → Ending (';' :: w)

/-- The queries that select all rows of a table. -/
inductive Selects (name : List Char) : List Char → Prop
  | intro {w₀ core w₄ ending : List Char} :
      Blanks w₀ → Core name core → Blanks w₄ → Ending ending →
      Selects name (w₀ ++ (core ++ (w₄ ++ ending)))

/-! ### Names of tables -/

theorem not_isBlank_of_isNameChar {c : Char} (h : isNameChar c = true) : isBlank c = false := by
  cases hb : isBlank c with
  | false => rfl
  | true =>
    have hne : ∀ d : Char, isBlank d = false → c ≠ d := by
      rintro d hd rfl
      rw [hb] at hd
      cases hd
    rw [isNameChar, not_isAlphanumeric_of_isBlank hb] at h
    simp only [Bool.false_or, Bool.or_eq_true, beq_iff_eq] at h
    rcases h with (h | h) | h
    · exact absurd h (hne '_' (by decide))
    · exact absurd h (hne '.' (by decide))
    · exact absurd h (hne '$' (by decide))

/-- A character that no name without quotes contains. -/
theorem ne_of_isNameChar {c d : Char} (h : isNameChar c = true) (hd : isNameChar d = false) :
    c ≠ d := by
  rintro rfl
  rw [h] at hd
  cases hd

theorem not_isNameChar_of_isQuote {c : Char} (h : isQuote c = true) : isNameChar c = false := by
  simp only [isQuote, Bool.or_eq_true, beq_iff_eq] at h
  rcases h with (((rfl | rfl) | rfl) | rfl) | rfl <;> decide +kernel

theorem closing?_eq_some_iff {opening close : Char} :
    closing? opening = some close ↔ (opening, close) ∈ quotePairs := by
  rw [closing?]
  simp only [quotePairs, List.mem_cons, Prod.mk.injEq, List.not_mem_nil, or_false,
    Bool.or_eq_true, beq_iff_eq]
  split
  case isTrue h => rcases h with (rfl | rfl) | rfl <;> simp [eq_comm]
  case isFalse h =>
    split
    case isTrue h' =>
      subst h'
      simp [eq_comm]
    case isFalse h' => simp_all

theorem isQuote_of_mem_quotePairs {opening close : Char} (h : (opening, close) ∈ quotePairs) :
    isQuote opening = true ∧ isQuote close = true := by
  have hall : ∀ pair ∈ quotePairs, isQuote pair.1 = true ∧ isQuote pair.2 = true := by decide
  exact hall (opening, close) h

theorem bareTable_eq_ok_iff {s name : List Char} :
    bareTable s = .ok name ↔ s = name ∧ ∀ c ∈ s, isNameChar c = true := by
  constructor
  · intro h
    rw [bareTable] at h
    split at h
    · cases h
    split at h
    · cases h
    split at h
    · cases h
    split at h
    · cases h
    case isFalse hall =>
      cases h
      refine ⟨rfl, fun c hc => ?_⟩
      rw [Bool.not_eq_true', Bool.not_eq_false] at hall
      exact List.all_eq_true.mp hall c hc
  · rintro ⟨rfl, hall⟩
    have hcomma : ¬ s.contains ',' = true := by
      rw [List.contains_iff_mem]
      exact fun hc => ne_of_isNameChar (hall _ hc) (by decide +kernel) rfl
    have hblank : ¬ s.any isBlank = true := by
      rw [List.any_eq_true]
      rintro ⟨c, hc, hb⟩
      rw [not_isBlank_of_isNameChar (hall c hc)] at hb
      cases hb
    have hquote : ¬ s.any isQuote = true := by
      rw [List.any_eq_true]
      rintro ⟨c, hc, hq⟩
      have hname := hall c hc
      rw [not_isNameChar_of_isQuote hq] at hname
      cases hname
    have hname : ¬ (!s.all isNameChar) = true := by
      rw [List.all_eq_true.mpr hall]
      exact Bool.false_ne_true
    rw [bareTable, if_neg hcomma, if_neg hblank, if_neg hquote, if_neg hname]

theorem quotedTable_eq_ok_iff {close : Char} {s name : List Char} (hclose : isQuote close = true) :
    quotedTable close s = .ok name ↔
      s = name ++ [close] ∧ name ≠ [] ∧ ∀ c ∈ name, isQuote c = false := by
  rw [quotedTable]
  constructor
  · intro h
    have hs : s.takeWhile (· != close) ++ s.dropWhile (· != close) = s :=
      List.takeWhile_append_dropWhile
    have hhead : ∀ c, (s.dropWhile (· != close)).head? = some c → (c != close) = false :=
      frontSharp_dropFront _ s
    generalize s.takeWhile (· != close) = before at hs h
    generalize s.dropWhile (· != close) = after at hs hhead h
    match after, hhead, h with
    | [], _, h => cases h
    | _ :: _ :: _, _, h => cases h
    | [c], hhead, h =>
      have hc : c = close := by simpa using hhead c rfl
      simp only at h
      split at h
      · cases h
      case isFalse hquote =>
        split at h
        · cases h
        case isFalse hempty =>
          cases h
          refine ⟨by rw [← hs, hc], ?_, ?_⟩
          · rwa [List.isEmpty_iff] at hempty
          · intro d hd
            cases hq : isQuote d with
            | false => rfl
            | true => exact absurd (List.any_eq_true.mpr ⟨d, hd, hq⟩) hquote
  · rintro ⟨rfl, hne, hall⟩
    have hinside : ∀ c ∈ name, (c != close) = true := by
      intro c hc
      rw [bne_iff_ne]
      rintro rfl
      rw [hall c hc] at hclose
      cases hclose
    have htake : (name ++ [close]).takeWhile (· != close) = name := by
      rw [List.takeWhile_append_of_pos hinside]
      simp
    have hdrop : (name ++ [close]).dropWhile (· != close) = [close] := by
      rw [List.dropWhile_append_of_pos hinside]
      simp
    have hquote : ¬ name.any isQuote = true := by
      rw [List.any_eq_true]
      rintro ⟨c, hc, hq⟩
      rw [hall c hc] at hq
      cases hq
    have hempty : ¬ name.isEmpty = true := by rwa [List.isEmpty_iff]
    rw [htake, hdrop]
    simp only
    rw [if_neg hquote, if_neg hempty]

/-- The reader of table names accepts exactly the texts that name a table. -/
theorem table_eq_ok_iff {t name : List Char} : table t = .ok name ↔ TableText name t := by
  cases t with
  | nil =>
    constructor
    · intro h
      cases h
    · intro h
      cases h with
      | bare hne _ => exact absurd rfl hne
  | cons c r =>
    rw [table]
    cases hclosing : closing? c with
    | some close =>
      have hpair : (c, close) ∈ quotePairs := closing?_eq_some_iff.mp hclosing
      obtain ⟨hopen, hclose⟩ := isQuote_of_mem_quotePairs hpair
      simp only
      rw [quotedTable_eq_ok_iff hclose]
      constructor
      · rintro ⟨rfl, hne, hall⟩
        exact .quoted hpair hne hall
      · intro h
        cases h with
        | bare _ hall =>
          have hname := hall c List.mem_cons_self
          rw [not_isNameChar_of_isQuote hopen] at hname
          cases hname
        | quoted hpair' hne hall =>
          rw [closing?_eq_some_iff.mpr hpair'] at hclosing
          cases hclosing
          exact ⟨rfl, hne, hall⟩
    | none =>
      simp only
      rw [bareTable_eq_ok_iff]
      constructor
      · rintro ⟨rfl, hall⟩
        exact .bare (List.cons_ne_nil c r) hall
      · intro h
        cases h with
        | bare _ hall => exact ⟨rfl, hall⟩
        | quoted hpair _ _ =>
          rw [closing?_eq_some_iff.mpr hpair] at hclosing
          cases hclosing

/-! ### Words and blanks -/

theorem startsBlank_of_blanks {w r : List Char} (hw : Blanks w) (hne : w ≠ []) :
    startsBlank (w ++ r) = true := by
  cases w with
  | nil => exact absurd rfl hne
  | cons c w => exact hw c List.mem_cons_self

theorem trimStart_blanks_append {w r : List Char} (hw : Blanks w) (hr : FrontSharp isBlank r) :
    trimStart (w ++ r) = r := by
  rw [trimStart, dropFront_append hw, dropFront_eq_self hr]

/-- A text that starts with a blank is blanks and a rest that does not. -/
theorem exists_blanks_trimStart {s : List Char} (h : startsBlank s = true) :
    ∃ w, Blanks w ∧ w ≠ [] ∧ s = w ++ trimStart s := by
  obtain ⟨w, hw, hs⟩ := exists_append_dropFront isBlank s
  refine ⟨w, hw, ?_, hs⟩
  rintro rfl
  cases s with
  | nil => cases h
  | cons c s =>
    have hc : isBlank c = false := by
      refine frontSharp_dropFront isBlank (c :: s) c ?_
      rw [← List.nil_append (dropFront isBlank (c :: s)), ← hs]
      rfl
    rw [startsBlank, hc] at h
    cases h

theorem takeKeyword?_eq_some_iff {keyword s r : List Char} :
    takeKeyword? keyword s = some r ↔
      ∃ word w, sameIgnoringCase word keyword = true ∧ Blanks w ∧ w ≠ [] ∧
        FrontSharp isBlank r ∧ s = word ++ (w ++ r) := by
  rw [takeKeyword?]
  constructor
  · intro h
    split at h
    case isTrue hcond =>
      obtain ⟨hsame, hblank⟩ := Bool.and_eq_true_iff.mp hcond
      obtain ⟨w, hw, hne, hs⟩ := exists_blanks_trimStart hblank
      obtain rfl := Option.some.inj h
      refine ⟨s.take keyword.length, w, hsame, hw, hne, frontSharp_dropFront isBlank _, ?_⟩
      rw [← hs, List.take_append_drop]
    case isFalse => cases h
  · rintro ⟨word, w, hsame, hw, hne, hr, rfl⟩
    have hlen : keyword.length = word.length := by
      have h := congrArg List.length (beq_iff_eq.mp hsame)
      rw [List.length_map, List.length_map] at h
      exact h.symm
    rw [hlen, List.take_left, List.drop_left, hsame, startsBlank_of_blanks hw hne,
      trimStart_blanks_append hw hr]
    rfl

theorem takeStar?_eq_some_iff {s r : List Char} :
    takeStar? s = some r ↔
      ∃ w, Blanks w ∧ w ≠ [] ∧ FrontSharp isBlank r ∧ s = '*' :: (w ++ r) := by
  constructor
  · intro h
    unfold takeStar? at h
    split at h
    case h_1 r' =>
      split at h
      case isTrue hblank =>
        obtain ⟨w, hw, hne, hs⟩ := exists_blanks_trimStart hblank
        obtain rfl := Option.some.inj h
        refine ⟨w, hw, hne, frontSharp_dropFront isBlank _, ?_⟩
        rw [← hs]
      case isFalse => cases h
    case h_2 => cases h
  · rintro ⟨w, hw, hne, hr, rfl⟩
    rw [takeStar?, startsBlank_of_blanks hw hne, trimStart_blanks_append hw hr]
    rfl

/-! ### From the first word to the table -/

/-- Only letters have another case, so a blank is no letter of a keyword in any case. -/
theorem not_isBlank_of_lowerAscii {c d : Char} (h : lowerAscii c = d) (hd : isBlank d = false) :
    isBlank c = false := by
  by_cases hc : IsCapital c
  · have hrange := isCapital_iff.mp hc
    simp only [isBlank, Bool.or_eq_false_iff, Bool.and_eq_false_iff, decide_eq_false_iff_not,
      beq_eq_false_iff_ne]
    omega
  · rw [lowerAscii_of_not_capital hc] at h
    rwa [h]

/-- A word that is a keyword in some case starts with no blank. -/
theorem frontSharp_word {word keyword r : List Char} {d : Char}
    (h : sameIgnoringCase word keyword = true) (hd : (keyword.map lowerAscii).head? = some d)
    (hblank : isBlank d = false) : FrontSharp isBlank (word ++ r) := by
  rw [← beq_iff_eq.mp h] at hd
  cases word with
  | nil => cases hd
  | cons c word =>
    rintro c' ⟨⟩
    exact not_isBlank_of_lowerAscii (Option.some.inj hd) hblank

theorem frontSharp_tableText {name t : List Char} (h : TableText name t) :
    FrontSharp isBlank t := by
  cases h with
  | bare hne hall =>
    intro c hc
    exact not_isBlank_of_isNameChar (hall c (List.mem_of_mem_head? hc))
  | @quoted opening close hpair _ _ =>
    rintro c ⟨⟩
    have hall : ∀ pair ∈ quotePairs, isBlank pair.1 = false := by decide
    exact hall (opening, close) hpair

theorem getLast?_tableText {name t : List Char} (h : TableText name t) :
    ∃ c, t.getLast? = some c ∧ isBlank c = false ∧ c ≠ ';' := by
  cases h with
  | bare hne hall =>
    have hlast := hall _ (List.getLast_mem hne)
    exact ⟨_, List.getLast?_eq_some_getLast hne, not_isBlank_of_isNameChar hlast,
      ne_of_isNameChar hlast (by decide +kernel)⟩
  | @quoted opening close hpair _ _ =>
    have hall : ∀ pair ∈ quotePairs, isBlank pair.2 = false ∧ pair.2 ≠ ';' := by decide
    refine ⟨close, ?_, hall (opening, close) hpair⟩
    rw [← List.cons_append, List.getLast?_concat]

theorem read_eq_ok_iff {s name : List Char} : read s = .ok name ↔ Core name (statement s) := by
  rw [read]
  constructor
  · intro h
    cases h₁ : takeKeyword? "SELECT".toList (statement s) with
    | none =>
      rw [h₁] at h
      cases h
    | some r₁ =>
      rw [h₁] at h
      simp only at h
      cases h₂ : takeStar? r₁ with
      | none =>
        rw [h₂] at h
        cases h
      | some r₂ =>
        rw [h₂] at h
        simp only at h
        cases h₃ : takeKeyword? "FROM".toList r₂ with
        | none =>
          rw [h₃] at h
          cases h
        | some t =>
          rw [h₃] at h
          obtain ⟨select, w₁, hselect, hw₁, hne₁, -, hs⟩ := takeKeyword?_eq_some_iff.mp h₁
          obtain ⟨w₂, hw₂, hne₂, -, rfl⟩ := takeStar?_eq_some_iff.mp h₂
          obtain ⟨source, w₃, hsource, hw₃, hne₃, -, rfl⟩ := takeKeyword?_eq_some_iff.mp h₃
          rw [hs]
          exact .intro hselect hw₁ hne₁ hw₂ hne₂ hsource hw₃ hne₃ (table_eq_ok_iff.mp h)
  · intro h
    generalize statement s = core at h
    cases h with
    | @intro select w₁ w₂ source w₃ t hselect hw₁ hne₁ hw₂ hne₂ hsource hw₃ hne₃ ht =>
      have hstar : FrontSharp isBlank ('*' :: (w₂ ++ (source ++ (w₃ ++ t)))) := by
        intro c hc
        obtain rfl : '*' = c := Option.some.inj hc
        decide
      have hfrom : FrontSharp isBlank (source ++ (w₃ ++ t)) :=
        frontSharp_word hsource rfl (by decide)
      have h₁ := takeKeyword?_eq_some_iff.mpr ⟨select, w₁, hselect, hw₁, hne₁, hstar, rfl⟩
      have h₂ := takeStar?_eq_some_iff.mpr ⟨w₂, hw₂, hne₂, hfrom, rfl⟩
      have h₃ := takeKeyword?_eq_some_iff.mpr
        ⟨source, w₃, hsource, hw₃, hne₃, frontSharp_tableText ht, rfl⟩
      rw [h₁]
      simp only
      rw [h₂]
      simp only
      rw [h₃]
      simp only
      exact table_eq_ok_iff.mpr ht

/-! ### The ends of a query -/

theorem getLast?_append_of_some {s t : List Char} {c : Char} (h : t.getLast? = some c) :
    (s ++ t).getLast? = some c := by
  rw [List.getLast?_append, h]
  rfl

theorem frontSharp_core {name core r : List Char} (h : Core name core) :
    FrontSharp isBlank (core ++ r) := by
  cases h with
  | intro hselect _ _ _ _ _ _ _ _ =>
    rw [List.append_assoc]
    exact frontSharp_word hselect rfl (by decide)

theorem getLast?_core {name core : List Char} (h : Core name core) :
    ∃ c, core.getLast? = some c ∧ isBlank c = false ∧ c ≠ ';' := by
  cases h with
  | @intro select w₁ w₂ source w₃ t _ _ _ _ _ _ _ _ ht =>
    obtain ⟨c, hc, hblank, hne⟩ := getLast?_tableText ht
    refine ⟨c, ?_, hblank, hne⟩
    have hsource := getLast?_append_of_some (s := source) (getLast?_append_of_some (s := w₃) hc)
    exact getLast?_append_of_some (getLast?_append_of_some
      (getLast?_append_of_some (s := ['*']) (getLast?_append_of_some hsource)))

/-- Blanks around a query, and a semicolon at its end, are no part of the statement. -/
theorem statement_of_core {name core w₀ w₄ ending : List Char} (hcore : Core name core)
    (hw₀ : Blanks w₀) (hw₄ : Blanks w₄) (hending : Ending ending) :
    statement (w₀ ++ (core ++ (w₄ ++ ending))) = core := by
  obtain ⟨c, hc, hblank, hne⟩ := getLast?_core hcore
  have hback : BackSharp isBlank core := by
    intro d hd
    rw [hc] at hd
    cases hd
    exact hblank
  cases hending with
  | nothing =>
    have htrim : trim (w₀ ++ (core ++ (w₄ ++ []))) = core := by
      rw [List.append_nil, trim, dropEnds_append hw₀ hw₄]
      refine dropEnds_eq_self ?_ hback
      have hfront := frontSharp_core (r := []) hcore
      rwa [List.append_nil] at hfront
    have hlast : ¬ (core.getLast? == some ';') = true := by
      rw [hc, beq_iff_eq]
      exact fun h => hne (Option.some.inj h)
    rw [statement, htrim, if_neg hlast]
  | @semicolon w₅ hw₅ =>
    have hshape : w₀ ++ (core ++ (w₄ ++ ';' :: w₅)) = w₀ ++ ((core ++ (w₄ ++ [';'])) ++ w₅) := by
      simp only [List.append_assoc, List.cons_append, List.nil_append]
    have hend : (core ++ (w₄ ++ [';'])).getLast? = some ';' :=
      getLast?_append_of_some List.getLast?_concat
    have htrim : trim (w₀ ++ ((core ++ (w₄ ++ [';'])) ++ w₅)) = core ++ (w₄ ++ [';']) := by
      rw [trim, dropEnds_append hw₀ hw₅]
      refine dropEnds_eq_self (frontSharp_core hcore) ?_
      intro d hd
      rw [hend] at hd
      cases hd
      decide
    have hlast : (core ++ (w₄ ++ [';'])).getLast? == some ';' := by
      rw [hend]
      rfl
    rw [hshape, statement, htrim, if_pos hlast, ← List.append_assoc, List.dropLast_concat, trimEnd,
      dropBack_append hw₄, dropBack_eq_self hback]

/-- Every text is its statement, between blanks and before an ending. -/
theorem exists_statement (s : List Char) :
    ∃ w₀ w₄ ending, Blanks w₀ ∧ Blanks w₄ ∧ Ending ending ∧
      s = w₀ ++ (statement s ++ (w₄ ++ ending)) := by
  obtain ⟨v, w, hv, hw, hs⟩ := exists_append_dropEnds isBlank s
  by_cases hlast : (trim s).getLast? == some ';'
  · obtain ⟨before, hbefore⟩ := List.getLast?_eq_some_iff.mp (beq_iff_eq.mp hlast)
    obtain ⟨w₄, hw₄, hd⟩ := exists_dropBack_append isBlank before
    have hstatement : statement s = trimEnd before := by
      rw [statement, if_pos hlast, hbefore, List.dropLast_concat]
    refine ⟨v, w₄, ';' :: w, hv, hw₄, .semicolon hw, ?_⟩
    have htrim : dropEnds isBlank s = before ++ [';'] := hbefore
    rw [hstatement, trimEnd, ← List.append_assoc (dropBack isBlank before), ← hd]
    rw [htrim, List.append_assoc] at hs
    exact hs
  · have hstatement : statement s = trim s := by rw [statement, if_neg hlast]
    refine ⟨v, w, [], hv, hw, .nothing, ?_⟩
    rw [hstatement, List.append_nil]
    exact hs

theorem selects_iff_core {s name : List Char} : Selects name s ↔ Core name (statement s) := by
  constructor
  · intro h
    cases h with
    | intro hw₀ hcore hw₄ hending => rwa [statement_of_core hcore hw₀ hw₄ hending]
  · intro h
    obtain ⟨w₀, w₄, ending, hw₀, hw₄, hending, hs⟩ := exists_statement s
    rw [hs]
    exact .intro hw₀ h hw₄ hending

/-- The reader accepts exactly the queries of the grammar, each with its name, and refuses every
other text unchanged. -/
theorem parse_accepts_grammar (q : String) :
    (∀ name : String, parse q = .ok name ↔ Selects name.toList q.toList) ∧
      ((∃ name, Selects name q.toList) ∨
        ∃ reason : Reason, parse q = .error (.unsupportedQuery q reason.message)) := by
  rw [parse]
  cases hread : read q.toList with
  | ok found =>
    have hfound : Selects found q.toList := selects_iff_core.mpr (read_eq_ok_iff.mp hread)
    refine ⟨fun name => ?_, Or.inl ⟨found, hfound⟩⟩
    rw [selects_iff_core, ← read_eq_ok_iff, hread]
    simp only [Except.ok.injEq]
    constructor
    · rintro rfl
      rw [String.toList_ofList]
    · rintro rfl
      rw [String.ofList_toList]
  | error reason =>
    refine ⟨fun name => ?_, Or.inr ⟨reason, rfl⟩⟩
    rw [selects_iff_core, ← read_eq_ok_iff, hread]
    simp

end TableAccess.Query
