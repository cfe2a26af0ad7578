import TableAccess.Sql.Identifier

/-!
# Scanning what was quoted

A quoted name is scanned to its end and no further, whatever stands in the name, as long as no
further quote follows it.  Nothing else is scanned as that name.

A reader that goes over a statement character by character, and looks ahead nowhere, never stands
outside of the identifier between its first quote and its last one.
-/

namespace TableAccess.Sql

variable {quote : Char} {name rest : List Char}

theorem scanQuoted_pair (s : List Char) :
    scanQuoted quote (quote :: quote :: s) =
      (scanQuoted quote s).map fun (name, rest) => (quote :: name, rest) := by
  simp [scanQuoted]

theorem scanQuoted_cons {c : Char} (hc : c ≠ quote) (s : List Char) :
    scanQuoted quote (c :: s) =
      (scanQuoted quote s).map fun (name, rest) => (c :: name, rest) := by
  cases s <;> simp [scanQuoted, hc]

theorem doubled_cons (quote c : Char) (name : List Char) :
    doubled quote (c :: name) =
      (if c = quote then [quote, quote] else [c]) ++ doubled quote name := List.flatMap_cons

theorem scanQuoted_doubled (hrest : rest.head? ≠ some quote) :
    scanQuoted quote (doubled quote name ++ quote :: rest) = some (name, rest) := by
  induction name with
  | nil =>
    show scanQuoted quote (quote :: rest) = some ([], rest)
    cases rest with
    | nil => simp [scanQuoted]
    | cons d r =>
      have hd : d ≠ quote := fun h => hrest (congrArg some h)
      simp [scanQuoted, hd]
  | cons c name ih =>
    rw [doubled_cons]
    by_cases hc : c = quote
    · simp [hc, scanQuoted_pair, ih]
    · simp [hc, scanQuoted_cons hc, ih]

theorem scanIdentifier_quoteIdentifier (hrest : rest.head? ≠ some quote) :
    scanIdentifier quote (quoteIdentifier quote name ++ rest) = some (name, rest) := by
  rw [quoteIdentifier, List.cons_append, scanIdentifier, if_pos rfl, List.append_assoc]
  exact scanQuoted_doubled hrest

/-- What is scanned behind an opening quote is a name with its quotes doubled, up to a quote that is
not. -/
theorem eq_of_scanQuoted {s : List Char} (h : scanQuoted quote s = some (name, rest)) :
    s = doubled quote name ++ quote :: rest ∧ rest.head? ≠ some quote := by
  fun_induction scanQuoted quote s generalizing name rest with
  | case1 => cases h
  | case2 r ih =>
    obtain ⟨⟨tail, rest'⟩, htail, hpair⟩ := Option.map_eq_some_iff.mp h
    cases hpair
    obtain ⟨rfl, hrest⟩ := ih htail
    refine ⟨?_, hrest⟩
    rw [doubled_cons, if_pos rfl]
    rfl
  | case3 d r hd =>
    cases h
    exact ⟨rfl, fun h => hd (Option.some.inj h)⟩
  | case4 =>
    cases h
    exact ⟨rfl, nofun⟩
  | case5 c r hc ih =>
    obtain ⟨⟨tail, rest'⟩, htail, hpair⟩ := Option.map_eq_some_iff.mp h
    cases hpair
    obtain ⟨rfl, hrest⟩ := ih htail
    refine ⟨?_, hrest⟩
    rw [doubled_cons, if_neg hc]
    rfl

/-- An identifier is scanned exactly where a quoted name stands without a further quote behind. -/
theorem scanIdentifier_eq_some_iff {s : List Char} :
    scanIdentifier quote s = some (name, rest) ↔
      s = quoteIdentifier quote name ++ rest ∧ rest.head? ≠ some quote := by
  constructor
  · intro h
    cases s with
    | nil => cases h
    | cons c r =>
      rw [scanIdentifier] at h
      split at h
      case isTrue hc =>
        obtain ⟨rfl, hrest⟩ := eq_of_scanQuoted h
        refine ⟨?_, hrest⟩
        rw [hc, quoteIdentifier, List.cons_append, List.append_assoc]
        rfl
      case isFalse => cases h
  · rintro ⟨rfl, hrest⟩
    exact scanIdentifier_quoteIdentifier hrest

theorem scanIdentifier_eq_some_nil_iff {s : List Char} :
    scanIdentifier quote s = some (name, []) ↔ s = quoteIdentifier quote name := by
  rw [scanIdentifier_eq_some_iff, List.append_nil]
  exact and_iff_left nofun

theorem quoteIdentifier_inj {other : List Char} :
    quoteIdentifier quote name = quoteIdentifier quote other ↔ name = other := by
  constructor
  · intro h
    have hscan : scanIdentifier quote (quoteIdentifier quote name) = some (name, []) :=
      scanIdentifier_eq_some_nil_iff.mpr rfl
    rw [scanIdentifier_eq_some_nil_iff.mpr h] at hscan
    cases hscan
    rfl
  · rintro rfl
    rfl

/-! ### Outside of identifiers -/

/-- Where a reader of a statement stands. -/
inductive Standing where
  | outside
  | inside
  /-- Behind a quote inside: it closes the identifier, or it is the first of two. -/
  | afterQuote
deriving DecidableEq

namespace Standing

/-- Take a character. -/
def next (quote : Char) : Standing → Char → Standing
  | .outside, c => if c = quote then .inside else .outside
  | .inside, c => if c = quote then .afterQuote else .inside
  | .afterQuote, c => if c = quote then .inside else .outside

/-- Take characters one after the other. -/
def after (quote : Char) (p : Standing) (s : List Char) : Standing := s.foldl (next quote) p

/-- The characters with which the reader stands outside. -/
def outsideOf (quote : Char) (p : Standing) : List Char → List Char
  | [] => []
  | c :: r =>
    if p.next quote c = .outside then c :: (p.next quote c).outsideOf quote r
    else (p.next quote c).outsideOf quote r

theorem outsideOf_append (p : Standing) (s t : List Char) :
    p.outsideOf quote (s ++ t) = p.outsideOf quote s ++ (p.after quote s).outsideOf quote t := by
  induction s generalizing p with
  | nil => rfl
  | cons c s ih =>
    rw [List.cons_append, outsideOf, outsideOf, ih, after, after, List.foldl_cons]
    split <;> rfl

theorem after_append (p : Standing) (s t : List Char) :
    p.after quote (s ++ t) = (p.after quote s).after quote t := List.foldl_append

/-- Without quotes a reader who stands outside stays there. -/
theorem after_plain {s : List Char} (h : ∀ c ∈ s, c ≠ quote) :
    outside.after quote s = .outside ∧ outside.outsideOf quote s = s := by
  induction s with
  | nil => exact ⟨rfl, rfl⟩
  | cons c s ih =>
    obtain ⟨hc, hs⟩ := List.forall_mem_cons.mp h
    obtain ⟨hafter, houtside⟩ := ih hs
    have hnext : outside.next quote c = .outside := if_neg hc
    rw [after, List.foldl_cons, outsideOf, hnext, if_pos rfl, houtside]
    exact ⟨hafter, rfl⟩

/-- A pair of quotes, or another character, leads from inside to inside. -/
theorem after_doubled (quote : Char) (name : List Char) :
    inside.after quote (doubled quote name) = .inside ∧
      inside.outsideOf quote (doubled quote name) = [] := by
  induction name with
  | nil => exact ⟨rfl, rfl⟩
  | cons c name ih =>
    have hfirst : inside.after quote (if c = quote then [quote, quote] else [c]) = .inside ∧
        inside.outsideOf quote (if c = quote then [quote, quote] else [c]) = [] := by
      by_cases hc : c = quote
      · simp [hc, after, outsideOf, next]
      · simp [hc, after, outsideOf, next]
    rw [doubled_cons, after_append, outsideOf_append, hfirst.1, hfirst.2, ih.1, ih.2]
    exact ⟨rfl, rfl⟩

/-- Nothing of a quoted name stands outside, and its last quote closes it. -/
theorem after_quoteIdentifier (quote : Char) (name : List Char) :
    outside.after quote (quoteIdentifier quote name) = .afterQuote ∧
      outside.outsideOf quote (quoteIdentifier quote name) = [] := by
  obtain ⟨hafter, houtside⟩ := after_doubled quote name
  have hopen : outside.next quote quote = .inside := if_pos rfl
  have hclose : inside.next quote quote = .afterQuote := if_pos rfl
  constructor
  · rw [quoteIdentifier, after, List.foldl_cons, hopen]
    show inside.after quote _ = _
    rw [after_append, hafter]
    exact hclose
  · rw [quoteIdentifier, outsideOf, hopen, if_neg nofun, outsideOf_append, hafter, houtside,
      outsideOf, hclose, if_neg nofun]
    rfl

/-- A quote that is not doubled lets the rest of a name out. -/
example : outside.outsideOf '"' "\"a\" --\"".toList = " --".toList := by decide

end Standing

end TableAccess.Sql
