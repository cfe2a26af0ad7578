import TableAccess.Proofs.Json.RoundTrip

/-!
# The grammar of JSON texts

The texts of the grammar are described without the reader.  What the reader makes of a string or a
number of the grammar depends on its text alone, and not on what follows: it takes all of it and
nothing more, or it refuses it.  It refuses only what has no value, half a surrogate pair or a
number that is too large, and in lenient mode not even that.
-/

namespace TableAccess.Json

open TableAccess.Number (isDigit digitValue)

/-! ### The grammar -/

/-- Blanks between the parts of a text. -/
def Spaces (s : List Char) : Prop := ∀ c ∈ s, isSpace c = true

/-- What stands between the quotes of a string. -/
inductive StringBody : List Char → Prop
  | nil : StringBody []
  | plain {c : Char} (hquote : c ≠ '"') (hescape : c ≠ '\\') (hcontrol : 32 ≤ c.toNat)
      {s : List Char} (h : StringBody s) : StringBody (c :: s)
  | short {e : Char} (he : (shortEscape? e).isSome = true) {s : List Char} (h : StringBody s) :
      StringBody ('\\' :: e :: s)
  | numeric {hex : List Char} {n : Nat} (hhex : readHex4? hex = some (n, [])) {s : List Char}
      (h : StringBody s) : StringBody ('\\' :: 'u' :: (hex ++ s))

/-- Nothing, or a point and digits. -/
inductive FractionText : List Char → Prop
  | none : FractionText []
  | point {digits : List Char} (hdigits : ∀ c ∈ digits, isDigit c = true) (hne : digits ≠ []) :
      FractionText ('.' :: digits)

/-- Nothing, or a mark and digits, with a sign between them if there is one. -/
inductive ExponentText : List Char → Prop
  | none : ExponentText []
  | mark {c : Char} {sign digits : List Char} (hmark : c = 'e' ∨ c = 'E')
      (hsign : sign = [] ∨ sign = ['+'] ∨ sign = ['-'])
      (hdigits : ∀ c ∈ digits, isDigit c = true) (hne : digits ≠ []) :
      ExponentText (c :: (sign ++ digits))

/-- A number without its sign. -/
inductive SizeText : List Char → Prop
  | mk {whole fraction exponent : List Char} (hwhole : WholeDigits whole)
      (hfraction : FractionText fraction) (hexponent : ExponentText exponent) :
      SizeText (whole ++ (fraction ++ exponent))

inductive NumberText : List Char → Prop
  | plain {s : List Char} (h : SizeText s) : NumberText s
  | minus {s : List Char} (h : SizeText s) : NumberText ('-' :: s)

/-- A string with blanks around it, in the place of a key. -/
inductive KeyText : List Char → Prop
  | mk {front body back : List Char} (hfront : Spaces front) (hbody : StringBody body)
      (hback : Spaces back) : KeyText (front ++ '"' :: (body ++ '"' :: back))

/-- Texts with commas between them. -/
def commaText : List (List Char) → List Char
  | [] => []
  | [t] => t
  | t :: u :: r => t ++ ',' :: commaText (u :: r)

/-- The texts of a key and of its value as one. -/
def pairText (m : List Char × List Char) : List Char := m.1 ++ ':' :: m.2

/-- A value, with blanks around it. -/
inductive ValueText : List Char → Prop
  | null : ValueText "null".toList
  | true : ValueText "true".toList
  | false : ValueText "false".toList
  | number {s : List Char} (h : NumberText s) : ValueText s
  | string {s : List Char} (h : StringBody s) : ValueText ('"' :: (s ++ ['"']))
  | array {blank : List Char} {items : List (List Char)} (hblank : Spaces blank)
      (h : ∀ t ∈ items, ValueText t) : ValueText ('[' :: (blank ++ (commaText items ++ [']'])))
  | object {blank : List Char} {members : List (List Char × List Char)} (hblank : Spaces blank)
      (hkeys : ∀ m ∈ members, KeyText m.1) (h : ∀ m ∈ members, ValueText m.2) :
      ValueText ('\x7b' :: (blank ++ (commaText (members.map pairText) ++ ['\x7d'])))
  | padded {front s back : List Char} (hfront : Spaces front) (h : ValueText s)
      (hback : Spaces back) : ValueText (front ++ (s ++ back))

variable {mode : Mode} {s rest : List Char}

/-! ### Strings -/

theorem readHex4?_append {n : Nat} (h : readHex4? s = some (n, [])) (r : List Char) :
    readHex4? (s ++ r) = some (n, r) := by
  match s, h with
  | a :: b :: c :: d :: tail, h =>
    simp only [readHex4?, Option.bind_eq_bind, Option.bind_eq_some_iff, Option.some.injEq,
      Prod.mk.injEq] at h
    obtain ⟨x, hx, y, hy, z, hz, u, hu, rfl, rfl⟩ := h
    simp only [List.cons_append, List.nil_append, readHex4?, hx, hy, hz, hu, Option.bind_eq_bind,
      Option.bind_some]

/-- The second half of a pair stands at the front of the body of a string, or it does not. -/
theorem readLow?_step (h : StringBody s) :
    (∀ rest, readLow? (s ++ '"' :: rest) = none) ∨
      ∃ low u, StringBody u ∧ u.length < s.length ∧
        ∀ rest, readLow? (s ++ '"' :: rest) = some (low, u ++ '"' :: rest) := by
  cases h with
  | nil => exact Or.inl fun _ => rfl
  | @plain c _ hescape _ u _ =>
    refine Or.inl fun rest => ?_
    rw [List.cons_append, readLow?]
    intro r hr
    exact hescape (List.cons.inj hr).1
  | @short e he u _ =>
    refine Or.inl fun rest => ?_
    rw [List.cons_append, List.cons_append, readLow?]
    intro r hr
    rw [(List.cons.inj (List.cons.inj hr).2).1] at he
    cases he
  | @numeric hex low hhex u hu =>
    have hread : ∀ rest, readLow? ('\\' :: 'u' :: (hex ++ u) ++ '"' :: rest) =
        if isLowSurrogate low then some (low, u ++ '"' :: rest) else none := by
      intro rest
      simp only [List.cons_append, List.append_assoc, readLow?, readHex4?_append hhex,
        Option.bind_eq_bind, Option.bind_some]
    cases hlow : isLowSurrogate low with
    | false =>
      refine Or.inl fun rest => ?_
      rw [hread, hlow, if_neg Bool.false_ne_true]
    | true =>
      refine Or.inr ⟨low, u, hu, ?_, fun rest => ?_⟩
      · simp only [List.length_cons, List.length_append]
        omega
      · rw [hread, hlow, if_pos rfl]

theorem readCodePoint?_append {hex : List Char} {n : Nat} (hhex : readHex4? hex = some (n, []))
    (mode : Mode) (s rest : List Char) : readCodePoint? mode (hex ++ s ++ '"' :: rest) =
      if mode == .lenient then some (Char.ofNat n, s ++ '"' :: rest)
      else if isLowSurrogate n then none
      else if isHighSurrogate n then (readLow? (s ++ '"' :: rest)).bind fun (low, r) =>
        some (Char.ofNat (0x10000 + (n - 0xD800) * 0x400 + (low - 0xDC00)), r)
      else some (Char.ofNat n, s ++ '"' :: rest) := by
  rw [List.append_assoc]
  simp only [readCodePoint?, readHex4?_append hhex, Option.bind_eq_bind, Option.bind_some]

theorem readCodePoint?_step {hex : List Char} {n : Nat} (hhex : readHex4? hex = some (n, []))
    (h : StringBody s) (mode : Mode) :
    (mode = .strict ∧ ∀ rest, readCodePoint? mode (hex ++ s ++ '"' :: rest) = none) ∨
      ∃ c u, StringBody u ∧ u.length ≤ s.length ∧
        ∀ rest, readCodePoint? mode (hex ++ s ++ '"' :: rest) = some (c, u ++ '"' :: rest) := by
  simp only [readCodePoint?_append hhex]
  cases mode with
  | lenient => exact Or.inr ⟨Char.ofNat n, s, h, Nat.le_refl _, fun _ => rfl⟩
  | strict =>
    have hmode : (Mode.strict == Mode.lenient) = false := rfl
    simp only [hmode, Bool.false_eq_true, if_false]
    cases hlow : isLowSurrogate n with
    | true => exact Or.inl ⟨trivial, fun _ => rfl⟩
    | false =>
      cases hhigh : isHighSurrogate n with
      | false => exact Or.inr ⟨Char.ofNat n, s, h, Nat.le_refl _, fun _ => rfl⟩
      | true =>
        rcases readLow?_step h with hnone | ⟨low, u, hu, hlength, hsome⟩
        · refine Or.inl ⟨trivial, fun rest => ?_⟩
          simp only [hnone, Bool.false_eq_true, if_false, if_true, Option.bind_none]
        · refine Or.inr ⟨Char.ofNat (0x10000 + (n - 0xD800) * 0x400 + (low - 0xDC00)), u, hu,
            Nat.le_of_lt hlength, fun rest => ?_⟩
          simp only [hsome, Bool.false_eq_true, if_false, if_true, Option.bind_some]

/-- The body of a string starts with what stands for one character, or the reader refuses it. -/
theorem readStringChar?_numeric (mode : Mode) (s rest : List Char) :
    readStringChar? mode ('\\' :: 'u' :: s ++ '"' :: rest) =
      (readCodePoint? mode (s ++ '"' :: rest)).map fun (c, r) => (some c, r) := rfl

theorem readStringChar?_step (h : StringBody s) (hne : s ≠ []) (mode : Mode) :
    (mode = .strict ∧ ∀ rest, readStringChar? mode (s ++ '"' :: rest) = none) ∨
      ∃ c u, StringBody u ∧ u.length < s.length ∧
        ∀ rest, readStringChar? mode (s ++ '"' :: rest) = some (some c, u ++ '"' :: rest) := by
  cases h with
  | nil => exact absurd rfl hne
  | @plain c hquote hescape hcontrol u hu =>
    refine Or.inr ⟨c, u, hu, Nat.lt_succ_self _, fun rest => ?_⟩
    simp only [List.cons_append, readStringChar?, beq_iff_eq, hquote, hescape,
      Nat.not_lt.mpr hcontrol, if_false]
  | @short e he u hu =>
    obtain ⟨c, hc⟩ := Option.isSome_iff_exists.mp he
    have hnumeric : e ≠ 'u' := by
      rintro rfl
      cases hc
    refine Or.inr ⟨c, u, hu, ?_, fun rest => ?_⟩
    · simp only [List.length_cons]
      omega
    · simp [readStringChar?, hnumeric, hc]
  | @numeric hex n hhex u hu =>
    rcases readCodePoint?_step hhex hu mode with ⟨hmode, hnone⟩ | ⟨c, v, hv, hlength, hsome⟩
    · refine Or.inl ⟨hmode, fun rest => ?_⟩
      rw [readStringChar?_numeric, hnone, Option.map_none]
    · refine Or.inr ⟨c, v, hv, ?_, fun rest => ?_⟩
      · simp only [List.length_cons, List.length_append]
        omega
      · rw [readStringChar?_numeric, hsome, Option.map_some]

theorem exists_readChars (h : StringBody s) (mode : Mode) :
    ∃ o : Option (List Char), (mode = .lenient → o.isSome = true) ∧
      ∀ fuel rest, s.length < fuel →
        readChars? mode fuel (s ++ '"' :: rest) = o.map fun cs => (cs, rest) := by
  induction hn : s.length using Nat.strong_induction_on generalizing s with
  | _ n ih =>
    by_cases hne : s = []
    · subst hne
      refine ⟨some [], fun _ => rfl, fun fuel rest hfuel => ?_⟩
      obtain ⟨k, rfl⟩ := Nat.exists_eq_add_one.mpr (Nat.zero_lt_of_lt hfuel)
      rfl
    · rcases readStringChar?_step h hne mode with ⟨hmode, hnone⟩ | ⟨c, u, hu, hlength, hsome⟩
      · refine ⟨none, fun hlenient => ?_, fun fuel rest hfuel => ?_⟩
        · rw [hmode] at hlenient
          cases hlenient
        · obtain ⟨k, rfl⟩ := Nat.exists_eq_add_one.mpr (Nat.zero_lt_of_lt hfuel)
          rw [readChars?, hnone]
          rfl
      · obtain ⟨o, hlenient, hrest⟩ := ih u.length (hn ▸ hlength) hu rfl
        refine ⟨o.map (c :: ·), fun hmode => ?_, fun fuel rest hfuel => ?_⟩
        · rw [Option.isSome_map]
          exact hlenient hmode
        · obtain ⟨k, rfl⟩ := Nat.exists_eq_add_one.mpr (Nat.zero_lt_of_lt hfuel)
          rw [readChars?, hsome]
          simp only [hrest k rest (by omega), Option.map_map]
          rfl

/-- The body of a string is read up to its quote. -/
theorem exists_readString (h : StringBody s) (mode : Mode) :
    ∃ o : Option String, (mode = .lenient → o.isSome = true) ∧
      ∀ rest, readString? mode (s ++ '"' :: rest) = o.map fun x => (x, rest) := by
  obtain ⟨o, hlenient, hread⟩ := exists_readChars h mode
  refine ⟨o.map String.ofList, fun hmode => ?_, fun rest => ?_⟩
  · rw [Option.isSome_map]
    exact hlenient hmode
  · have hfuel : s.length < (s ++ '"' :: rest).length + 1 := by
      rw [List.length_append]
      omega
    rw [readString?, hread _ rest hfuel, Option.map_map, Option.map_map]
    rfl

/-! ### Numbers -/

section

variable {negative : Bool} {sig : Nat} {e : Int} {digits : List Char}

theorem mem_of_mem_takeDigits {c : Char} (h : c ∈ (takeDigits sig digits).2.2) : c ∈ digits := by
  induction digits generalizing sig with
  | nil => exact h
  | cons d digits ih =>
    rw [takeDigits] at h
    split at h
    · exact List.mem_cons_of_mem d (ih h)
    · exact h

/-- Digits that do not fit any more stay, in front of what follows. -/
theorem takeDigits_rest (hdigits : ∀ c ∈ digits, isDigit c = true) (h : EndsDigits rest) :
    takeDigits sig (digits ++ rest) = ((takeDigits sig digits).1, (takeDigits sig digits).2.1,
      (takeDigits sig digits).2.2 ++ rest) := by
  induction digits generalizing sig with
  | nil =>
    cases rest with
    | nil => rfl
    | cons c r =>
      have hc : isDigit c = false := h c rfl
      simp only [List.nil_append, takeDigits, hc, Bool.false_and, Bool.false_eq_true, if_false]
  | cons d digits ih =>
    rw [List.cons_append, takeDigits, takeDigits]
    split
    · rw [ih fun c hc => hdigits c (List.mem_cons_of_mem d hc)]
    · rfl

theorem isSome_floatOf_lenient (negative : Bool) (sig : Nat) (e : Int) :
    (floatOf .lenient negative sig e).isSome = true := by
  unfold floatOf
  cases scale (.ofNat sig) e <;> rfl

/-- Neither a digit nor a point stands in front of an exponent or behind a number. -/
theorem head_exponent (h : ExponentText s) (hrest : EndsNumber rest) {c : Char}
    (hc : (s ++ rest).head? = some c) : isDigit c = false ∧ c ≠ '.' := by
  cases h with
  | none => exact ⟨(hrest c hc).1, (hrest c hc).2.1⟩
  | mark hmark =>
    cases hc
    rcases hmark with rfl | rfl <;> decide

theorem head_fraction {f x : List Char} (hf : FractionText f) (hx : ExponentText x)
    (hrest : EndsNumber rest) : EndsDigits (f ++ (x ++ rest)) := by
  intro c hc
  cases hf with
  | none => exact (head_exponent hx hrest hc).1
  | point =>
    cases hc
    rfl

theorem splitSign_digits {sign : List Char} (hsign : sign = [] ∨ sign = ['+'] ∨ sign = ['-'])
    (hdigits : ∀ c ∈ digits, isDigit c = true) (hne : digits ≠ []) :
    ∃ below, ∀ rest, Number.splitSign (sign ++ digits ++ rest) = (below, digits ++ rest) := by
  rcases hsign with rfl | rfl | rfl
  · obtain ⟨d, r, rfl⟩ := List.exists_cons_of_ne_nil hne
    have hd := hdigits d List.mem_cons_self
    exact ⟨false, fun rest => Number.splitSign_cons_of_isDigit hd (r ++ rest)⟩
  · exact ⟨false, fun _ => rfl⟩
  · exact ⟨true, fun _ => rfl⟩

theorem exists_readExponent (h : ExponentText s) (mode : Mode) (negative : Bool) (sig : Nat)
    (e : Int) : ∃ o : Option JsonNumber, (mode = .lenient → o.isSome = true) ∧
      ∀ rest, EndsNumber rest →
        readExponent mode negative sig e (s ++ rest) = o.map fun n => (n, rest) := by
  cases h with
  | none =>
    refine ⟨floatOf mode negative sig e, ?_, fun rest hrest => readExponent_of_ends hrest⟩
    rintro rfl
    exact isSome_floatOf_lenient negative sig e
  | @mark c sign digits hmark hsign hdigits hne =>
    obtain ⟨below, hsplit⟩ := splitSign_digits hsign hdigits hne
    refine ⟨floatOf mode negative sig (e + Number.signed below (Number.ofDigits digits)), ?_,
      fun rest hrest => ?_⟩
    · rintro rfl
      exact isSome_floatOf_lenient negative sig _
    · have hc : (c == 'e' || c == 'E') = true := by
        simpa only [Bool.or_eq_true, beq_iff_eq] using hmark
      have hempty : digits.isEmpty = false := List.isEmpty_eq_false_iff.mpr hne
      simp only [List.cons_append, readExponent, hc, if_true, hsplit,
        takeWhile_digits hdigits hrest.endsDigits, dropWhile_digits hdigits hrest.endsDigits,
        hempty, Bool.false_eq_true, if_false]

theorem exists_readFraction {f x : List Char} (hf : FractionText f) (hx : ExponentText x)
    (mode : Mode) (negative : Bool) (sig : Nat) (e : Int) :
    ∃ o : Option JsonNumber, (mode = .lenient → o.isSome = true) ∧
      ∀ rest, EndsNumber rest →
        readFraction mode negative sig e (f ++ (x ++ rest)) = o.map fun n => (n, rest) := by
  cases hf with
  | none =>
    obtain ⟨o, hlenient, hread⟩ := exists_readExponent hx mode negative sig e
    refine ⟨o, hlenient, fun rest hrest => ?_⟩
    rw [List.nil_append, readFraction, hread rest hrest]
    intro r hr
    exact (head_exponent hx hrest (by rw [hr]; rfl)).2 rfl
  | @point digits hdigits hne =>
    obtain ⟨o, hlenient, hread⟩ := exists_readExponent hx mode negative
      (takeDigits sig digits).1 (e - (takeDigits sig digits).2.1)
    refine ⟨o, hlenient, fun rest hrest => ?_⟩
    have hends : EndsDigits (x ++ rest) := fun c hc => (head_exponent hx hrest hc).1
    have hempty : digits.isEmpty = false := List.isEmpty_eq_false_iff.mpr hne
    have hleft : ((takeDigits sig digits).2.2 ++ (x ++ rest)).dropWhile isDigit = x ++ rest :=
      dropWhile_digits (fun c hc => hdigits c (mem_of_mem_takeDigits hc)) hends
    simp only [List.cons_append, readFraction, takeWhile_digits hdigits hends, hempty,
      Bool.false_eq_true, if_false, takeDigits_rest hdigits hends, hleft, hread rest hrest]

theorem exists_readTail {f x : List Char} (hf : FractionText f) (hx : ExponentText x)
    (mode : Mode) (negative : Bool) (sig : Nat) :
    ∃ o : Option JsonNumber, (mode = .lenient → o.isSome = true) ∧
      ∀ rest, EndsNumber rest →
        readTail mode negative sig (f ++ (x ++ rest)) = o.map fun n => (n, rest) := by
  obtain ⟨o, hlenient, hread⟩ := exists_readFraction hf hx mode negative sig 0
  cases hf with
  | point => exact ⟨o, hlenient, hread⟩
  | none =>
    cases hx with
    | mark hmark =>
      refine ⟨o, hlenient, fun rest hrest => ?_⟩
      rw [← hread rest hrest]
      rcases hmark with rfl | rfl <;> rfl
    | none =>
      -- a whole number, whose value depends on its sign and size alone
      exact ⟨some (wholeNumber negative sig), fun _ => rfl, fun rest hrest => readTail_whole hrest⟩

theorem exists_readSize (h : SizeText s) (mode : Mode) (negative : Bool) :
    ∃ o : Option JsonNumber, (mode = .lenient → o.isSome = true) ∧
      ∀ rest, EndsNumber rest → readSize mode negative (s ++ rest) = o.map fun n => (n, rest) := by
  obtain @⟨whole, f, x, hwhole, hf, hx⟩ := h
  obtain ⟨c, r, rfl⟩ := List.exists_cons_of_ne_nil hwhole.ne_nil
  have hdigits : ∀ d ∈ r, isDigit d = true :=
    fun d hd => hwhole.digits d (List.mem_cons_of_mem c hd)
  by_cases hzero : c = '0'
  · -- no digit may follow a zero
    subst hzero
    obtain rfl : r = [] := (List.cons.inj (hwhole.zero rfl)).2
    obtain ⟨o, hlenient, hread⟩ := exists_readTail hf hx mode negative 0
    refine ⟨o, hlenient, fun rest hrest => ?_⟩
    have hends := head_fraction hf hx hrest
    rw [List.singleton_append, List.cons_append, List.append_assoc, ← hread rest hrest]
    cases htail : f ++ (x ++ rest) with
    | nil => rfl
    | cons d u =>
      rw [htail] at hends
      have hd : isDigit d = false := hends d rfl
      simp only [readSize, beq_self_eq_true, if_true, hd, Bool.false_eq_true, if_false]
  · have hc : isDigit c = true := hwhole.digits c List.mem_cons_self
    have hc0 : (c == '0') = false := beq_eq_false_iff_ne.mpr hzero
    have hleft : ∀ d ∈ (takeDigits (digitValue c) r).2.2, isDigit d = true :=
      fun d hd => hdigits d (mem_of_mem_takeDigits hd)
    have hsplit : ∀ rest, EndsNumber rest →
        readSize mode negative (c :: r ++ (f ++ x) ++ rest) =
          if (takeDigits (digitValue c) r).2.2.length = 0 then
            readTail mode negative (takeDigits (digitValue c) r).1 (f ++ (x ++ rest))
          else readFraction mode negative (takeDigits (digitValue c) r).1
            (takeDigits (digitValue c) r).2.2.length (f ++ (x ++ rest)) := by
      intro rest hrest
      have hends := head_fraction hf hx hrest
      have htext : c :: r ++ (f ++ x) ++ rest = c :: (r ++ (f ++ (x ++ rest))) := by
        simp only [List.cons_append, List.append_assoc]
      simp only [htext, readSize, hc0, hc, Bool.false_eq_true, if_false, if_true,
        takeDigits_rest hdigits hends, takeWhile_digits hleft hends, dropWhile_digits hleft hends]
      split
      case isTrue hnone => rw [List.length_eq_zero_iff.mp hnone, List.nil_append]
      case isFalse => rfl
    by_cases hnone : (takeDigits (digitValue c) r).2.2.length = 0
    · obtain ⟨o, hlenient, hread⟩ :=
        exists_readTail hf hx mode negative (takeDigits (digitValue c) r).1
      refine ⟨o, hlenient, fun rest hrest => ?_⟩
      rw [hsplit rest hrest, if_pos hnone, hread rest hrest]
    · obtain ⟨o, hlenient, hread⟩ := exists_readFraction hf hx mode negative
        (takeDigits (digitValue c) r).1 (takeDigits (digitValue c) r).2.2.length
      refine ⟨o, hlenient, fun rest hrest => ?_⟩
      rw [hsplit rest hrest, if_neg hnone, hread rest hrest]

theorem SizeText.exists_eq_cons (h : SizeText s) : ∃ c r, s = c :: r ∧ isDigit c = true := by
  obtain ⟨hwhole, -, -⟩ := h
  exact hwhole.exists_append _

theorem NumberText.exists_eq_cons (h : NumberText s) :
    ∃ c r, s = c :: r ∧ (isDigit c = true ∨ c = '-') := by
  cases h with
  | plain h =>
    obtain ⟨c, r, rfl, hc⟩ := h.exists_eq_cons
    exact ⟨c, r, rfl, Or.inl hc⟩
  | minus h => exact ⟨'-', _, rfl, Or.inr rfl⟩

theorem exists_readNumber (h : NumberText s) (mode : Mode) :
    ∃ o : Option JsonNumber, (mode = .lenient → o.isSome = true) ∧
      ∀ rest, EndsNumber rest → readNumber mode (s ++ rest) = o.map fun n => (n, rest) := by
  cases h with
  | plain h =>
    obtain ⟨o, hlenient, hread⟩ := exists_readSize h mode false
    obtain ⟨c, r, rfl, hc⟩ := h.exists_eq_cons
    refine ⟨o, hlenient, fun rest hrest => ?_⟩
    rw [← hread rest hrest, List.cons_append, readNumber]
    intro r hr
    rw [(List.cons.inj hr).1] at hc
    cases hc
  | minus h => exact exists_readSize h mode true

end

end TableAccess.Json
