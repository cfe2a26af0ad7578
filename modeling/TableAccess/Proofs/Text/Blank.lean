import TableAccess.Proofs.Number.Digits
import TableAccess.Text.Alphanumeric
import TableAccess.Text.Blank

/-!
# Trimming

Trimming takes a run away from an end and leaves a text that does not go on with such a
character.  These two facts determine it, so every other one about trimmed texts follows from
them.
-/

namespace TableAccess.Text

variable {p : Char → Bool} {s w : List Char}

/-! ### The front -/

/-- The text is empty or does not start with a character that satisfies `p`. -/
def FrontSharp (p : Char → Bool) (s : List Char) : Prop := ∀ c, s.head? = some c → p c = false

/-- The text is empty or does not end with a character that satisfies `p`. -/
def BackSharp (p : Char → Bool) (s : List Char) : Prop := ∀ c, s.getLast? = some c → p c = false

theorem dropFront_eq_self (h : FrontSharp p s) : dropFront p s = s := by
  cases s with
  | nil => rfl
  | cons c s =>
    have hc : p c = false := h c rfl
    exact List.dropWhile_cons_of_neg (by rw [hc]; exact Bool.false_ne_true)

theorem frontSharp_dropFront (p : Char → Bool) (s : List Char) : FrontSharp p (dropFront p s) := by
  induction s with
  | nil => rintro c ⟨⟩
  | cons c s ih =>
    rw [dropFront, List.dropWhile_cons]
    split
    case isTrue => exact ih
    case isFalse hc =>
      rintro d ⟨⟩
      exact Bool.of_not_eq_true hc

theorem dropFront_append (hw : ∀ c ∈ w, p c = true) (s : List Char) :
    dropFront p (w ++ s) = dropFront p s := List.dropWhile_append_of_pos hw

/-- What is dropped ends where something else starts. -/
theorem dropFront_append_of_frontSharp (hw : ∀ c ∈ w, p c = true) (hs : FrontSharp p s) :
    dropFront p (w ++ s) = s := (dropFront_append hw s).trans (dropFront_eq_self hs)

theorem takeWhile_append_of_frontSharp (hw : ∀ c ∈ w, p c = true) (hs : FrontSharp p s) :
    (w ++ s).takeWhile p = w := by
  have hsplit := List.takeWhile_append_dropWhile (p := p) (l := w ++ s)
  rw [show (w ++ s).dropWhile p = s from dropFront_append_of_frontSharp hw hs] at hsplit
  exact List.append_cancel_right hsplit

theorem dropFront_of_all (hw : ∀ c ∈ w, p c = true) : dropFront p w = [] := by
  have h := dropFront_append hw []
  rwa [List.append_nil] at h

theorem exists_append_dropFront (p : Char → Bool) (s : List Char) :
    ∃ w, (∀ c ∈ w, p c = true) ∧ s = w ++ dropFront p s :=
  ⟨s.takeWhile p, fun c hc => List.all_eq_true.mp List.all_takeWhile c hc,
    List.takeWhile_append_dropWhile.symm⟩

/-! ### The back -/

theorem backSharp_iff_reverse : BackSharp p s ↔ FrontSharp p s.reverse := by
  rw [BackSharp, FrontSharp, List.head?_reverse]

theorem dropBack_eq_self (h : BackSharp p s) : dropBack p s = s := by
  have hr : s.reverse.dropWhile p = s.reverse := dropFront_eq_self (backSharp_iff_reverse.mp h)
  rw [dropBack, hr, List.reverse_reverse]

theorem dropBack_append (hw : ∀ c ∈ w, p c = true) (s : List Char) :
    dropBack p (s ++ w) = dropBack p s := by
  have hr : (s ++ w).reverse.dropWhile p = s.reverse.dropWhile p := by
    rw [List.reverse_append]
    exact dropFront_append (fun c hc => hw c (List.mem_reverse.mp hc)) s.reverse
  rw [dropBack, hr, dropBack]

theorem exists_dropBack_append (p : Char → Bool) (s : List Char) :
    ∃ w, (∀ c ∈ w, p c = true) ∧ s = dropBack p s ++ w := by
  obtain ⟨w, hw, hs⟩ := exists_append_dropFront p s.reverse
  refine ⟨w.reverse, fun c hc => hw c (List.mem_reverse.mp hc), ?_⟩
  have h := congrArg List.reverse hs
  rwa [List.reverse_reverse, List.reverse_append] at h

theorem backSharp_dropBack (p : Char → Bool) (s : List Char) : BackSharp p (dropBack p s) := by
  rw [backSharp_iff_reverse, dropBack, List.reverse_reverse]
  exact frontSharp_dropFront p s.reverse

/-! ### Both ends -/

theorem sharp_of_forall (h : ∀ c ∈ s, p c = false) : FrontSharp p s ∧ BackSharp p s :=
  ⟨fun c hc => h c (List.mem_of_head? hc), fun c hc => h c (List.mem_of_getLast? hc)⟩

theorem dropEnds_eq_self (hf : FrontSharp p s) (hb : BackSharp p s) : dropEnds p s = s := by
  rw [dropEnds, dropFront_eq_self hf, dropBack_eq_self hb]

/-- Without such characters anywhere there is nothing to take away. -/
theorem dropEnds_of_forall (h : ∀ c ∈ s, p c = false) : dropEnds p s = s :=
  dropEnds_eq_self (sharp_of_forall h).1 (sharp_of_forall h).2

/-- What is added at the front and at the end is taken away again. -/
theorem dropEnds_append {v : List Char} (hv : ∀ c ∈ v, p c = true) (hw : ∀ c ∈ w, p c = true)
    (s : List Char) : dropEnds p (v ++ (s ++ w)) = dropEnds p s := by
  rw [dropEnds, dropFront_append hv, dropEnds, dropFront, List.dropWhile_append]
  split
  case isTrue h =>
    have hnil : dropFront p s = [] := List.isEmpty_iff.mp h
    rw [hnil, show w.dropWhile p = [] from dropFront_of_all hw]
  case isFalse => exact dropBack_append hw _

theorem exists_append_dropEnds (p : Char → Bool) (s : List Char) :
    ∃ v w, (∀ c ∈ v, p c = true) ∧ (∀ c ∈ w, p c = true) ∧ s = v ++ (dropEnds p s ++ w) := by
  obtain ⟨v, hv, hs⟩ := exists_append_dropFront p s
  obtain ⟨w, hw, ht⟩ := exists_dropBack_append p (dropFront p s)
  refine ⟨v, w, hv, hw, ?_⟩
  rw [dropEnds, ← ht]
  exact hs

theorem length_dropEnds_le (p : Char → Bool) (s : List Char) : (dropEnds p s).length ≤ s.length := by
  obtain ⟨v, w, -, -, hs⟩ := exists_append_dropEnds p s
  have hlength := congrArg List.length hs
  rw [List.length_append, List.length_append] at hlength
  omega

/-- A text that is its own trimmed form has sharp ends. -/
theorem dropEnds_eq_self_iff : dropEnds p s = s ↔ FrontSharp p s ∧ BackSharp p s := by
  refine ⟨fun h => ?_, fun h => dropEnds_eq_self h.1 h.2⟩
  have hback : BackSharp p s := by
    rw [← h]
    exact backSharp_dropBack p (dropFront p s)
  obtain ⟨w, -, hw⟩ := exists_append_dropFront p s
  obtain ⟨v, -, hv⟩ := exists_dropBack_append p (dropFront p s)
  -- nothing was taken away at the front, for the length is the same
  have hnil : w = [] := by
    have hwhole : dropFront p s = s ++ v := by rw [hv, ← dropEnds, h]
    have hlength := congrArg List.length hw
    rw [List.length_append, hwhole, List.length_append] at hlength
    exact List.eq_nil_of_length_eq_zero (by omega)
  have hfront : dropFront p s = s := by
    rw [hnil, List.nil_append] at hw
    exact hw.symm
  refine ⟨?_, hback⟩
  rw [← hfront]
  exact frontSharp_dropFront p s

/-! ### Digits are neither blank nor padding -/

theorem not_isBlank_of_isDigit {c : Char} (h : Number.isDigit c = true) : isBlank c = false := by
  obtain ⟨hl, hh⟩ := Number.toNat_of_isDigit h
  simp only [isBlank, Bool.or_eq_false_iff, Bool.and_eq_false_iff, decide_eq_false_iff_not,
    beq_eq_false_iff_ne]
  omega

theorem not_isPadding_of_isDigit {c : Char} (h : Number.isDigit c = true) :
    isPadding c = false := by
  rw [isPadding, Bool.or_eq_false_iff, beq_eq_false_iff_ne, beq_eq_false_iff_ne]
  constructor
  · rintro rfl
    exact absurd h (by decide)
  · rintro rfl
    exact absurd h (by decide)

/-! ### Blanks are not alphanumeric -/

/-- First and last code point of each run of blank characters. -/
def blankRanges : List (Nat × Nat) :=
  [(9, 13), (0x20, 0x20), (0x85, 0x85), (0xA0, 0xA0), (0x1680, 0x1680), (0x2000, 0x200A),
    (0x2028, 0x2028), (0x2029, 0x2029), (0x202F, 0x202F), (0x205F, 0x205F), (0x3000, 0x3000)]

theorem beq_eq_range (n k : Nat) : (n == k) = (decide (k ≤ n) && decide (n ≤ k)) := by
  rw [Bool.eq_iff_iff, beq_iff_eq, Bool.and_eq_true, decide_eq_true_eq, decide_eq_true_eq]
  omega

theorem isBlank_eq (c : Char) :
    isBlank c = blankRanges.any fun blank => blank.1 ≤ c.toNat && c.toNat ≤ blank.2 := by
  simp only [isBlank, blankRanges, List.any_cons, List.any_nil, Bool.or_false, beq_eq_range,
    Bool.or_assoc]

/-- The two tables have no code point in common. -/
theorem alphanumericRanges_disjoint :
    (alphanumericRanges.all fun range => blankRanges.all fun blank =>
      range.2.blt blank.1 || blank.2.blt range.1) = true := by
  decide +kernel

theorem not_isAlphanumeric_of_isBlank {c : Char} (h : isBlank c = true) :
    isAlphanumeric c = false := by
  rw [isBlank_eq] at h
  obtain ⟨blank, hblank, hc⟩ := List.any_eq_true.mp h
  rw [isAlphanumeric, List.any_eq_false]
  intro range hrange
  have hdisjoint := List.all_eq_true.mp
    (List.all_eq_true.mp alphanumericRanges_disjoint range hrange) blank hblank
  rw [Bool.or_eq_true, Nat.blt_eq, Nat.blt_eq] at hdisjoint
  rw [Bool.and_eq_true, decide_eq_true_eq, decide_eq_true_eq] at hc ⊢
  omega

end TableAccess.Text
