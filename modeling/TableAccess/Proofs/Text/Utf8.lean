import TableAccess.Text.Utf8

/-!
# Decoding what was encoded

The bytes of a character are one piece, whatever follows them, so decoding walks through an
encoded text character by character.  Both readings, the strict and the tolerant one, give the
text back.  The last sections say which bytes an encoding can hold, and that `takeBytes` is the
longest beginning that fits.
-/

namespace TableAccess.Text

/-! ### One character -/

theorem toNat_byte {n : Nat} (h : n < 256) : (UInt8.ofNat n).toNat = n := by
  rw [UInt8.toNat_ofNat']
  exact Nat.mod_eq_of_lt h

theorem takeFollowing_byte {k m : Nat} {low high : UInt8} {code : Nat} {r : List UInt8}
    (hm : m < 64) (hl : low.toNat ≤ m + 0x80) (hh : m + 0x80 ≤ high.toNat) :
    takeFollowing (k + 1) low high code (UInt8.ofNat (m + 0x80) :: r) =
      takeFollowing k 0x80 0xBF (code * 64 + m) r := by
  have hb : (UInt8.ofNat (m + 0x80)).toNat = m + 0x80 := toNat_byte (by omega)
  rw [takeFollowing, if_pos, hb, Nat.add_sub_cancel]
  rw [Bool.and_eq_true, decide_eq_true_eq, decide_eq_true_eq, UInt8.le_iff_toNat_le,
    UInt8.le_iff_toNat_le, hb]
  exact ⟨hl, hh⟩

/-- A following byte that the lead does not restrict further. -/
theorem takeFollowing_tail {k m : Nat} {code : Nat} {r : List UInt8} (hm : m < 64) :
    takeFollowing (k + 1) 0x80 0xBF code (UInt8.ofNat (m + 0x80) :: r) =
      takeFollowing k 0x80 0xBF (code * 64 + m) r := by
  have hlow : (0x80 : UInt8).toNat = 128 := rfl
  have hhigh : (0xBF : UInt8).toNat = 191 := rfl
  exact takeFollowing_byte hm (by omega) (by omega)

theorem lead_two {n : Nat} (hl : 0x7F < n) (hh : n ≤ 0x7FF) :
    Lead.of? (UInt8.ofNat (n / 64 % 0x20 + 0xC0)) = some ⟨1, 0x80, 0xBF, n / 64⟩ := by
  have hn : n / 64 % 0x20 + 0xC0 - 0xC0 = n / 64 := by omega
  rw [Lead.of?, toNat_byte (by omega), if_neg (by omega), if_neg (by omega), if_pos (by omega), hn]

/-- The lead of three bytes lets the second one pass unless the number is a surrogate. -/
theorem lead_three {n : Nat} (hl : 0x7FF < n) (hh : n ≤ 0xFFFF) (hs : n < 0xD800 ∨ 0xDFFF < n) :
    ∃ low high : UInt8,
      Lead.of? (UInt8.ofNat (n / 4096 % 0x10 + 0xE0)) = some ⟨2, low, high, n / 4096⟩ ∧
      low.toNat ≤ n / 64 % 0x40 + 0x80 ∧ n / 64 % 0x40 + 0x80 ≤ high.toNat := by
  have hn : n / 4096 % 0x10 + 0xE0 - 0xE0 = n / 4096 := by omega
  have h80 : (0x80 : UInt8).toNat = 128 := rfl
  have hA0 : (0xA0 : UInt8).toNat = 160 := rfl
  have h9F : (0x9F : UInt8).toNat = 159 := rfl
  have hBF : (0xBF : UInt8).toNat = 191 := rfl
  rw [Lead.of?, toNat_byte (by omega), if_neg (by omega), if_neg (by omega), if_neg (by omega)]
  -- 0xE0 excludes overlong forms and 0xED surrogates; the other leads exclude nothing
  rcases Nat.lt_trichotomy (n / 4096) 0xD with h | h | h
  · rcases Nat.eq_zero_or_pos (n / 4096) with h0 | h0
    · refine ⟨0xA0, 0xBF, ?_, by omega, by omega⟩
      rw [if_pos (by rw [beq_iff_eq]; omega), h0]
    · refine ⟨0x80, 0xBF, ?_, by omega, by omega⟩
      rw [if_neg (by rw [beq_iff_eq]; omega), if_neg (by rw [beq_iff_eq]; omega),
        if_pos (by omega), hn]
  · refine ⟨0x80, 0x9F, ?_, by omega, by omega⟩
    rw [if_neg (by rw [beq_iff_eq]; omega), if_pos (by rw [beq_iff_eq]; omega), h]
  · refine ⟨0x80, 0xBF, ?_, by omega, by omega⟩
    rw [if_neg (by rw [beq_iff_eq]; omega), if_neg (by rw [beq_iff_eq]; omega),
      if_pos (by omega), hn]

/-- The lead of four bytes lets the second one pass up to the last code point. -/
theorem lead_four {n : Nat} (hl : 0xFFFF < n) (hh : n ≤ 0x10FFFF) :
    ∃ low high : UInt8,
      Lead.of? (UInt8.ofNat (n / 262144 % 0x08 + 0xF0)) = some ⟨3, low, high, n / 262144⟩ ∧
      low.toNat ≤ n / 4096 % 0x40 + 0x80 ∧ n / 4096 % 0x40 + 0x80 ≤ high.toNat := by
  have hn : n / 262144 % 0x08 + 0xF0 - 0xF0 = n / 262144 := by omega
  have h80 : (0x80 : UInt8).toNat = 128 := rfl
  have h90 : (0x90 : UInt8).toNat = 144 := rfl
  have h8F : (0x8F : UInt8).toNat = 143 := rfl
  have hBF : (0xBF : UInt8).toNat = 191 := rfl
  rw [Lead.of?, toNat_byte (by omega), if_neg (by omega), if_neg (by omega), if_neg (by omega),
    if_neg (by rw [beq_iff_eq]; omega), if_neg (by rw [beq_iff_eq]; omega), if_neg (by omega)]
  rcases Nat.eq_zero_or_pos (n / 262144) with h0 | h0
  · refine ⟨0x90, 0xBF, ?_, by omega, by omega⟩
    rw [if_pos (by rw [beq_iff_eq]; omega), h0]
  · rw [if_neg (by rw [beq_iff_eq]; omega)]
    rcases Nat.lt_or_ge (n / 262144) 4 with h | h
    · refine ⟨0x80, 0xBF, ?_, by omega, by omega⟩
      rw [if_pos (by omega), hn]
    · refine ⟨0x80, 0x8F, ?_, by omega, by omega⟩
      have h4 : n / 262144 = 4 := by omega
      rw [if_neg (by omega), if_pos (by rw [beq_iff_eq]; omega), h4]

theorem firstPiece_of_lead {b : UInt8} {lead : Lead} (h : Lead.of? b = some lead)
    (r : List UInt8) :
    firstPiece b r = takeFollowing lead.following lead.low lead.high lead.bits r := by
  rw [firstPiece, h]

/-- The bytes of a character are one piece, whatever follows them. -/
theorem firstPiece_encodeChar (c : Char) (rest : List UInt8) :
    ∃ b r, String.utf8EncodeChar c = b :: r ∧ firstPiece b (r ++ rest) = (some c.toNat, rest) := by
  have hv : c.val.toNat = c.toNat := rfl
  have hvalid : c.toNat < 0xD800 ∨ 0xDFFF < c.toNat ∧ c.toNat < 0x110000 := c.valid
  unfold String.utf8EncodeChar
  simp only [hv]
  generalize c.toNat = n at hvalid
  split
  case isTrue h =>
    have hlead : Lead.of? (UInt8.ofNat n) = some ⟨0, 0x80, 0xBF, n⟩ := by
      rw [Lead.of?, toNat_byte (by omega), if_pos (by omega)]
    exact ⟨_, _, rfl, firstPiece_of_lead hlead _⟩
  case isFalse h1 =>
    split
    case isTrue h =>
      refine ⟨_, _, rfl, ?_⟩
      rw [firstPiece_of_lead (lead_two (by omega) h)]
      simp only [List.cons_append, List.nil_append]
      rw [takeFollowing_tail (by omega), takeFollowing]
      congr 2
      omega
    case isFalse h2 =>
      split
      case isTrue h =>
        obtain ⟨low, high, hlead, hl, hh⟩ := lead_three (n := n) (by omega) h (by omega)
        refine ⟨_, _, rfl, ?_⟩
        rw [firstPiece_of_lead hlead]
        simp only [List.cons_append, List.nil_append]
        rw [takeFollowing_byte (by omega) hl hh, takeFollowing_tail (by omega), takeFollowing]
        congr 2
        omega
      case isFalse h3 =>
        obtain ⟨low, high, hlead, hl, hh⟩ := lead_four (n := n) (by omega) (by omega)
        refine ⟨_, _, rfl, ?_⟩
        rw [firstPiece_of_lead hlead]
        simp only [List.cons_append, List.nil_append]
        rw [takeFollowing_byte (by omega) hl hh, takeFollowing_tail (by omega),
          takeFollowing_tail (by omega), takeFollowing]
        congr 2
        omega

/-! ### Texts -/

theorem encode_cons (c : Char) (s : List Char) :
    encode (c :: s) = String.utf8EncodeChar c ++ encode s := rfl

theorem encode_append (s t : List Char) : encode (s ++ t) = encode s ++ encode t := by
  rw [encode, List.flatMap_append]
  rfl

theorem length_encode (s : List Char) : (encode s).length = byteLength s := by
  induction s with
  | nil => rfl
  | cons c s ih =>
    rw [encode_cons, List.length_append, String.length_utf8EncodeChar, ih, byteLength]

/-- Decoding goes through an encoded text character by character. -/
theorem pieces_encode_append (s : List Char) (rest : List UInt8) :
    pieces (encode s ++ rest) = s.map some ++ pieces rest := by
  induction s with
  | nil => rfl
  | cons c s ih =>
    obtain ⟨b, r, hc, hp⟩ := firstPiece_encodeChar c (encode s ++ rest)
    rw [encode_cons, hc, List.append_assoc, List.cons_append, pieces, hp, ih]
    simp only [Option.map_some, List.map_cons, List.cons_append, Char.ofNat_toNat]

theorem pieces_encode (s : List Char) : pieces (encode s) = s.map some := by
  have h := pieces_encode_append s []
  rwa [List.append_nil, pieces, List.append_nil] at h

/-- The tolerant reading gives back what was encoded. -/
theorem decodeLossy_encode (s : List Char) : decodeLossy (encode s) = s := by
  rw [decodeLossy, pieces_encode, List.map_map]
  exact List.map_id s

theorem wellFormed_map_some (s : List Char) : wellFormed? (s.map some) = some s := by
  induction s with
  | nil => rfl
  | cons c s ih => rw [List.map_cons, wellFormed?, ih, Option.map_some]

/-- The strict reading gives back what was encoded. -/
theorem decode_encode (s : List Char) : decode? (encode s) = some s := by
  rw [decode?, pieces_encode, wellFormed_map_some]

/-! ### The bytes of a string -/

theorem toList_loop (bytes : ByteArray) (i : Nat) (r : List UInt8) :
    ByteArray.toList.loop bytes i r = r.reverse ++ bytes.data.toList.drop i := by
  fun_induction ByteArray.toList.loop bytes i r with
  | case1 i r h ih =>
    have hi : i < bytes.data.toList.length := h
    have hget : bytes.get! i = bytes.data.toList[i] := by
      show bytes.data[i]! = _
      rw [getElem!_pos bytes.data i h]
      rfl
    rw [ih, List.drop_eq_getElem_cons hi, hget, List.reverse_cons, List.append_assoc]
    rfl
  | case2 i r h =>
    have hi : bytes.data.toList.length ≤ i := Nat.not_lt.mp h
    rw [List.drop_eq_nil_of_le hi, List.append_nil]

/-- The bytes of a string are the encoding of its characters. -/
theorem toUTF8_toList (s : List Char) : (String.ofList s).toUTF8.toList = encode s := by
  rw [ByteArray.toList, toList_loop]
  show List.drop 0 (String.ofList s).toByteArray.data.toList = _
  rw [String.toByteArray_ofList, List.drop_zero, List.utf8Encode, List.toList_data_toByteArray]
  rfl

/-! ### Bytes below 0x80 -/

/-- A byte below 0x80 in the bytes of a character is the whole character. -/
theorem toNat_eq_of_mem_encodeChar {c : Char} {b : UInt8} (hb : b ∈ String.utf8EncodeChar c)
    (h : b.toNat < 0x80) : c.toNat = b.toNat := by
  have high : ∀ m, 0x80 ≤ m → m < 256 → b ≠ UInt8.ofNat m := by
    intro m hl hh hbm
    rw [hbm, UInt8.toNat_ofNat'] at h
    omega
  have hv : c.val.toNat = c.toNat := rfl
  unfold String.utf8EncodeChar at hb
  simp only [hv] at hb
  generalize c.toNat = n at hb
  split at hb
  case isTrue hn =>
    rw [List.mem_singleton.mp hb, UInt8.toNat_ofNat']
    omega
  case isFalse =>
    exfalso
    split at hb
    case isTrue =>
      simp only [List.mem_cons, List.not_mem_nil, or_false] at hb
      rcases hb with hb | hb
      · exact high _ (by omega) (by omega) hb
      · exact high _ (by omega) (by omega) hb
    case isFalse =>
      split at hb
      case isTrue =>
        simp only [List.mem_cons, List.not_mem_nil, or_false] at hb
        rcases hb with hb | hb | hb
        · exact high _ (by omega) (by omega) hb
        · exact high _ (by omega) (by omega) hb
        · exact high _ (by omega) (by omega) hb
      case isFalse =>
        simp only [List.mem_cons, List.not_mem_nil, or_false] at hb
        rcases hb with hb | hb | hb | hb
        · exact high _ (by omega) (by omega) hb
        · exact high _ (by omega) (by omega) hb
        · exact high _ (by omega) (by omega) hb
        · exact high _ (by omega) (by omega) hb

/-- The bytes before the first zero byte are those of the characters before the first zero
character. -/
theorem takeWhile_encode (s : List Char) (rest : List UInt8) :
    (encode s ++ 0 :: rest).takeWhile (· != 0) = encode (s.takeWhile (· != '\x00')) := by
  induction s with
  | nil => rfl
  | cons c s ih =>
    by_cases hc : c = '\x00'
    · subst hc
      rfl
    · have hbytes : ∀ b ∈ String.utf8EncodeChar c, (b != 0) = true := by
        intro b hb
        rw [bne_iff_ne]
        rintro rfl
        have hn : c.toNat = 0 := toNat_eq_of_mem_encodeChar hb (by decide)
        exact hc (Char.toNat_inj.mp hn)
      have hchar : (c != '\x00') = true := bne_iff_ne.mpr hc
      rw [List.takeWhile_cons, if_pos hchar, encode_cons, encode_cons, List.append_assoc,
        List.takeWhile_append_of_pos hbytes, ih]

/-! ### Sizes -/

theorem byteLength_of_ascii {s : List Char} (h : ∀ c ∈ s, c.toNat < 0x80) :
    byteLength s = s.length := by
  induction s with
  | nil => rfl
  | cons c s ih =>
    have hc : c.toNat < 0x80 := h c List.mem_cons_self
    have hsize : c.utf8Size = 1 := by
      rw [Char.utf8Size_eq_one_iff, UInt32.le_iff_toNat_le]
      exact Nat.le_of_lt_succ hc
    have hs : byteLength s = s.length := ih fun d hd => h d (List.mem_cons_of_mem c hd)
    rw [byteLength, hsize, hs, List.length_cons, Nat.add_comm]

/-! ### Beginnings that fit -/

/-- `p` is the longest beginning of `s` that takes at most `room` bytes. -/
structure LongestWithin (room : Nat) (s p : List Char) : Prop where
  beginning : p <+: s
  fits : byteLength p ≤ room
  longest : ∀ q, q <+: s → byteLength q ≤ room → q.length ≤ p.length

theorem takeBytes_prefix (room : Nat) (s : List Char) : takeBytes room s <+: s := by
  induction s generalizing room with
  | nil => exact List.nil_prefix
  | cons c s ih =>
    rw [takeBytes]
    split
    · exact (List.prefix_cons_inj c).mpr (ih _)
    · exact List.nil_prefix

/-- No beginning that fits is longer than `takeBytes`. -/
theorem length_le_takeBytes {room : Nat} {s p : List Char} (hp : p <+: s)
    (hroom : byteLength p ≤ room) : p.length ≤ (takeBytes room s).length := by
  induction s generalizing room p with
  | nil =>
    rw [List.prefix_nil.mp hp]
    exact Nat.zero_le _
  | cons c s ih =>
    cases p with
    | nil => exact Nat.zero_le _
    | cons d p =>
      obtain ⟨rfl, hps⟩ := List.cons_prefix_cons.mp hp
      have hd : byteLength (d :: p) = d.utf8Size + byteLength p := rfl
      have ht : p.length ≤ (takeBytes (room - d.utf8Size) s).length := ih hps (by omega)
      rw [takeBytes, if_pos (by omega), List.length_cons, List.length_cons]
      exact Nat.succ_le_succ ht

theorem longestWithin_takeBytes (room : Nat) (s : List Char) :
    LongestWithin room s (takeBytes room s) where
  beginning := takeBytes_prefix room s
  fits := byteLength_takeBytes room s
  longest := fun _ hq hroom => length_le_takeBytes hq hroom

end TableAccess.Text
