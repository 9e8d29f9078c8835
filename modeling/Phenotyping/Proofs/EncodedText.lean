import Phenotyping.Text.Utf8
import Phenotyping.Text.Blank
/-! # Encoded text reads back

A text written out as UTF-8 decodes to itself: each character's encoding is one of the four
sequence shapes the decoder accepts, with the payload bits of the character. Trimming is
idempotent, so a trimmed text is left as it is when it is trimmed again.
-/
namespace Phenotyping.Text
set_option autoImplicit false

/-! ## Decoding the four sequence shapes -/

theorem decodeFrom_one (valid : Nat) (b : UInt8) (rest : List UInt8) (hb : b.toNat < 0x80) :
    decodeFrom valid (b :: rest) = (decodeFrom (valid + 1) rest).map (Char.ofNat b.toNat :: ·) := by
  have : b < 0x80 := by rw [UInt8.lt_iff_toNat_lt]; simpa using hb
  rw [decodeFrom.eq_def]
  simp only [this, if_true]

theorem decodeFrom_two (valid : Nat) (b c : UInt8) (rest : List UInt8)
    (hb : 0xC2 ≤ b.toNat ∧ b.toNat ≤ 0xDF) (hc : 0x80 ≤ c.toNat ∧ c.toNat ≤ 0xBF) :
    decodeFrom valid (b :: c :: rest) =
      (decodeFrom (valid + 2) rest).map (Char.ofNat ((b.toNat % 32) * 64 + c.toNat % 64) :: ·) := by
  have h1 : ¬ b < 0x80 := by rw [UInt8.lt_iff_toNat_lt]; simp; omega
  have h2 : (0xC2 ≤ b && b ≤ 0xDF) = true := by
    simp only [Bool.and_eq_true, decide_eq_true_eq, UInt8.le_iff_toNat_le]; simp; omega
  have h3 : isContinuation c = true := by
    simp only [isContinuation, Bool.and_eq_true, decide_eq_true_eq, UInt8.le_iff_toNat_le]; simp; omega
  rw [decodeFrom.eq_def]
  simp only [h1, h2, if_false, if_true]
  simp only [h3, if_true, payload]


theorem decodeFrom_three (valid : Nat) (b c1 c2 : UInt8) (rest : List UInt8)
    (hb : 0xE0 ≤ b.toNat ∧ b.toNat ≤ 0xEF) (hc1 : 0x80 ≤ c1.toNat ∧ c1.toNat ≤ 0xBF)
    (hlo : b.toNat = 0xE0 → 0xA0 ≤ c1.toNat) (hhi : b.toNat = 0xED → c1.toNat ≤ 0x9F)
    (hc2 : 0x80 ≤ c2.toNat ∧ c2.toNat ≤ 0xBF) :
    decodeFrom valid (b :: c1 :: c2 :: rest) =
      (decodeFrom (valid + 3) rest).map
        (Char.ofNat ((b.toNat % 16) * 4096 + c1.toNat % 64 * 64 + c2.toNat % 64) :: ·) := by
  have h1 : ¬ b < 0x80 := by rw [UInt8.lt_iff_toNat_lt]; simp; omega
  have h2 : ¬ (0xC2 ≤ b && b ≤ 0xDF) = true := by
    simp only [Bool.and_eq_true, decide_eq_true_eq, UInt8.le_iff_toNat_le]; simp; omega
  have h3 : (0xE0 ≤ b && b ≤ 0xEF) = true := by
    simp only [Bool.and_eq_true, decide_eq_true_eq, UInt8.le_iff_toNat_le]; simp; omega
  have h4 : ((if b = 0xE0 then (0xA0 : UInt8) else 0x80) ≤ c1 &&
      c1 ≤ (if b = 0xED then (0x9F : UInt8) else 0xBF) && isContinuation c2) = true := by
    simp only [isContinuation, Bool.and_eq_true, decide_eq_true_eq, UInt8.le_iff_toNat_le,
      ← UInt8.toNat_inj]
    split <;> split <;> simp_all
  rw [decodeFrom.eq_def]
  simp only [h1, h2, h3, Bool.false_eq_true, if_false, if_true]
  rw [if_pos h4]
  rfl

theorem decodeFrom_four (valid : Nat) (b c1 c2 c3 : UInt8) (rest : List UInt8)
    (hb : 0xF0 ≤ b.toNat ∧ b.toNat ≤ 0xF4) (hc1 : 0x80 ≤ c1.toNat ∧ c1.toNat ≤ 0xBF)
    (hlo : b.toNat = 0xF0 → 0x90 ≤ c1.toNat) (hhi : b.toNat = 0xF4 → c1.toNat ≤ 0x8F)
    (hc2 : 0x80 ≤ c2.toNat ∧ c2.toNat ≤ 0xBF) (hc3 : 0x80 ≤ c3.toNat ∧ c3.toNat ≤ 0xBF) :
    decodeFrom valid (b :: c1 :: c2 :: c3 :: rest) =
      (decodeFrom (valid + 4) rest).map
        (Char.ofNat ((b.toNat % 8) * 262144 + c1.toNat % 64 * 4096 + c2.toNat % 64 * 64 +
          c3.toNat % 64) :: ·) := by
  have h1 : ¬ b < 0x80 := by rw [UInt8.lt_iff_toNat_lt]; simp; omega
  have h2 : ¬ (0xC2 ≤ b && b ≤ 0xDF) = true := by
    simp only [Bool.and_eq_true, decide_eq_true_eq, UInt8.le_iff_toNat_le]; simp; omega
  have h3 : ¬ (0xE0 ≤ b && b ≤ 0xEF) = true := by
    simp only [Bool.and_eq_true, decide_eq_true_eq, UInt8.le_iff_toNat_le]; simp; omega
  have h4 : (0xF0 ≤ b && b ≤ 0xF4) = true := by
    simp only [Bool.and_eq_true, decide_eq_true_eq, UInt8.le_iff_toNat_le]; simp; omega
  have h5 : ((if b = 0xF0 then (0x90 : UInt8) else 0x80) ≤ c1 &&
      c1 ≤ (if b = 0xF4 then (0x8F : UInt8) else 0xBF) && isContinuation c2 &&
      isContinuation c3) = true := by
    simp only [isContinuation, Bool.and_eq_true, decide_eq_true_eq, UInt8.le_iff_toNat_le,
      ← UInt8.toNat_inj]
    split <;> split <;> simp_all
  rw [decodeFrom.eq_def]
  simp only [h1, h2, h3, h4, Bool.false_eq_true, if_false, if_true]
  rw [if_pos h5]
  rfl

theorem decodeFrom_utf8EncodeChar (valid : Nat) (c : Char) (rest : List UInt8) :
    decodeFrom valid (String.utf8EncodeChar c ++ rest) =
      (decodeFrom (valid + (String.utf8EncodeChar c).length) rest).map (c :: ·) := by
  have hc : c.toNat < 0xD800 ∨ (0xDFFF < c.toNat ∧ c.toNat < 0x110000) := c.valid
  have hval : c.val.toNat = c.toNat := rfl
  have hback : ∀ n, n = c.toNat → Char.ofNat n = c := by
    rintro n rfl
    exact Char.ofNat_toNat c
  unfold String.utf8EncodeChar
  simp only [hval]
  split
  · simp only [List.cons_append, List.nil_append, List.length_singleton]
    rw [decodeFrom_one _ _ _ (by simp; omega), hback _ (by simp; omega)]
  split
  · simp only [List.cons_append, List.nil_append, List.length_cons, List.length_nil]
    rw [decodeFrom_two _ _ _ _ (by simp; omega) (by simp; omega), hback _ (by simp; omega)]
  split
  · simp only [List.cons_append, List.nil_append, List.length_cons, List.length_nil]
    rw [decodeFrom_three _ _ _ _ _ (by simp; omega) (by simp; omega) (by simp; omega)
      (by simp; omega) (by simp; omega), hback _ (by simp; omega)]
  · simp only [List.cons_append, List.nil_append, List.length_cons, List.length_nil]
    rw [decodeFrom_four _ _ _ _ _ _ (by simp; omega) (by simp; omega) (by simp; omega)
      (by simp; omega) (by simp; omega) (by simp; omega), hback _ (by simp; omega)]

/-! ## The bytes of one character -/

theorem utf8EncodeChar_of_lt (x : Char) (h : x.toNat < 128) :
    String.utf8EncodeChar x = [UInt8.ofNat x.toNat] := by
  have hval : x.val.toNat = x.toNat := rfl
  unfold String.utf8EncodeChar
  simp only [hval]
  rw [if_pos (by omega)]

theorem utf8EncodeChar_byte_ne (x a : Char) (ha : a.toNat < 128) (hne : x ≠ a) (b : UInt8)
    (hb : b ∈ String.utf8EncodeChar x) : b ≠ UInt8.ofNat a.toNat := by
  rintro rfl
  have hval : x.val.toNat = x.toNat := rfl
  have hsame : ∀ m, m < 256 → UInt8.ofNat a.toNat = UInt8.ofNat m → a.toNat = m := by
    intro m hm h
    have := congrArg UInt8.toNat h
    simp only [UInt8.toNat_ofNat'] at this
    omega
  unfold String.utf8EncodeChar at hb
  simp only [hval] at hb
  split at hb
  · simp only [List.mem_singleton] at hb
    exact hne (Char.toNat_inj.mp (hsame _ (by omega) hb).symm)
  split at hb
  · simp only [List.mem_cons, List.not_mem_nil, or_false] at hb
    rcases hb with h | h <;> have := hsame _ (by omega) h <;> omega
  split at hb
  · simp only [List.mem_cons, List.not_mem_nil, or_false] at hb
    rcases hb with h | h | h <;> have := hsame _ (by omega) h <;> omega
  · simp only [List.mem_cons, List.not_mem_nil, or_false] at hb
    rcases hb with h | h | h | h <;> have := hsame _ (by omega) h <;> omega

/-! ## The bytes of a text -/

theorem byteArray_toList_loop (bs : ByteArray) (i : Nat) (r : List UInt8) :
    ByteArray.toList.loop bs i r = r.reverse ++ bs.data.toList.drop i := by
  have hsize : bs.data.toList.length = bs.size := by rw [Array.length_toList, ByteArray.size_data]
  fun_induction ByteArray.toList.loop bs i r with
  | case1 i r hi ih =>
    have hlen : i < bs.data.toList.length := hsize ▸ hi
    have hget : bs.get! i = bs.data.toList[i] := by
      obtain ⟨data⟩ := bs
      simp only [ByteArray.get!, Array.getElem_toList]
      exact getElem!_pos data i hi
    rw [ih, List.reverse_cons, List.append_assoc, List.drop_eq_getElem_cons hlen, hget]
    rfl
  | case2 i r hi =>
    have hlen : bs.data.toList.length ≤ i := by omega
    rw [List.drop_eq_nil_of_le hlen, List.append_nil]

theorem byteArray_toList_eq_data (bs : ByteArray) : bs.toList = bs.data.toList := by
  rw [ByteArray.toList, byteArray_toList_loop, List.reverse_nil, List.nil_append, List.drop_zero]

theorem toUTF8_toList (s : String) : s.toUTF8.toList = s.toList.flatMap String.utf8EncodeChar := by
  rw [byteArray_toList_eq_data, String.toUTF8_eq_toByteArray, ← String.ofList_toList (s := s),
    String.toByteArray_ofList, String.toList_ofList, List.utf8Encode, List.toList_data_toByteArray]

theorem decodeFrom_flatMap (valid : Nat) (cs : List Char) (rest : List UInt8) :
    decodeFrom valid (cs.flatMap String.utf8EncodeChar ++ rest) =
      (decodeFrom (valid + (cs.flatMap String.utf8EncodeChar).length) rest).map (cs ++ ·) := by
  induction cs generalizing valid with
  | nil =>
    simp only [List.flatMap_nil, List.nil_append, List.length_nil, Nat.add_zero]
    cases decodeFrom valid rest <;> rfl
  | cons c cs ih =>
    rw [List.flatMap_cons, List.append_assoc, decodeFrom_utf8EncodeChar, ih, List.length_append,
      Nat.add_assoc]
    cases decodeFrom _ rest <;> rfl

/-- The bytes of a text decode to the text. -/
theorem decodeUtf8_toUTF8 (s : String) : decodeUtf8 s.toUTF8.toList = .ok s := by
  have h := decodeFrom_flatMap 0 s.toList []
  rw [List.append_nil] at h
  rw [decodeUtf8, toUTF8_toList, h, decodeFrom]
  simp [Except.map, String.ofList_toList]

/-! ## Trimming twice -/

theorem dropWhile_eq_self_of_head? {p : Char → Bool} {l : List Char}
    (h : ∀ x, l.head? = some x → p x = false) : l.dropWhile p = l := by
  cases l with
  | nil => rfl
  | cons x xs => exact List.dropWhile_cons_of_neg (by simp [h x rfl])

theorem dropWhile_dropWhile (p : Char → Bool) (l : List Char) :
    (l.dropWhile p).dropWhile p = l.dropWhile p := by
  apply dropWhile_eq_self_of_head?
  intro x hx
  have := List.head?_dropWhile_not p l
  rw [hx] at this
  exact this

theorem trimChars_trimChars (cs : List Char) : trimChars (trimChars cs) = trimChars cs := by
  -- the trimmed text is a prefix of the text without its leading blanks, so it starts with
  -- no blank either
  have hprefix : trimChars cs <+: cs.dropWhile isBlank := by
    simpa [trimChars] using
      (List.dropWhile_suffix isBlank (l := (cs.dropWhile isBlank).reverse)).reverse
  have hfront : (trimChars cs).dropWhile isBlank = trimChars cs := by
    apply dropWhile_eq_self_of_head?
    intro x hx
    obtain ⟨u, hu⟩ := hprefix
    have hcs : (cs.dropWhile isBlank).head? = some x := by
      rw [← hu, List.head?_append, hx, Option.some_or]
    have := List.head?_dropWhile_not isBlank cs
    rw [hcs] at this
    exact this
  have hback : (trimChars cs).reverse.dropWhile isBlank = (trimChars cs).reverse := by
    rw [trimChars, List.reverse_reverse, dropWhile_dropWhile]
  rw [trimChars.eq_def (trimChars cs), hfront, hback, List.reverse_reverse]

theorem trimChars_of_not_blank (cs : List Char) (h : ∀ c ∈ cs, isBlank c = false) :
    trimChars cs = cs := by
  have hfront : cs.dropWhile isBlank = cs := by
    apply dropWhile_eq_self_of_head?
    intro x hx
    exact h x (List.mem_of_mem_head? hx)
  have hback : cs.reverse.dropWhile isBlank = cs.reverse := by
    apply dropWhile_eq_self_of_head?
    intro x hx
    exact h x (List.mem_reverse.mp (List.mem_of_mem_head? hx))
  rw [trimChars, hfront, hback, List.reverse_reverse]

theorem trim_of_not_blank (s : String) (h : ∀ c ∈ s.toList, isBlank c = false) : trim s = s := by
  rw [trim, trimChars_of_not_blank _ h, String.ofList_toList]

theorem isBlank_of_isDigit (c : Char) (h : c.isDigit = true) : isBlank c = false := by
  simp only [Char.isDigit, Bool.and_eq_true, decide_eq_true_eq] at h
  have hlo : 48 ≤ c.toNat := h.1
  have hhi : c.toNat ≤ 57 := h.2
  simp only [isBlank, Bool.or_eq_false_iff, Bool.and_eq_false_iff, decide_eq_false_iff_not,
    Nat.not_le, beq_eq_false_iff_ne, ne_eq]
  omega

theorem trim_trim (s : String) : trim (trim s) = trim s := by
  rw [trim, trim, String.toList_ofList, trimChars_trimChars]

end Phenotyping.Text
