import Phenotyping.Proofs.NearestFloat
import Phenotyping.Decimal.Reading
import Phenotyping.Decimal.Notation
import Phenotyping.Proofs.EncodedText
import Phenotyping.Proofs.FloatBits
/-! # Table numbers read back

The text written for a float in a table file reads back as the float itself, once trimmed:
the positional and exponent layouts both parse to a decimal of the value written, the text
starts with a digit after an optional minus sign and has no blanks, and the shortest digits
lie in the float's rounding interval, so reading rounds them back to it. NaN and the
infinities read back through their words.
-/
namespace Phenotyping.Decimal
set_option autoImplicit false

/-! ## Digits and exponents -/

theorem digitsValue_eq (cs : List Char) : digitsValue cs = Nat.ofDigitChars 10 cs 0 := rfl

theorem digitsValue_digitChars (n : Nat) : digitsValue (digitChars n) = n :=
  Nat.ofDigitChars_ten_toDigits

theorem isDigit_of_mem_digitChars {n : Nat} {c : Char} (h : c ∈ digitChars n) : c.isDigit = true :=
  Nat.isDigit_of_mem_toDigits (by decide) (by decide) h

theorem readExponent_digits {ds : List Char} (hne : ds ≠ []) (hds : ∀ c ∈ ds, c.isDigit = true) :
    readExponent ('e' :: ds) = some ((digitsValue ds : Nat) : Int) := by
  obtain ⟨d, ds', rfl⟩ := List.exists_cons_of_ne_nil hne
  have hd := hds d List.mem_cons_self
  have hplus : d ≠ '+' := by rintro rfl; exact absurd hd (by decide)
  have hminus : d ≠ '-' := by rintro rfl; exact absurd hd (by decide)
  simp [readExponent, hplus, hminus, List.all_eq_true.mpr hds]

theorem readExponent_neg_digits {ds : List Char} (hne : ds ≠ []) (hds : ∀ c ∈ ds, c.isDigit = true) :
    readExponent ('e' :: '-' :: ds) = some (-(digitsValue ds : Int)) := by
  simp [readExponent, hne, List.all_eq_true.mpr hds]

theorem readExponent_toString (k : Int) : readExponent ('e' :: (toString k).toList) = some k := by
  rw [Int.toString_eq_repr, Int.repr_eq_if]
  split
  · rename_i hk
    rw [Nat.toList_repr, readExponent_digits Nat.toDigits_ne_nil
      (fun c hc => isDigit_of_mem_digitChars hc), ← digitChars, digitsValue_digitChars, Option.some.injEq]
    omega
  · rename_i hk
    rw [String.toList_append, Nat.toList_repr]
    show readExponent ('e' :: '-' :: Nat.toDigits 10 (-k).toNat) = some k
    rw [readExponent_neg_digits Nat.toDigits_ne_nil (fun c hc => isDigit_of_mem_digitChars hc),
      ← digitChars, digitsValue_digitChars, Option.some.injEq]
    omega

/-! ## Unsigned numerals -/

/-- Text that ends, or goes on with something other than a digit. -/
def EndsDigits (rest : List Char) : Prop := ∀ c, rest.head? = some c → c.isDigit = false

theorem takeWhile_of_endsDigits {rest : List Char} (h : EndsDigits rest) :
    rest.takeWhile Char.isDigit = [] := by
  cases rest with
  | nil => rfl
  | cons c cs => simp [h c rfl]

theorem dropWhile_of_endsDigits {rest : List Char} (h : EndsDigits rest) :
    rest.dropWhile Char.isDigit = rest := by
  cases rest with
  | nil => rfl
  | cons c cs => simp [h c rfl]

theorem readUnsigned_point {ws fs rest : List Char} {x : Int} (hws : ∀ c ∈ ws, c.isDigit = true)
    (hfs : ∀ c ∈ fs, c.isDigit = true) (hne : ws ≠ []) (hrest : EndsDigits rest)
    (hexp : readExponent rest = some x) :
    readUnsigned (ws ++ '.' :: (fs ++ rest)) = some ⟨digitsValue (ws ++ fs), x - fs.length⟩ := by
  have hpoint : EndsDigits ('.' :: (fs ++ rest)) := by
    intro c hc
    cases hc
    decide
  unfold readUnsigned
  simp only [List.takeWhile_append_of_pos hws, List.dropWhile_append_of_pos hws,
    takeWhile_of_endsDigits hpoint, dropWhile_of_endsDigits hpoint, List.append_nil,
    List.takeWhile_append_of_pos hfs, List.dropWhile_append_of_pos hfs,
    takeWhile_of_endsDigits hrest, dropWhile_of_endsDigits hrest, hne, false_and, if_false, hexp]

theorem readUnsigned_whole {ws rest : List Char} {x : Int} (hws : ∀ c ∈ ws, c.isDigit = true)
    (hne : ws ≠ []) (hrest : EndsDigits rest) (hnopoint : rest.head? ≠ some '.')
    (hexp : readExponent rest = some x) :
    readUnsigned (ws ++ rest) = some ⟨digitsValue ws, x⟩ := by
  unfold readUnsigned
  simp only [List.takeWhile_append_of_pos hws, List.dropWhile_append_of_pos hws,
    takeWhile_of_endsDigits hrest, dropWhile_of_endsDigits hrest, List.append_nil]
  split
  · exact absurd rfl hnopoint
  · simp [hne, hexp]

theorem digitsValue_append (xs ys : List Char) :
    digitsValue (xs ++ ys) = 10 ^ ys.length * digitsValue xs + digitsValue ys := by
  rw [digitsValue_eq, Nat.ofDigitChars_append, Nat.ofDigitChars_eq_ofDigitChars_zero]
  rfl

theorem digitsValue_zeros (n : Nat) : digitsValue (List.replicate n '0') = 0 := by
  rw [digitsValue_eq, Nat.ofDigitChars_replicate_zero, Nat.mul_zero]

theorem digitsValue_zeros_append (n : Nat) (cs : List Char) :
    digitsValue (List.replicate n '0' ++ cs) = digitsValue cs := by
  rw [digitsValue_append, digitsValue_zeros, Nat.mul_zero, Nat.zero_add]

theorem zeros_toList (n : Nat) : (zeros n).toList = List.replicate n '0' := by
  simp [zeros]

/-! ## The table layout -/

theorem val_eq_of_shift {d d' : Decimal} (j : Nat) (hdigits : d'.digits = 10 ^ j * d.digits)
    (hexponent : d'.exponent + j = d.exponent) : d'.val = d.val := by
  unfold val
  rw [hdigits, ← hexponent, zpow_add₀ (by norm_num), zpow_natCast]
  push_cast
  ring

theorem forall_isDigit_append {xs ys : List Char} (hxs : ∀ c ∈ xs, c.isDigit = true)
    (hys : ∀ c ∈ ys, c.isDigit = true) : ∀ c ∈ xs ++ ys, c.isDigit = true := by
  intro c hc
  rcases List.mem_append.mp hc with h | h
  exacts [hxs c h, hys c h]

theorem forall_isDigit_zeros (n : Nat) : ∀ c ∈ List.replicate n '0', c.isDigit = true := by
  intro c hc
  rw [List.eq_of_mem_replicate hc]
  rfl

theorem readUnsigned_fraction (n : Nat) {s : List Char} (hs : ∀ c ∈ s, c.isDigit = true) :
    readUnsigned ("0." ++ zeros n ++ String.ofList s).toList =
      some ⟨digitsValue s, -((n + s.length : Nat) : Int)⟩ := by
  have htext : ("0." ++ zeros n ++ String.ofList s).toList =
      ['0'] ++ '.' :: ((List.replicate n '0' ++ s) ++ []) := by
    simp [zeros_toList]
  rw [htext, readUnsigned_point (by simp) (forall_isDigit_append (forall_isDigit_zeros n) hs)
    (by simp) (fun c h => by cases h) rfl]
  -- the leading `0` is one more padding zero
  have hdigits : digitsValue (['0'] ++ (List.replicate n '0' ++ s)) = digitsValue s :=
    digitsValue_zeros_append (n + 1) s
  rw [hdigits, List.length_append, List.length_replicate, Int.zero_sub]

theorem readUnsigned_inside {s : List Char} (hs : ∀ c ∈ s, c.isDigit = true) {k : Nat}
    (hk : 0 < k) (hks : k < s.length) :
    readUnsigned (String.ofList (s.take k) ++ "." ++ String.ofList (s.drop k)).toList =
      some ⟨digitsValue s, -((s.length - k : Nat) : Int)⟩ := by
  have htext : (String.ofList (s.take k) ++ "." ++ String.ofList (s.drop k)).toList =
      s.take k ++ '.' :: (s.drop k ++ []) := by
    simp
  have hne : s.take k ≠ [] := by
    simpa [List.take_eq_nil_iff] using ⟨by omega, List.ne_nil_of_length_pos (by omega)⟩
  rw [htext, readUnsigned_point (fun c hc => hs c (List.mem_of_mem_take hc))
    (fun c hc => hs c (List.mem_of_mem_drop hc)) hne (fun c h => by cases h) rfl,
    List.take_append_drop, List.length_drop, Int.zero_sub]

theorem readUnsigned_integral {s : List Char} (hs : ∀ c ∈ s, c.isDigit = true) (hne : s ≠ [])
    (n : Nat) :
    readUnsigned (String.ofList s ++ zeros n ++ ".0").toList =
      some ⟨10 ^ (n + 1) * digitsValue s, -1⟩ := by
  have htext : (String.ofList s ++ zeros n ++ ".0").toList =
      (s ++ List.replicate n '0') ++ '.' :: (['0'] ++ []) := by
    simp [zeros_toList]
  rw [htext, readUnsigned_point (forall_isDigit_append hs (forall_isDigit_zeros n)) (by simp)
    (by simp [hne]) (fun c h => by cases h) rfl]
  -- the padding zeros and the zero after the point scale the digits
  have hdigits : digitsValue (s ++ List.replicate n '0' ++ ['0']) =
      10 ^ (n + 1) * digitsValue s := by
    rw [digitsValue_append, digitsValue_append, digitsValue_zeros, List.length_replicate,
      List.length_singleton]
    show 10 ^ 1 * (10 ^ n * digitsValue s + 0) + 0 = _
    rw [Nat.pow_succ]
    ring
  rw [hdigits]
  rfl

theorem endsDigits_exponent (k : Int) : EndsDigits ('e' :: (toString k).toList) := by
  intro c hc
  cases hc
  decide

theorem readUnsigned_exponent_single {c : Char} (hc : c.isDigit = true) (k : Int) :
    readUnsigned (String.singleton c ++ "e" ++ toString k).toList = some ⟨digitsValue [c], k⟩ := by
  have htext : (String.singleton c ++ "e" ++ toString k).toList = [c] ++ 'e' :: (toString k).toList := by
    simp
  rw [htext, readUnsigned_whole (by simpa using hc) (by simp) (endsDigits_exponent k) (by simp)
    (readExponent_toString k)]

theorem readUnsigned_exponent_point {c c' : Char} {r : List Char}
    (hs : ∀ x ∈ c :: c' :: r, x.isDigit = true) (k : Int) :
    readUnsigned (String.singleton c ++ "." ++ String.ofList (c' :: r) ++ "e" ++ toString k).toList =
      some ⟨digitsValue (c :: c' :: r), k - (r.length + 1 : Nat)⟩ := by
  have htext : (String.singleton c ++ "." ++ String.ofList (c' :: r) ++ "e" ++ toString k).toList =
      [c] ++ '.' :: ((c' :: r) ++ 'e' :: (toString k).toList) := by
    simp
  rw [htext, readUnsigned_point (fun x hx => hs x (by simp_all))
    (fun x hx => hs x (List.mem_cons_of_mem c hx)) (by simp) (endsDigits_exponent k)
    (readExponent_toString k)]
  rfl

/-- A table-file number reads back as a decimal of the same value. -/
theorem readUnsigned_layout_table (d : Decimal) :
    ∃ d' : Decimal, readUnsigned (Notation.table.layout d).toList = some d' ∧ d'.val = d.val := by
  have hsd : ∀ c ∈ digitChars d.digits, c.isDigit = true := fun c hc => isDigit_of_mem_digitChars hc
  have hsne : digitChars d.digits ≠ [] := Nat.toDigits_ne_nil
  have hvalue : digitsValue (digitChars d.digits) = d.digits := digitsValue_digitChars d.digits
  have hpoint : d.point = ((digitChars d.digits).length : Int) + d.exponent := rfl
  unfold Notation.layout
  simp only [Notation.table, if_true]
  generalize digitChars d.digits = s at hsd hsne hvalue hpoint ⊢
  -- each layout reads as the digits over a power of ten; only the exponent bookkeeping differs
  split_ifs with hpos hk0 hklen
  · rw [readUnsigned_fraction _ hsd]
    refine ⟨_, rfl, val_eq_of_shift 0 (by rw [hvalue, Nat.pow_zero, Nat.one_mul]) ?_⟩
    dsimp only
    omega
  · rw [readUnsigned_inside hsd (k := d.point.toNat) (by omega) (by omega)]
    refine ⟨_, rfl, val_eq_of_shift 0 (by rw [hvalue, Nat.pow_zero, Nat.one_mul]) ?_⟩
    dsimp only
    omega
  · rw [readUnsigned_integral hsd hsne]
    refine ⟨_, rfl, val_eq_of_shift (d.point.toNat - s.length + 1) (by rw [hvalue]) ?_⟩
    dsimp only
    omega
  · obtain ⟨c, r, rfl⟩ := List.exists_cons_of_ne_nil hsne
    cases r with
    | nil =>
      simp only
      rw [readUnsigned_exponent_single (hsd c List.mem_cons_self)]
      refine ⟨_, rfl, val_eq_of_shift 0 (by rw [hvalue, Nat.pow_zero, Nat.one_mul]) ?_⟩
      simp only [List.length_singleton] at hpoint
      dsimp only
      omega
    | cons c' r' =>
      simp only
      rw [readUnsigned_exponent_point hsd]
      refine ⟨_, rfl, val_eq_of_shift 0 (by rw [hvalue, Nat.pow_zero, Nat.one_mul]) ?_⟩
      simp only [List.length_cons] at hpoint
      dsimp only
      omega

theorem mem_toString_int {k : Int} {c : Char} (h : c ∈ (toString k).toList) :
    c.isDigit = true ∨ c = '-' := by
  rw [Int.toString_eq_repr, Int.repr_eq_if] at h
  split at h
  · rw [Nat.toList_repr] at h
    exact .inl (isDigit_of_mem_digitChars h)
  · rw [String.toList_append, Nat.toList_repr] at h
    rcases List.mem_append.mp h with h | h
    · exact .inr (by simpa using h)
    · exact .inl (isDigit_of_mem_digitChars h)

def numeralChar (c : Char) : Bool := c.isDigit || c == '.' || c == 'e' || c == '-'

theorem all_numeralChar_of_digits {cs : List Char} (h : ∀ c ∈ cs, c.isDigit = true) :
    cs.all numeralChar = true :=
  List.all_eq_true.mpr fun c hc => by simp [numeralChar, h c hc]

theorem all_numeralChar_toString (k : Int) : (toString k).toList.all numeralChar = true := by
  refine List.all_eq_true.mpr fun c hc => ?_
  rcases mem_toString_int hc with h | rfl
  · simp [numeralChar, h]
  · rfl

theorem all_numeralChar_layout (f : Notation) (d : Decimal) :
    (f.layout d).toList.all numeralChar = true := by
  have hs := all_numeralChar_of_digits fun c hc => isDigit_of_mem_digitChars (n := d.digits) hc
  have hzeros (n : Nat) : (zeros n).toList.all numeralChar = true := by
    rw [zeros_toList]
    exact all_numeralChar_of_digits (forall_isDigit_zeros n)
  unfold Notation.layout
  generalize digitChars d.digits = s at hs
  dsimp only
  split_ifs
  · simp only [String.toList_append, List.all_append, String.toList_ofList, hs, hzeros,
      Bool.and_true]
    rfl
  · rw [← List.take_append_drop d.point.toNat s, List.all_append, Bool.and_eq_true] at hs
    simp only [String.toList_append, List.all_append, String.toList_ofList, hs, Bool.and_true]
    rfl
  · simp only [String.toList_append, List.all_append, String.toList_ofList, hs, hzeros,
      Bool.true_and]
    rfl
  · simp only [String.toList_append, List.all_append, String.toList_ofList, hs, hzeros]
    rfl
  · -- the mantissa, split by its number of digits
    have hexp : ("e" ++ toString (d.point - 1)).toList.all numeralChar = true := by
      simp only [String.toList_append, List.all_append, all_numeralChar_toString, Bool.and_true]
      rfl
    rw [String.append_assoc, String.toList_append, List.all_append, hexp, Bool.and_true]
    match s, hs with
    | [c], hs => simpa using hs
    | c :: c' :: r, hs =>
      rw [List.all_cons, Bool.and_eq_true] at hs
      simp only [String.toList_append, List.all_append, String.toList_ofList, hs,
        String.toList_singleton, List.all_cons, List.all_nil, Bool.and_true]
      rfl
    | [], _ => rfl

theorem head?_layout (f : Notation) (d : Decimal) :
    ∃ c, (f.layout d).toList.head? = some c ∧ c.isDigit = true := by
  have hsd : ∀ c ∈ digitChars d.digits, c.isDigit = true := fun c hc => isDigit_of_mem_digitChars hc
  have hsne : digitChars d.digits ≠ [] := Nat.toDigits_ne_nil
  unfold Notation.layout
  generalize digitChars d.digits = s at hsd hsne
  obtain ⟨c, r, rfl⟩ := List.exists_cons_of_ne_nil hsne
  have hc : c.isDigit = true := hsd c List.mem_cons_self
  dsimp only
  split_ifs with _ hk0
  · exact ⟨'0', by simp, rfl⟩
  · obtain ⟨j, hj⟩ : ∃ j, d.point.toNat = j + 1 := ⟨d.point.toNat - 1, by omega⟩
    exact ⟨c, by simp [hj], hc⟩
  · exact ⟨c, by simp, hc⟩
  · exact ⟨c, by simp, hc⟩
  · cases r <;> exact ⟨c, by simp, hc⟩

/-! ## Reading the text back -/

theorem lowerAscii_cons_of_isDigit {c : Char} (rest : List Char) (hc : c.isDigit = true) :
    lowerAscii (c :: rest) = c :: lowerAscii rest := by
  have hupper : ¬('A' ≤ c ∧ c ≤ 'Z') := by
    simp only [Char.isDigit, Bool.and_eq_true, decide_eq_true_eq] at hc
    rintro ⟨h, -⟩
    have : (65 : UInt32) ≤ c.val := h
    have := hc.2
    simp [UInt32.le_iff_toNat_le] at *
    omega
  simp [lowerAscii, hupper]

theorem readFloat_signed (negative : Bool) {s : String} {c : Char} {d : Decimal}
    (hhead : s.toList.head? = some c) (hc : c.isDigit = true)
    (hread : readUnsigned s.toList = some d) :
    readFloat ((if negative then "-" else "") ++ s) = .ok (toFloat negative d) := by
  obtain ⟨rest, hs⟩ : ∃ rest, s.toList = c :: rest := by
    cases h : s.toList with
    | nil => simp [h] at hhead
    | cons c' rest => simp_all
  have hsign : c ≠ '+' ∧ c ≠ '-' := by
    constructor <;> rintro rfl <;> simp [Char.isDigit] at hc
  -- the words start with letters, the numeral with a digit
  have hword (w : String) (hw : w.toList.head?.all (fun x => !x.isDigit)) :
      lowerAscii (c :: rest) ≠ w.toList := by
    intro h
    rw [lowerAscii_cons_of_isDigit rest hc] at h
    rw [← h] at hw
    simp [hc] at hw
  have hnotword : ¬(lowerAscii (c :: rest) = "inf".toList ∨
      lowerAscii (c :: rest) = "infinity".toList) :=
    not_or.mpr ⟨hword "inf" (by decide), hword "infinity" (by decide)⟩
  unfold readFloat
  -- the sign match: the numeral's first character is neither sign
  cases negative
  · simp only [Bool.false_eq_true, if_false, String.empty_append, hs]
    rw [if_neg (List.cons_ne_nil _ _)]
    split
    · simp_all
    · simp_all
    · dsimp only
      rw [if_neg hnotword, if_neg (hword "nan" (by decide)), ← hs, hread]
  · simp only [if_true, String.toList_append, hs]
    rw [show "-".toList ++ c :: rest = '-' :: c :: rest from rfl, if_neg (List.cons_ne_nil _ _)]
    split
    · simp_all
    · rename_i body hbody
      obtain rfl : body = c :: rest := (List.cons.inj hbody).2.symm
      dsimp only
      rw [if_neg hnotword, if_neg (hword "nan" (by decide)), ← hs, hread]
    · simp_all

theorem isBlank_of_numeralChar {c : Char} (h : numeralChar c = true) : Text.isBlank c = false := by
  simp only [numeralChar, Bool.or_eq_true, beq_iff_eq] at h
  rcases h with ((h | rfl) | rfl) | rfl
  · exact Text.isBlank_of_isDigit c h
  all_goals rfl

theorem render_table_not_blank (x : Float) :
    ∀ c ∈ (Notation.table.render x).toList, Text.isBlank c = false := by
  intro c hc
  unfold Notation.render at hc
  split at hc
  · simp [Notation.table] at hc
    rcases hc with rfl | rfl | rfl <;> rfl
  · rename_i negative _
    cases negative <;> simp [Notation.table] at hc <;> rcases hc with rfl | rfl | rfl | rfl <;> rfl
  · rename_i negative d _
    rw [String.toList_append, List.mem_append] at hc
    rcases hc with hc | hc
    · cases negative <;> simp at hc
      subst hc
      rfl
    · exact isBlank_of_numeralChar (List.all_eq_true.mp (all_numeralChar_layout _ d) c hc)

theorem digits_eq_zero_of_val {d : Decimal} (h : d.val = 0) : d.digits = 0 := by
  unfold val at h
  rcases mul_eq_zero.mp h with h | h
  · exact_mod_cast h
  · exact absurd h (zpow_ne_zero _ (by norm_num))

/-- A float written to a table file, trimmed and read back, is the float itself. -/
theorem readFloat_trim_render_table (x : Float) :
    readFloat (Text.trim (Notation.table.render x)) = .ok x := by
  rw [Text.trim_of_not_blank _ (render_table_not_blank x)]
  unfold Notation.render shortest
  cases hv : Binary64.view x with
  | nan =>
    rw [Binary64.eq_nan_of_view hv]
    rfl
  | infinite negative =>
    rw [Binary64.eq_infinity_of_view hv]
    cases negative <;> rfl
  | finite negative m e =>
    have hshape := Binary64.view_finite_cases hv
    have htie : Notation.table.tie = .even := rfl
    rw [htie]
    dsimp only
    split_ifs with hm0 <;> dsimp only
    · -- zero: the text `0.0`, read as the zero of the sign
      obtain ⟨d', hread, hval⟩ := readUnsigned_layout_table ⟨0, 0⟩
      obtain ⟨c, hhead, hc⟩ := head?_layout Notation.table ⟨0, 0⟩
      have hzero : d'.digits = 0 := digits_eq_zero_of_val (by rw [hval]; simp [val])
      obtain rfl : e = -1074 := by omega
      rw [readFloat_signed negative hhead hc hread, ← Binary64.ofParts_of_view hv, hm0]
      simp [toFloat, hzero]
    · -- non-zero: the shortest digits lie in the float's rounding interval
      have hm : 0 < m := Nat.pos_of_ne_zero hm0
      have hadm := shortestOf_admits .even (e := e) hm (by omega) (by omega) (by omega)
      obtain ⟨d', hread, hval⟩ := readUnsigned_layout_table (shortestOf .even m e)
      obtain ⟨c, hhead, hc⟩ := head?_layout Notation.table (shortestOf .even m e)
      rw [readFloat_signed negative hhead hc hread, toFloat_of_admits hm hshape (hval ▸ hadm),
        Binary64.ofParts_of_view hv]

end Phenotyping.Decimal
