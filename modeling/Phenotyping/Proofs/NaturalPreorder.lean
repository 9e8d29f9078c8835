import Mathlib
import Phenotyping.Text.NaturalOrder
/-! # Natural order is a total preorder

Natural order reads a text as a list of tokens, skipping blanks between them: maximal runs of
ASCII digits, and single other characters. Each token has a key, a short list of numbers, and
comparing two texts in natural order is comparing their lists of token keys in dictionary
order (`compareNaturalChars_eq_keyCompare`). Hence natural order is a total preorder
(`Std.TransCmp`), and two texts tie exactly when their token keys agree. Texts that differ only
in blanks between tokens tie, as `" f"` and `"f"` do, so natural order is not antisymmetric.
-/
namespace Phenotyping.Text
set_option autoImplicit false

/-! ## Token keys -/

/-- The key of a character that is neither blank nor a digit: the characters below `0` come
before every digit run, the others after. -/
def charKey (c : Char) : List Nat := [if c.toNat < '0'.toNat then 0 else 3, c.toNat]

/-- The key of a run of digits: a run led by `0` is compared digit by digit from the left, any
other run by its length first; the runs led by `0` come first. -/
def runKey (ds : List Char) : List Nat :=
  if ds.head? = some '0' then 1 :: ds.map Char.toNat else 2 :: ds.length :: ds.map Char.toNat

set_option linter.unusedVariables false in
def naturalKeys (l : List Char) : List (List Nat) :=
  match hl : l.dropWhile isBlank with
  | [] => []
  | a :: as =>
    if ha : a.isDigit then
      runKey ((a :: as).takeWhile Char.isDigit) :: naturalKeys ((a :: as).dropWhile Char.isDigit)
    else charKey a :: naturalKeys as
termination_by l.length
decreasing_by
  · have hrun := length_dropWhile_cons_lt Char.isDigit a as ha
    have hblank := (List.dropWhile_sublist (l := l) isBlank).length_le
    rw [hl] at hblank
    omega
  · have hblank := (List.dropWhile_sublist (l := l) isBlank).length_le
    rw [hl, List.length_cons] at hblank
    omega

/-- Dictionary order on lists of token keys, each key itself in dictionary order. -/
def keyCompare : List (List Nat) → List (List Nat) → Ordering :=
  List.compareLex (List.compareLex compare)

instance : Std.TransCmp keyCompare :=
  inferInstanceAs (Std.TransCmp (List.compareLex (List.compareLex compare)))

instance : Std.LawfulEqCmp keyCompare :=
  inferInstanceAs (Std.LawfulEqCmp (List.compareLex (List.compareLex compare)))

theorem naturalKeys_of_nil {l : List Char} (h : l.dropWhile isBlank = []) : naturalKeys l = [] := by
  rw [naturalKeys]
  split <;> simp_all

theorem naturalKeys_of_digit {l : List Char} {a : Char} {as : List Char}
    (h : l.dropWhile isBlank = a :: as) (ha : a.isDigit = true) :
    naturalKeys l = runKey ((a :: as).takeWhile Char.isDigit) ::
      naturalKeys ((a :: as).dropWhile Char.isDigit) := by
  rw [naturalKeys]
  split <;> simp_all

theorem naturalKeys_of_not_digit {l : List Char} {a : Char} {as : List Char}
    (h : l.dropWhile isBlank = a :: as) (ha : a.isDigit = false) :
    naturalKeys l = charKey a :: naturalKeys as := by
  rw [naturalKeys]
  split <;> simp_all

theorem naturalKeys_of_cons {l : List Char} {a : Char} {as : List Char}
    (h : l.dropWhile isBlank = a :: as) : ∃ k ks, naturalKeys l = k :: ks := by
  cases ha : a.isDigit with
  | true => exact ⟨_, _, naturalKeys_of_digit h ha⟩
  | false => exact ⟨_, _, naturalKeys_of_not_digit h ha⟩

theorem naturalKeys_congr {l r : List Char} (h : l.dropWhile isBlank = r.dropWhile isBlank) :
    naturalKeys l = naturalKeys r := by
  cases hl : l.dropWhile isBlank with
  | nil => rw [naturalKeys_of_nil hl, naturalKeys_of_nil (h ▸ hl)]
  | cons a as =>
    have hr : r.dropWhile isBlank = a :: as := h ▸ hl
    cases ha : a.isDigit with
    | true => rw [naturalKeys_of_digit hl ha, naturalKeys_of_digit hr ha]
    | false => rw [naturalKeys_of_not_digit hl ha, naturalKeys_of_not_digit hr ha]

theorem naturalKeys_cons_blank {c : Char} (hc : isBlank c = true) (l : List Char) :
    naturalKeys (c :: l) = naturalKeys l :=
  naturalKeys_congr (List.dropWhile_cons_of_pos hc)

/-! ## Comparing the first tokens -/

theorem isDigit_iff (c : Char) : c.isDigit = true ↔ 48 ≤ c.toNat ∧ c.toNat ≤ 57 := by
  unfold Char.isDigit Char.toNat
  simp only [Bool.and_eq_true, decide_eq_true_eq, ge_iff_le, UInt32.le_iff_toNat_le]
  rfl

theorem compareLex_eq (x y : List Char) :
    compareLex x y = List.compareLex compare (x.map Char.toNat) (y.map Char.toNat) := by
  induction x generalizing y with
  | nil => cases y <;> rfl
  | cons a as ih =>
    cases y with
    | nil => rfl
    | cons b bs => simp only [compareLex, List.map_cons, List.compareLex_cons_cons, ih]

theorem compareRuns_eq (a b : Char) (xs ys : List Char) (ha : a.isDigit = true)
    (hb : b.isDigit = true) :
    compareRuns (a :: xs) (b :: ys) =
      List.compareLex compare (runKey (a :: xs)) (runKey (b :: ys)) := by
  have hda := (isDigit_iff a).mp ha
  have hdb := (isDigit_iff b).mp hb
  unfold compareRuns runKey
  by_cases ha0 : a = '0' <;> by_cases hb0 : b = '0'
  · simp [ha0, hb0, List.compareLex_cons_cons, compareLex_eq]
  · -- a run led by `0` is below a run led by another digit, in both orders
    have hb48 : b.toNat ≠ 48 := fun h => hb0 (Char.toNat_inj.mp h)
    simp [ha0, hb0, List.compareLex_cons_cons, compareLex,
      Nat.compare_eq_lt.mpr (show 48 < b.toNat by omega)]
    rfl
  · have ha48 : a.toNat ≠ 48 := fun h => ha0 (Char.toNat_inj.mp h)
    simp [ha0, hb0, List.compareLex_cons_cons, compareLex,
      Nat.compare_eq_gt.mpr (show 48 < a.toNat by omega)]
    rfl
  · simp [ha0, hb0, List.compareLex_cons_cons, compareLex_eq]

theorem runKey_cons (a : Char) (xs : List Char) :
    ∃ k rest, runKey (a :: xs) = k :: rest ∧ 1 ≤ k ∧ k ≤ 2 := by
  unfold runKey
  split
  · exact ⟨1, _, rfl, Nat.le_refl 1, by decide⟩
  · exact ⟨2, _, rfl, by decide, Nat.le_refl 2⟩

theorem compare_runKey_charKey {a b : Char} (xs : List Char) (ha : a.isDigit = true)
    (hb : b.isDigit = false) :
    List.compareLex compare (runKey (a :: xs)) (charKey b) = compare a.toNat b.toNat := by
  obtain ⟨k, rest, hk, hk₁, hk₂⟩ := runKey_cons a xs
  have hda := (isDigit_iff a).mp ha
  have hdb : ¬(48 ≤ b.toNat ∧ b.toNat ≤ 57) := fun h => by simp [(isDigit_iff b).mpr h] at hb
  rw [hk, charKey, List.compareLex_cons_cons]
  by_cases hlow : b.toNat < '0'.toNat
  · have hb48 : b.toNat < 48 := hlow
    rw [if_pos hlow, Nat.compare_eq_gt.mpr (show 0 < k by omega),
      Nat.compare_eq_gt.mpr (show b.toNat < a.toNat by omega)]
    rfl
  · have hb57 : 57 < b.toNat := by
      have hb48 : ¬b.toNat < 48 := hlow
      omega
    rw [if_neg hlow, Nat.compare_eq_lt.mpr (show k < 3 by omega),
      Nat.compare_eq_lt.mpr (show a.toNat < b.toNat by omega)]
    rfl

theorem compare_charKey {a b : Char} (ha : a.isDigit = false) (hb : b.isDigit = false) :
    List.compareLex compare (charKey a) (charKey b) = compare a.toNat b.toNat := by
  have hda : ¬(48 ≤ a.toNat ∧ a.toNat ≤ 57) := fun h => by simp [(isDigit_iff a).mpr h] at ha
  have hdb : ¬(48 ≤ b.toNat ∧ b.toNat ≤ 57) := fun h => by simp [(isDigit_iff b).mpr h] at hb
  have h48 : '0'.toNat = 48 := rfl
  simp only [charKey, List.compareLex_cons_cons, List.compareLex_nil_nil, Ordering.then_eq, h48]
  -- characters on opposite sides of the digits compare by side
  split_ifs with hal hbl hbl
  · rfl
  · rw [Nat.compare_eq_lt.mpr (show 0 < 3 by omega),
      Nat.compare_eq_lt.mpr (show a.toNat < b.toNat by omega)]
    rfl
  · rw [Nat.compare_eq_gt.mpr (show 0 < 3 by omega),
      Nat.compare_eq_gt.mpr (show b.toNat < a.toNat by omega)]
    rfl
  · rfl

/-! ## The order of keys -/

/-- Natural order is dictionary order of token keys. -/
theorem compareNaturalChars_eq_keyCompare (l r : List Char) :
    compareNaturalChars l r = keyCompare (naturalKeys l) (naturalKeys r) := by
  fun_induction compareNaturalChars l r with
  | case1 l r hl hr => rw [naturalKeys_of_nil hl, naturalKeys_of_nil hr]; rfl
  | case2 l r a as hl hr =>
    obtain ⟨k, ks, hk⟩ := naturalKeys_of_cons hl
    rw [hk, naturalKeys_of_nil hr]
    rfl
  | case3 l r b bs hl hr =>
    obtain ⟨k, ks, hk⟩ := naturalKeys_of_cons hr
    rw [hk, naturalKeys_of_nil hl]
    rfl
  | case4 l r a as b bs hl hr hd heq ih =>
    rw [List.takeWhile_cons_of_pos hd.1, List.takeWhile_cons_of_pos hd.2] at heq
    rw [naturalKeys_of_digit hl hd.1, naturalKeys_of_digit hr hd.2, keyCompare,
      List.compareLex_cons_cons, List.takeWhile_cons_of_pos hd.1, List.takeWhile_cons_of_pos hd.2,
      ← compareRuns_eq a b _ _ hd.1 hd.2, heq, ih]
    rfl
  | case5 l r a as b bs hl hr hd hne =>
    rw [List.takeWhile_cons_of_pos hd.1, List.takeWhile_cons_of_pos hd.2] at hne
    rw [naturalKeys_of_digit hl hd.1, naturalKeys_of_digit hr hd.2, keyCompare,
      List.compareLex_cons_cons, List.takeWhile_cons_of_pos hd.1, List.takeWhile_cons_of_pos hd.2,
      ← compareRuns_eq a b _ _ hd.1 hd.2]
    cases h : compareRuns (a :: as.takeWhile Char.isDigit) (b :: bs.takeWhile Char.isDigit) with
    | lt => rfl
    | eq => exact absurd h hne
    | gt => rfl
  | case6 l r as b bs hr hl hd ih =>
    -- the same character, no digit, leads both texts
    have hb : b.isDigit = false := by simpa using hd
    rw [naturalKeys_of_not_digit hl hb, naturalKeys_of_not_digit hr hb, keyCompare,
      List.compareLex_cons_cons, @Std.ReflCmp.compare_self _ (List.compareLex compare) _ _, ih]
    rfl
  | case7 l r a as b bs hl hr hd hab =>
    have hne : compare a.toNat b.toNat ≠ .eq :=
      fun h => hab (Char.toNat_inj.mp (Nat.compare_eq_eq.mp h))
    -- the first keys differ, so they decide
    have hfirst : ∀ k k' ks ks', List.compareLex compare k k' = compare a.toNat b.toNat →
        compare a.toNat b.toNat = keyCompare (k :: ks) (k' :: ks') := by
      intro k k' ks ks' hk
      rw [keyCompare, List.compareLex_cons_cons, hk]
      cases h : compare a.toNat b.toNat with
      | lt => rfl
      | eq => exact absurd h hne
      | gt => rfl
    cases ha : a.isDigit <;> cases hb : b.isDigit
    · rw [naturalKeys_of_not_digit hl ha, naturalKeys_of_not_digit hr hb]
      exact hfirst _ _ _ _ (compare_charKey ha hb)
    · rw [naturalKeys_of_not_digit hl ha, naturalKeys_of_digit hr hb,
        List.takeWhile_cons_of_pos hb]
      refine hfirst _ _ _ _ ?_
      rw [@Std.OrientedCmp.eq_swap _ (List.compareLex compare) _ _ _,
        compare_runKey_charKey _ hb ha,
        ← @Std.OrientedCmp.eq_swap _ (compare : Nat → Nat → Ordering) _ _ _]
    · rw [naturalKeys_of_digit hl ha, naturalKeys_of_not_digit hr hb,
        List.takeWhile_cons_of_pos ha]
      exact hfirst _ _ _ _ (compare_runKey_charKey _ ha hb)
    · exact absurd ⟨ha, hb⟩ hd

instance : Std.TransCmp compareNaturalChars where
  eq_swap {l r} := by
    rw [compareNaturalChars_eq_keyCompare, compareNaturalChars_eq_keyCompare]
    exact Std.OrientedCmp.eq_swap
  isLE_trans {l m r} hlm hmr := by
    rw [compareNaturalChars_eq_keyCompare] at hlm hmr ⊢
    exact Std.TransCmp.isLE_trans hlm hmr

instance : Std.TransCmp compareNatural where
  eq_swap {a b} := @Std.OrientedCmp.eq_swap _ compareNaturalChars _ a.toList b.toList
  isLE_trans {a b c} hab hbc :=
    @Std.TransCmp.isLE_trans _ compareNaturalChars _ a.toList b.toList c.toList hab hbc

/-- Two texts tie in natural order exactly when their token keys agree. -/
theorem compareNatural_eq_eq_iff (a b : String) :
    compareNatural a b = .eq ↔ naturalKeys a.toList = naturalKeys b.toList := by
  rw [compareNatural, compareNaturalChars_eq_keyCompare]
  exact Std.LawfulEqCmp.compare_eq_iff_eq

end Phenotyping.Text
