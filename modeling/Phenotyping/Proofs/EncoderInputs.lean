import Phenotyping.Proofs.CompiledCriteria
import Phenotyping.Proofs.Encoding
import Phenotyping.Proofs.RefinementOutcomes
/-! # What building the encoder's inputs checks

Encoding reads three values built elsewhere: a channel table, an intensity table and a
threshold snapshot. Each is built by a function that checks its input in a fixed order and
names the first fault it finds. Here each of them is described in full: which error it
returns for which input, and what the value it builds answers.

Both tables report the first name given twice, characterized once in `firstRepeat_eq_some_iff`.
The intensity check searches for a non-finite value row by row; over rows of one width this is
the search of the concatenated rows (`firstNonFinite_eq_map_flatten`), so the first offending
value is read with the characterization used for a single column.
-/
namespace Phenotyping
set_option autoImplicit false

/-! ## The first repeated name -/

theorem firstRepeatAfter_eq_some_iff {seen : List String} (hseen : seen.Nodup) (xs : List String)
    (c : String) :
    firstRepeatAfter seen xs = some c ↔
      ∃ pre post, xs = pre ++ c :: post ∧ c ∈ pre ++ seen ∧ (pre ++ seen).Nodup := by
  induction xs generalizing seen with
  | nil => simp [firstRepeatAfter]
  | cons x xs ih =>
    by_cases hx : x ∈ seen
    · simp only [firstRepeatAfter, hx, if_true, Option.some.injEq]
      constructor
      · rintro rfl
        exact ⟨[], xs, rfl, hx, hseen⟩
      · rintro ⟨pre, post, hsplit, hc, hnodup⟩
        cases pre with
        | nil =>
          simp only [List.nil_append, List.cons.injEq] at hsplit
          exact hsplit.1
        | cons y pre =>
          -- `x` is seen already, so it cannot start a prefix without repeats
          obtain ⟨rfl, -⟩ := List.cons.inj hsplit
          exact absurd (List.mem_append_right _ hx) (List.nodup_cons.mp hnodup).1
    · simp only [firstRepeatAfter, hx, if_false]
      rw [ih (List.nodup_cons.mpr ⟨hx, hseen⟩)]
      constructor
      · rintro ⟨pre, post, rfl, hc, hnodup⟩
        refine ⟨x :: pre, post, rfl, ?_, ?_⟩
        · simpa [or_left_comm] using hc
        · exact List.perm_middle.nodup_iff.mp hnodup
      · rintro ⟨pre, post, hsplit, hc, hnodup⟩
        cases pre with
        | nil =>
          obtain ⟨rfl, -⟩ := List.cons.inj hsplit
          rw [List.nil_append] at hc
          exact absurd hc hx
        | cons y pre =>
          obtain ⟨rfl, rfl⟩ := List.cons.inj hsplit
          refine ⟨pre, post, rfl, ?_, List.perm_middle.nodup_iff.mpr hnodup⟩
          simpa [or_left_comm] using hc

theorem firstRepeatAfter_eq_none_iff {seen : List String} (hseen : seen.Nodup) (xs : List String) :
    firstRepeatAfter seen xs = none ↔ (xs ++ seen).Nodup := by
  induction xs generalizing seen with
  | nil => simpa [firstRepeatAfter] using hseen
  | cons x xs ih =>
    by_cases hx : x ∈ seen
    · simp only [firstRepeatAfter, hx, if_true, reduceCtorEq, false_iff]
      intro hnodup
      exact (List.nodup_cons.mp hnodup).1 (List.mem_append_right _ hx)
    · simp only [firstRepeatAfter, hx, if_false]
      rw [ih (List.nodup_cons.mpr ⟨hx, hseen⟩)]
      exact List.perm_middle.nodup_iff

theorem firstRepeat_eq_some_iff (xs : List String) (c : String) :
    firstRepeat xs = some c ↔
      ∃ pre post, xs = pre ++ c :: post ∧ pre.Nodup ∧ c ∈ pre := by
  rw [firstRepeat, firstRepeatAfter_eq_some_iff List.nodup_nil]
  simp [and_comm]

theorem firstRepeat_eq_none_iff (xs : List String) : firstRepeat xs = none ↔ xs.Nodup := by
  rw [firstRepeat, firstRepeatAfter_eq_none_iff List.nodup_nil, List.append_nil]

theorem idxOf?_eq_some_iff_of_nodup {l : List String} (h : l.Nodup) {c : String} {b : Nat} :
    l.idxOf? c = some b ↔ l[b]? = some c := by
  constructor
  · intro hb
    obtain ⟨hlt, hbc, -⟩ := List.idxOf?_eq_some_iff.mp hb
    simp [hlt, hbc]
  · intro hb
    obtain ⟨hlt, hbc⟩ := List.getElem?_eq_some_iff.mp hb
    refine List.idxOf?_eq_some_iff.mpr ⟨hlt, hbc, fun j hj hjc => ?_⟩
    -- an earlier position holding `c` would be a repeat
    have hjb : j = b := (h.getElem_inj_iff).mp (hjc.trans hbc.symm)
    omega

/-! ## Channel tables -/

namespace ChannelTable

/-- A table answers for a channel list: it carries the version and the list as its layout,
and a channel's bit is its position in the list, read either way. -/
structure Lays (t : ChannelTable) (version : Nat) (cs : List String) : Prop where
  version_eq : t.version = version
  layout_eq : t.layout = cs
  len_eq : t.len = cs.length
  bitOf_eq_some_iff : ∀ c b, t.bitOf c = some b ↔ b < cs.length ∧ cs[b]? = some c
  bitOf_eq_some_iff_channelAt : ∀ c b, t.bitOf c = some b ↔ t.channelAt b = some c
  bitOf_injective : ∀ c d b, t.bitOf c = some b → t.bitOf d = some b → c = d
  bitOf_lt_capacity : ∀ c b, t.bitOf c = some b → b < 64
  bits_fst : t.bits.map Prod.fst = List.range cs.length
  bits_snd : t.bits.map Prod.snd = cs

theorem bitOf_eq_some_iff_of_nodup {t : ChannelTable} (h : t.layout.Nodup) (c : String) (b : Nat) :
    t.bitOf c = some b ↔ t.layout[b]? = some c :=
  idxOf?_eq_some_iff_of_nodup h

theorem bits_map_fst (t : ChannelTable) : t.bits.map Prod.fst = List.range t.len := by
  simp [bits, len, Function.comp_def, List.range_eq_range']

theorem bits_map_snd (t : ChannelTable) : t.bits.map Prod.snd = t.layout := by
  simp [bits, Function.comp_def]

theorem lays_of_nodup {version : Nat} {cs : List String} (hfits : cs.length ≤ capacity)
    (hnodup : cs.Nodup) : (⟨version, cs, hfits⟩ : ChannelTable).Lays version cs where
  version_eq := rfl
  layout_eq := rfl
  len_eq := rfl
  bitOf_eq_some_iff c b := by
    rw [bitOf_eq_some_iff_of_nodup hnodup]
    exact ⟨fun h => ⟨(List.getElem?_eq_some_iff.mp h).1, h⟩, And.right⟩
  bitOf_eq_some_iff_channelAt c b := bitOf_eq_some_iff_of_nodup hnodup c b
  bitOf_injective _ _ _ := eq_of_bitOf_eq
  bitOf_lt_capacity _ _ hb := bitOf_lt_capacity hb
  bits_fst := bits_map_fst _
  bits_snd := bits_map_snd _

/-- Building a table from a channel list refuses more than 64 channels, then the first repeated
channel; otherwise the table's bits are exactly the positions of the list, each channel owning
the bit at its position, so `bitOf` and `channelAt` are inverse and every bit fits a mask. -/
theorem make_builds_bit_bijection (version : Nat) (cs : List String) :
    (∀ n, make version cs = .error (.capacityExceeded n) ↔ 64 < cs.length ∧ n = cs.length) ∧
    (∀ c, make version cs = .error (.duplicate c) ↔
      cs.length ≤ 64 ∧ ∃ pre post, cs = pre ++ c :: post ∧ pre.Nodup ∧ c ∈ pre) ∧
    ((∃ t, make version cs = .ok t) ↔ cs.length ≤ 64 ∧ cs.Nodup) ∧
    ∀ t, make version cs = .ok t → t.Lays version cs := by
  by_cases hcap : 64 < cs.length
  · have hmake : make version cs = .error (.capacityExceeded cs.length) := by
      simp [make, capacity, hcap]
    simp [hmake, hcap, eq_comm]
  · have hfits : cs.length ≤ 64 := by omega
    cases hr : firstRepeat cs with
    | some d =>
      have hmake : make version cs = .error (.duplicate d) := by simp [make, capacity, hcap, hr]
      have hrep : ¬cs.Nodup := by simp [← firstRepeat_eq_none_iff, hr]
      simp only [hmake, hcap, hfits, hrep, ← firstRepeat_eq_some_iff, hr]
      simp
    | none =>
      have hmake : make version cs = .ok ⟨version, cs, hfits⟩ := by simp [make, capacity, hcap, hr]
      have hnodup : cs.Nodup := (firstRepeat_eq_none_iff cs).mp hr
      refine ⟨by simp [hmake, hcap], fun c => ?_, by simp [hmake, hfits, hnodup], ?_⟩
      · simp only [hmake, ← firstRepeat_eq_some_iff, hr]
        simp
      · simp only [hmake, Except.ok.injEq]
        rintro t rfl
        exact lays_of_nodup hfits hnodup

end ChannelTable

/-! ## Intensity tables -/

namespace IntensityTable

open Separation

theorem flatten_eq_nil_of_width_zero {rows : List (List Float)}
    (hshape : ∀ r ∈ rows, r.length = 0) : rows.flatten = [] :=
  List.flatten_eq_nil_iff.mpr fun r h => List.eq_nil_of_length_eq_zero (hshape r h)

theorem firstNonFinite_eq_map_flatten {w : Nat} {rows : List (List Float)}
    (hshape : ∀ r ∈ rows, r.length = w) (start : Nat) :
    firstNonFinite start rows =
      (Separation.firstNonFinite rows.flatten).map fun k => (start + k / w, k % w) := by
  induction rows generalizing start with
  | nil => rfl
  | cons r rs ih =>
    have hr : r.length = w := hshape r List.mem_cons_self
    have hrs := ih (fun r' h => hshape r' (List.mem_cons_of_mem _ h)) (start + 1)
    rw [List.flatten_cons, Separation.firstNonFinite, List.findIdx?_append, firstNonFinite]
    cases hj : r.findIdx? (fun v => !Binary64.isFinite v) with
    | some j =>
      have hjw : j < w := hr ▸ (List.findIdx?_eq_some_iff_getElem.mp hj).1
      simp [Nat.div_eq_of_lt hjw, Nat.mod_eq_of_lt hjw]
    | none =>
      dsimp only
      rw [hrs, Option.none_or, Option.map_map, hr, ← Separation.firstNonFinite]
      rcases Nat.eq_zero_or_pos w with hw | hw
      · subst hw
        have hnil : rs.flatten = [] :=
          flatten_eq_nil_of_width_zero fun r' h => hshape r' (List.mem_cons_of_mem _ h)
        simp [hnil, Separation.firstNonFinite]
      · -- the rest is searched after the `w` values of this row
        congr 1
        funext k
        simp only [Function.comp_apply, Nat.add_div_right k hw, Nat.add_mod_right, Prod.mk.injEq,
          and_true]
        omega

theorem mod_lt_of_firstNonFinite {w : Nat} {rows : List (List Float)}
    (hshape : ∀ r ∈ rows, r.length = w) {k : Nat}
    (hk : Separation.firstNonFinite rows.flatten = some k) : k % w < w := by
  apply Nat.mod_lt
  rcases Nat.eq_zero_or_pos w with hw | hw
  · subst hw
    simp [flatten_eq_nil_of_width_zero hshape, Separation.firstNonFinite] at hk
  · exact hw

/-- A table presents a matrix: it carries the sample and the expected number of cells, the
name at each position of the list reads that column of the matrix, other names read nothing,
and every value read is finite. -/
structure Presents (t : IntensityTable) (sample : String) (cs : List String)
    (rows : List (List Float)) (expected : Nat) : Prop where
  sample_eq : t.sample = sample
  numCells_eq : t.numCells = expected
  column_of_not_mem : ∀ c, c ∉ cs → t.column c = none
  column_of_getElem? : ∀ (j : Nat) c, cs[j]? = some c → ∃ col : List Float,
    t.column c = some col ∧ col.length = expected ∧
      ∀ i : Nat, col[i]? = rows[i]?.bind fun r => r[j]?
  finite : ∀ c col, t.column c = some col → ∀ x ∈ col, Binary64.isFinite x = true

section Make

variable {sample : String} {cs : List String} {w : Nat} {rows : List (List Float)} {e : Nat}

theorem getD_of_row {r : List Float} {j : Nat} (hj : j < r.length) :
    some (r.getD j 0) = r[j]? := by
  simp [List.getD_eq_getElem?_getD, hj]

theorem presents_of_valid (hshape : ∀ r ∈ rows, r.length = w) (hw : w = cs.length)
    (hnodup : cs.Nodup) (hfin : AllFinite rows.flatten) :
    (⟨sample, cs, rows⟩ : IntensityTable).Presents sample cs rows rows.length where
  sample_eq := rfl
  numCells_eq := rfl
  column_of_not_mem c hc := by simp [column, columnIndex, List.idxOf?_eq_none_iff.mpr hc]
  column_of_getElem? j c hj := by
    have hidx : cs.idxOf? c = some j := (idxOf?_eq_some_iff_of_nodup hnodup).mpr hj
    have hjw : j < w := hw ▸ (List.getElem?_eq_some_iff.mp hj).1
    refine ⟨rows.map fun r => r.getD j 0, by simp [column, columnIndex, columnAt, hidx], by simp,
      fun i => ?_⟩
    cases hri : rows[i]? with
    | none => simp [hri]
    | some r =>
      have hjr : j < r.length := (hshape r (List.mem_of_getElem? hri)).symm ▸ hjw
      simp [hri, hjr]
  finite c col hcol x hx := by
    cases hidx : cs.idxOf? c with
    | none => simp [column, columnIndex, hidx] at hcol
    | some j =>
      simp only [column, columnIndex, hidx, Option.map_some, Option.some.injEq] at hcol
      subst hcol
      obtain ⟨r, hr, rfl⟩ := List.mem_map.mp hx
      -- the column index is below the width, so the value read is an entry of the row
      have hjw : j < r.length := by
        rw [hshape r hr, hw]
        exact (List.idxOf?_eq_some_iff.mp hidx).1
      apply hfin
      rw [List.mem_flatten]
      exact ⟨r, hr, List.mem_of_getElem? (getD_of_row hjw).symm⟩

theorem make_of_columns_ne (h : w ≠ cs.length) :
    make sample cs w rows e = .error (.columnCountMismatch cs.length w) := by
  simp [make, h]

theorem make_of_cells_ne (hw : w = cs.length) (h : rows.length ≠ e) :
    make sample cs w rows e = .error (.cellCountMismatch sample e rows.length) := by
  simp [make, hw, h]

theorem make_of_repeat (hw : w = cs.length) (he : rows.length = e) {c : String}
    (h : firstRepeat cs = some c) : make sample cs w rows e = .error (.duplicateColumn c) := by
  simp [make, hw, he, h]

theorem make_of_nonFinite (hshape : ∀ r ∈ rows, r.length = w) (hw : w = cs.length)
    (he : rows.length = e) (hr : firstRepeat cs = none) {k : Nat}
    (hk : Separation.firstNonFinite rows.flatten = some k) :
    ∃ c, cs[k % w]? = some c ∧ make sample cs w rows e = .error (.nonFinite (k / w) c) := by
  have hcol : k % w < cs.length := hw ▸ mod_lt_of_firstNonFinite hshape hk
  refine ⟨cs[k % w], List.getElem?_eq_getElem hcol, ?_⟩
  simp [make, hw, he, hr, firstNonFinite_eq_map_flatten hshape, hk, List.getD_eq_getElem?_getD,
    List.getElem?_eq_getElem (hw ▸ hcol)]

theorem make_of_allFinite (hshape : ∀ r ∈ rows, r.length = w) (hw : w = cs.length)
    (he : rows.length = e) (hr : firstRepeat cs = none)
    (hk : Separation.firstNonFinite rows.flatten = none) :
    make sample cs w rows e = .ok ⟨sample, cs, rows⟩ := by
  simp [make, hw, he, hr, firstNonFinite_eq_map_flatten hshape, hk]

end Make

theorem isFirstNonFinite_iff {values : List Float} {i : Nat} :
    IsFirstNonFinite values i ↔ Separation.firstNonFinite values = some i :=
  firstNonFinite_eq_some_iff.symm

/-- Building an intensity table from rows of one width checks, in this order, the width
against the channel names, the number of rows against the expected cell count, that no name
repeats (naming the first repeat) and that every value is finite (naming the row and the
channel of the first non-finite value in row order). A table it builds reads, under each name,
that name's column of the matrix, and nothing but finite values. -/
theorem make_checks_in_order (sample : String) (cs : List String) (w : Nat)
    (rows : List (List Float)) (e : Nat) (hshape : ∀ r ∈ rows, r.length = w) :
    (∀ n m, make sample cs w rows e = .error (.columnCountMismatch n m) ↔
      w ≠ cs.length ∧ n = cs.length ∧ m = w) ∧
    (∀ s n m, make sample cs w rows e = .error (.cellCountMismatch s n m) ↔
      w = cs.length ∧ rows.length ≠ e ∧ s = sample ∧ n = e ∧ m = rows.length) ∧
    (∀ c, make sample cs w rows e = .error (.duplicateColumn c) ↔
      w = cs.length ∧ rows.length = e ∧
        ∃ pre post, cs = pre ++ c :: post ∧ pre.Nodup ∧ c ∈ pre) ∧
    (∀ i c, make sample cs w rows e = .error (.nonFinite i c) ↔
      w = cs.length ∧ rows.length = e ∧ cs.Nodup ∧
        ∃ k, IsFirstNonFinite rows.flatten k ∧ i = k / w ∧ cs[k % w]? = some c) ∧
    ((∃ t, make sample cs w rows e = .ok t) ↔
      w = cs.length ∧ rows.length = e ∧ cs.Nodup ∧ AllFinite rows.flatten) ∧
    ∀ t, make sample cs w rows e = .ok t → t.Presents sample cs rows e := by
  by_cases hw : w = cs.length
  swap
  · rw [make_of_columns_ne hw]
    simp [hw, eq_comm]
  by_cases he : rows.length = e
  swap
  · rw [make_of_cells_ne hw he]
    simp [hw, he, eq_comm]
  cases hr : firstRepeat cs with
  | some d =>
    have hrep : ¬cs.Nodup := by simp [← firstRepeat_eq_none_iff, hr]
    rw [make_of_repeat hw he hr]
    simp only [← firstRepeat_eq_some_iff, hr, hrep]
    simp [hw, he]
  | none =>
    have hnodup : cs.Nodup := (firstRepeat_eq_none_iff cs).mp hr
    cases hk : Separation.firstNonFinite rows.flatten with
    | some k =>
      obtain ⟨d, hd, hmake⟩ := @make_of_nonFinite sample cs w rows e hshape hw he hr k hk
      have hnot : ¬AllFinite rows.flatten := (isFirstNonFinite_iff.mpr hk).not_allFinite
      rw [hmake]
      simp only [← firstRepeat_eq_some_iff, hr, isFirstNonFinite_iff, hk, hnot]
      subst hw
      simp [he, hnodup, hd, eq_comm]
    | none =>
      have hfin : AllFinite rows.flatten := firstNonFinite_eq_none_iff.mp hk
      rw [make_of_allFinite hshape hw he hr hk]
      simp only [← firstRepeat_eq_some_iff, hr, isFirstNonFinite_iff, hk]
      refine ⟨by simp [hw], by simp [he], by simp, by simp, by simp [hw, he, hnodup, hfin], ?_⟩
      rintro t ⟨⟩
      exact he ▸ presents_of_valid hshape hw hnodup hfin

/-- Two channels over two cells of finite values. -/
theorem make_checks_in_order_two_cells :
    let sample := "WCM1"
    let cs := ["CD15", "CD3"]
    let rows : List (List Float) := [[30, 1], [29.5, 5]]
    (∀ r ∈ rows, r.length = 2) ∧
    (∀ n m, make sample cs 2 rows 2 = .error (.columnCountMismatch n m) ↔
      2 ≠ cs.length ∧ n = cs.length ∧ m = 2) ∧
    (∀ s n m, make sample cs 2 rows 2 = .error (.cellCountMismatch s n m) ↔
      2 = cs.length ∧ rows.length ≠ 2 ∧ s = sample ∧ n = 2 ∧ m = rows.length) ∧
    (∀ c, make sample cs 2 rows 2 = .error (.duplicateColumn c) ↔
      2 = cs.length ∧ rows.length = 2 ∧
        ∃ pre post, cs = pre ++ c :: post ∧ pre.Nodup ∧ c ∈ pre) ∧
    (∀ i c, make sample cs 2 rows 2 = .error (.nonFinite i c) ↔
      2 = cs.length ∧ rows.length = 2 ∧ cs.Nodup ∧
        ∃ k, IsFirstNonFinite rows.flatten k ∧ i = k / 2 ∧ cs[k % 2]? = some c) ∧
    ((∃ t, make sample cs 2 rows 2 = .ok t) ↔
      2 = cs.length ∧ rows.length = 2 ∧ cs.Nodup ∧ AllFinite rows.flatten) ∧
    ∀ t, make sample cs 2 rows 2 = .ok t → t.Presents sample cs rows 2 := by
  intro sample cs rows
  have hshape : ∀ r ∈ rows, r.length = 2 := by decide
  exact ⟨hshape, make_checks_in_order sample cs 2 rows 2 hshape⟩

end IntensityTable

/-! ## Threshold snapshots -/

namespace ThresholdStore

section Snapshot

variable {s : ThresholdStore} {sample : String} {t : ChannelTable}

theorem get_of_find?_none (hf : t.layout.find? (fun c => s.get sample c = none) = none)
    {b : Nat} {c : String} (hc : t.channelAt b = some c) : ∃ e, s.get sample c = some e := by
  have hmem : c ∈ t.layout := List.mem_of_getElem? hc
  have hget : s.get sample c ≠ none := by simpa using List.find?_eq_none.mp hf c hmem
  exact Option.ne_none_iff_exists'.mp hget

theorem eq_map_of_bits {α : Type} (f : ThresholdEntry → α) {es : List ThresholdEntry}
    (hat : ∀ b : Nat, es[b]? = t.layout[b]?.bind (s.get sample)) {xs : List α}
    (hlen : xs.length = t.len)
    (hx : ∀ b c, t.channelAt b = some c →
      ∃ e, s.get sample c = some e ∧ xs[b]? = some (f e)) :
    xs = es.map f := by
  apply List.ext_getElem?
  intro b
  rw [List.getElem?_map, hat]
  cases hc : t.layout[b]? with
  | none =>
    -- past the last bit both lists have ended
    have hb : t.len ≤ b := List.getElem?_eq_none_iff.mp hc
    simp [List.getElem?_eq_none_iff.mpr (hlen ▸ hb : xs.length ≤ b)]
  | some c =>
    obtain ⟨e, he, hxb⟩ := hx b c hc
    simp [he, hxb]

/-- A snapshot against a table fails at the first channel, in bit order, that has no threshold
for the sample. Otherwise it is the one stamped with the sample and the table's version and
layout that holds one value and one generation per bit: at bit `b`, those of the threshold
current for the channel that owns `b`. Taking it changes no store. -/
theorem snapshot_freezes_thresholds_by_bit (s : ThresholdStore) (sample : String)
    (t : ChannelTable) :
    (∀ err, s.snapshot sample t = .error err ↔ ∃ c,
      t.layout.find? (fun c => s.get sample c = none) = some c ∧
        err = .missingThreshold sample c) ∧
    ∀ snap, s.snapshot sample t = .ok snap ↔
      t.layout.find? (fun c => s.get sample c = none) = none ∧ snap.sample = sample ∧
        snap.tableVersion = t.version ∧ snap.channels = t.layout ∧
        snap.values.length = t.len ∧ snap.generations.length = t.len ∧
        ∀ b c, t.channelAt b = some c → ∃ e, s.get sample c = some e ∧
          snap.values[b]? = some e.value ∧ snap.generations[b]? = some e.generation := by
  cases hf : t.layout.find? (fun c => s.get sample c = none) with
  | some c =>
    rw [snapshot_of_find?_some hf]
    simp [eq_comm]
  | none =>
    obtain ⟨es, hes, hat⟩ := entriesFor_of_find?_none hf
    have hlen : es.length = t.len := length_entriesFor hes
    rw [show s.snapshot sample t = .ok ⟨sample, t.version, t.layout, es.map (·.value),
      es.map (·.generation)⟩ by simp [snapshot, hes, Except.map]]
    refine ⟨by simp, fun snap => ⟨?_, ?_⟩⟩
    · rintro ⟨⟩
      refine ⟨rfl, rfl, rfl, rfl, by simp [hlen], by simp [hlen], fun b c hc => ?_⟩
      obtain ⟨e, he⟩ := get_of_find?_none hf hc
      have heb : es[b]? = some e := by
        rw [hat]
        simp [show t.layout[b]? = some c from hc, he]
      exact ⟨e, he, by simp [heb], by simp [heb]⟩
    · rintro ⟨-, hsample, hversion, hchannels, hvalues, hgens, hbits⟩
      -- the values and generations are fixed bit by bit, the stamps by the table
      have hv := eq_map_of_bits (·.value) hat hvalues fun b c hc => by
        obtain ⟨e, he, hvb, -⟩ := hbits b c hc
        exact ⟨e, he, hvb⟩
      have hg := eq_map_of_bits (·.generation) hat hgens fun b c hc => by
        obtain ⟨e, he, -, hgb⟩ := hbits b c hc
        exact ⟨e, he, hgb⟩
      cases snap
      simp only at hsample hversion hchannels hv hg
      subst hsample hversion hchannels hv hg
      rfl

end Snapshot

end ThresholdStore

end Phenotyping
