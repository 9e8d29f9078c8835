import Phenotyping.Proofs.CompiledCriteria
/-! # Counting matching cells

A matcher counts a chunk at a time and adds up the chunks' counts, and lists the matching
cells piece by piece. Since the chunks, joined, are the cells in order, both give what one
pass over all the cells gives, whatever the chunk size: the number of admitted masks, and
their positions in increasing order. Before counting, the criterion and then the masks are
checked against the matcher's table, each by version, then channel order.

A channel of the table that a criterion leaves free splits the cells it admits in two, those
positive and those negative for that channel, so the two counts with the channel added to
either side add up to the count without it.
-/
namespace Phenotyping
set_option autoImplicit false

theorem flatten_chunksOf {α : Type} (k : Nat) (xs : List α) : (chunksOf k xs).flatten = xs := by
  fun_induction chunksOf k xs with
  | case1 => rfl
  | case2 x xs ih => simp [ih]

theorem foldr_add_length_filter {α : Type} (p : α → Bool) (pieces : List (List α)) :
    pieces.foldr (fun piece n => (piece.filter p).length + n) 0 =
      (pieces.flatten.filter p).length := by
  induction pieces with
  | nil => rfl
  | cons piece pieces ih => simp [ih, List.filter_append]

theorem foldr_add_length_filter_chunksOf {α : Type} (k : Nat) (p : α → Bool) (xs : List α) :
    (chunksOf k xs).foldr (fun chunk n => (chunk.filter p).length + n) 0 =
      (xs.filter p).length := by
  rw [foldr_add_length_filter, flatten_chunksOf]

theorem flatMap_filter_chunksOf {α β : Type} (k : Nat) (p : α → Bool) (f : α → β) (xs : List α) :
    (chunksOf k xs).flatMap (fun piece => (piece.filter p).map f) = (xs.filter p).map f := by
  conv_rhs => rw [← flatten_chunksOf k xs]
  rw [List.filter_flatten, List.map_flatten, List.flatMap_def, List.map_map]
  rfl

namespace CompiledCriterion

variable {t : ChannelTable} {cc : CompiledCriterion} {a : CellMasks}

theorem checkStamp_eq_ok_iff {v : Nat} {cs : List String} :
    checkStamp t v cs = .ok () ↔ v = t.version ∧ cs = t.layout := by
  unfold checkStamp
  by_cases hv : v = t.version
  · by_cases hc : cs = t.layout
    · simp [hv, hc, ChannelTable.hasLayout]
    · simp [hv, hc, ChannelTable.hasLayout, Ne.symm hc]
  · simp [hv]

theorem checkStamp_eq_error_iff {v : Nat} {cs : List String} (e : MatchError) :
    checkStamp t v cs = .error e ↔ (v ≠ t.version ∧ e = .tableVersionMismatch t.version v) ∨
      (v = t.version ∧ cs ≠ t.layout ∧ e = .channelOrderMismatch t.version) := by
  by_cases hv : v = t.version
  · by_cases hc : cs = t.layout
    · simp [checkStamp, hv, hc, ChannelTable.hasLayout]
    · have hlay : (t.layout == cs) = false := by simpa using Ne.symm hc
      simp only [checkStamp, ChannelTable.hasLayout, hlay, hv, ne_eq, not_true_eq_false, if_false,
        Bool.not_false, if_true, Except.error.injEq, false_and, false_or, true_and]
      exact ⟨fun h => ⟨hc, h.symm⟩, fun h => h.2.symm⟩
  · simp only [checkStamp, hv, ne_eq, not_false_eq_true, if_true, Except.error.injEq, true_and,
      false_and, or_false]
    exact eq_comm

theorem checkStamp_ne_ok {v : Nat} {cs : List String} {e : MatchError}
    (h : checkStamp t v cs = .error e) : ¬(v = t.version ∧ cs = t.layout) := by
  rw [← checkStamp_eq_ok_iff, h]
  simp

theorem checkLayout_eq_ok_iff :
    checkLayout t cc a = .ok () ↔ cc.tableVersion = t.version ∧ cc.channels = t.layout ∧
      a.tableVersion = t.version ∧ a.channels = t.layout := by
  unfold checkLayout
  cases hcrit : checkStamp t cc.tableVersion cc.channels with
  | error e =>
    simp only [bind, Except.bind, reduceCtorEq, false_iff]
    exact fun ⟨hv, hc, _⟩ => checkStamp_ne_ok hcrit ⟨hv, hc⟩
  | ok u =>
    obtain ⟨hv, hc⟩ := checkStamp_eq_ok_iff.mp hcrit
    simp only [bind, Except.bind, hv, hc, true_and]
    exact checkStamp_eq_ok_iff

theorem checkLayout_eq_error_iff (e : MatchError) :
    checkLayout t cc a = .error e ↔ checkStamp t cc.tableVersion cc.channels = .error e ∨
      (cc.tableVersion = t.version ∧ cc.channels = t.layout ∧
        checkStamp t a.tableVersion a.channels = .error e) := by
  unfold checkLayout
  cases hcrit : checkStamp t cc.tableVersion cc.channels with
  | error e' =>
    have hne := checkStamp_ne_ok hcrit
    simp only [bind, Except.bind, Except.error.injEq]
    exact ⟨.inl, fun h => h.elim id fun ⟨hv, hc, _⟩ => absurd ⟨hv, hc⟩ hne⟩
  | ok u =>
    obtain ⟨hv, hc⟩ := checkStamp_eq_ok_iff.mp hcrit
    simp [bind, Except.bind, hv, hc]

theorem checkLayout_eq_tableVersionMismatch_iff (e found : Nat) :
    checkLayout t cc a = .error (.tableVersionMismatch e found) ↔ e = t.version ∧
      ((cc.tableVersion ≠ t.version ∧ found = cc.tableVersion) ∨
        (cc.tableVersion = t.version ∧ cc.channels = t.layout ∧ a.tableVersion ≠ t.version ∧
          found = a.tableVersion)) := by
  rw [checkLayout_eq_error_iff, checkStamp_eq_error_iff, checkStamp_eq_error_iff]
  simp only [MatchError.tableVersionMismatch.injEq, reduceCtorEq, and_false, or_false]
  grind

theorem checkLayout_eq_channelOrderMismatch_iff (v : Nat) :
    checkLayout t cc a = .error (.channelOrderMismatch v) ↔ v = t.version ∧
      ((cc.tableVersion = t.version ∧ cc.channels ≠ t.layout) ∨
        (cc.tableVersion = t.version ∧ cc.channels = t.layout ∧ a.tableVersion = t.version ∧
          a.channels ≠ t.layout)) := by
  rw [checkLayout_eq_error_iff, checkStamp_eq_error_iff, checkStamp_eq_error_iff]
  simp only [MatchError.channelOrderMismatch.injEq, reduceCtorEq, and_false, false_or]
  grind

theorem count_eq_error_iff (e : MatchError) :
    cc.count t a = .error e ↔ checkLayout t cc a = .error e := by
  unfold count
  cases checkLayout t cc a <;> simp [bind, Except.bind, pure, Except.pure]

theorem count_eq_ok_iff (n : Nat) :
    cc.count t a = .ok n ↔ checkLayout t cc a = .ok () ∧ n = a.masks.countP cc.admits := by
  unfold count
  cases checkLayout t cc a <;>
    simp [bind, Except.bind, pure, Except.pure, List.countP_eq_length_filter, eq_comm]

theorem matchingCells_eq_error_iff (e : MatchError) :
    cc.matchingCells t a = .error e ↔ checkLayout t cc a = .error e := by
  unfold matchingCells
  cases checkLayout t cc a <;> simp [bind, Except.bind, pure, Except.pure]

theorem pairwise_matching_positions (cc : CompiledCriterion) (masks : List Mask) :
    ((masks.zipIdx.filter fun p => cc.admits p.1).map Prod.snd).Pairwise (· < ·) := by
  have hall : (masks.zipIdx.map Prod.snd).Pairwise (· < ·) := by
    rw [List.zipIdx_map_snd]
    exact List.pairwise_lt_range'
  exact hall.sublist ((List.filter_sublist).map _)

theorem mem_matching_positions (cc : CompiledCriterion) (masks : List Mask) (i : Nat) :
    i ∈ (masks.zipIdx.filter fun p => cc.admits p.1).map Prod.snd ↔
      ∃ h : i < masks.length, cc.admits masks[i] = true := by
  simp only [List.mem_map, List.mem_filter, List.mem_zipIdx_iff_getElem?]
  constructor
  · rintro ⟨⟨m, j⟩, ⟨hj, hadm⟩, rfl⟩
    obtain ⟨hlt, hget⟩ := List.getElem?_eq_some_iff.mp hj
    exact ⟨hlt, by simpa [hget] using hadm⟩
  · rintro ⟨hlt, hadm⟩
    exact ⟨(masks[i], i), ⟨List.getElem?_eq_getElem hlt, hadm⟩, rfl⟩

theorem matchingCells_eq_ok_iff (cells : List Nat) :
    cc.matchingCells t a = .ok cells ↔ checkLayout t cc a = .ok () ∧
      cells.Pairwise (· < ·) ∧ ∀ i, i ∈ cells ↔ ∃ h : i < a.masks.length, cc.admits a.masks[i] = true := by
  have hsorted := pairwise_matching_positions cc a.masks
  unfold matchingCells
  cases checkLayout t cc a with
  | error e => simp [bind, Except.bind]
  | ok u =>
    simp only [bind, Except.bind, pure, Except.pure, Except.ok.injEq, true_and]
    -- an increasing list is fixed by its members
    constructor
    · rintro rfl
      exact ⟨hsorted, mem_matching_positions cc a.masks⟩
    · rintro ⟨hcells, hmem⟩
      exact List.Pairwise.eq_of_mem_iff hsorted hcells fun i => by
        rw [hmem, mem_matching_positions]

theorem count_eq_map_length_matchingCells :
    cc.count t a = (cc.matchingCells t a).map List.length := by
  unfold count matchingCells
  cases checkLayout t cc a with
  | error e => rfl
  | ok u =>
    simp only [bind, Except.bind, pure, Except.pure, Except.map, List.length_map, Except.ok.injEq]
    rw [← List.countP_eq_length_filter, ← List.countP_eq_length_filter]
    conv_lhs => rw [← List.zipIdx_map_fst 0 a.masks]
    rw [List.countP_map]
    rfl

end CompiledCriterion

namespace Matcher

variable {t : ChannelTable} {cc : CompiledCriterion} {a : CellMasks}

/-- Counting in chunks counts in one piece. -/
theorem count_eq_count (m : Matcher) (cc : CompiledCriterion) (a : CellMasks) :
    m.count cc a = cc.count m.table a := by
  unfold count CompiledCriterion.count
  cases CompiledCriterion.checkLayout m.table cc a with
  | error e => rfl
  | ok u =>
    simp only [bind, Except.bind, pure, Except.pure, Except.ok.injEq]
    exact foldr_add_length_filter_chunksOf m.chunkSize cc.admits a.masks

theorem matchingCells_eq_matchingCells (m : Matcher) (cc : CompiledCriterion) (a : CellMasks) :
    m.matchingCells cc a = cc.matchingCells m.table a := by
  unfold matchingCells CompiledCriterion.matchingCells
  cases CompiledCriterion.checkLayout m.table cc a with
  | error e => rfl
  | ok u =>
    simp only [bind, Except.bind, pure, Except.pure, Except.ok.injEq]
    exact flatMap_filter_chunksOf m.chunkSize (fun p => cc.admits p.1) Prod.snd a.masks.zipIdx

/-- Counting a chunk at a time, for any chunk size, is counting in one pass: the same
failures, the criterion checked before the masks and each version before its channel
order, and otherwise the number of admitted masks, which is the number of positions listed,
in increasing order, as matching. -/
theorem count_in_chunks (t : ChannelTable) (k : Nat) (cc : CompiledCriterion) (a : CellMasks) :
    let m := make t k
    m.count cc a = cc.count t a ∧ m.matchingCells cc a = cc.matchingCells t a ∧
    (∀ e found, m.count cc a = .error (.tableVersionMismatch e found) ↔ e = t.version ∧
      ((cc.tableVersion ≠ t.version ∧ found = cc.tableVersion) ∨
        (cc.tableVersion = t.version ∧ cc.channels = t.layout ∧ a.tableVersion ≠ t.version ∧
          found = a.tableVersion))) ∧
    (∀ v, m.count cc a = .error (.channelOrderMismatch v) ↔ v = t.version ∧
      ((cc.tableVersion = t.version ∧ cc.channels ≠ t.layout) ∨
        (cc.tableVersion = t.version ∧ cc.channels = t.layout ∧ a.tableVersion = t.version ∧
          a.channels ≠ t.layout))) ∧
    (∀ e, m.matchingCells cc a = .error e ↔ m.count cc a = .error e) ∧
    (∀ n, m.count cc a = .ok n ↔ (cc.tableVersion = t.version ∧ cc.channels = t.layout ∧
      a.tableVersion = t.version ∧ a.channels = t.layout) ∧ n = a.masks.countP cc.admits) ∧
    (∀ cells, m.matchingCells cc a = .ok cells ↔ (cc.tableVersion = t.version ∧
      cc.channels = t.layout ∧ a.tableVersion = t.version ∧ a.channels = t.layout) ∧
      cells.Pairwise (· < ·) ∧ ∀ i, i ∈ cells ↔ ∃ h : i < a.masks.length, cc.admits a.masks[i] = true) ∧
    m.count cc a = (m.matchingCells cc a).map List.length := by
  intro m
  have hcount : m.count cc a = cc.count t a := count_eq_count m cc a
  have hcells : m.matchingCells cc a = cc.matchingCells t a := matchingCells_eq_matchingCells m cc a
  rw [hcount, hcells]
  refine ⟨rfl, rfl, fun e found => ?_, fun v => ?_, fun e => ?_, fun n => ?_, fun cells => ?_,
    CompiledCriterion.count_eq_map_length_matchingCells⟩
  · rw [CompiledCriterion.count_eq_error_iff, CompiledCriterion.checkLayout_eq_tableVersionMismatch_iff]
  · rw [CompiledCriterion.count_eq_error_iff, CompiledCriterion.checkLayout_eq_channelOrderMismatch_iff]
  · rw [CompiledCriterion.count_eq_error_iff, CompiledCriterion.matchingCells_eq_error_iff]
  · rw [CompiledCriterion.count_eq_ok_iff, CompiledCriterion.checkLayout_eq_ok_iff]
  · rw [CompiledCriterion.matchingCells_eq_ok_iff, CompiledCriterion.checkLayout_eq_ok_iff, and_assoc]

theorem countCriterion_of_compile {m : Matcher} {crit : Criterion} {cc : CompiledCriterion}
    {a : CellMasks} (h : crit.compile m.table = .ok cc) (hv : a.tableVersion = m.table.version)
    (hl : a.channels = m.table.layout) : m.countCriterion crit a = .ok (a.masks.countP cc.admits) := by
  obtain ⟨-, pos, neg, -, -, rfl⟩ := Criterion.compile_eq_ok_iff.mp h
  have hcount : m.count ⟨pos, neg, m.table.version, m.table.layout⟩ a =
      .ok (a.masks.countP fun x => CompiledCriterion.admits ⟨pos, neg, m.table.version, m.table.layout⟩ x) := by
    rw [count_eq_count, CompiledCriterion.count_eq_ok_iff, CompiledCriterion.checkLayout_eq_ok_iff]
    exact ⟨⟨rfl, rfl, hv, hl⟩, rfl⟩
  simp only [countCriterion, compile, h, bind, Except.bind, hcount]

end Matcher

theorem countP_eq_countP_and_add {α : Type} (p q : α → Bool) (l : List α) :
    l.countP p = l.countP (fun x => p x && q x) + l.countP (fun x => p x && !q x) := by
  calc l.countP p = (l.filter p).length := List.countP_eq_length_filter
    _ = (l.filter p).countP q + (l.filter p).countP (fun x => !q x) := by
      simpa using List.length_eq_countP_add_countP q
    _ = l.countP (fun x => p x && q x) + l.countP (fun x => p x && !q x) := by
      rw [List.countP_filter, List.countP_filter]
      simp only [Bool.and_comm]

namespace Criterion

variable {t : ChannelTable} {pos neg : List String}

theorem disjoint_known_of_compile_ofLists {cc : CompiledCriterion}
    (h : (ofLists pos neg).compile t = .ok cc) :
    (∀ d ∈ pos, d ∉ neg) ∧ ∀ d ∈ pos ++ neg, t.bitOf d ≠ none := by
  obtain ⟨hover, pm, nm, hpm, hnm, -⟩ := compile_eq_ok_iff.mp h
  refine ⟨overlap_ofLists_eq_nil_iff.mp hover, fun d hd => ?_⟩
  rcases List.mem_append.mp hd with hd | hd
  · simpa using List.find?_eq_none.mp (find?_eq_none_of_maskOf hpm) d (mem_sortedSet.mpr hd)
  · simpa using List.find?_eq_none.mp (find?_eq_none_of_maskOf hnm) d (mem_sortedSet.mpr hd)

theorem compile_ofLists_add_free (hdisjoint : ∀ d ∈ pos, d ∉ neg) (hknown : ∀ d ∈ pos ++ neg, t.bitOf d ≠ none) {c : String}
    {bc : Nat} (hbc : t.bitOf c = some bc) (hpos : c ∉ pos) (hneg : c ∉ neg) :
    ∃ cc ccp ccn, (ofLists pos neg).compile t = .ok cc ∧
      (ofLists (c :: pos) neg).compile t = .ok ccp ∧ (ofLists pos (c :: neg)).compile t = .ok ccn ∧
      ∀ x, ccp.admits x = (cc.admits x && x.test bc) ∧ ccn.admits x = (cc.admits x && !x.test bc) := by
  have hcknown : t.bitOf c ≠ none := by simp [hbc]
  obtain ⟨cc, hcc, -, -, -, -, hadm⟩ :=
    compile_ofLists_of_known pos neg hdisjoint hknown
  obtain ⟨ccp, hccp, -, -, -, -, hadmp⟩ := compile_ofLists_of_known (t := t) (c :: pos) neg
    (by simpa [hneg] using hdisjoint) (by simpa [hcknown] using hknown)
  obtain ⟨ccn, hccn, -, -, -, -, hadmn⟩ := compile_ofLists_of_known (t := t) pos (c :: neg)
    (by simpa [Ne.symm, hpos] using fun d hd => ⟨fun hdc => hpos (hdc ▸ hd), hdisjoint d hd⟩)
    (by simpa [hcknown, or_left_comm] using hknown)
  refine ⟨cc, ccp, ccn, hcc, hccp, hccn, fun x => ⟨?_, ?_⟩⟩
  · -- the requirement on `c` reads its one bit
    rw [Bool.eq_iff_iff, hadmp, Bool.and_eq_true, hadm]
    simp only [List.mem_cons, forall_eq_or_imp, hbc, Option.some.injEq, forall_eq']
    tauto
  · rw [Bool.eq_iff_iff, hadmn, Bool.and_eq_true, hadm, Bool.not_eq_true']
    simp only [List.mem_cons, forall_eq_or_imp, hbc, Option.some.injEq, forall_eq']
    tauto

end Criterion

namespace Matcher

/-- Over masks made for a table, a channel of the table that a compiling
criterion leaves free splits its count: the counts with the channel required positive and
with it required negative add up to the count without it, so neither exceeds it. The empty
criterion counts every cell. This holds for every chunk size and for masks with any bits. -/
theorem free_channel_splits_count {t : ChannelTable} (k : Nat) {a : CellMasks} (hv : a.tableVersion = t.version) (hl : a.channels = t.layout)
    {pos neg : List String} (hcompiles : ∃ cc, (Criterion.ofLists pos neg).compile t = .ok cc)
    {c : String} (hc : c ∈ t.layout) (hpos : c ∉ pos) (hneg : c ∉ neg) :
    let m := make t k
    (∃ n np nn, m.countCriterion (.ofLists pos neg) a = .ok n ∧
      m.countCriterion (.ofLists (c :: pos) neg) a = .ok np ∧
      m.countCriterion (.ofLists pos (c :: neg)) a = .ok nn ∧ np + nn = n ∧ np ≤ n ∧ nn ≤ n) ∧
    m.countCriterion (.ofLists [] []) a = .ok a.len := by
  intro m
  obtain ⟨cc₀, hcc₀⟩ := hcompiles
  obtain ⟨hdisjoint, hknown⟩ := Criterion.disjoint_known_of_compile_ofLists hcc₀
  obtain ⟨bc, hbc⟩ : ∃ b, t.bitOf c = some b :=
    Option.ne_none_iff_exists'.mp (by simpa [ChannelTable.bitOf] using hc)
  obtain ⟨cc, ccp, ccn, hcc, hccp, hccn, hsplit⟩ :=
    Criterion.compile_ofLists_add_free hdisjoint hknown hbc hpos hneg
  have hcount : ∀ {crit : Criterion} {cc : CompiledCriterion}, crit.compile t = .ok cc →
      m.countCriterion crit a = .ok (a.masks.countP cc.admits) :=
    fun h => countCriterion_of_compile h hv hl
  -- positive and negative for `c` split the masks the criterion admits
  have hsum : a.masks.countP ccp.admits + a.masks.countP ccn.admits = a.masks.countP cc.admits := by
    rw [countP_eq_countP_and_add cc.admits (fun x => x.test bc) a.masks]
    congr 1
    · exact List.countP_congr fun x _ => by rw [(hsplit x).1]
    · exact List.countP_congr fun x _ => by rw [(hsplit x).2]
  refine ⟨⟨_, _, _, hcount hcc, hcount hccp, hcount hccn, hsum, by omega, by omega⟩, ?_⟩
  -- the empty criterion admits every mask
  obtain ⟨cce, hcce, -, -, -, -, hadme⟩ := Criterion.compile_ofLists_of_known (t := t) [] []
    (by simp) (by simp)
  rw [hcount hcce, CellMasks.len, Except.ok.injEq, List.countP_eq_length]
  intro x _
  simp [hadme]

/-- Six masks over three channels, counted for `CD15+ CD3-` with `CD20` left free. -/
theorem free_channel_splits_count_cd20 :
    let t : ChannelTable := ⟨4, ["CD3", "CD15", "CD20"], by decide⟩
    let a := CellMasks.ofRaw "WCM1" t [⟨0⟩, ⟨2⟩, ⟨3⟩, ⟨6⟩, ⟨7⟩, ⟨2⟩]
    (a.tableVersion = t.version ∧ a.channels = t.layout ∧
      (∃ cc, (Criterion.ofLists ["CD15"] ["CD3"]).compile t = .ok cc) ∧ "CD20" ∈ t.layout ∧
      "CD20" ∉ ["CD15"] ∧ "CD20" ∉ ["CD3"]) ∧
    let m := make t 2
    (∃ n np nn, m.countCriterion (.ofLists ["CD15"] ["CD3"]) a = .ok n ∧
      m.countCriterion (.ofLists ["CD20", "CD15"] ["CD3"]) a = .ok np ∧
      m.countCriterion (.ofLists ["CD15"] ["CD20", "CD3"]) a = .ok nn ∧ np + nn = n ∧ np ≤ n ∧
      nn ≤ n) ∧
    m.countCriterion (.ofLists [] []) a = .ok a.len := by
  intro t a
  have hcompiles : ∃ cc, (Criterion.ofLists ["CD15"] ["CD3"]).compile t = .ok cc := ⟨_, rfl⟩
  have hc : "CD20" ∈ t.layout := by decide
  have hpos : "CD20" ∉ ["CD15"] := by decide
  have hneg : "CD20" ∉ ["CD3"] := by decide
  exact ⟨⟨rfl, rfl, hcompiles, hc, hpos, hneg⟩,
    free_channel_splits_count 2 rfl rfl hcompiles hc hpos hneg⟩

end Matcher
end Phenotyping
