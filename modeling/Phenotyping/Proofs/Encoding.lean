import Mathlib.Data.List.Find
import Phenotyping.Proofs.Gating
/-! # Encoding a sample against a snapshot of its thresholds

A snapshot holds one threshold for each channel of the table it was taken against. Encoding
with one checks, in this order, the snapshot's sample, its table version and its channel
order against the intensities and the encoding table, then that every channel of the table
names a column; a threshold is never missing, since the channel orders were just found equal.
The masks that come out say, bit by bit, whether a cell's value in the column of the
channel at that bit reaches the bit's threshold; no bit outside the table is set. So the
columns outside the table, and the order of the columns, do not change what encoding gives.
-/
namespace Phenotyping
set_option autoImplicit false

namespace Mask

theorem ext_test {m m' : Mask} (h : ∀ b < 64, m.test b = m'.test b) : m = m' := by
  obtain ⟨x⟩ := m
  obtain ⟨y⟩ := m'
  congr
  apply UInt64.toNat_inj.mp
  apply Nat.eq_of_testBit_eq
  intro b
  by_cases hb : b < 64
  · rw [← test_eq_testBit ⟨x⟩ hb, ← test_eq_testBit ⟨y⟩ hb]
    exact h b hb
  · rw [testBit_toNat_of_le x (by omega), testBit_toNat_of_le y (by omega)]

end Mask

namespace ChannelTable

theorem fst_lt_of_mem_bits {t : ChannelTable} {q : Nat × String} (h : q ∈ t.bits) : q.1 < t.len :=
  (List.getElem?_eq_some_iff.mp (mem_bits.mp h)).1

end ChannelTable

namespace IntensityTable

theorem column_eq_none_iff (table : IntensityTable) (c : String) :
    table.column c = none ↔ table.columnIndex c = none := by
  simp [column]

theorem getD_column {table : IntensityTable} {c : String} {col : List Float}
    (h : table.column c = some col) {i : Nat} (hi : i < table.rows.length) :
    col.getD i 0 = table.rows[i].getD ((table.columnIndex c).getD 0) 0 := by
  cases hj : table.columnIndex c with
  | none => simp [column, hj] at h
  | some j =>
    simp only [column, hj, Option.map_some, Option.some.injEq] at h
    subst h
    simp [columnAt, List.getD_eq_getElem?_getD, hi]

theorem exists_column_of_find?_none {t : ChannelTable} {table : IntensityTable}
    (hcol : t.layout.find? (fun c => table.columnIndex c = none) = none) {c : String}
    (hc : c ∈ t.layout) : ∃ col, table.column c = some col := by
  have hhas : table.column c ≠ none := by
    rw [Ne, table.column_eq_none_iff]
    simpa using List.find?_eq_none.mp hcol c hc
  exact Option.ne_none_iff_exists'.mp hhas

end IntensityTable

namespace ThresholdStore

theorem length_entriesFor {s : ThresholdStore} {sample : String} {cs : List String}
    {es : List ThresholdEntry} (h : s.entriesFor sample cs = .ok es) : es.length = cs.length := by
  induction cs generalizing es with
  | nil =>
    cases h
    rfl
  | cons c cs ih =>
    cases hc : s.get sample c with
    | none => simp [entriesFor, hc] at h
    | some e =>
      cases hrest : s.entriesFor sample cs with
      | error err => simp [entriesFor, hc, hrest, Except.map] at h
      | ok es' =>
        simp only [entriesFor, hc, hrest, Except.map, Except.ok.injEq] at h
        subst h
        simp [ih hrest]

theorem snapshot_fields {s : ThresholdStore} {sample : String} {t : ChannelTable}
    {snap : ThresholdSnapshot} (h : s.snapshot sample t = .ok snap) :
    snap.sample = sample ∧ snap.tableVersion = t.version ∧ snap.channels = t.layout ∧
      snap.values.length = t.len := by
  cases hes : s.entriesFor sample t.layout with
  | error e => simp [snapshot, hes, Except.map] at h
  | ok es =>
    simp only [snapshot, hes, Except.map, Except.ok.injEq] at h
    subst h
    simp [length_entriesFor hes, ChannelTable.len]

end ThresholdStore

namespace CellMasks

variable {t : ChannelTable} {table : IntensityTable} {snap : ThresholdSnapshot}

theorem fits_of_snapshot {store : ThresholdStore} {sample : String} {t' : ChannelTable}
    (hsnap : store.snapshot sample t' = .ok snap) (hs : snap.sample = table.sample)
    (hv : snap.tableVersion = t.version) (hc : snap.channels = t.layout) : Fits t table snap := by
  obtain ⟨-, -, hlayout, hlen⟩ := ThresholdStore.snapshot_fields hsnap
  -- the snapshot's table has the encoding table's layout, so one value per bit
  have hvalues : snap.values.length = t.len := by
    rw [hlen, ChannelTable.len, ChannelTable.len, ← hlayout, hc]
  exact ⟨hs, hv, hc, fun b hb => by simp [hvalues, hb]⟩

/-- What encoding with a snapshot can give: each check's failure, in order, else the first
channel without a column, else the gated cells. -/
theorem encode_cases (t : ChannelTable) (table : IntensityTable) {store : ThresholdStore}
    {sample : String} {t' : ChannelTable} (hsnap : store.snapshot sample t' = .ok snap) :
    (snap.sample ≠ table.sample ∧
        encode t table snap = .error (.sampleMismatch table.sample snap.sample)) ∨
    (snap.sample = table.sample ∧ snap.tableVersion ≠ t.version ∧
        encode t table snap = .error (.tableVersionMismatch t.version snap.tableVersion)) ∨
    (snap.sample = table.sample ∧ snap.tableVersion = t.version ∧ snap.channels ≠ t.layout ∧
        encode t table snap = .error (.channelOrderMismatch t.version)) ∨
    (Fits t table snap ∧ ∃ c, t.layout.find? (fun c => table.columnIndex c = none) = some c ∧
        encode t table snap = .error (.missingColumn table.sample c)) ∨
    (Fits t table snap ∧ t.layout.find? (fun c => table.columnIndex c = none) = none ∧
        encode t table snap = .ok ⟨table.sample, t.version, t.layout, snap.generations,
          table.rows.map (gateCell (t.bits.map (bitGate table snap)))⟩) := by
  by_cases hs : snap.sample = table.sample
  swap
  · exact .inl ⟨hs, by simp [encode, hs]⟩
  by_cases hv : snap.tableVersion = t.version
  swap
  · exact .inr (.inl ⟨hs, hv, by simp [encode, hs, hv]⟩)
  by_cases hc : snap.channels = t.layout
  swap
  · refine .inr (.inr (.inl ⟨hs, hv, hc, ?_⟩))
    simp [encode, hs, hv, ChannelTable.hasLayout, Ne.symm hc]
  have hfits := fits_of_snapshot hsnap hs hv hc
  cases hcol : t.layout.find? (fun c => table.columnIndex c = none) with
  | some c => exact .inr (.inr (.inr (.inl ⟨hfits, c, rfl, encode_of_find?_some hfits hcol⟩)))
  | none => exact .inr (.inr (.inr (.inr ⟨hfits, rfl, encode_of_find?_none hfits hcol⟩)))

theorem test_gateCell_of_len_le (row : List Float) {b : Nat} (hlen : t.len ≤ b) (hb : b < 64) :
    (gateCell (t.bits.map (bitGate table snap)) row).test b = false := by
  have hsmall : ∀ g ∈ t.bits.map (bitGate table snap), g.bit < 64 := by
    intro g hg
    obtain ⟨q, hq, rfl⟩ := List.mem_map.mp hg
    exact lt_of_lt_of_le (ChannelTable.fst_lt_of_mem_bits hq) t.len_le_capacity
  rw [gateCell, test_gateCell_foldl row hb _ _ hsmall, Mask.test_empty, Bool.false_or,
    List.any_eq_false]
  intro g hg
  obtain ⟨q, hq, rfl⟩ := List.mem_map.mp hg
  have hne : q.1 ≠ b := by
    have := ChannelTable.fst_lt_of_mem_bits hq
    omega
  simp [bitGate, hne]

theorem test_gateCell_iff (hcol : t.layout.find? (fun c => table.columnIndex c = none) = none) {i : Nat}
    (hi : i < table.rows.length) {b : Nat} (hb : b < 64) :
    (gateCell (t.bits.map (bitGate table snap)) table.rows[i]).test b = true ↔
      ∃ c col, t.channelAt b = some c ∧ table.column c = some col ∧
        col.getD i 0 ≥ snap.values.getD b 0 := by
  cases hc : t.layout[b]? with
  | none =>
    have hlen : t.len ≤ b := List.getElem?_eq_none_iff.mp hc
    simp [test_gateCell_of_len_le _ hlen hb, ChannelTable.channelAt, hc]
  | some c =>
    rw [test_gateCell_bits _ hc, decide_eq_true_iff]
    -- the channel at bit `b` has a column, whose entry `i` is the value the gate reads
    obtain ⟨col, hcolc⟩ := IntensityTable.exists_column_of_find?_none hcol (List.mem_of_getElem? hc)
    simp only [ChannelTable.channelAt, hc, Option.some.injEq, exists_and_left, exists_eq_left',
      hcolc, IntensityTable.getD_column hcolc hi]

theorem encode_congr_columns {store : ThresholdStore} {sample : String} {t' : ChannelTable}
    (hsnap : store.snapshot sample t' = .ok snap) {table' : IntensityTable}
    (hsample : table'.sample = table.sample) (hcells : table'.numCells = table.numCells)
    (hcols : ∀ c ∈ t.layout, table'.column c = table.column c) :
    encode t table' snap = encode t table snap := by
  have hfind : t.layout.find? (fun c => table'.columnIndex c = none) =
      t.layout.find? (fun c => table.columnIndex c = none) := by
    apply List.find?_congr
    intro c hc
    simp only [← IntensityTable.column_eq_none_iff, hcols c hc]
  rcases encode_cases t table hsnap with
    ⟨hs, he⟩ | ⟨hs, hv, he⟩ | ⟨hs, hv, hc, he⟩ | ⟨hfits, c, hcol, he⟩ | ⟨hfits, hcol, he⟩
  · rw [he, ← hsample]
    rw [← hsample] at hs
    simp [encode, hs]
  · rw [he]
    simp [encode, hsample, hs, hv]
  · rw [he]
    simp [encode, hsample, hs, hv, ChannelTable.hasLayout, Ne.symm hc]
  · have hfits' : Fits t table' snap := { hfits with sample := hfits.sample.trans hsample.symm }
    rw [he, encode_of_find?_some hfits' (hfind.trans hcol), hsample]
  · have hfits' : Fits t table' snap := { hfits with sample := hfits.sample.trans hsample.symm }
    rw [he, encode_of_find?_none hfits' (hfind.trans hcol), hsample]
    -- cell by cell, the gates read equal values: the columns they read are equal
    congr 2
    apply List.ext_getElem (by simpa [IntensityTable.numCells] using hcells)
    intro i hlt' hlt
    have hrow : i < table.rows.length := by simpa using hlt
    have hrow' : i < table'.rows.length := by simpa using hlt'
    simp only [List.getElem_map, gateCell, List.foldl_map]
    apply List.foldl_ext
    intro m q hq
    have hchannel : q.2 ∈ t.layout := List.mem_of_getElem? (ChannelTable.mem_bits.mp hq)
    obtain ⟨col, hcolq⟩ := IntensityTable.exists_column_of_find?_none hcol hchannel
    rw [bitGate, bitGate, ← IntensityTable.getD_column hcolq hrow,
      ← IntensityTable.getD_column ((hcols q.2 hchannel).trans hcolq) hrow']

/-! ## Each outcome of encoding with a snapshot -/

section Outcomes

variable {store : ThresholdStore} {sample : String} {t' : ChannelTable}
  (hsnap : store.snapshot sample t' = .ok snap)
include hsnap

theorem encode_eq_sampleMismatch_iff (e f : String) :
    encode t table snap = .error (.sampleMismatch e f) ↔
      snap.sample ≠ table.sample ∧ e = table.sample ∧ f = snap.sample := by
  rcases encode_cases t table hsnap with
    ⟨hs, he⟩ | ⟨hs, -, he⟩ | ⟨hs, -, -, he⟩ | ⟨hfits, c, -, he⟩ | ⟨hfits, -, he⟩
  · simp [he, hs, eq_comm]
  · simp [he, hs]
  · simp [he, hs]
  · simp [he, hfits.sample]
  · simp [he, hfits.sample]

theorem encode_eq_tableVersionMismatch_iff (e f : Nat) :
    encode t table snap = .error (.tableVersionMismatch e f) ↔
      snap.sample = table.sample ∧ snap.tableVersion ≠ t.version ∧ e = t.version ∧
        f = snap.tableVersion := by
  rcases encode_cases t table hsnap with
    ⟨hs, he⟩ | ⟨hs, hv, he⟩ | ⟨-, hv, -, he⟩ | ⟨hfits, c, -, he⟩ | ⟨hfits, -, he⟩
  · simp [he, hs]
  · simp [he, hs, hv, eq_comm]
  · simp [he, hv]
  · simp [he, hfits.version]
  · simp [he, hfits.version]

theorem encode_eq_channelOrderMismatch_iff (v : Nat) :
    encode t table snap = .error (.channelOrderMismatch v) ↔
      snap.sample = table.sample ∧ snap.tableVersion = t.version ∧ snap.channels ≠ t.layout ∧
        v = t.version := by
  rcases encode_cases t table hsnap with
    ⟨hs, he⟩ | ⟨-, hv, he⟩ | ⟨hs, hv, hc, he⟩ | ⟨hfits, c, -, he⟩ | ⟨hfits, -, he⟩
  · simp [he, hs]
  · simp [he, hv]
  · simp [he, hs, hv, hc, eq_comm]
  · simp [he, hfits.channels]
  · simp [he, hfits.channels]

theorem encode_eq_missingColumn_iff (s c : String) :
    encode t table snap = .error (.missingColumn s c) ↔
      snap.sample = table.sample ∧ snap.tableVersion = t.version ∧ snap.channels = t.layout ∧
        t.layout.find? (fun c => table.columnIndex c = none) = some c ∧ s = table.sample := by
  rcases encode_cases t table hsnap with
    ⟨hs, he⟩ | ⟨-, hv, he⟩ | ⟨-, -, hc, he⟩ | ⟨hfits, c', hcol, he⟩ | ⟨-, hcol, he⟩
  · simp [he, hs]
  · simp [he, hv]
  · simp [he, hc]
  · rw [he, hcol]
    simp [hfits.sample, hfits.version, hfits.channels, eq_comm, and_comm]
  · simp [he, hcol]

theorem encode_ne_missingThreshold (s c : String) :
    encode t table snap ≠ .error (.missingThreshold s c) := by
  rcases encode_cases t table hsnap with
    ⟨-, he⟩ | ⟨-, -, he⟩ | ⟨-, -, -, he⟩ | ⟨-, c', -, he⟩ | ⟨-, -, he⟩ <;> simp [he]

theorem encode_of_stamps_and_columns (hs : snap.sample = table.sample) (hv : snap.tableVersion = t.version)
    (hc : snap.channels = t.layout)
    (hcol : t.layout.find? (fun c => table.columnIndex c = none) = none) :
    ∃ a, encode t table snap = .ok a ∧ a.len = table.numCells ∧ a.sample = table.sample ∧
      a.tableVersion = t.version ∧ a.channels = t.layout ∧ a.generations = snap.generations ∧
      ∀ i (hi : i < a.masks.length) b, b < 64 →
        (a.masks[i].test b = true ↔ ∃ c col, t.channelAt b = some c ∧
          table.column c = some col ∧ col.getD i 0 ≥ snap.values.getD b 0) := by
  have hfits := fits_of_snapshot hsnap hs hv hc
  refine ⟨_, encode_of_find?_none hfits hcol, by simp [len, IntensityTable.numCells], rfl, rfl,
    rfl, rfl, fun i hi b hb => ?_⟩
  simp only [List.getElem_map]
  exact test_gateCell_iff hcol (by simpa using hi) hb

end Outcomes

/-- Encoding with a snapshot: a snapshot of another
sample, another table version or another channel order is refused, in that order; then the
first channel of the table, in bit order, without a column; a threshold is never missing.
Otherwise there is one mask per cell, stamped with the sample, the table and the snapshot's
generations, and bit `b` of a cell's mask is set exactly when the table has a channel at `b`
whose column holds, for that cell, a value at least the threshold of bit `b`. Hence columns
outside the table, and the order of the columns, do not change the outcome. -/
theorem encode_snapshot_outcomes (table : IntensityTable)
    {store : ThresholdStore} {sample : String} {t' : ChannelTable}
    (hsnap : store.snapshot sample t' = .ok snap) :
    (∀ e f, encode t table snap = .error (.sampleMismatch e f) ↔
      snap.sample ≠ table.sample ∧ e = table.sample ∧ f = snap.sample) ∧
    (∀ e f, encode t table snap = .error (.tableVersionMismatch e f) ↔
      snap.sample = table.sample ∧ snap.tableVersion ≠ t.version ∧ e = t.version ∧
        f = snap.tableVersion) ∧
    (∀ v, encode t table snap = .error (.channelOrderMismatch v) ↔
      snap.sample = table.sample ∧ snap.tableVersion = t.version ∧ snap.channels ≠ t.layout ∧
        v = t.version) ∧
    (∀ s c, encode t table snap = .error (.missingColumn s c) ↔
      snap.sample = table.sample ∧ snap.tableVersion = t.version ∧ snap.channels = t.layout ∧
        t.layout.find? (fun c => table.columnIndex c = none) = some c ∧ s = table.sample) ∧
    (∀ s c, encode t table snap ≠ .error (.missingThreshold s c)) ∧
    (snap.sample = table.sample → snap.tableVersion = t.version → snap.channels = t.layout →
      t.layout.find? (fun c => table.columnIndex c = none) = none →
      ∃ a, encode t table snap = .ok a ∧ a.len = table.numCells ∧ a.sample = table.sample ∧
        a.tableVersion = t.version ∧ a.channels = t.layout ∧ a.generations = snap.generations ∧
        ∀ i (hi : i < a.masks.length) b, b < 64 →
          (a.masks[i].test b = true ↔ ∃ c col, t.channelAt b = some c ∧
            table.column c = some col ∧ col.getD i 0 ≥ snap.values.getD b 0)) ∧
    (∀ table' : IntensityTable, table'.sample = table.sample → table'.numCells = table.numCells →
      (∀ c ∈ t.layout, table'.column c = table.column c) →
        encode t table' snap = encode t table snap) :=
  ⟨encode_eq_sampleMismatch_iff hsnap, encode_eq_tableVersionMismatch_iff hsnap,
    encode_eq_channelOrderMismatch_iff hsnap, encode_eq_missingColumn_iff hsnap,
    encode_ne_missingThreshold hsnap, encode_of_stamps_and_columns hsnap,
    fun _ hsample hcells hcols => encode_congr_columns hsnap hsample hcells hcols⟩

/-- Two channels with recorded thresholds, encoded from a table whose columns come in the
other order. -/
theorem encode_snapshot_outcomes_reordered_columns :
    let t : ChannelTable := ⟨1, ["CD3", "CD15"], by decide⟩
    let table : IntensityTable :=
      ⟨"WCM1", ["CD15", "CD3"], [[30, 1], [29.999, 5], [31, 4.999], [0, 0]]⟩
    let store : ThresholdStore := ⟨1e-6, [(⟨"WCM1", "CD3"⟩, ⟨1, some ⟨5, "test", 1⟩⟩),
      (⟨"WCM1", "CD15"⟩, ⟨1, some ⟨30, "test", 1⟩⟩)]⟩
    let snap : ThresholdSnapshot := ⟨"WCM1", 1, ["CD3", "CD15"], [5, 30], [1, 1]⟩
    store.snapshot "WCM1" t = .ok snap ∧
    (∀ e f, encode t table snap = .error (.sampleMismatch e f) ↔
      snap.sample ≠ table.sample ∧ e = table.sample ∧ f = snap.sample) ∧
    (∀ e f, encode t table snap = .error (.tableVersionMismatch e f) ↔
      snap.sample = table.sample ∧ snap.tableVersion ≠ t.version ∧ e = t.version ∧
        f = snap.tableVersion) ∧
    (∀ v, encode t table snap = .error (.channelOrderMismatch v) ↔
      snap.sample = table.sample ∧ snap.tableVersion = t.version ∧ snap.channels ≠ t.layout ∧
        v = t.version) ∧
    (∀ s c, encode t table snap = .error (.missingColumn s c) ↔
      snap.sample = table.sample ∧ snap.tableVersion = t.version ∧ snap.channels = t.layout ∧
        t.layout.find? (fun c => table.columnIndex c = none) = some c ∧ s = table.sample) ∧
    (∀ s c, encode t table snap ≠ .error (.missingThreshold s c)) ∧
    (snap.sample = table.sample → snap.tableVersion = t.version → snap.channels = t.layout →
      t.layout.find? (fun c => table.columnIndex c = none) = none →
      ∃ a, encode t table snap = .ok a ∧ a.len = table.numCells ∧ a.sample = table.sample ∧
        a.tableVersion = t.version ∧ a.channels = t.layout ∧ a.generations = snap.generations ∧
        ∀ i (hi : i < a.masks.length) b, b < 64 →
          (a.masks[i].test b = true ↔ ∃ c col, t.channelAt b = some c ∧
            table.column c = some col ∧ col.getD i 0 ≥ snap.values.getD b 0)) ∧
    (∀ table' : IntensityTable, table'.sample = table.sample → table'.numCells = table.numCells →
      (∀ c ∈ t.layout, table'.column c = table.column c) →
        encode t table' snap = encode t table snap) := by
  intro t table store snap
  have hsnap : store.snapshot "WCM1" t = .ok snap := rfl
  exact ⟨hsnap, encode_snapshot_outcomes table hsnap⟩

end CellMasks
end Phenotyping
