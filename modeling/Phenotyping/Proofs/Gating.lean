import Phenotyping.Proofs.MaskBits
/-! # Gating cells against a snapshot

A snapshot of a sample's thresholds exists exactly when every channel of the table has a
current threshold, and then it holds them in bit order. Encoding against such a snapshot
fails at the first channel, in bit order, that names no column; otherwise bit `b` of a
cell's mask says whether the cell is positive for the channel at position `b`: its value in
that channel's column is at least the channel's threshold.
-/
namespace Phenotyping
set_option autoImplicit false

def IntensityTable.positiveFor (table : IntensityTable) (store : ThresholdStore)
    (row : List Float) (c : String) : Bool :=
  match table.columnIndex c, store.get table.sample c with
  | some j, some e => decide (row.getD j 0 ≥ e.value)
  | _, _ => false

namespace ThresholdStore

theorem entriesFor_of_find?_some {s : ThresholdStore} {sample c : String} {cs : List String}
    (h : cs.find? (fun c => s.get sample c = none) = some c) :
    s.entriesFor sample cs = .error (.missingThreshold sample c) := by
  induction cs with
  | nil => simp at h
  | cons d ds ih =>
    rw [List.find?_cons] at h
    cases hd : s.get sample d with
    | none =>
      simp only [hd, decide_true] at h
      cases h
      simp [entriesFor, hd]
    | some e =>
      simp only [hd, reduceCtorEq, decide_false] at h
      simp [entriesFor, hd, ih h, Except.map]

theorem entriesFor_of_find?_none {s : ThresholdStore} {sample : String} {cs : List String}
    (h : cs.find? (fun c => s.get sample c = none) = none) :
    ∃ es, s.entriesFor sample cs = .ok es ∧ ∀ b : Nat, es[b]? = cs[b]?.bind (s.get sample) := by
  induction cs with
  | nil => exact ⟨[], rfl, by simp⟩
  | cons d ds ih =>
    rw [List.find?_cons] at h
    cases hd : s.get sample d with
    | none => simp [hd] at h
    | some e =>
      simp only [hd, reduceCtorEq, decide_false] at h
      obtain ⟨es, hes, hat⟩ := ih h
      refine ⟨e :: es, by simp [entriesFor, hd, hes, Except.map], fun b => ?_⟩
      cases b with
      | zero => simp [hd]
      | succ b => simpa using hat b

theorem snapshot_of_find?_some {s : ThresholdStore} {sample c : String} {t : ChannelTable}
    (h : t.layout.find? (fun c => s.get sample c = none) = some c) :
    s.snapshot sample t = .error (.missingThreshold sample c) := by
  simp [snapshot, entriesFor_of_find?_some h, Except.map]

theorem snapshot_of_find?_none {s : ThresholdStore} {sample : String} {t : ChannelTable}
    (h : t.layout.find? (fun c => s.get sample c = none) = none) :
    ∃ snap, s.snapshot sample t = .ok snap ∧ snap.sample = sample ∧
      snap.tableVersion = t.version ∧ snap.channels = t.layout ∧
      ∀ b : Nat, snap.values[b]? = (t.layout[b]?.bind (s.get sample)).map (·.value) := by
  obtain ⟨es, hes, hat⟩ := entriesFor_of_find?_none h
  refine ⟨⟨sample, t.version, t.layout, es.map (·.value), es.map (·.generation)⟩,
    by simp [snapshot, hes, Except.map], rfl, rfl, rfl, fun b => ?_⟩
  simp [hat]

end ThresholdStore

namespace ChannelTable

theorem mem_bits {t : ChannelTable} {b : Nat} {c : String} :
    (b, c) ∈ t.bits ↔ t.layout[b]? = some c := by
  simp [bits, List.mem_zipIdx_iff_getElem?]

theorem find?_zipIdx_fst {α : Type} (q : α → Bool) (l : List α) (k : Nat) :
    ((l.zipIdx k).find? fun p => q p.1).map Prod.fst = l.find? q := by
  induction l generalizing k with
  | nil => rfl
  | cons a l ih =>
    by_cases ha : q a = true
    · simp [List.zipIdx_cons, ha]
    · simp [List.zipIdx_cons, ha, ih]

theorem find?_bits (t : ChannelTable) (q : String → Bool) :
    (t.bits.find? fun p => q p.2).map Prod.snd = t.layout.find? q := by
  rw [bits, List.find?_map, Option.map_map]
  exact find?_zipIdx_fst q t.layout 0

end ChannelTable

namespace CellMasks

def bitGate (table : IntensityTable) (snap : ThresholdSnapshot) (q : Nat × String) : BitGate :=
  ⟨q.1, (table.columnIndex q.2).getD 0, snap.values.getD q.1 0⟩

variable {t : ChannelTable} {table : IntensityTable} {snap : ThresholdSnapshot}

theorem gates_of_find?_some {l : List (Nat × String)} {p : Nat × String}
    (hvals : ∀ q ∈ l, (snap.values[q.1]?).isSome)
    (h : l.find? (fun q => table.columnIndex q.2 = none) = some p) :
    gates t table snap l = .error (.missingColumn table.sample p.2) := by
  induction l with
  | nil => simp at h
  | cons q qs ih =>
    obtain ⟨thr, hthr⟩ := Option.isSome_iff_exists.mp (hvals q (List.mem_cons_self ..))
    have hrest : ∀ q ∈ qs, (snap.values[q.1]?).isSome := fun q hq => hvals q (List.mem_cons_of_mem _ hq)
    obtain ⟨b, c⟩ := q
    rw [List.find?_cons] at h
    cases hc : table.columnIndex c with
    | none =>
      simp only [hc, decide_true] at h
      cases h
      simp [gates, hthr, hc]
    | some j =>
      simp only [hc, reduceCtorEq, decide_false] at h
      simp [gates, hthr, hc, ih hrest h, Except.map]

theorem gates_of_find?_none {l : List (Nat × String)}
    (hvals : ∀ q ∈ l, (snap.values[q.1]?).isSome)
    (h : l.find? (fun q => table.columnIndex q.2 = none) = none) :
    gates t table snap l = .ok (l.map (bitGate table snap)) := by
  induction l with
  | nil => rfl
  | cons q qs ih =>
    obtain ⟨thr, hthr⟩ := Option.isSome_iff_exists.mp (hvals q (List.mem_cons_self ..))
    have hrest : ∀ q ∈ qs, (snap.values[q.1]?).isSome := fun q hq => hvals q (List.mem_cons_of_mem _ hq)
    obtain ⟨b, c⟩ := q
    rw [List.find?_cons] at h
    cases hc : table.columnIndex c with
    | none => simp [hc] at h
    | some j =>
      simp only [hc, reduceCtorEq, decide_false] at h
      simp [gates, hthr, hc, ih hrest h, Except.map, bitGate, List.getD_eq_getElem?_getD]

theorem test_gateCell_foldl (row : List Float) {b : Nat} (hb : b < 64) :
    ∀ (gs : List BitGate) (m : Mask), (∀ g ∈ gs, g.bit < 64) →
      (gs.foldl (fun m g => if row.getD g.column 0 ≥ g.threshold then m.set g.bit else m) m).test b =
        (m.test b || gs.any fun g => decide (g.bit = b) && decide (row.getD g.column 0 ≥ g.threshold))
  | [], m, _ => by simp
  | g :: gs, m, hbits => by
    have hg : g.bit < 64 := hbits g (List.mem_cons_self ..)
    have hrest : ∀ g ∈ gs, g.bit < 64 := fun g' hg' => hbits g' (List.mem_cons_of_mem _ hg')
    rw [List.foldl_cons, test_gateCell_foldl row hb gs _ hrest]
    by_cases hpass : row.getD g.column 0 ≥ g.threshold
    · rw [if_pos hpass, Mask.test_set m hg hb, List.any_cons, decide_eq_true hpass, Bool.and_true]
      by_cases hbit : b = g.bit
      · simp [hbit]
      · simp [hbit, Ne.symm hbit]
    · rw [if_neg hpass, List.any_cons, decide_eq_false hpass, Bool.and_false, Bool.false_or]

/-- A snapshot made for the encoding table: same sample, version and channel order, and a
threshold for every bit. -/
structure Fits (t : ChannelTable) (table : IntensityTable) (snap : ThresholdSnapshot) : Prop where
  sample : snap.sample = table.sample
  version : snap.tableVersion = t.version
  channels : snap.channels = t.layout
  values : ∀ b < t.len, (snap.values[b]?).isSome

theorem Fits.values_bits (h : Fits t table snap) : ∀ q ∈ t.bits, (snap.values[q.1]?).isSome := by
  intro q hq
  have hq' : t.layout[q.1]? = some q.2 := ChannelTable.mem_bits.mp hq
  exact h.values q.1 (List.getElem?_eq_some_iff.mp hq').1

theorem encode_of_find?_some (h : Fits t table snap) {c : String}
    (hcol : t.layout.find? (fun c => table.columnIndex c = none) = some c) :
    encode t table snap = .error (.missingColumn table.sample c) := by
  have hbits := ChannelTable.find?_bits t (fun c => table.columnIndex c = none)
  rw [hcol] at hbits
  obtain ⟨q, hq, rfl⟩ := Option.map_eq_some_iff.mp hbits
  simp [encode, h.sample, h.version, h.channels, ChannelTable.hasLayout,
    gates_of_find?_some h.values_bits hq, Except.map]

theorem encode_of_find?_none (h : Fits t table snap)
    (hcol : t.layout.find? (fun c => table.columnIndex c = none) = none) :
    encode t table snap = .ok ⟨table.sample, t.version, t.layout, snap.generations,
      table.rows.map (gateCell (t.bits.map (bitGate table snap)))⟩ := by
  have hbits := ChannelTable.find?_bits t (fun c => table.columnIndex c = none)
  rw [hcol, Option.map_eq_none_iff] at hbits
  simp [encode, h.sample, h.version, h.channels, ChannelTable.hasLayout,
    gates_of_find?_none h.values_bits hbits, Except.map]

theorem sample_of_encode {a : CellMasks} (h : encode t table snap = .ok a) :
    a.sample = table.sample := by
  unfold encode at h
  split_ifs at h
  cases hg : gates t table snap t.bits with
  | error e => simp [hg, Except.map] at h
  | ok gs =>
    simp only [hg, Except.map, Except.ok.injEq] at h
    rw [← h]

/-- Bit `b` of a cell's mask compares the cell's value in the column of the channel at
position `b` with the threshold of bit `b`. -/
theorem test_gateCell_bits (row : List Float) {b : Nat}
    {c : String} (hb : t.layout[b]? = some c) :
    (gateCell (t.bits.map (bitGate table snap)) row).test b =
      decide (row.getD ((table.columnIndex c).getD 0) 0 ≥ snap.values.getD b 0) := by
  have hlt : b < 64 := lt_of_lt_of_le (List.getElem?_eq_some_iff.mp hb).1 t.len_le_capacity
  have hsmall : ∀ g ∈ t.bits.map (bitGate table snap), g.bit < 64 := by
    intro g hg
    obtain ⟨q, hq, rfl⟩ := List.mem_map.mp hg
    exact lt_of_lt_of_le (List.getElem?_eq_some_iff.mp (ChannelTable.mem_bits.mp hq)).1
      t.len_le_capacity
  rw [gateCell, test_gateCell_foldl row hlt _ _ hsmall, Mask.test_empty, Bool.false_or,
    Bool.eq_iff_iff, List.any_eq_true]
  simp only [List.mem_map, Bool.and_eq_true, decide_eq_true_eq]
  constructor
  · -- the only gate of bit `b` is the one of the channel at position `b`
    rintro ⟨g, ⟨⟨b', c'⟩, hq, rfl⟩, hbit, hpass⟩
    have hq' := ChannelTable.mem_bits.mp hq
    simp only [bitGate] at hbit hpass
    subst hbit
    rw [hb, Option.some.injEq] at hq'
    subst hq'
    exact hpass
  · intro hpass
    exact ⟨bitGate table snap (b, c), ⟨(b, c), ChannelTable.mem_bits.mpr hb, rfl⟩, rfl, hpass⟩

end CellMasks
end Phenotyping
