import Phenotyping.Files.Records
import Phenotyping.Files.Intensity
import Phenotyping.Proofs.TableRoundTrip
import Phenotyping.Proofs.FloatText
/-! # Record files read back

A count is written in decimal and read back by the same digits. The reader trims every field
and reads counts below `2^64`, so every cell it gives is *plain*. An intensity table that reads
has the sample and the number of cells asked for.

What the record files rely on of their libraries is stated once, as the laws of a
`RecordFormat` (`RecordFormat.Laws`): the reader gives plain cells, a written table reads back
as the cells of its trimmed fields, and a float's written text reads back as the float. From
the laws alone, a feature-value file, written under either delimiter its name selects, reads
back as its values exactly when they are plain, and a threshold file as its thresholds exactly
when their samples and channels are trimmed. The libraries as this program has them keep the
laws (`RecordFormat.standard_laws`).
-/

namespace Phenotyping.DelimitedText
set_option autoImplicit false

theorem digitIn_digitChar : ∀ d, d < 10 → digitIn 10 (Nat.digitChar d) = some d := by
  decide

theorem digitsIn_cons_of_le {radix acc : Nat} {c : Char} {d : Nat} (cs : List Char)
    (hc : digitIn radix c = some d) (hle : acc * radix + d ≤ countLimit) :
    digitsIn radix acc (c :: cs) = digitsIn radix (acc * radix + d) cs := by
  simp [digitsIn, hc, Nat.not_lt.mpr hle]

theorem digitsIn_toDigits (n : Nat) (hn : n ≤ countLimit) (ys : List Char) :
    digitsIn 10 0 (Nat.toDigits 10 n ++ ys) = digitsIn 10 n ys := by
  induction n using Nat.strongRecOn generalizing ys with
  | ind n ih =>
    by_cases hlt : n < 10
    · rw [Nat.toDigits_of_lt_base hlt, List.singleton_append,
        digitsIn_cons_of_le ys (digitIn_digitChar n hlt) (by omega)]
      simp
    · have hdiv : n / 10 < n := Nat.div_lt_self (by omega) (by decide)
      have hmod : n % 10 < 10 := Nat.mod_lt n (by decide)
      rw [Nat.toDigits_of_base_le (by decide) (by omega), List.append_assoc, List.singleton_append,
        ih (n / 10) hdiv (by omega), digitsIn_cons_of_le ys (digitIn_digitChar _ hmod) (by omega),
        Nat.div_add_mod' n 10]

theorem readCount_toString (n : Nat) (hn : n ≤ countLimit) : readCount (toString n) = .ok n := by
  have hdigits : ∀ c ∈ (toString n).toList, c.isDigit = true := by
    intro c hc
    rw [Nat.toString_eq_repr, Nat.toList_repr] at hc
    exact Nat.isDigit_of_mem_toDigits (by decide) (by decide) hc
  have hread : digitsIn 10 0 (toString n).toList = .ok n := by
    rw [Nat.toString_eq_repr, Nat.toList_repr, ← List.append_nil (Nat.toDigits 10 n),
      digitsIn_toDigits n hn]
    rfl
  unfold readCount
  split
  · rename_i hex h
    have := hdigits 'x' (by rw [h]; simp)
    exact absurd this (by decide)
  · unfold readCountIn
    split
    · rename_i h
      exact absurd h (by simp)
    · rename_i h
      exact absurd (hdigits '+' (by rw [h]; simp)) (by decide)
    · rename_i h
      exact absurd (hdigits '-' (by rw [h]; simp)) (by decide)
    · rename_i ds _ h
      exact absurd (hdigits '+' (by rw [h]; simp)) (by decide)
    · exact hread

theorem digitsIn_le {radix acc n : Nat} {cs : List Char} (hacc : acc ≤ countLimit)
    (h : digitsIn radix acc cs = .ok n) : n ≤ countLimit := by
  induction cs generalizing acc with
  | nil =>
    cases h
    exact hacc
  | cons c cs ih =>
    rw [digitsIn] at h
    split at h
    · cases h
    · dsimp only at h
      split at h
      · cases h
      · exact ih (by omega) h

theorem readCountIn_le {radix n : Nat} {cs : List Char} (h : readCountIn radix cs = .ok n) :
    n ≤ countLimit := by
  unfold readCountIn at h
  split at h <;> first | cases h | exact digitsIn_le (Nat.zero_le _) h

theorem readCount_le {s : String} {n : Nat} (h : readCount s = .ok n) : n ≤ countLimit := by
  unfold readCount at h
  split at h <;> exact readCountIn_le h

/-- A cell as the reader makes it from a trimmed field: a text with no blank at either end, or
a count that fits in 64 bits. -/
def Cell.Plain : Cell → Prop
  | .text s => Text.trim s = s
  | .float _ => True
  | .count n => n ≤ countLimit

theorem CellKind.read_plain {kind : CellKind} {t : String} {c : Cell} (ht : Text.trim t = t)
    (h : kind.read t = .ok c) : c.Plain := by
  cases kind with
  | text =>
    cases h
    exact ht
  | float =>
    simp only [CellKind.read] at h
    split at h
    · cases h
      trivial
    · cases h
  | count =>
    simp only [CellKind.read] at h
    cases hr : readCount t with
    | error e => rw [hr] at h; cases h
    | ok n =>
      rw [hr] at h
      cases h
      exact readCount_le hr

theorem forall_mem_of_mapM_ok {α β ε : Type} {f : α → Except ε β} {P : β → Prop} :
    ∀ {l : List α} {ys : List β}, (∀ x ∈ l, ∀ y, f x = .ok y → P y) → l.mapM f = .ok ys →
      ∀ y ∈ ys, P y
  | [], ys, _, h => by
    cases h
    simp
  | x :: l, ys, hf, h => by
    rw [List.mapM_cons] at h
    cases hx : f x with
    | error e => rw [hx] at h; cases h
    | ok b =>
      cases hl : l.mapM f with
      | error e => rw [hx, hl] at h; cases h
      | ok bs =>
        rw [hx, hl] at h
        cases h
        intro y hy
        rcases List.mem_cons.mp hy with rfl | hy
        · exact hf x List.mem_cons_self y hx
        · exact forall_mem_of_mapM_ok (fun x' hx' => hf x' (List.mem_cons_of_mem _ hx')) hl y hy

theorem assignFrom_plain {shape : Shape} {found found' : List (String × Cell)} {i : Nat}
    {pairs : List (String × String)} (hfound : ∀ p ∈ found, p.2.Plain)
    (hpairs : ∀ p ∈ pairs, Text.trim p.2 = p.2) (h : assignFrom shape found i pairs = .ok found') :
    ∀ p ∈ found', p.2.Plain := by
  induction pairs generalizing found i with
  | nil =>
    cases h
    exact hfound
  | cons p pairs ih =>
    obtain ⟨name, text⟩ := p
    have hrest : ∀ q ∈ pairs, Text.trim q.2 = q.2 := fun q hq => hpairs q (List.mem_cons_of_mem _ hq)
    rw [assignFrom] at h
    split at h
    · exact ih hfound hrest h
    · split at h
      · cases h
      · split at h
        · cases h
        · rename_i c hc
          refine ih ?_ hrest h
          intro q hq
          rcases List.mem_cons.mp hq with rfl | hq
          · exact CellKind.read_plain (hpairs _ List.mem_cons_self) hc
          · exact hfound q hq

theorem mapError_eq_ok {ε ε' α : Type} {f : ε → ε'} {e : Except ε α} {a : α}
    (h : e.mapError f = .ok a) : e = .ok a := by
  cases e with
  | error err => cases h
  | ok b => cases h; rfl

theorem Shape.byName_plain {shape : Shape} {header row : List String} {cells : List Cell}
    (hrow : ∀ t ∈ row, Text.trim t = t) (h : shape.byName header row = .ok cells) :
    ∀ c ∈ cells, c.Plain := by
  unfold Shape.byName at h
  cases hfound : assignFrom shape [] 0 (header.zip row) with
  | error e => rw [hfound] at h; cases h
  | ok found =>
    have hplain := assignFrom_plain (by simp) (fun p hp => hrow p.2 (List.of_mem_zip hp).2) hfound
    rw [hfound] at h
    refine forall_mem_of_mapM_ok (fun col _ c hc => ?_) h
    obtain ⟨name, kind⟩ := col
    dsimp only at hc
    split at hc
    · rename_i hl
      cases hc
      obtain ⟨l₁, l₂, rfl, -⟩ := List.lookup_eq_some_iff.mp hl
      exact hplain (name, c) (by simp)
    · cases hc

theorem Shape.byPosition_plain {shape : Shape} {row : List String} {cells : List Cell}
    (hrow : ∀ t ∈ row, Text.trim t = t) (h : shape.byPosition row = .ok cells) :
    ∀ c ∈ cells, c.Plain := by
  unfold Shape.byPosition at h
  refine forall_mem_of_mapM_ok (fun x _ c hc => ?_) h
  obtain ⟨⟨_, kind⟩, i⟩ := x
  dsimp only at hc
  split at hc
  · cases hc
  · rename_i text htext
    exact CellKind.read_plain (hrow text (List.mem_of_getElem? htext)) (mapError_eq_ok hc)

theorem readShaped_go_plain {shape : Shape} {stop : Option ReadError}
    {header : Option (List String)} :
    ∀ {rs : List RawRecord} {rows : List (List Cell)}, readShaped.go shape stop header rs = .ok rows →
      ∀ row ∈ rows, ∀ c ∈ row, c.Plain
  | [], rows, h => by
    unfold readShaped.go at h
    split at h
    · cases h
    · cases h
      simp
  | r :: rs, rows, h => by
    unfold readShaped.go at h
    simp only [bind, Except.bind] at h
    split at h
    · cases h
    · rename_i fields hfields
      have htrim : ∀ t ∈ fields.map Text.trim, Text.trim t = t := by
        intro t ht
        obtain ⟨x, -, rfl⟩ := List.mem_map.mp ht
        exact Text.trim_trim x
      split at h
      · cases h
      · rename_i cells hcells
        have hcellsPlain : ∀ c ∈ cells, c.Plain := by
          split at hcells
          · exact Shape.byName_plain htrim (mapError_eq_ok hcells)
          · exact Shape.byPosition_plain htrim (mapError_eq_ok hcells)
        split at h
        · cases h
        · rename_i rest hrest
          cases h
          intro row hrow
          rcases List.mem_cons.mp hrow with rfl | hrow
          · exact hcellsPlain
          · exact readShaped_go_plain hrest row hrow

theorem readShaped_plain {shape : Shape} {delim : UInt8} {input : List UInt8}
    {rows : List (List Cell)} (h : readShaped shape delim input = .ok rows) :
    ∀ row ∈ rows, ∀ c ∈ row, c.Plain := by
  unfold readShaped at h
  dsimp only at h
  split at h
  · split at h
    · cases h
    · cases h
      simp
  · exact readShaped_go_plain h

theorem writeRecord_head_ascii (delim : Char) {f : String} (fs : List String) {c : Char}
    {cs : List Char} (hf : f.toList = c :: cs) (hc : c.toNat < 128) :
    ∃ x xs, (writeRecord delim (f :: fs)).toList = x :: xs ∧ x.toNat < 128 := by
  have hone : f :: fs ≠ [""] := by
    intro h
    obtain ⟨rfl, -⟩ := List.cons.inj h
    simp at hf
  obtain ⟨x, xs, hx, hlt⟩ : ∃ x xs, (writeField delim f).toList = x :: xs ∧ x.toNat < 128 := by
    unfold writeField
    split
    · exact ⟨'"', _, by rw [String.toList_append, String.toList_append]; rfl, by decide⟩
    · exact ⟨c, cs, hf, hc⟩
  -- the written record starts with the written first field
  obtain ⟨rest, hrest⟩ : ∃ rest, (writeRecord delim (f :: fs)).toList =
      (writeField delim f).toList ++ rest := by
    unfold writeRecord
    rw [if_neg hone, List.map_cons]
    cases fs with
    | nil => exact ⟨['\n'], by simp [String.intercalate_singleton]⟩
    | cons g gs =>
      refine ⟨(String.singleton delim ++ (String.singleton delim).intercalate
        ((g :: gs).map (writeField delim)) ++ "\n").toList, ?_⟩
      rw [List.map_cons, String.intercalate_cons_cons]
      simp [List.append_assoc]
  exact ⟨x, xs ++ rest, by rw [hrest, hx, List.cons_append], hlt⟩

end Phenotyping.DelimitedText

namespace Phenotyping
set_option autoImplicit false

/-- A value a feature-value file lists and reads back as it is: no blank at either end of its
feature or sample, and a count that fits in 64 bits. -/
def FeatureValue.Plain (v : FeatureValue) : Prop :=
  Text.trim v.feature = v.feature ∧ Text.trim v.sample = v.sample ∧ v.count ≤ DelimitedText.countLimit

def ThresholdRecord.Trimmed (r : ThresholdRecord) : Prop :=
  Text.trim r.sample = r.sample ∧ Text.trim r.channel = r.channel

theorem IntensityTable.make_ok {sample : String} {channels : List String} {columns : Nat}
    {rows : List (List Float)} {expected : Nat} {t : IntensityTable}
    (h : IntensityTable.make sample channels columns rows expected = .ok t) :
    t.rows.length = expected ∧ t.sample = sample := by
  unfold make at h
  split at h
  · cases h
  · split at h
    · cases h
    · rename_i hlen
      split at h
      · cases h
      · split at h
        · cases h
        · cases h
          exact ⟨by simpa using hlen, rfl⟩

namespace Files

open DelimitedText

theorem delimiterFor_cases (path : String) : delimiterFor path = '\t' ∨ delimiterFor path = ',' := by
  unfold delimiterFor
  split
  · split
    · exact Or.inr rfl
    · exact Or.inl rfl
  · exact Or.inl rfl

theorem separates_delimiterFor (path : String) : Separates (delimiterFor path) := by
  rcases delimiterFor_cases path with h | h <;> rw [h] <;> decide

theorem delimiterByte_eq (path : String) : delimiterByte path = UInt8.ofNat (delimiterFor path).toNat := rfl

theorem featureShape_byName (f s : String) (n : Nat) (hn : n ≤ countLimit) :
    featureShape.byName ["feature", "sample", "count"] [f, s, toString n] =
      .ok [.text f, .text s, .count n] := by
  have hcount : readCount n.repr = .ok n := readCount_toString n hn
  simp [Shape.byName, assignFrom, featureShape, List.lookup_cons, List.lookup_nil, CellKind.read, hcount]
  rfl

theorem trim_toString (n : Nat) : Text.trim (toString n) = toString n := by
  apply Text.trim_of_not_blank
  intro c hc
  rw [Nat.toString_eq_repr, Nat.toList_repr] at hc
  exact Text.isBlank_of_isDigit c (Nat.isDigit_of_mem_toDigits (by decide) (by decide) hc)

theorem featureOfCells_plain {cells : List Cell} (h : ∀ c ∈ cells, c.Plain) :
    (featureOfCells cells).Plain := by
  unfold featureOfCells
  split
  · rename_i f s n
    exact ⟨h (.text f) (by simp), h (.text s) (by simp), h (.count n) (by simp)⟩
  · exact ⟨by decide, by decide, Nat.zero_le _⟩

theorem thresholdShape_byName (s c t : String) (x : Float) (hx : Decimal.readFloat t = .ok x) :
    thresholdShape.byName ["sample", "channel", "value"] [s, c, t] =
      .ok [.text s, .text c, .float x] := by
  simp [Shape.byName, assignFrom, thresholdShape, List.lookup_cons, List.lookup_nil, CellKind.read, hx]
  rfl

theorem thresholdOfCells_trimmed {cells : List Cell} (h : ∀ c ∈ cells, c.Plain) :
    (thresholdOfCells cells).Trimmed := by
  unfold thresholdOfCells
  split
  · rename_i s c v
    exact ⟨h (.text s) (by simp), h (.text c) (by simp)⟩
  · exact ⟨by decide, by decide⟩

/-! ## What the record files rely on of their libraries -/

/-- The behaviour of the delimited-text and float-text libraries that the record files rely
on, as the libraries document it. -/
structure RecordFormat.Laws (fmt : RecordFormat) : Prop where
  /-- The reader trims every field before reading it and reads counts of 64 bits, so every
  cell it gives is plain. -/
  read_plain : ∀ {shape : Shape} {delim : UInt8} {input : List UInt8} {rows : List (List Cell)},
    fmt.readShaped shape delim input = .ok rows → ∀ row ∈ rows, ∀ c ∈ row, c.Plain
  /-- A table written with a delimiter that separates, records as long as the header and none
  the single empty field, and a header that starts with an ASCII character (so that no byte
  order mark is read), reads back, by header name, as the cells of its trimmed fields. -/
  read_write : ∀ {α : Type} {delim : Char} (shape : Shape) (header : List String) (rows : List α)
    (render : α → List String) (cells : α → List Cell), Separates delim →
    (∀ r ∈ header :: rows.map render, r.length = header.length ∧ r ≠ [] ∧ r ≠ [""]) →
    (∃ c cs, (header.headD "").toList = c :: cs ∧ c.toNat < 128) →
    (∀ a ∈ rows, shape.byName (header.map Text.trim) ((render a).map Text.trim) = .ok (cells a)) →
    fmt.readShaped shape (UInt8.ofNat delim.toNat)
      (fmt.writeTable delim header (rows.map render)).toUTF8.toList = .ok (rows.map cells)
  /-- A float's written text, trimmed, reads back as the float. -/
  readFloat_render : ∀ x : Float, Decimal.readFloat (Text.trim (fmt.renderFloat x)) = .ok x

namespace RecordFormat.Laws

variable {fmt : RecordFormat} (laws : fmt.Laws)
include laws

theorem forall_mem_of_read {α : Type} {shape : Shape} {delim : UInt8} {input : List UInt8}
    {ofCells : List Cell → α} {P : α → Prop} (hP : ∀ cells, (∀ c ∈ cells, c.Plain) → P (ofCells cells))
    {xs : List α}
    (h : ((fmt.readShaped shape delim input).map (·.map ofCells)).mapError TableIoError.delimited =
      .ok xs) :
    ∀ x ∈ xs, P x := by
  cases hr : fmt.readShaped shape delim input with
  | error e => rw [hr] at h; cases h
  | ok rows =>
    rw [hr] at h
    cases h
    intro x hx
    obtain ⟨row, hrow, rfl⟩ := List.mem_map.mp hx
    exact hP row (laws.read_plain hr row hrow)

theorem read_write_records {α : Type} (path : String) (shape : Shape) (header : List String)
    (rs : List α) (render : α → List String) (cells : α → List Cell) (ofCells : List Cell → α)
    (hback : ∀ a, ofCells (cells a) = a) (hheader : header.map Text.trim = header)
    (hshape : ∀ r ∈ header :: rs.map render, r.length = header.length ∧ r ≠ [] ∧ r ≠ [""])
    (hascii : ∃ c cs, (header.headD "").toList = c :: cs ∧ c.toNat < 128)
    (hcells : ∀ a ∈ rs, shape.byName header ((render a).map Text.trim) = .ok (cells a)) :
    ((fmt.readShaped shape (delimiterByte path)
      (fmt.writeTable (delimiterFor path) header (rs.map render)).toUTF8.toList).map
        (·.map ofCells)).mapError TableIoError.delimited = .ok rs := by
  rw [delimiterByte_eq, laws.read_write shape header rs render cells (separates_delimiterFor path)
    hshape hascii (by rw [hheader]; exact hcells)]
  have hrecords : (rs.map cells).map ofCells = rs := by
    rw [List.map_map]
    exact List.map_id'' hback rs
  exact congrArg Except.ok hrecords

theorem readFeatureValues_plain {path : String} {input : List UInt8} {vs : List FeatureValue}
    (h : fmt.readFeatureValues path input = .ok vs) : ∀ v ∈ vs, v.Plain :=
  laws.forall_mem_of_read (fun _ => featureOfCells_plain) h

theorem readFeatureValues_writeFeatureValues (path : String) (vs : List FeatureValue)
    (hvs : ∀ v ∈ vs, v.Plain) :
    fmt.readFeatureValues path (fmt.writeFeatureValues path vs).toUTF8.toList = .ok vs := by
  refine laws.read_write_records path featureShape _ vs _
    (fun v => [.text v.feature, .text v.sample, .count v.count]) featureOfCells (fun _ => rfl)
    (by decide) (by simp) ⟨'f', _, rfl, by decide⟩ ?_
  intro v hv
  obtain ⟨hf, hs, hn⟩ := hvs v hv
  rw [List.map_cons, List.map_cons, List.map_singleton, hf, hs, trim_toString]
  exact featureShape_byName _ _ _ hn

theorem readThresholds_trimmed {path : String} {input : List UInt8} {rs : List ThresholdRecord}
    (h : fmt.readThresholds path input = .ok rs) : ∀ r ∈ rs, r.Trimmed :=
  laws.forall_mem_of_read (fun _ => thresholdOfCells_trimmed) h

theorem readThresholds_writeThresholds (path : String) (rs : List ThresholdRecord)
    (hrs : ∀ r ∈ rs, r.Trimmed) :
    fmt.readThresholds path (fmt.writeThresholds path rs).toUTF8.toList = .ok rs := by
  refine laws.read_write_records path thresholdShape _ rs _
    (fun r => [.text r.sample, .text r.channel, .float r.value]) thresholdOfCells (fun _ => rfl)
    (by decide) (by simp) ⟨'s', _, rfl, by decide⟩ ?_
  intro r hr
  obtain ⟨hs, hc⟩ := hrs r hr
  rw [List.map_cons, List.map_cons, List.map_singleton, hs, hc]
  exact thresholdShape_byName _ _ _ _ (laws.readFloat_render r.value)

/-- Record files read back what was written exactly when no identifier has a blank at either
end. -/
theorem records_read_back_iff_trimmed (path : String) :
    (∀ vs : List FeatureValue,
      fmt.readFeatureValues path (fmt.writeFeatureValues path vs).toUTF8.toList = .ok vs ↔
        ∀ v ∈ vs, v.Plain) ∧
    ∀ rs : List ThresholdRecord,
      fmt.readThresholds path (fmt.writeThresholds path rs).toUTF8.toList = .ok rs ↔
        ∀ r ∈ rs, r.Trimmed :=
  ⟨fun vs => ⟨laws.readFeatureValues_plain, laws.readFeatureValues_writeFeatureValues path vs⟩,
    fun rs => ⟨laws.readThresholds_trimmed, laws.readThresholds_writeThresholds path rs⟩⟩

end RecordFormat.Laws

/-- The libraries as this program has them keep the laws: the reader's trimming and count
reading, the writer's quoting read back by the reader, and the shortest float notation read
back by the float reader. -/
theorem RecordFormat.standard_laws : RecordFormat.standard.Laws where
  read_plain := readShaped_plain
  read_write shape header rows render cells hsep hshape hascii hcells := by
    obtain ⟨c, cs, hc, hlt⟩ := hascii
    obtain ⟨f, fs, rfl⟩ := List.exists_cons_of_ne_nil (hshape header List.mem_cons_self).2.1
    exact readShaped_writeTable hsep shape (f :: fs) rows render cells hshape
      (writeRecord_head_ascii _ fs hc hlt) hcells
  readFloat_render := Decimal.readFloat_trim_render_table

/-- Record files read back what was written exactly when no identifier has a blank at either
end: the reader trims every field while the writer writes each one as it is. A feature-value
file reads back as its values exactly when they are plain; a threshold file whose values read
back from their table notation reads back as its thresholds exactly when they are trimmed. -/
theorem written_records_read_back_iff_trimmed (path : String) :
    (∀ vs : List FeatureValue,
      readFeatureValues path (writeFeatureValues path vs).toUTF8.toList = .ok vs ↔ ∀ v ∈ vs, v.Plain) ∧
    ∀ rs : List ThresholdRecord,
      (∀ r ∈ rs, Decimal.readFloat (Text.trim (Decimal.Notation.table.render r.value)) = .ok r.value) →
      (readThresholds path (writeThresholds path rs).toUTF8.toList = .ok rs ↔ ∀ r ∈ rs, r.Trimmed) :=
  ⟨(RecordFormat.standard_laws.records_read_back_iff_trimmed path).1,
    fun rs _ => (RecordFormat.standard_laws.records_read_back_iff_trimmed path).2 rs⟩

/-- The table notation of every value reads back, here of one threshold of a half. -/
theorem written_records_read_back_iff_trimmed_half :
    let rs : List ThresholdRecord := [⟨"S", "A", 0.5⟩]
    (∀ r ∈ rs, Decimal.readFloat (Text.trim (Decimal.Notation.table.render r.value)) = .ok r.value) ∧
      (readThresholds "t.tsv" (writeThresholds "t.tsv" rs).toUTF8.toList = .ok rs ↔
        ∀ r ∈ rs, r.Trimmed) := by
  intro rs
  have hvalues : ∀ r ∈ rs, Decimal.readFloat (Text.trim (Decimal.Notation.table.render r.value)) =
      .ok r.value := fun r _ => Decimal.readFloat_trim_render_table r.value
  exact ⟨hvalues, (written_records_read_back_iff_trimmed "t.tsv").2 rs hvalues⟩

/-- A channel ending in a line break is written quoted and read back without it. -/
theorem threshold_channel_newline_not_read_back :
    readThresholds "t.tsv" (writeThresholds "t.tsv" [⟨"S", "A\n", 2.0⟩]).toUTF8.toList ≠
      .ok [⟨"S", "A\n", 2.0⟩] := by
  intro h
  have htrim : Text.trim "A\n" ≠ "A\n" := by decide
  exact htrim (RecordFormat.standard_laws.readThresholds_trimmed h ⟨"S", "A\n", 2.0⟩
    (List.mem_singleton_self _)).2

theorem readIntensity_ok {path : String} {input : List UInt8} {sample : String}
    {expected : Nat} {t : IntensityTable}
    (h : readIntensity path input sample expected = .ok t) :
    t.rows.length = expected ∧ t.sample = sample := by
  unfold readIntensity at h
  simp only [bind, Except.bind] at h
  -- every branch but the last fails before the table is made
  repeat' split at h
  all_goals first
    | cases h
    | exact IntensityTable.make_ok (DelimitedText.mapError_eq_ok h)

end Files

end Phenotyping
