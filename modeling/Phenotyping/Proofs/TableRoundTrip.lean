import Phenotyping.DelimitedText.Columns
import Phenotyping.DelimitedText.Writer
import Phenotyping.Proofs.EncodedText
/-! # Written tables read back

A table written by `writeTable` and read by `readShaped` gives back the cells of its rows,
read by header name from the trimmed fields, provided the delimiter is an ASCII character
other than the quote and the line ends, the records all have the header's length, none is the
single empty field, and the text starts with an ASCII character (so no byte order mark is
dropped).

The scanner is followed field by field: an unquoted field's bytes hold no delimiter, quote
or line end, since a character that is not ASCII encodes to bytes of at least `0x80`; a
quoted field's doubled quotes close and reopen the quoted part. Each field leaves the scanner
in a state that the next delimiter or line feed closes (`Closes`). The byte and line counts
the scanner keeps only place errors, so they are left existential.
-/
namespace Phenotyping.DelimitedText
set_option autoImplicit false

/-- A delimiter the writer and the reader agree on: an ASCII character that is neither the
quote nor a line end. -/
def Separates (delim : Char) : Prop :=
  delim.toNat < 128 ∧ delim ≠ '"' ∧ delim ≠ '\n' ∧ delim ≠ '\r'

instance (delim : Char) : Decidable (Separates delim) := by
  unfold Separates; infer_instance

def PlainByte (d b : UInt8) : Prop := b ≠ d ∧ b ≠ quoteByte ∧ isLineEnd b = false

section Steps

variable (d : UInt8) (fields : List (List UInt8)) (field : List UInt8) (c n : Nat) (b : UInt8)
  (bs : List UInt8)

theorem scan_startField_cons :
    scan d .startField fields field c n (b :: bs) =
      if b == quoteByte then scan d .inQuoted fields [] (c + 1) (if b == lineFeed then n + 1 else n) bs
      else if b == d then scan d .startField ([] :: fields) [] (c + 1)
        (if b == lineFeed then n + 1 else n) bs
      else if isLineEnd b then
        some ⟨([] :: fields).reverse, bs, b == carriageReturn, c + 1,
          if b == lineFeed then n + 1 else n⟩
      else scan d .inField fields [b] (c + 1) (if b == lineFeed then n + 1 else n) bs := by
  rfl

theorem scan_inField_cons :
    scan d .inField fields field c n (b :: bs) =
      if b == d then scan d .startField (field.reverse :: fields) [] (c + 1)
        (if b == lineFeed then n + 1 else n) bs
      else if isLineEnd b then
        some ⟨(field.reverse :: fields).reverse, bs, b == carriageReturn, c + 1,
          if b == lineFeed then n + 1 else n⟩
      else scan d .inField fields (b :: field) (c + 1) (if b == lineFeed then n + 1 else n) bs := by
  rfl

theorem scan_inQuoted_cons :
    scan d .inQuoted fields field c n (b :: bs) =
      if b == quoteByte then
        scan d .quoteInQuoted fields field (c + 1) (if b == lineFeed then n + 1 else n) bs
      else scan d .inQuoted fields (b :: field) (c + 1) (if b == lineFeed then n + 1 else n) bs := by
  rfl

theorem scan_quoteInQuoted_cons :
    scan d .quoteInQuoted fields field c n (b :: bs) =
      if b == quoteByte then
        scan d .inQuoted fields (b :: field) (c + 1) (if b == lineFeed then n + 1 else n) bs
      else if b == d then scan d .startField (field.reverse :: fields) [] (c + 1)
        (if b == lineFeed then n + 1 else n) bs
      else if isLineEnd b then
        some ⟨(field.reverse :: fields).reverse, bs, b == carriageReturn, c + 1,
          if b == lineFeed then n + 1 else n⟩
      else scan d .inField fields (b :: field) (c + 1) (if b == lineFeed then n + 1 else n) bs := by
  rfl

theorem scan_startRecord_cons (h : isLineEnd b = false) :
    scan d .startRecord fields field c n (b :: bs) = scan d .startField fields field c n (b :: bs) := by
  conv => lhs; unfold scan
  conv => rhs; unfold scan
  simp only [h, Bool.false_eq_true, if_false]

theorem scan_startRecord_nil : scan d .startRecord fields field c n [] = none := rfl

end Steps

section Fields

variable {d : UInt8} (fields : List (List UInt8))

theorem scan_inField_plain (bs rest : List UInt8) (hbs : ∀ b ∈ bs, PlainByte d b)
    (acc : List UInt8) (c n : Nat) :
    scan d .inField fields acc c n (bs ++ rest) =
      scan d .inField fields (bs.reverse ++ acc) (c + bs.length) n rest := by
  induction bs generalizing acc c with
  | nil => rfl
  | cons b bs ih =>
    obtain ⟨hd, hq, hend⟩ := hbs b List.mem_cons_self
    have hlf : (b == lineFeed) = false := by
      simp only [isLineEnd, Bool.or_eq_false_iff] at hend
      exact hend.1
    rw [List.cons_append, scan_inField_cons, if_neg (by simpa using hd), hend, hlf,
      if_neg Bool.false_ne_true, if_neg Bool.false_ne_true,
      ih (fun x hx => hbs x (List.mem_cons_of_mem _ hx))]
    simp [Nat.add_assoc, Nat.add_comm 1]

theorem scan_inQuoted_unquoted (bs rest : List UInt8) (hbs : ∀ b ∈ bs, b ≠ quoteByte)
    (acc : List UInt8) (c n : Nat) :
    ∃ n', scan d .inQuoted fields acc c n (bs ++ rest) =
      scan d .inQuoted fields (bs.reverse ++ acc) (c + bs.length) n' rest := by
  induction bs generalizing acc c n with
  | nil => exact ⟨n, rfl⟩
  | cons b bs ih =>
    have hq : (b == quoteByte) = false := by simpa using hbs b List.mem_cons_self
    obtain ⟨n', h⟩ := ih (fun x hx => hbs x (List.mem_cons_of_mem _ hx)) (b :: acc) (c + 1)
      (if b == lineFeed then n + 1 else n)
    refine ⟨n', ?_⟩
    rw [List.cons_append, scan_inQuoted_cons, hq, if_neg Bool.false_ne_true, h]
    simp [Nat.add_assoc, Nat.add_comm 1]

theorem scan_inQuoted_escaped (cs : List Char) (rest acc : List UInt8) (c n : Nat) :
    ∃ c' n', scan d .inQuoted fields acc c n
      ((String.join (cs.map fun x => if x = '"' then "\"\"" else String.singleton x)).toList.flatMap
        String.utf8EncodeChar ++ rest) =
      scan d .inQuoted fields ((cs.flatMap String.utf8EncodeChar).reverse ++ acc) c' n' rest := by
  induction cs generalizing acc c n with
  | nil => exact ⟨c, n, rfl⟩
  | cons x xs ih =>
    simp only [List.map_cons, String.join_cons, String.toList_append, List.flatMap_append,
      List.append_assoc, List.flatMap_cons, List.reverse_append]
    by_cases hx : x = '"'
    · -- a quote is written twice: the first closes the quoted part, the second reopens it
      subst hx
      obtain ⟨c', n', h⟩ := ih (34 :: acc) (c + 2) n
      refine ⟨c', n', ?_⟩
      have hbytes : (String.toList "\"\"").flatMap String.utf8EncodeChar = [34, 34] := by decide
      have hquote : String.utf8EncodeChar '"' = [34] := by decide
      have hq : ((34 : UInt8) == quoteByte) = true := rfl
      have hlf : ((34 : UInt8) == lineFeed) = false := rfl
      rw [if_pos rfl, hbytes, List.cons_append, List.cons_append, List.nil_append,
        scan_inQuoted_cons, if_pos hq, hlf, scan_quoteInQuoted_cons, if_pos hq, hlf]
      simpa [hquote, Nat.add_assoc] using h
    · have hne : ∀ b ∈ String.utf8EncodeChar x, b ≠ quoteByte :=
        fun b hb => Text.utf8EncodeChar_byte_ne x '"' (by decide) hx b hb
      rw [if_neg hx, String.toList_singleton, List.flatMap_singleton]
      obtain ⟨n₁, h₁⟩ := scan_inQuoted_unquoted fields (String.utf8EncodeChar x) _ hne acc c n
      obtain ⟨c', n', h⟩ := ih ((String.utf8EncodeChar x).reverse ++ acc)
        (c + (String.utf8EncodeChar x).length) n₁
      refine ⟨c', n', ?_⟩
      rw [h₁, h]

end Fields

theorem chars_of_needsQuotes_false {delim : Char} {f : String} (h : needsQuotes delim f = false) (x : Char)
    (hx : x ∈ f.toList) : x ≠ delim ∧ x ≠ '"' ∧ x ≠ '\n' ∧ x ≠ '\r' := by
  simp only [needsQuotes, List.any_eq_false, Bool.or_eq_true, decide_eq_true_eq] at h
  have := h x hx
  exact ⟨fun e => this (Or.inl (Or.inl (Or.inl e))), fun e => this (Or.inl (Or.inl (Or.inr e))),
    fun e => this (Or.inl (Or.inr e)), fun e => this (Or.inr e)⟩

theorem length_le_length_writeRecords {delim : Char} (recs : List (List String)) :
    recs.length ≤ (recs.flatMap fun r => (writeRecord delim r).toList.flatMap String.utf8EncodeChar).length := by
  induction recs with
  | nil => simp
  | cons r rs ih =>
    -- every record ends with a line feed, so it has at least one byte
    have hne : (writeRecord delim r).toList.flatMap String.utf8EncodeChar ≠ [] := by
      have hchars : (writeRecord delim r).toList ≠ [] := by
        unfold writeRecord
        split
        · exact fun h => by simp at h
        · simp
      obtain ⟨x, xs, hx⟩ := List.exists_cons_of_ne_nil hchars
      rw [hx, List.flatMap_cons]
      exact List.append_ne_nil_of_left_ne_nil String.utf8EncodeChar_ne_nil _
    rw [List.flatMap_cons, List.length_append, List.length_cons]
    have := List.length_pos_iff.mpr hne
    omega

theorem writeTable_bytes {delim : Char} (header : List String) (rows : List (List String)) (hrows : rows ≠ []) :
    (writeTable delim header rows).toUTF8.toList =
      (header :: rows).flatMap fun r => (writeRecord delim r).toList.flatMap String.utf8EncodeChar := by
  rw [writeTable, if_neg hrows, Text.toUTF8_toList, String.toList_join, List.flatMap_assoc,
    List.flatMap_map]

theorem decodeFields_encoded (r : RawRecord) (fs : List String)
    (h : r.fields = fs.map fun f => f.toList.flatMap String.utf8EncodeChar) :
    decodeFields r = .ok fs := by
  unfold decodeFields
  rw [h]
  clear h
  -- the field index only names a failure, and no field fails
  generalize 0 = i
  induction fs generalizing i with
  | nil => rfl
  | cons f fs ih =>
    rw [List.map_cons, decodeFields.go, ← Text.toUTF8_toList, Text.decodeUtf8_toUTF8]
    dsimp only
    rw [ih]
    rfl

theorem readShaped_go_encoded {α : Type} (shape : Shape) (header : List String) (rows : List α)
    (render : α → List String) (cells : α → List Cell)
    (hcells : ∀ a ∈ rows, shape.byName header ((render a).map Text.trim) = .ok (cells a))
    (rs : List RawRecord)
    (hrs : rs.map (·.fields) = rows.map fun a => (render a).map fun f => f.toList.flatMap String.utf8EncodeChar) :
    readShaped.go shape none (some header) rs = .ok (rows.map cells) := by
  induction rows generalizing rs with
  | nil =>
    cases rs with
    | nil => rfl
    | cons _ _ => simp at hrs
  | cons r rows ih =>
    cases rs with
    | nil => simp at hrs
    | cons x xs =>
      simp only [List.map_cons, List.cons.injEq] at hrs
      have hdecode := decodeFields_encoded x (render r) hrs.1
      have hrow := hcells r List.mem_cons_self
      have hrest := ih (fun r' hr' => hcells r' (List.mem_cons_of_mem _ hr')) xs hrs.2
      simp only [readShaped.go, hdecode, bind, Except.bind, hrow, hrest, pure, Except.pure,
        List.map_cons]
      rfl

/-- The states a field can end in: right after its start when it is empty, inside an unquoted
field, or after a quoted field's closing quote. A delimiter or a line feed closes each. -/
def Closes (st : Scan) (acc : List UInt8) : Prop :=
  (st = .startField ∧ acc = []) ∨ st = .inField ∨ st = .quoteInQuoted

section Delimiter

variable {delim : Char} (hsep : Separates delim)
include hsep

theorem Separates.byte_ne (a : Char) (ha : a.toNat < 128) (hne : delim ≠ a) :
    UInt8.ofNat delim.toNat ≠ UInt8.ofNat a.toNat :=
  Text.utf8EncodeChar_byte_ne delim a ha hne _ (by rw [Text.utf8EncodeChar_of_lt delim hsep.1]; simp)

theorem Separates.ne_quote : UInt8.ofNat delim.toNat ≠ quoteByte :=
  hsep.byte_ne '"' (by decide) hsep.2.1

theorem Separates.not_lineEnd : isLineEnd (UInt8.ofNat delim.toNat) = false := by
  have hlf := hsep.byte_ne '\n' (by decide) hsep.2.2.1
  have hcr := hsep.byte_ne '\r' (by decide) hsep.2.2.2
  simp only [isLineEnd, Bool.or_eq_false_iff, beq_eq_false_iff_ne]
  exact ⟨hlf, hcr⟩

theorem Separates.plainByte (x : Char) (hd : x ≠ delim) (hq : x ≠ '"') (hlf : x ≠ '\n')
    (hcr : x ≠ '\r') (b : UInt8) (hb : b ∈ String.utf8EncodeChar x) :
    PlainByte (UInt8.ofNat delim.toNat) b := by
  refine ⟨Text.utf8EncodeChar_byte_ne x delim hsep.1 hd b hb,
    Text.utf8EncodeChar_byte_ne x '"' (by decide) hq b hb, ?_⟩
  simp only [isLineEnd, Bool.or_eq_false_iff, beq_eq_false_iff_ne]
  exact ⟨Text.utf8EncodeChar_byte_ne x '\n' (by decide) hlf b hb,
    Text.utf8EncodeChar_byte_ne x '\r' (by decide) hcr b hb⟩

theorem scan_delimiter_of_closes {st : Scan} {acc : List UInt8} (h : Closes st acc)
    (fields : List (List UInt8)) (c n : Nat) (rest : List UInt8) :
    scan (UInt8.ofNat delim.toNat) st fields acc c n (UInt8.ofNat delim.toNat :: rest) =
      scan (UInt8.ofNat delim.toNat) .startField (acc.reverse :: fields) [] (c + 1) n rest := by
  have hq : (UInt8.ofNat delim.toNat == quoteByte) = false := by simpa using hsep.ne_quote
  have hlf : (UInt8.ofNat delim.toNat == lineFeed) = false := by
    have := hsep.not_lineEnd
    simp only [isLineEnd, Bool.or_eq_false_iff] at this
    exact this.1
  rcases h with ⟨rfl, rfl⟩ | rfl | rfl
  · simp [scan_startField_cons, hq, hlf]
  · simp [scan_inField_cons, hlf]
  · simp [scan_quoteInQuoted_cons, hq, hlf]

theorem scan_lineFeed_of_closes {st : Scan} {acc : List UInt8} (h : Closes st acc)
    (fields : List (List UInt8)) (c n : Nat) (rest : List UInt8) :
    scan (UInt8.ofNat delim.toNat) st fields acc c n (lineFeed :: rest) =
      some ⟨(acc.reverse :: fields).reverse, rest, false, c + 1, n + 1⟩ := by
  have hd : (lineFeed == UInt8.ofNat delim.toNat) = false := by
    have := hsep.not_lineEnd
    simp only [isLineEnd, Bool.or_eq_false_iff, beq_eq_false_iff_ne] at this ⊢
    exact fun e => this.1 e.symm
  have hq : (lineFeed == quoteByte) = false := rfl
  have hend : isLineEnd lineFeed = true := rfl
  have hcr : (lineFeed == carriageReturn) = false := rfl
  rcases h with ⟨rfl, rfl⟩ | rfl | rfl
  · simp [scan_startField_cons, hq, hd, hend, hcr]
  · simp [scan_inField_cons, hd, hend, hcr]
  · simp [scan_quoteInQuoted_cons, hq, hd, hend, hcr]

theorem scan_writeField (f : String) (fields : List (List UInt8)) (c n : Nat) (rest : List UInt8) :
    ∃ st c' n', Closes st (f.toList.flatMap String.utf8EncodeChar).reverse ∧
      scan (UInt8.ofNat delim.toNat) .startField fields [] c n
        ((writeField delim f).toList.flatMap String.utf8EncodeChar ++ rest) =
      scan (UInt8.ofNat delim.toNat) st fields (f.toList.flatMap String.utf8EncodeChar).reverse
        c' n' rest := by
  have hq : ((34 : UInt8) == quoteByte) = true := rfl
  have hlf : ((34 : UInt8) == lineFeed) = false := rfl
  have hquote : String.utf8EncodeChar '"' = [34] := by decide
  unfold writeField
  split
  · -- quoted: the opening quote, the escaped characters, the closing quote
    obtain ⟨c', n', h⟩ := scan_inQuoted_escaped (d := UInt8.ofNat delim.toNat) fields f.toList
      (34 :: rest) [] (c + 1) n
    refine ⟨.quoteInQuoted, c' + 1, n', Or.inr (Or.inr rfl), ?_⟩
    simp only [String.toList_append, List.flatMap_append, List.append_assoc,
      show (String.toList "\"") = ['"'] from rfl, List.flatMap_cons, List.flatMap_nil, hquote,
      List.append_nil, List.cons_append, List.nil_append]
    rw [scan_startField_cons, if_pos hq, hlf, if_neg Bool.false_ne_true, h, List.append_nil,
      scan_inQuoted_cons, if_pos hq, hlf, if_neg Bool.false_ne_true]
  · rename_i hneeds
    have hplain := chars_of_needsQuotes_false (Bool.eq_false_iff.mpr hneeds)
    cases hf : f.toList with
    | nil => exact ⟨.startField, c, n, Or.inl ⟨rfl, rfl⟩, rfl⟩
    | cons x xs =>
      have hbytes : ∀ b ∈ (x :: xs).flatMap String.utf8EncodeChar, PlainByte (UInt8.ofNat delim.toNat) b := by
        intro b hb
        obtain ⟨y, hy, hby⟩ := List.mem_flatMap.mp hb
        obtain ⟨h1, h2, h3, h4⟩ := hplain y (hf ▸ hy)
        exact hsep.plainByte y h1 h2 h3 h4 b hby
      obtain ⟨b₀, bs₀, hx⟩ := List.exists_cons_of_ne_nil (String.utf8EncodeChar_ne_nil (c := x))
      rw [List.flatMap_cons, hx] at hbytes ⊢
      obtain ⟨hd, hqb, hend⟩ := hbytes b₀ List.mem_cons_self
      have hlf₀ : (b₀ == lineFeed) = false := by
        simp only [isLineEnd, Bool.or_eq_false_iff] at hend
        exact hend.1
      refine ⟨.inField, c + 1 + (bs₀ ++ xs.flatMap String.utf8EncodeChar).length, n,
        Or.inr (Or.inl rfl), ?_⟩
      rw [List.cons_append, List.cons_append, scan_startField_cons,
        if_neg (by simpa using hqb), if_neg (by simpa using hd), hend, if_neg Bool.false_ne_true, hlf₀,
        if_neg Bool.false_ne_true,
        scan_inField_plain fields (bs₀ ++ xs.flatMap String.utf8EncodeChar) rest
          (fun b hb => hbytes b (List.mem_cons_of_mem _ hb))]
      simp

theorem scan_joinedFields (fs : List String) (hfs : fs ≠ []) (fields : List (List UInt8)) (c n : Nat)
    (rest : List UInt8) :
    ∃ c' n', scan (UInt8.ofNat delim.toNat) .startField fields [] c n
      (((String.singleton delim).intercalate (fs.map (writeField delim))).toList.flatMap
        String.utf8EncodeChar ++ lineFeed :: rest) =
      some ⟨fields.reverse ++ fs.map (fun f => f.toList.flatMap String.utf8EncodeChar), rest, false,
        c', n'⟩ := by
  induction fs generalizing fields c n with
  | nil => exact absurd rfl hfs
  | cons f gs ih =>
    cases gs with
    | nil =>
      obtain ⟨st, c₁, n₁, hst, hf⟩ := scan_writeField hsep f fields c n (lineFeed :: rest)
      refine ⟨c₁ + 1, n₁ + 1, ?_⟩
      rw [List.map_singleton, String.intercalate_singleton, hf, scan_lineFeed_of_closes hsep hst]
      simp
    | cons g gs =>
      -- the first field, then the delimiter, then the record's other fields
      obtain ⟨st, c₁, n₁, hst, hf⟩ := scan_writeField hsep f fields c n
        (UInt8.ofNat delim.toNat :: (((String.singleton delim).intercalate
          ((g :: gs).map (writeField delim))).toList.flatMap String.utf8EncodeChar ++ lineFeed :: rest))
      obtain ⟨c', n', h⟩ := ih (List.cons_ne_nil g gs)
        ((f.toList.flatMap String.utf8EncodeChar) :: fields) (c₁ + 1) n₁
      refine ⟨c', n', ?_⟩
      rw [List.map_cons, List.map_cons, String.intercalate_cons_cons, String.toList_append,
        String.toList_append, String.toList_singleton, List.flatMap_append, List.flatMap_append,
        List.flatMap_singleton, Text.utf8EncodeChar_of_lt delim hsep.1, List.append_assoc,
        List.append_assoc, List.singleton_append, ← List.map_cons, hf,
        scan_delimiter_of_closes hsep hst, List.reverse_reverse, h]
      simp

theorem joinedFields_head (f : String) (gs : List String) (hone : f :: gs ≠ [""]) :
    ∃ x xs, ((String.singleton delim).intercalate ((f :: gs).map (writeField delim))).toList = x :: xs ∧
      x ≠ '\n' ∧ x ≠ '\r' := by
  have hsplit : ∃ tail, ((String.singleton delim).intercalate ((f :: gs).map (writeField delim))).toList =
      (writeField delim f).toList ++ tail ∧ (gs ≠ [] → tail.head? = some delim) := by
    cases gs with
    | nil => exact ⟨[], by simp, fun h => absurd rfl h⟩
    | cons g gs =>
      refine ⟨delim :: ((String.singleton delim).intercalate ((g :: gs).map (writeField delim))).toList,
        ?_, fun _ => rfl⟩
      rw [List.map_cons, List.map_cons, String.intercalate_cons_cons, String.toList_append,
        String.toList_append, String.toList_singleton, List.append_assoc, ← List.map_cons]
      rfl
  obtain ⟨tail, htail, hhead⟩ := hsplit
  rw [htail]
  unfold writeField
  split
  · refine ⟨'"', (String.join (f.toList.map fun c => if c = '"' then "\"\"" else String.singleton c)).toList
      ++ ['"'] ++ tail, ?_, by decide, by decide⟩
    rw [String.toList_append, String.toList_append, show (String.toList "\"") = ['"'] from rfl]
    simp
  · rename_i hneeds
    cases hf : f.toList with
    | cons x xs =>
      obtain ⟨_, _, hlf, hcr⟩ := chars_of_needsQuotes_false (Bool.eq_false_iff.mpr hneeds) x (by simp [hf])
      exact ⟨x, xs ++ tail, rfl, hlf, hcr⟩
    | nil =>
      -- an empty first field is followed by the delimiter, since the record is not `[""]`
      have hgs : gs ≠ [] := by
        rintro rfl
        exact hone (by rw [String.toList_eq_nil_iff.mp hf])
      cases htl : tail with
      | nil => simp [htl] at hhead; exact absurd hhead hgs
      | cons y ys =>
        have hy : y = delim := by simpa [htl] using hhead hgs
        exact ⟨y, ys, by simp, hy ▸ hsep.2.2.1, hy ▸ hsep.2.2.2⟩

theorem scan_writeRecord (fs : List String) (hfs : fs ≠ []) (hone : fs ≠ [""]) (rest : List UInt8) :
    ∃ c' n', scan (UInt8.ofNat delim.toNat) .startRecord [] [] 0 0
      ((writeRecord delim fs).toList.flatMap String.utf8EncodeChar ++ rest) =
      some ⟨fs.map (fun f => f.toList.flatMap String.utf8EncodeChar), rest, false, c', n'⟩ := by
  obtain ⟨f, gs, rfl⟩ := List.exists_cons_of_ne_nil hfs
  obtain ⟨x, xs, hjoin, hlf, hcr⟩ := joinedFields_head hsep f gs hone
  have hnewline : String.utf8EncodeChar '\n' = [lineFeed] := by decide
  obtain ⟨b, bs, hx⟩ := List.exists_cons_of_ne_nil (String.utf8EncodeChar_ne_nil (c := x))
  have hb : isLineEnd b = false := by
    have hmem : b ∈ String.utf8EncodeChar x := by simp [hx]
    simp only [isLineEnd, Bool.or_eq_false_iff, beq_eq_false_iff_ne]
    exact ⟨Text.utf8EncodeChar_byte_ne x '\n' (by decide) hlf b hmem,
      Text.utf8EncodeChar_byte_ne x '\r' (by decide) hcr b hmem⟩
  obtain ⟨c', n', h⟩ := scan_joinedFields hsep (f :: gs) hfs [] 0 0 rest
  refine ⟨c', n', ?_⟩
  rw [writeRecord, if_neg hone, String.toList_append, List.flatMap_append, List.append_assoc,
    show (String.toList "\n") = ['\n'] from rfl, List.flatMap_singleton, hnewline,
    List.singleton_append]
  rw [hjoin, List.flatMap_cons, hx, List.cons_append, List.cons_append,
    scan_startRecord_cons _ _ _ _ _ _ _ hb, ← List.cons_append, ← List.cons_append, ← hx,
    ← List.flatMap_cons, ← hjoin, h]
  simp

theorem readFrom_writeRecords (recs : List (List String)) (k : Nat)
    (hrecs : ∀ r ∈ recs, r.length = k ∧ r ≠ [] ∧ r ≠ [""]) (fuel : Nat) (hfuel : recs.length < fuel)
    (expected : Option Nat) (hexp : ∀ e, expected = some e → e = k) (pos : Position) :
    let read := readFrom (UInt8.ofNat delim.toNat) fuel .startRecord expected pos
      (recs.flatMap fun r => (writeRecord delim r).toList.flatMap String.utf8EncodeChar)
    read.1.map (·.fields) = recs.map (·.map fun f => f.toList.flatMap String.utf8EncodeChar) ∧
      read.2 = none := by
  induction recs generalizing fuel expected pos with
  | nil =>
    obtain ⟨fuel, rfl⟩ := Nat.exists_eq_add_one_of_ne_zero (Nat.ne_zero_of_lt hfuel)
    simp [readFrom, scan_startRecord_nil]
  | cons r rs ih =>
    obtain ⟨fuel, rfl⟩ := Nat.exists_eq_add_one_of_ne_zero (Nat.ne_zero_of_lt hfuel)
    obtain ⟨hlen, hne, hone⟩ := hrecs r List.mem_cons_self
    obtain ⟨c', n', hscan⟩ := scan_writeRecord hsep r hne hone
      (rs.flatMap fun r => (writeRecord delim r).toList.flatMap String.utf8EncodeChar)
    have hrest := ih (fun x hx => hrecs x (List.mem_cons_of_mem _ hx)) fuel
      (by simpa using hfuel) (some k) (fun e he => (Option.some.inj he).symm)
    rw [List.flatMap_cons]
    cases expected with
    | none =>
      simp only [readFrom, hscan, List.length_map, hlen, Bool.false_eq_true, if_false]
      exact ⟨by simp [(hrest _).1], (hrest _).2⟩
    | some e =>
      have he : e = k := hexp e rfl
      simp only [readFrom, hscan, List.length_map, hlen, he, ne_eq, not_true_eq_false, if_false,
        Bool.false_eq_true]
      exact ⟨by simp [(hrest _).1], (hrest _).2⟩

/-- A table as written, with an ASCII first character and records all as long as its header,
reads back as its header's and rows' bytes, with no error. -/
theorem readRecords_writeTable (header : List String) (rows : List (List String)) (hrows : rows ≠ [])
    (hshape : ∀ r ∈ header :: rows, r.length = header.length ∧ r ≠ [] ∧ r ≠ [""])
    (hascii : ∃ x xs, (writeRecord delim header).toList = x :: xs ∧ x.toNat < 128) :
    ∃ h rs, readRecords (UInt8.ofNat delim.toNat) (writeTable delim header rows).toUTF8.toList =
      (h :: rs, none) ∧ h.fields = header.map (fun f => f.toList.flatMap String.utf8EncodeChar) ∧
      rs.map (·.fields) = rows.map (·.map fun f => f.toList.flatMap String.utf8EncodeChar) := by
  obtain ⟨x, xs, hx, hlt⟩ := hascii
  rw [writeTable_bytes header rows hrows]
  have hbom : ((header :: rows).flatMap fun r =>
      (writeRecord delim r).toList.flatMap String.utf8EncodeChar).take 3 ≠ byteOrderMark := by
    rw [List.flatMap_cons, hx, List.flatMap_cons, Text.utf8EncodeChar_of_lt x hlt, List.cons_append,
      List.cons_append, List.take_succ_cons]
    intro h
    have := congrArg List.head? h
    simp only [List.head?_cons, byteOrderMark, Option.some.injEq] at this
    have h239 := congrArg UInt8.toNat this
    have h239' : (239 : UInt8).toNat = 239 := rfl
    simp only [UInt8.toNat_ofNat', h239'] at h239
    omega
  unfold readRecords
  rw [if_neg hbom]
  dsimp only
  obtain ⟨hfields, hstop⟩ := readFrom_writeRecords hsep (header :: rows) header.length hshape _
    (Nat.lt_succ_of_le (length_le_length_writeRecords (header :: rows))) none
    (fun e he => by cases he) ⟨0, 1, 0⟩
  generalize readFrom _ _ _ _ _ _ = read at hfields hstop ⊢
  obtain ⟨recs, stop⟩ := read
  cases recs with
  | nil => simp at hfields
  | cons h rs =>
    simp only [List.map_cons, List.cons.injEq] at hfields
    exact ⟨h, rs, by simp only at hstop; rw [hstop], hfields.1, hfields.2⟩

/-- A table as written reads back, by header name and with every field trimmed, as the cells
its rows give. -/
theorem readShaped_writeTable {α : Type} (shape : Shape) (header : List String) (rows : List α)
    (render : α → List String) (cells : α → List Cell)
    (hshape : ∀ r ∈ header :: rows.map render, r.length = header.length ∧ r ≠ [] ∧ r ≠ [""])
    (hascii : ∃ x xs, (writeRecord delim header).toList = x :: xs ∧ x.toNat < 128)
    (hcells : ∀ a ∈ rows, shape.byName (header.map Text.trim) ((render a).map Text.trim) = .ok (cells a)) :
    readShaped shape (UInt8.ofNat delim.toNat) (writeTable delim header (rows.map render)).toUTF8.toList =
      .ok (rows.map cells) := by
  by_cases hrows : rows = []
  · subst hrows
    rw [List.map_nil, writeTable, if_pos rfl, Text.toUTF8_toList, String.toList_empty, List.flatMap_nil]
    rfl
  · obtain ⟨h, rs, hread, hh, hrs⟩ := readRecords_writeTable hsep header (rows.map render)
      (by simpa using hrows) hshape hascii
    unfold readShaped
    rw [hread]
    simp only [decodeFields_encoded h header hh, Except.toOption, Option.map_some]
    exact readShaped_go_encoded shape _ rows render cells hcells rs (by rw [hrs, List.map_map]; rfl)

end Delimiter

end Phenotyping.DelimitedText
