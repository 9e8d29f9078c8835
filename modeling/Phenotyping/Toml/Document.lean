import Phenotyping.Toml.Lexical
/-! # TOML documents

A document is a sequence of lines: blank lines, comments, key-value pairs and table headers.
It is read into a tree of tables. A `[a.b]` header opens a section for table `b` inside `a`,
and `[[a.b]]` one for a new last table of the array `b`; a section's table is put into the
tree when the next header comes or the document ends. A key-value pair sets a key in the
section's table, a dotted key going through or making tables on its way.

Tables remember whether they are only implied so far (made on the way by a longer header or
by dotted keys) and whether dotted keys made them. A header may open a table only if it is
new or implied by headers alone; a dotted key may go through a table only if it is implied,
and must end in a table that dotted keys made; a path through an array of tables goes into
its last table; nothing goes through a value. Inside an inline table its own dotted keys
follow the same rules, and may not go into an inline table written out as a value. Arrays
and inline tables may be nested fewer than eighty deep.

A breach of these rules fails where its line (or the inline table's pairs) begins, with the
rule as its cause; a header's failures are labelled `table header`.
-/
namespace Phenotyping.Toml
set_option autoImplicit false

open Parse

/-- A table under construction. -/
inductive Node where
  | value (v : Item)
  | table (implicit dotted : Bool) (span : Option Span) (entries : List (Key × Node))
  | tables (items : List (Option Span × List (Key × Node)))
  deriving Inhabited

abbrev Entries := List (Key × Node)

def lookupNode (es : Entries) (name : String) : Option Node :=
  (es.find? (·.1.name == name)).map (·.2)

def setEntry (k : Key) (n : Node) : Entries → Entries
  | [] => [(k, n)]
  | (k', n') :: es => if k'.name = k.name then (k', n) :: es else (k', n') :: setEntry k n es

/-! ## Breaches -/

def dottedNames (ks : List Key) : String := ".".intercalate (ks.map (·.name))

def literalKey (name : String) : Bool :=
  let cs := name.toList
  cs.any (fun c => c = '"' || c = '\\') &&
  cs.all (fun c => c = '\t' || (c.toNat ≥ 0x20 && c.toNat ≠ 0x7F && c ≠ '\''))

def keyText (name : String) : String :=
  if !name.isEmpty && name.toList.all (fun c => c.toNat < 128 && isUnquoted (ascii c)) then name
  else if literalKey name then "'" ++ name ++ "'"
  else
    let escape (c : Char) : String :=
      if c = '\x08' then "\\b" else if c = '\t' then "\\t" else if c = '\n' then "\\n"
      else if c = '\x0c' then "\\f" else if c = '\r' then "\\r" else if c = '"' then "\\\""
      else if c = '\\' then "\\\\"
      else if c.toNat < 0x20 || c.toNat = 0x7F then
        "\\u" ++ String.ofList ((Nat.toDigits 16 c.toNat).map Char.toUpper |>.reverse |>.rightpad 4 '0' |>.reverse)
      else c.toString
    "\"" ++ String.join (name.toList.map escape) ++ "\""

def duplicateKey (path : List Key) (i : Nat) : String :=
  let k := keyText ((path[i]?).map (·.name) |>.getD "")
  let place := if i = 0 then "document root" else s!"table `{dottedNames (path.take i)}`"
  s!"duplicate key `{k}` in {place}"

def duplicateKeyIn (name : String) (table : List Key) : String :=
  let place := if table.isEmpty then "document root" else s!"table `{dottedNames table}`"
  s!"duplicate key `{name}` in {place}"

def duplicateKeyHere (name : String) : String := s!"duplicate key `{name}`"

def extendWrongType (path : List Key) (i : Nat) (actual : String) : String :=
  s!"dotted key `{dottedNames (path.take (i + 1))}` attempted to extend non-table type ({actual})"

/-! ## The tree -/

def descend {α : Type} (dotted : Bool) (path : List Key) (f : Bool → Entries → Except String (Entries × α)) :
    List Key → Nat → Bool → Entries → Except String (Entries × α)
  | [], _, d, es => f d es
  | k :: ks, i, _, es =>
    match lookupNode es k.name with
    | none => do
      let (inner, a) ← descend dotted path f ks (i + 1) dotted []
      pure (setEntry k (.table true dotted none inner) es, a)
    | some (.value v) => .error (extendWrongType path i v.typeName)
    | some (.tables items) =>
      match items.getLast? with
      | none => .error (duplicateKey path i)
      | some (span, last) => do
        let (inner, a) ← descend dotted path f ks (i + 1) false last
        pure (setEntry k (.tables (items.dropLast ++ [(span, inner)])) es, a)
    | some (.table imp d span inner) =>
      if dotted && !imp then .error (duplicateKeyHere k.name)
      else do
        let (inner, a) ← descend dotted path f ks (i + 1) d inner
        pure (setEntry k (.table imp d span inner) es, a)

/-- Sets `path.key = value` in a section's table (`table` is the section's header path).
The table the path ends at must have been made by dotted keys exactly when the path is not
empty, and may not hold the key yet. -/
def setKey (table path : List Key) (key : Key) (v : Item) (es : Entries) : Except String Entries :=
  (descend true path (fun d t =>
    if d == path.isEmpty then .error (duplicateKeyHere key.name)
    else if (lookupNode t key.name).isSome then .error (duplicateKeyIn key.name table)
    else .ok (t ++ [(key, .value v)], ())) path 0 false es).map (·.1)

/-- Opens the table of a `[path]` header: a table implied by headers alone is taken out of
the tree with its entries, to be put back when the section ends; an absent one starts
empty; anything else is already defined. -/
def openTable (path : List Key) (root : Entries) : Except String (Entries × Entries) :=
  match path.getLast? with
  | none => .error (duplicateKey path 0)
  | some k =>
    descend false path (fun _ es =>
      let rest := es.filter (·.1.name != k.name)
      match lookupNode es k.name with
      | none => .ok (es, [])
      | some (.table true false _ inner) => .ok (rest, inner)
      | some _ => .error (duplicateKey path (path.length - 1))) path.dropLast 0 false root

/-- Opens a `[[path]]` header: the key must be absent (an empty array of tables is put
there) or an array of tables. -/
def openArrayTable (path : List Key) (root : Entries) : Except String Entries :=
  match path.getLast? with
  | none => .error (duplicateKey path 0)
  | some k =>
    (descend false path (fun _ es => match lookupNode es k.name with
      | none => .ok (es ++ [(k, .tables [])], ())
      | some (.tables _) => .ok (es, ())
      | some _ => .error (duplicateKey path (path.length - 1))) path.dropLast 0 false root).map (·.1)

def tablesSpan (items : List (Option Span × Entries)) : Option Span :=
  match items.head?.bind (·.1), items.getLast?.bind (·.1) with
  | some first, some last => some ⟨first.start, last.stop⟩
  | _, _ => none

mutual
def Node.toItem : Node → Item
  | .value v => v
  | .table _ _ span es => .table (entriesToItems es) span
  | .tables items => .array (tablesToItems items) (tablesSpan items)

def entriesToItems : Entries → List (Key × Item)
  | [] => []
  | (k, n) :: es => (k, n.toItem) :: entriesToItems es

def tablesToItems : List (Option Span × Entries) → List Item
  | [] => []
  | (span, es) :: items => .table (entriesToItems es) span :: tablesToItems items
end

/-- Goes down a dotted key inside an inline table: a missing table is made (implied and
dotted); a table can be gone through only if it is implied; a value cannot. -/
def descendInline (path : List Key) (f : Bool → Entries → Except String Entries) :
    List Key → Nat → Bool → Entries → Except String Entries
  | [], _, d, es => f d es
  | k :: ks, i, _, es =>
    match lookupNode es k.name with
    | none => do
      let inner ← descendInline path f ks (i + 1) true []
      pure (es ++ [(k, .table true true none inner)])
    | some (.table imp d span inner) =>
      if !imp then .error (duplicateKeyHere k.name)
      else do pure (setEntry k (.table imp d span (← descendInline path f ks (i + 1) d inner)) es)
    | some (.value v) => .error (extendWrongType path i v.typeName)
    | some (.tables _) => .error (duplicateKeyHere k.name)

/-- The entries of an inline table from its pairs, in order. As in a document, the table a
dotted key ends at must have been made by dotted keys, and no key is set twice. -/
def inlineEntries (kvs : List (List Key × Key × Node)) : Except String Entries :=
  kvs.foldlM (fun es (path, key, n) =>
    descendInline path (fun d t =>
      if d == path.isEmpty then .error (duplicateKeyHere key.name)
      else if (lookupNode t key.name).isSome then .error (duplicateKeyHere key.name)
      else .ok (t ++ [(key, n)])) path 0 false es) []

/-! ## Values -/

def depthLimit : Nat := 80

def comma : Parse Unit := byte (ascii ',')

def scalarNode (p : Parse Scalar) : Parse Node := do
  let (v, span) ← spanned p
  pure (.value (.scalar v span))

def asString {α : Type} (p : Parse α) : Parse α :=
  expect (.char '\'') (expect (.char '"') (label "string" p))

def deeper {α : Type} (depth : Nat) (p : Parse α) : Parse α := fun c =>
  if depthLimit ≤ depth + 1 then .error { offset := c.offset, cause := some "recursion limit exceeded", cut := true }
  else p c

mutual
/-- A value at the front, inside `depth` arrays and inline tables, chosen by its first byte.
An inline table stays a node, so that an enclosing inline table can check its dotted keys. -/
def value : Nat → Nat → Parse Node
  | 0, _ => fail
  | fuel + 1, depth => do
    let b ← peekAny
    if b == ascii '"' || b == ascii '\'' then scalarNode (Scalar.string <$> string)
    else if b == ascii '[' then do
      let (items, span) ← spanned (deeper depth (array fuel (depth + 1)))
      pure (.value (.array items (some span)))
    else if b == ascii '{' then do
      let (es, span) ← spanned (deeper depth (inlineTable fuel (depth + 1)))
      pure (.table false false (some span) es)
    else if b == ascii '+' || b == ascii '-' || isDigitByte b then
      scalarNode (orElse (Scalar.datetime <$> dateTime) (orElse (Scalar.float <$> float) (Scalar.integer <$> integer)))
    else if b == ascii '_' then scalarNode (expect (.description "leading digit") (Scalar.integer <$> integer))
    else if b == ascii '.' then scalarNode (expect (.description "leading digit") (Scalar.float <$> float))
    else if b == ascii 't' then scalarNode (asString (Scalar.boolean <$> boolean "true" true))
    else if b == ascii 'f' then scalarNode (asString (Scalar.boolean <$> boolean "false" false))
    else if b == ascii 'i' then scalarNode (asString (do literal (asciiBytes "inf"); pure (Scalar.float Binary64.infinity)))
    else if b == ascii 'n' then scalarNode (asString (do literal (asciiBytes "nan"); pure (Scalar.float Binary64.nan)))
    else asString fail

/-- An array: `[`, values separated by commas (a trailing comma allowed after at least one
value, blanks, comments and line ends around them), `]`. -/
def array : Nat → Nat → Parse (List Item)
  | 0, _ => fail
  | fuel + 1, depth => do
    byte (ascii '[')
    let items ← cutErr (arrayValues fuel depth)
    expect (.char ']') (label "array" (cutErr (byte (ascii ']'))))
    pure items

def arrayValues : Nat → Nat → Parse (List Item)
  | 0, _ => fail
  | fuel + 1, depth => do
    if (← peek) == some (ascii ']') then return []
    let items ← separated0 (arrayValue fuel depth) comma
    if !items.isEmpty then
      let _ ← opt comma
    wsCommentNewline
    pure items

def arrayValue : Nat → Nat → Parse Item
  | 0, _ => fail
  | fuel + 1, depth => do
    wsCommentNewline
    let v ← value fuel depth
    wsCommentNewline
    pure v.toItem

def inlineTable : Nat → Nat → Parse Entries
  | 0, _ => fail
  | fuel + 1, depth => do
    byte (ascii '{')
    let es ← cutErr (tryMap (inlinePairs fuel depth) inlineEntries)
    expect (.char '}') (label "inline table" (cutErr (byte (ascii '}'))))
    pure es

def inlinePairs : Nat → Nat → Parse (List (List Key × Key × Node))
  | 0, _ => fail
  | fuel + 1, depth => do
    let kvs ← separated0 (inlinePair fuel depth) comma
    ws
    pure kvs

def inlinePair : Nat → Nat → Parse (List Key × Key × Node)
  | 0, _ => fail
  | fuel + 1, depth => do
    let ks ← key
    cutErr do
      expect (.char '=') (expect (.char '.') (byte (ascii '=')))
      ws
      let v ← value fuel depth
      ws
      pure (ks.dropLast, ks.getLastD default, v)
end

/-! ## Lines -/

/-- The state of reading a document: the tree without the current section's table, that
table's entries, where its header stands (stretched to its last value), its header path
(empty before the first header), and whether it is the last table of an array. -/
structure Reading where
  root : Entries
  current : Entries
  span : Option Span
  path : List Key
  inArray : Bool

/-- Puts the current section's table into the tree: appended to its array, or in place of
the table its header implied, or as a new table. -/
def Reading.close (st : Reading) : Except String Entries :=
  match st.path.getLast? with
  | none => .ok (st.root ++ st.current)
  | some k =>
    let last := st.path.length - 1
    (descend false st.path (fun _ es => match lookupNode es k.name, st.inArray with
      | none, false => .ok (es ++ [(k, .table false false st.span st.current)], ())
      | some (.table true _ _ _), false => .ok (setEntry k (.table false false st.span st.current) es, ())
      | none, true => .ok (es ++ [(k, .tables [(st.span, st.current)])], ())
      | some (.tables items), true => .ok (setEntry k (.tables (items ++ [(st.span, st.current)])) es, ())
      | _, _ => .error (duplicateKey st.path last)) st.path.dropLast 0 false st.root).map (·.1)

def Reading.set (st : Reading) (path : List Key) (k : Key) (v : Item) : Except String Reading := do
  let current ← setKey st.path path k v st.current
  let span := match st.span, v.span? with
    | some s, some e => some ⟨s.start, e.stop⟩
    | s, _ => s
  pure { st with current, span }

def checked {α β : Type} (p : Parse α) (f : α → Except String β) : Parse β := tryMap p f

def keyvalLine (fuel : Nat) (st : Reading) : Parse Reading :=
  checked (do
    let ks ← key
    cutErr do
      expect (.char '=') (expect (.char '.') (byte (ascii '=')))
      ws
      let v ← value fuel 0
      expect (.char '#') (expect (.char '\n') lineTrailing)
      pure (ks, v.toItem))
    fun (ks, v) => st.set ks.dropLast (ks.getLastD default) v

def header (opening closing : String) : Parse (List Key × Span) := do
  let (ks, span) ← spanned do
    literal (asciiBytes opening)
    let ks ← cutErr key
    expect (.literal closing) (expect (.char '.') (cutErr (literal (asciiBytes closing))))
    pure ks
  expect (.char '#') (expect (.char '\n') (cutErr lineTrailing))
  pure (ks, span)

def headerLine (st : Reading) : Parse Reading := label "table header" do
  match ← peek2 with
  | none => fail
  | some (a, b) =>
    if a == ascii '[' && b == ascii '[' then
      checked (header "[[" "]]") fun (ks, span) => do
        let root ← openArrayTable ks (← st.close)
        pure ⟨root, [], some span, ks, true⟩
    else
      checked (header "[" "]") fun (ks, span) => do
        let (root, current) ← openTable ks (← st.close)
        pure ⟨root, current, some span, ks, false⟩

/-- One line's worth: a comment, a header, a line end or a key-value pair, chosen by the
first byte, then blanks. -/
def line (fuel : Nat) (st : Reading) : Parse Reading := do
  let b ← peekAny
  let st ← if b == ascii '#' then cutErr (do comment; lineEnding; pure st)
    else if b == ascii '[' then cutErr (headerLine st)
    else if b == 0x0A || b == 0x0D then do newline; pure st
    else cutErr (keyvalLine fuel st)
  ws
  pure st

def linesUpTo (fuel : Nat) : Nat → Reading → Parse Reading
  | 0, st => pure st
  | count + 1, st => fun c => match line fuel st c with
    | .ok (st', c') => linesUpTo fuel count st' c'
    | .error f => if f.cut then .error f else .ok (st, c)

/-- A whole document: an optional byte order mark, blanks, lines, and the end of the input. -/
def document : Parse Reading := fun c =>
  let fuel := 4 * (c.rest.length + 2)
  (do
    let _ ← opt (literal [0xEF, 0xBB, 0xBF])
    ws
    let st ← fun c => linesUpTo fuel (c.rest.length + 1) ⟨[], [], none, [], false⟩ c
    eof
    pure st) c

/-- Why a document could not be read: the failure of its reading, or a breach found when the
last section was closed. -/
inductive ReadError where
  | grammar (f : Failure)
  | closing (message : String)

def parse (text : String) : Except ReadError Item :=
  match document ⟨text.toUTF8.toList, 0⟩ with
  | .error f => .error (.grammar f)
  | .ok (st, _) => match st.close with
    | .ok root => .ok (.table (entriesToItems root) none)
    | .error m => .error (.closing m)

end Phenotyping.Toml
