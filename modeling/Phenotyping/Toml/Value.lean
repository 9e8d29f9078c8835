/-! # TOML values

A document is read into a tree of items. Every value remembers where it stands in the text,
and so does a table that a header names, so that a setting of the wrong kind can be shown in
place; keys remember where they stand too. Dates and times are kept as their text:
configuration reads none of them, but a document that holds one must be well formed.
-/
namespace Phenotyping.Toml
set_option autoImplicit false

/-- A stretch of the document, in bytes from its start: from `start` up to `stop`. -/
structure Span where
  start : Nat
  stop : Nat
  deriving DecidableEq, Repr, Inhabited

/-- A key: its name (escapes resolved), and where its text stands. -/
structure Key where
  name : String
  span : Span
  deriving DecidableEq, Repr, Inhabited

/-- A value that holds no other. -/
inductive Scalar where
  | string (s : String)
  | integer (i : Int)
  | float (x : Float)
  | boolean (b : Bool)
  | datetime (text : String)
  deriving Inhabited

/-- An item of a read document. -/
inductive Item where
  | scalar (v : Scalar) (span : Span)
  | array (items : List Item) (span : Option Span)
  | table (entries : List (Key × Item)) (span : Option Span)
  deriving Inhabited

def Item.span? : Item → Option Span
  | .scalar _ s => some s
  | .array _ s => s
  | .table _ s => s

/-- The kind of a value as errors name it; a table among values is an inline table. -/
def Item.typeName : Item → String
  | .scalar (.string _) _ => "string"
  | .scalar (.integer _) _ => "integer"
  | .scalar (.float _) _ => "float"
  | .scalar (.boolean _) _ => "boolean"
  | .scalar (.datetime _) _ => "datetime"
  | .array _ _ => "array"
  | .table _ _ => "inline table"

end Phenotyping.Toml
