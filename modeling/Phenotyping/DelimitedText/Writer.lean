/-! # Writing delimited text

A field is written as it is unless it holds the delimiter, a quote, a line feed or a carriage
return; then it is put in quotes with every inner quote doubled. Fields are joined by the
delimiter and each record ends with a line feed. A record of one empty field is written `""`
so that it is not an empty line.
-/
namespace Phenotyping.DelimitedText
set_option autoImplicit false

def needsQuotes (delim : Char) (field : String) : Bool :=
  field.toList.any fun c => c = delim || c = '"' || c = '\n' || c = '\r'

def writeField (delim : Char) (field : String) : String :=
  if needsQuotes delim field then
    "\"" ++ String.join (field.toList.map fun c => if c = '"' then "\"\"" else String.singleton c) ++ "\""
  else field

def writeRecord (delim : Char) (fields : List String) : String :=
  if fields = [""] then "\"\"\n"
  else (String.singleton delim).intercalate (fields.map (writeField delim)) ++ "\n"

/-- A header and rows as written; no rows give an empty text, without the header. -/
def writeTable (delim : Char) (header : List String) (rows : List (List String)) : String :=
  if rows = [] then "" else String.join ((header :: rows).map (writeRecord delim))

end Phenotyping.DelimitedText
