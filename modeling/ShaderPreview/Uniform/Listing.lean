import ShaderPreview.Uniform.Basic

/-!
# Listings of uniforms

The uniforms of a shader as a table with aligned columns, or as JSON.  The names are words, so that no
character of them needs an escape in JSON.

* `Listing.row`, `Listing.table`: the table;
* `Listing.json`: the JSON text.
-/

namespace ShaderPreview

/-- The text with blanks behind it, up to the given width. -/
def paddedText (width : Nat) (s : String) : String :=
  s ++ String.ofList (List.replicate (width - s.length) ' ')

namespace Listing

/-- The text of a control's first value. -/
def initialText (kind : ControlKind) : String :=
  match kind.initial.written with
  | .ok text => text
  | .error fault => fault.message

/-- The length of the longest name. -/
def nameWidth (us : List Uniform) : Nat :=
  (us.map fun u => u.name.length).foldl max 0

/-- The line of a uniform: name, kind and first value in columns. -/
def row (width : Nat) (u : Uniform) : String :=
  paddedText width u.name ++ "  " ++ paddedText 5 u.kind.name ++ "  " ++ initialText u.kind

/-- The lines of all uniforms, or a remark that there are none. -/
def table (us : List Uniform) : String :=
  if us.isEmpty then "No uniforms detected"
  else "\n".intercalate (us.map (row (nameWidth us)))

/-- A text in JSON that needs no escape. -/
def jsonText (s : String) : String :=
  "\"" ++ s ++ "\""

/-- Items in JSON between brackets, one on a line and indented by two more blanks. -/
def jsonItems (opening closing pad : String) (items : List String) : String :=
  if items.isEmpty then opening ++ closing
  else
    let inner := pad ++ "  "
    opening ++ "\n" ++ inner ++ (",\n" ++ inner).intercalate items ++ "\n" ++ pad ++ closing

mutual

/-- A value in JSON, whose lines but the first are indented by `pad`. -/
def jsonValue (pad : String) : Value → String
  | .null => "null"
  | .bool true => "true"
  | .bool false => "false"
  | .int n => Decimal.intText n
  | .float x => Double.text x
  | .text s => jsonText s
  | .list vs => jsonItems "[" "]" pad (jsonValues (pad ++ "  ") vs)

/-- Several values in JSON. -/
def jsonValues (pad : String) : List Value → List String
  | [] => []
  | v :: vs => jsonValue pad v :: jsonValues pad vs

end

/-- A uniform in JSON, indented by `pad`. -/
def jsonUniform (pad : String) (u : Uniform) : String :=
  jsonItems "\x7b" "\x7d" pad
    ["\"name\": " ++ jsonText u.name,
     "\"type\": " ++ jsonText u.kind.name,
     "\"default\": " ++ jsonValue (pad ++ "  ") u.kind.initial]

/-- All uniforms in JSON. -/
def json (us : List Uniform) : String :=
  jsonItems "[" "]" "" (us.map (jsonUniform "  "))

end Listing
end ShaderPreview
