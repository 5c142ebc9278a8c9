import ShaderPreview.Value

/-!
# Kinds of controls

The kinds of controls that a uniform can have.  A texture is an image, whatever else its declaration
says; a colour annotation makes a colour of anything else, even of a single number; otherwise the
declared type decides.

* `ControlKind`: the seven kinds;
* `ControlKind.ofDeclared`: the kind of a declaration;
* `ControlKind.initial`: the value a new control starts with;
* `ControlKind.ofValue`: the kind that a value names.
-/

namespace ShaderPreview

/-- The kind of control a uniform has. -/
inductive ControlKind where
  | float
  | int
  | vec2
  | vec3
  | color
  | bool
  | image
  deriving DecidableEq, Repr

namespace ControlKind

/-- All kinds. -/
def all : List ControlKind := [float, int, vec2, vec3, color, bool, image]

/-- The name of a kind. -/
def name : ControlKind → String
  | float => "float"
  | int => "int"
  | vec2 => "vec2"
  | vec3 => "vec3"
  | color => "color"
  | bool => "bool"
  | image => "image"

/-- The kind with a given name. -/
def ofName? (s : String) : Option ControlKind :=
  all.find? fun t => t.name == s

/-- The kind of a declared type on its own; four components are a colour, and a type that is not
known counts as a single number. -/
def ofType (type : String) : ControlKind :=
  match type with
  | "int" => int
  | "bool" => bool
  | "vec2" | "half2" => vec2
  | "vec3" | "half3" => vec3
  | "vec4" | "half4" => color
  | _ => float

/-- The kind of a declaration with the given type, annotated as a colour or not. -/
def ofDeclared (type : String) (annotated : Bool) : ControlKind :=
  if type = "shader" ∨ type = "sampler2D" then image
  else if annotated then color
  else ofType type

/-- The value a new control starts with; an image starts with none. -/
def initial : ControlKind → Value
  | float => .float 0.5
  | int => .int 1
  | vec2 => .list [.float 0.5, .float 0.5]
  | vec3 => .list [.float 1.0, .float 1.0, .float 1.0]
  | color => .list [.float 1.0, .float 0.0, .float 0.0, .float 1.0]
  | bool => .bool false
  | image => .null

/-- Why a value names no kind: it is written so, or it is too long to be written. -/
inductive NameFault where
  | unknown (written : String)
  | tooLong (fault : DigitFault)
  deriving DecidableEq, Repr

/-- The wording of the fault. -/
def NameFault.message : NameFault → String
  | .unknown written => written ++ " is not a valid SemanticType"
  | .tooLong fault => fault.message

/-- The fault of a value that names no kind. -/
def NameFault.ofValue (v : Value) : NameFault :=
  match v.written with
  | .ok text => .unknown text
  | .error fault => .tooLong fault

/-- The kind that a value names. -/
def ofValue (v : Value) : Except NameFault ControlKind :=
  match v with
  | .text s =>
    match ofName? s with
    | some t => .ok t
    | none => .error (.ofValue v)
  | v => .error (.ofValue v)

theorem ofName?_name (t : ControlKind) : ofName? t.name = some t := by
  cases t <;> decide

end ControlKind
end ShaderPreview
