import ShaderPreview.Decimal.Whole
import ShaderPreview.Files.Tree
import ShaderPreview.Text.Quoted

/-!
# Reading and writing text

Text is stored as UTF-8.  When it is read, each way to end a line becomes a newline.  Some failures are
expected and reported in a message that names the path; others abort whatever is going on.

* `normalizeNewlines`, `decode?`: bytes to text;
* `Abort`, `Failure`: the two kinds of failures;
* `readText`, `writeText`: a text file by its path.
-/

namespace ShaderPreview
namespace Files

/-- The text with carriage returns, alone or before a newline, turned into newlines. -/
def normalizeNewlines : List Char → List Char
  | [] => []
  | '\r' :: '\n' :: cs => '\n' :: normalizeNewlines cs
  | c :: cs => (if c = '\r' then '\n' else c) :: normalizeNewlines cs

/-- The text that bytes hold, if they are UTF-8. -/
def decode? (content : ByteArray) : Option String :=
  (String.fromUTF8? content).map fun s => String.ofList (normalizeNewlines s.toList)

/-- A failure that nothing handles. -/
inductive Abort where
  /-- Bytes that should be text are not UTF-8. -/
  | undecodable
  /-- A path holds a character that no file name can hold. -/
  | nullInPath
  /-- A number is too long. -/
  | number (fault : DigitFault)
  deriving DecidableEq, Repr

/-- The wording of a failure that nothing handles; bytes that are no text have none. -/
def Abort.message? : Abort → Option String
  | .undecodable => none
  | .nullInPath => some "embedded null byte"
  | .number fault => some fault.message

/-- Why a text file could not be read or written. -/
inductive Failure where
  /-- It could not be opened. -/
  | refused (error : OpenError) (path : Path)
  /-- Something happened that nothing handles. -/
  | aborted (abort : Abort)
  deriving DecidableEq, Repr

/-- The message about a file that could not be opened. -/
def refusal (error : OpenError) (path : Path) : String :=
  error.reason ++ ": " ++ Text.Quoted.encode path.text

/-- The text of the file at a path. -/
def readText (t : Tree) (cwd : Location) (path : String) : Except Failure String :=
  if hasNull path then .error (.aborted .nullInPath)
  else
    match t.read cwd (Path.ofText path) with
    | .error error => .error (.refused error (Path.ofText path))
    | .ok content =>
      match decode? content with
      | some text => .ok text
      | none => .error (.aborted .undecodable)

/-- The tree after a text was written to the file at a path.  Every text has its UTF-8, so nothing can
fail once the file is open. -/
def writeText (t : Tree) (cwd : Location) (path : String) (text : String) : Except Failure Tree :=
  if hasNull path then .error (.aborted .nullInPath)
  else
    match t.write cwd (Path.ofText path) text.toUTF8 with
    | .error error => .error (.refused error (Path.ofText path))
    | .ok t => .ok t

end Files
end ShaderPreview
