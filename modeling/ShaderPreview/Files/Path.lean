/-!
# Paths

A path is written as names between slashes.  Empty names and single dots say nothing and are dropped;
two dots are kept, since what they mean depends on the files.  Making a path absolute is a matter of
its text alone: there two dots take away the name before them.

* `Path.ofText`, `Path.text`: a path and its text;
* `Path.absolute`: the absolute path, seen from a working directory;
* `Path.parent`, `Path.baseName`: the directory of a path, and the end of its text;
* `hasNull`: the texts that are no path.
-/

namespace ShaderPreview
namespace Files

/-- The names from the root of all files down to a file or directory. -/
abbrev Location := List String

/-- Where a path starts. -/
inductive Root where
  /-- At the working directory. -/
  | here
  /-- At the root of all files. -/
  | top
  /-- At the root of all files, written with exactly two slashes, which stay two. -/
  | doubled
  deriving DecidableEq, Repr

/-- A path: where it starts, and the names it goes through. -/
structure Path where
  root : Root
  names : List String
  deriving DecidableEq, Repr

namespace Path

/-- The root that the slashes at the front of a text stand for. -/
def rootOf (cs : List Char) : Root :=
  match (cs.takeWhile (· == '/')).length with
  | 0 => .here
  | 2 => .doubled
  | _ => .top

/-- The names in a text, without empty ones and single dots. -/
def namesOf (cs : List Char) : List String :=
  ((cs.splitOn '/').map String.ofList).filter fun name => name != "" && name != "."

/-- The path with the given text. -/
def ofText (s : String) : Path :=
  ⟨rootOf s.toList, namesOf s.toList⟩

/-- The slashes that stand for a root. -/
def rootText : Root → String
  | .here => ""
  | .top => "/"
  | .doubled => "//"

/-- The text of a path; the working directory itself is a dot. -/
def text (p : Path) : String :=
  if p.root = .here ∧ p.names = [] then "." else rootText p.root ++ "/".intercalate p.names

/-- The names that remain when two dots take away the name before them, or nothing at the root. -/
def collapse (names : List String) : List String :=
  (names.foldl (fun above name => if name = ".." then above.tail else name :: above) []).reverse

/-- The absolute path with the given text, seen from the working directory `cwd`. -/
def absolute (cwd : Location) (s : String) : Path :=
  let p := ofText s
  match p.root with
  | .here => ⟨.top, collapse (cwd ++ p.names)⟩
  | root => ⟨root, collapse p.names⟩

/-- The directory of an absolute path. -/
def parent (p : Path) : Path :=
  { p with names := p.names.dropLast }

/-- What follows the last slash of a text. -/
def baseName (s : String) : String :=
  String.ofList (s.toList.reverse.takeWhile (· != '/')).reverse

end Path

/-- Whether a text holds the character that no path can hold. -/
def hasNull (path : String) : Bool :=
  path.toList.contains (Char.ofNat 0)

end Files
end ShaderPreview
