import ShaderPreview.Files.Path

/-!
# Trees of files

The files that a command can see: locations that hold a file with its bytes, or are directories.  To
follow a path, every name on the way has to lead on from a directory that exists.  Names and paths
are of limited length.

* `Tree`: files and directories by their locations;
* `Tree.locate`: where a path leads;
* `Tree.read`, `Tree.write`: reading and writing a file by its path;
* `Change`, `Tree.apply`: what happens to files from outside;
* `Tree.changes`: the files in which two trees differ;
* `get?_put_self`, `get?_put_of_ne`: an entry is put at its location and nowhere else.
-/

namespace ShaderPreview
namespace Files

/-- What a location holds. -/
inductive Entry where
  | file (content : ByteArray)
  | directory

/-- Files and directories by their locations. -/
abbrev Tree := List (Location × Entry)

/-- Why a file cannot be opened. -/
inductive OpenError where
  | notFound
  | notDirectory
  | isDirectory
  | nameTooLong
  deriving DecidableEq, Repr

/-- The wording of the reason, without the path. -/
def OpenError.reason : OpenError → String
  | notFound => "[Errno 2] No such file or directory"
  | notDirectory => "[Errno 20] Not a directory"
  | isDirectory => "[Errno 21] Is a directory"
  | nameTooLong => "[Errno 36] File name too long"

/-- The most bytes a name can have. -/
def nameLimit : Nat := 255

/-- The most bytes the text of a path can have. -/
def pathLimit : Nat := 4095

namespace Tree

/-- What a location holds; the root is a directory. -/
def get? (t : Tree) (l : Location) : Option Entry :=
  if l = [] then some .directory else (t.find? fun e => e.1 == l).map Prod.snd

/-- The tree with the entry at a location, in its old place or as the last one. -/
def put : Tree → Location → Entry → Tree
  | [], l, e => [(l, e)]
  | (k, d) :: t, l, e => if k = l then (l, e) :: t else (k, d) :: put t l e

/-- Whether a location is a directory. -/
def isDirectory (t : Tree) (l : Location) : Bool :=
  match t.get? l with
  | some .directory => true
  | _ => false

/-- Follows names from a location.  Every name but the last has to lead to a directory, and a name that
is too long is found out where it is looked up. -/
def follow (t : Tree) : Location → List String → Except OpenError Location
  | l, [] => .ok l
  | l, name :: names =>
    match t.get? l with
    | some .directory =>
      if nameLimit < name.utf8ByteSize then .error .nameTooLong
      else follow t (if name = ".." then l.dropLast else l ++ [name]) names
    | some (.file _) => .error .notDirectory
    | none => .error .notFound

/-- Where a path leads, seen from the working directory. -/
def locate (t : Tree) (cwd : Location) (p : Path) : Except OpenError Location :=
  if pathLimit < p.text.utf8ByteSize then .error .nameTooLong
  else t.follow (if p.root = .here then cwd else []) p.names

/-- The bytes of the file at a path. -/
def read (t : Tree) (cwd : Location) (p : Path) : Except OpenError ByteArray := do
  let l ← t.locate cwd p
  match t.get? l with
  | some (.file content) => .ok content
  | some .directory => .error .isDirectory
  | none => .error .notFound

/-- The tree after the file at a path was written.  The file need not exist, its directory must. -/
def write (t : Tree) (cwd : Location) (p : Path) (content : ByteArray) :
    Except OpenError Tree := do
  let l ← t.locate cwd p
  if t.isDirectory l then .error .isDirectory else .ok (t.put l (.file content))

/-- The tree with a location and all locations above it as directories. -/
def makeDirectory (t : Tree) (l : Location) : Tree :=
  (List.range l.length).foldl (fun t n =>
    if t.isDirectory (l.take (n + 1)) then t else t.put (l.take (n + 1)) .directory) t

/-- The tree without a location and all that lies below it. -/
def remove (t : Tree) (l : Location) : Tree :=
  t.filter fun e => !l.isPrefixOf e.1

@[simp] theorem get?_put_self (t : Tree) {l : Location} (e : Entry) (h : l ≠ []) :
    (t.put l e).get? l = some e := by
  induction t with
  | nil => simp [put, get?, h]
  | cons d t ih =>
    obtain ⟨k, d⟩ := d
    by_cases hk : k = l
    · simp [put, get?, h, hk]
    · simpa [put, get?, h, hk] using ih

theorem get?_put_of_ne (t : Tree) {l k : Location} (e : Entry) (h : k ≠ l) :
    (t.put l e).get? k = t.get? k := by
  induction t with
  | nil => by_cases hk : k = [] <;> simp [put, get?, hk, Ne.symm h]
  | cons d t ih =>
    obtain ⟨m, d⟩ := d
    by_cases hk : k = []
    · simp [get?, hk]
    · simp only [get?, hk, if_false] at ih ⊢
      by_cases hm : m = l
      · simp [put, hm, Ne.symm h]
      · rw [put, if_neg hm]
        by_cases hmk : m = k <;> simp [hmk, ih]

end Tree

/-- What happens to files from outside. -/
inductive Change where
  /-- A file is written, in a directory that is made if need be. -/
  | write (l : Location) (content : ByteArray)
  /-- A file, or a directory with all that it holds, is deleted. -/
  | delete (l : Location)
  /-- A directory is made. -/
  | makeDirectory (l : Location)

namespace Tree

/-- The tree after a change from outside. -/
def apply (t : Tree) : Change → Tree
  | .write l content => (t.makeDirectory l.dropLast).put l (.file content)
  | .delete l => t.remove l
  | .makeDirectory l => t.makeDirectory l

/-- The content of the file at a location. -/
def content? (t : Tree) (l : Location) : Option ByteArray :=
  match t.get? l with
  | some (.file content) => some content
  | _ => none

/-- The locations of all files. -/
def fileLocations (t : Tree) : List Location :=
  t.filterMap fun e => match e.2 with
    | .file _ => some e.1
    | .directory => none

/-- The files below `base` in which two trees differ, by their paths from there in increasing order,
each with its new content or without if it is gone. -/
def changes (before after : Tree) (base : Location) : List (String × Option ByteArray) :=
  let locations := (before.fileLocations ++ after.fileLocations).eraseDups.filter fun l =>
    base.isPrefixOf l && before.content? l != after.content? l
  let entries := locations.map fun l =>
    ("/".intercalate (l.drop base.length), after.content? l)
  entries.mergeSort fun a b => decide (a.1 ≤ b.1)

end Tree
end Files
end ShaderPreview
