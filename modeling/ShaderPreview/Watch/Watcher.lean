import ShaderPreview.Files.Access
import ShaderPreview.Log

/-!
# Watching a shader

A watcher knows a shader file and, if wanted, a file for the generated code.  It is told which files
were modified and remembers whether the shader was among them.  To refresh it, that is to read the
shader and generate the program, is a request of its own, and so is to forget the modification.

* `Watcher`, `Watch.State`: the watcher and the files it sees;
* `Watch.Request`, `Watch.Reply`: what can be asked of it;
* `Watcher.conclude`, `Watcher.refresh`: generates the program, after reading the shader;
* `Watch.State.handle`, `Watch.State.serve`: carries out one request, or one after the other.
-/

namespace ShaderPreview

open Files

/-- A watcher of a shader file. -/
structure Watcher where
  /-- The shader's path. -/
  shader : String
  /-- The path of the file that receives the generated code. -/
  output : Option String := none
  /-- Whether the shader was modified since this was last forgotten. -/
  modified : Bool := false

/-- What refreshing a watcher comes to. -/
structure Refreshed where
  /-- The program, nothing if a file could not be opened, or what nothing handles. -/
  result : Except Abort (Option Program)
  /-- The files afterwards. -/
  files : Tree
  /-- What there is to tell. -/
  records : List Record

namespace Watcher

/-- Whether a path names the watched shader, as far as the texts of the two paths tell.  The working
directory counts by its name, whether or not it is still there. -/
def matchesPath (cwd : Location) (w : Watcher) (path : String) : Bool :=
  Path.absolute cwd path == Path.absolute cwd w.shader

/-- The watcher after it was told that a file was modified. -/
def notice (cwd : Location) (w : Watcher) (path : String) : Watcher :=
  if w.matchesPath cwd path then { w with modified := true } else w

/-- What there is to tell when a file was modified. -/
def noticeRecords (cwd : Location) (w : Watcher) (path : String) : List Record :=
  if w.matchesPath cwd path then [⟨.info, "Detected changes in " ++ w.shader⟩] else []

/-- What there is to tell about the uniforms of a shader. -/
def uniformRecords (source : String) : List Record :=
  let findings := Finding.ofSource .standard source
  let uniforms := findings.filterMap Finding.uniform?
  Finding.records findings ++
    [⟨.info, "Uniforms: " ++ quotedList (uniforms.map fun u => u.name ++ ": " ++ u.kind.name)⟩]

/-- Writes the generated code, if there is a file for it. -/
def deliver (cwd : Location) (w : Watcher) (files : Tree) (program : Program) : Refreshed :=
  match w.output with
  | none => ⟨.ok (some program), files, []⟩
  | some output =>
    match writeText files cwd output program.text with
    | .ok files =>
      ⟨.ok (some program), files,
        [⟨.info, "Shader code written to " ++ (Path.ofText output).text⟩]⟩
    | .error (.refused error path) =>
      ⟨.ok none, files, [⟨.error, "Error writing shader code: " ++ refusal error path⟩]⟩
    | .error (.aborted abort) => ⟨.error abort, files, []⟩

/-- Generates the program, once the shader was read or could not be. -/
def conclude (cwd : Location) (w : Watcher) (files : Tree) : Except Failure String → Refreshed
  | .error (.refused error path) =>
    ⟨.ok none, files, [⟨.error, "Error reading shader: " ++ refusal error path⟩]⟩
  | .error (.aborted abort) => ⟨.error abort, files, []⟩
  | .ok source =>
    let program := Program.ofSource .standard source
    let delivery := w.deliver cwd files program
    { delivery with
      records := uniformRecords source ++ program.records ++ program.advice ++ delivery.records }

/-- Reads the shader and generates the program. -/
def refresh (cwd : Location) (w : Watcher) (files : Tree) : Refreshed :=
  w.conclude cwd files (readText files cwd w.shader)

end Watcher

namespace Watch

/-- A watcher, the files it sees and the directory it works in. -/
structure State where
  cwd : Location
  files : Tree
  watcher : Watcher

/-- What can be asked of a watcher. -/
inductive Request where
  /-- Files change, without the watcher being told. -/
  | change (c : Change)
  /-- The watcher is told that a file was modified. -/
  | modified (path : String)
  /-- Forget about the modification. -/
  | forget
  /-- Read the shader and generate the program. -/
  | refresh

/-- The answer to a request. -/
structure Reply where
  /-- What there is to tell. -/
  records : List Record := []
  /-- What refreshing came to, if that was asked. -/
  result : Option (Except Abort (Option Program)) := none

namespace State

/-- Carries a request out. -/
def handle (s : State) : Request → State × Reply
  | .change c => ({ s with files := s.files.apply c }, {})
  | .modified path =>
    ({ s with watcher := s.watcher.notice s.cwd path },
      { records := s.watcher.noticeRecords s.cwd path })
  | .forget => ({ s with watcher := { s.watcher with modified := false } }, {})
  | .refresh =>
    let p := s.watcher.refresh s.cwd s.files
    ({ s with files := p.files }, { records := p.records, result := some p.result })

/-- The answers to a sequence of requests, each with the state after it. -/
def serve (s : State) : List Request → List (Reply × State)
  | [] => []
  | r :: rs => ((s.handle r).2, (s.handle r).1) :: serve (s.handle r).1 rs

end State
end Watch
end ShaderPreview
