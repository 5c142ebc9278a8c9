import ShaderPreview.Command.Basic
import Std.Time.DateTime

/-!
# The command line

The commands are functions of the files that their arguments name.  Here those files are looked up on
the disk, the command is run on them, and what it comes to is carried out: files are written, records
go to the standard error and text to the standard output.  A watching command looks at the shader
again and again, until the user interrupts it.
-/

namespace ShaderPreview
namespace CommandLine

open Files

/-- The places that have to be looked at to follow a path. -/
def landmarks (cwd : Location) (path : String) : List Location :=
  let p := Path.ofText path
  let start := if p.root = .here then cwd else []
  (List.range (start.length + p.names.length)).map fun n =>
    Path.collapse ((start ++ p.names).take (n + 1))

/-- The paths that a command's arguments name. -/
def pathsOf : Invocation → List String
  | .uniforms shader _ => [shader]
  | .exportCode shader output _ => shader :: output.toList
  | .remap shader log _ => if log = "-" then [shader] else [shader, log]
  | .watch shader output => shader :: output.toList

/-- What a place on the disk holds. -/
def look (l : Location) : IO (Option Entry) := do
  let place := (← IO.currentDir) / ("/" ++ "/".intercalate l)
  if ← place.isDir then return some .directory
  if ← place.pathExists then return some (.file (← IO.FS.readBinFile place))
  return none

/-- The files on the disk that are needed to follow some paths. -/
def snapshot (cwd : Location) (paths : List String) : IO Tree := do
  let mut t : Tree := []
  for l in paths.flatMap (landmarks cwd) do
    if let some entry ← look l then t := t.put l entry
  return t

/-- Writes the files in which two trees differ. -/
def store (before after : Tree) : IO Unit := do
  for (path, content) in Tree.changes before after [] do
    if let some content := content then IO.FS.writeBinFile ("/" ++ path) content

/-- Prints the log records of a trace. -/
def tell (trace : List Trace.Entry) : IO Unit := do
  for entry in trace do
    if let .log record := entry then IO.eprintln (record.level.name ++ " | " ++ record.message)

/-- Reports what nothing handled. -/
def tellAbort (abort : Option Abort) : IO Unit := do
  if let some abort := abort then
    IO.eprintln ((abort.message?).getD "a file that should be text is not UTF-8")

/-- All bytes of a stream. -/
partial def readAll (stream : IO.FS.Stream) (sofar : ByteArray) : IO ByteArray := do
  let more ← stream.read 65536
  if more.isEmpty then return sofar else readAll stream (sofar ++ more)

/-- Goes round: sleep, look at the disk, and refresh the watcher if the shader was modified. -/
partial def watchLoop (paths : List String) (s : Watch.State) : IO UInt32 := do
  IO.sleep 100
  let files ← snapshot s.cwd paths
  let place := (Path.absolute s.cwd s.watcher.shader).names
  let modified := files.content? place != s.files.content? place
  let s := { s with files }
  let (s, reply) := if modified then s.handle (.modified s.watcher.shader) else (s, {})
  tell (reply.records.map .log)
  let (s, actions, abort) := s.reload
  store files s.files
  tell (actions.flatMap Watch.Action.entries)
  tellAbort abort
  if abort.isSome then return 1 else watchLoop paths s

/-- Carries out what a command comes to. -/
def conclude (files : Tree) (outcome : Outcome) : IO UInt32 := do
  store files outcome.files
  tell outcome.trace
  tellAbort outcome.abort
  IO.print outcome.output
  return outcome.exitCode.toUInt32

/-- Watches a shader on the disk. -/
def watch (host : Host) (paths : List String) (shader : String) (output : Option String) :
    IO UInt32 := do
  match Command.watcherFor host shader output with
  | .error outcome => conclude host.files outcome
  | .ok (s, directory) =>
    let (s, actions, abort) := Watch.opening s directory
    store host.files s.files
    tell (actions.flatMap Watch.Action.entries)
    tellAbort abort
    if abort.isSome then return 1 else watchLoop paths s

/-- Runs a command on the files of the disk. -/
def perform (invocation : Invocation) : IO UInt32 := do
  let cwd := (Path.ofText (← IO.currentDir).toString).names
  let paths := pathsOf invocation
  let files ← snapshot cwd paths
  let input ← match invocation with
    | .remap _ "-" _ => readAll (← IO.getStdin) ByteArray.empty
    | _ => pure ByteArray.empty
  let now := (← Std.Time.Timestamp.now).toSecondsSinceUnixEpoch.val
  let host : Host := { cwd, files, input, now }
  match invocation with
  | .watch shader output => watch host paths shader output
  | _ => conclude files (Command.invoke host invocation)

/-- How the commands are used. -/
def usage : String :=
  "uniforms SHADER [--json]\n" ++
  "export-code SHADER [OUTPUT] [--format plain|commented]\n" ++
  "remap SHADER [LOG] [--format plain|commented]\n" ++
  "watch SHADER [--output FILE]"

end CommandLine
end ShaderPreview

/-- Runs the command that the arguments ask for. -/
def main (arguments : List String) : IO UInt32 := do
  match ShaderPreview.Invocation.ofArguments? arguments with
  | some invocation => ShaderPreview.CommandLine.perform invocation
  | none =>
    IO.eprintln ShaderPreview.CommandLine.usage
    return 2
