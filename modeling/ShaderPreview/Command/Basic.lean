import ShaderPreview.Command.Arguments
import ShaderPreview.Command.Format
import ShaderPreview.Command.Outcome
import ShaderPreview.Diagnostic
import ShaderPreview.Uniform.Listing

/-!
# The commands

Each command reads the shader first and gives up if it cannot be opened.  All of them use the standard
dialect.

* `Command.listUniforms`, `Command.exportCode`, `Command.remap`, `Command.watch`: the four commands;
* `Command.run`, `Command.runLine?`: the command that some arguments or a command line ask for.
-/

namespace ShaderPreview

open Files

namespace Command

/-- What there is to tell about the name of a format. -/
def formatRecords (name : String) : List Record :=
  match Format.ofName? name with
  | some _ => []
  | none => [⟨.warning, "Unknown format: " ++ name ++ ". Using plain."⟩]

/-- Goes on with the text of the shader, or gives up. -/
def withShader (host : Host) (shader : String) (go : String → Outcome) : Outcome :=
  match readText host.files host.cwd shader with
  | .ok source => go source
  | .error failure => Outcome.failed host [] "Failed to read shader file: " failure

/-- Prints the uniforms of a shader. -/
def listUniforms (host : Host) (shader : String) (json : Bool) : Outcome :=
  withShader host shader fun source =>
    let findings := Finding.ofSource .standard source
    let uniforms := findings.filterMap Finding.uniform?
    let text := if json then Listing.json uniforms else Listing.table uniforms
    Outcome.printed host (Finding.records findings) (text ++ "\n")

/-- Writes exported code to a file. -/
def writeCode (host : Host) (records : List Record) (output code : String) (offset : Nat) :
    Outcome :=
  let path := (Path.ofText output).text
  let records := records ++ [⟨.info, "Exporting shader code to " ++ path ++ "..."⟩]
  match writeText host.files host.cwd output code with
  | .error failure => Outcome.failed host records "Failed to write shader code: " failure
  | .ok files =>
    let done : List Record :=
      [⟨.info, "Shader code exported to " ++ path⟩,
       ⟨.info, "User source starts after " ++ Decimal.natText offset ++ " preamble lines"⟩]
    { exitCode := 0, trace := (records ++ done).map .log, files }

/-- Writes the generated program to a file, or prints it. -/
def exportCode (host : Host) (shader : String) (output : Option String) (format : String) :
    Outcome :=
  withShader host shader fun source =>
    let program := Program.ofSource .standard source
    let code := program.formatted (Format.ofName format) shader host.now
    let records := program.records ++ program.advice ++ formatRecords format
    match output with
    | none => Outcome.printed host records code
    | some output => writeCode host records output code program.lineOffset

/-- The compiler log at a path, a dash being the standard input.  The line ends of both are read in the
same way. -/
def readLog (host : Host) (log : String) : Except Failure String :=
  if log = "-" then
    match decode? host.input with
    | some text => .ok text
    | none => .error (.aborted .undecodable)
  else readText host.files host.cwd log

/-- Prints a compiler log in the user's terms. -/
def remap (host : Host) (shader log format : String) : Outcome :=
  withShader host shader fun source =>
    let program := Program.ofSource .standard source
    match readLog host log with
    | .error failure => Outcome.failed host program.records "Failed to read compiler log: " failure
    | .ok message =>
      let records := program.records ++ formatRecords format
      match Diagnostic.toUserLines message.toList (program.offsetIn (Format.ofName format)) with
      | .ok text => Outcome.printed host records (String.ofList text)
      | .error fault => Outcome.aborted host records (.number fault)

/-- The watcher of a shader and the directory to be observed, unless that is none. -/
def watcherFor (host : Host) (shader : String) (output : Option String) :
    Except Outcome (Watch.State × Path) :=
  let path := Path.absolute host.cwd shader
  let directory := path.parent
  let isDirectory := match host.files.locate host.cwd directory with
    | .ok l => host.files.isDirectory l
    | .error _ => false
  if isDirectory then .ok (⟨host.cwd, host.files, { shader := path.text, output }⟩, directory)
  else
    .error (Outcome.gaveUp host
      [⟨.error, "Shader directory does not exist: " ++ directory.text⟩])

/-- Watches a shader until the user interrupts. -/
def watch (host : Host) (shader : String) (output : Option String) : Outcome :=
  match watcherFor host shader output with
  | .error outcome => outcome
  | .ok (state, directory) =>
    let run := Watch.run state directory host.steps
    { exitCode := if run.abort.isSome then 1 else 0
      trace := run.actions.flatMap Watch.Action.entries
      files := run.files
      abort := run.abort }

/-- The outcome of a command. -/
def invoke (host : Host) : Invocation → Outcome
  | .uniforms shader json => listUniforms host shader json
  | .exportCode shader output format => exportCode host shader output format
  | .remap shader log format => remap host shader log format
  | .watch shader output => watch host shader output

/-- The outcome of the command that the arguments ask for. -/
def run (host : Host) (arguments : List String) : Outcome :=
  match Invocation.ofArguments? arguments with
  | some invocation => invoke host invocation
  | none => Outcome.misuse host

end Command
end ShaderPreview
