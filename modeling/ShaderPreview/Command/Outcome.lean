import ShaderPreview.Text.Terminal
import ShaderPreview.Watch.Trace

/-!
# Outcomes of commands

What a command is given besides its arguments, and what it comes to.

* `Host`: files, input and clock;
* `Outcome`: exit code, output, trace and files.
-/

namespace ShaderPreview

open Files

/-- What a command is given besides its arguments. -/
structure Host where
  /-- The working directory. -/
  cwd : Location
  files : Tree
  /-- The bytes of the standard input. -/
  input : ByteArray := ByteArray.empty
  /-- Seconds since the beginning of 1970. -/
  now : Int := 0
  /-- What happens while a watching command sleeps. -/
  steps : List Watch.Step := []

/-- What a command comes to. -/
structure Outcome where
  exitCode : Nat
  /-- The text on the standard output. -/
  output : String := ""
  trace : List Trace.Entry := []
  /-- The files afterwards. -/
  files : Tree
  /-- What nothing handled, if that ended the command. -/
  abort : Option Abort := none

namespace Outcome

/-- The arguments are misused: nothing is done. -/
def misuse (host : Host) : Outcome :=
  { exitCode := 2, files := host.files }

/-- The command prints a text and ends well. -/
def printed (host : Host) (records : List Record) (text : String) : Outcome :=
  { exitCode := 0, output := Text.withoutControls text, trace := records.map .log
    files := host.files }

/-- The command gives up after some records and changes no file. -/
def gaveUp (host : Host) (records : List Record) : Outcome :=
  { exitCode := 1, trace := records.map .log, files := host.files }

/-- The command ends by what nothing handles and changes no file. -/
def aborted (host : Host) (records : List Record) (abort : Abort) : Outcome :=
  { exitCode := 1, trace := records.map .log, files := host.files, abort := some abort }

/-- The command ends by a failure, after some records; one that is expected is reported. -/
def failed (host : Host) (records : List Record) (what : String) : Failure → Outcome
  | .refused error path => gaveUp host (records ++ [⟨.error, what ++ refusal error path⟩])
  | .aborted abort => aborted host records abort

end Outcome
end ShaderPreview
