import ShaderPreview.Files.Path

/-!
# Command line arguments

A command line is handed over in bytes, and read as texts.  A command is followed by its arguments and
options in any order.  A long option is written `--format X` or `--format=X`, a short one `-f X` or
`-fX`; of a repeated option the last one counts.  Two dashes end the options, and a single dash is an
ordinary argument.  An output has to be a path.

* `Arguments.ofBytes?`: the texts of a command line;
* `Invocation`: the four commands with their arguments;
* `Arguments.OptionForm`, `Arguments.scan`: arguments and options apart;
* `Invocation.ofArguments?`: the command that the arguments ask for.
-/

namespace ShaderPreview

/-- A command with its arguments. -/
inductive Invocation where
  /-- List the uniforms of a shader, as JSON if wanted. -/
  | uniforms (shader : String) (json : Bool)
  /-- Write the generated program to a file, or print it. -/
  | exportCode (shader : String) (output : Option String) (format : String)
  /-- Print a compiler log in the user's terms. -/
  | remap (shader : String) (log : String) (format : String)
  /-- Generate the program again whenever the shader changes. -/
  | watch (shader : String) (output : Option String)
  deriving DecidableEq, Repr

namespace Arguments

/-- The forms of an option. -/
structure OptionForm where
  long : String
  short : Option Char := none
  takesValue : Bool := true

/-- Arguments, and options with their values, each in the order in which they stand. -/
structure Scanned where
  positional : List String := []
  options : List (String × String) := []

/-- The option with a long form. -/
def byLong? (forms : List OptionForm) (long : String) : Option OptionForm :=
  forms.find? fun f => f.long == long

/-- The option with a short form. -/
def byShort? (forms : List OptionForm) (short : Char) : Option OptionForm :=
  forms.find? fun f => f.short == some short

/-- Adds an argument. -/
def Scanned.addArgument (s : Scanned) (argument : String) : Scanned :=
  { s with positional := argument :: s.positional }

/-- Adds an option with its value. -/
def Scanned.addOption (s : Scanned) (form : OptionForm) (value : String) : Scanned :=
  { s with options := (form.long, value) :: s.options }

/-- An argument as it is to be taken: plain, the end of options, or an option with the value that is
written in it. -/
inductive Shape where
  | plain
  | endOfOptions
  | option (form : OptionForm) (value : Option String)
  | unknown

/-- How an argument is to be taken. -/
def shape (forms : List OptionForm) (argument : String) : Shape :=
  match argument.toList with
  | ['-', '-'] => .endOfOptions
  | '-' :: '-' :: cs =>
    let name := String.ofList ('-' :: '-' :: cs.takeWhile (· != '='))
    match byLong? forms name, cs.dropWhile (· != '=') with
    | none, _ => .unknown
    | some form, [] => .option form none
    | some form, _ :: value =>
      if form.takesValue then .option form (some (String.ofList value)) else .unknown
  | '-' :: c :: value =>
    match byShort? forms c with
    | none => .unknown
    | some form => .option form (if value.isEmpty then none else some (String.ofList value))
  | _ => .plain

/-- Takes arguments and options apart; fails on an unknown option or a missing value. -/
def scan (forms : List OptionForm) : List String → Option Scanned
  | [] => some {}
  | argument :: rest =>
    match shape forms argument with
    | .plain => (scan forms rest).map fun s => s.addArgument argument
    | .endOfOptions => some { positional := rest }
    | .unknown => none
    | .option form (some value) => (scan forms rest).map fun s => s.addOption form value
    | .option form none =>
      if form.takesValue then
        match rest with
        | [] => none
        | value :: rest => (scan forms rest).map fun s => s.addOption form value
      else (scan forms rest).map fun s => s.addOption form ""

/-- The value of an option that counts. -/
def Scanned.option? (s : Scanned) (long : String) : Option String :=
  (s.options.reverse.find? fun o => o.1 == long).map Prod.snd

/-- The option that selects a format. -/
def formatForm : OptionForm := { long := "--format", short := some 'f' }

/-- The option that names the file for generated code. -/
def outputForm : OptionForm := { long := "--output", short := some 'o' }

/-- Whether an output, if there is one, is a path. -/
def canReceive (output : Option String) : Bool :=
  output.all fun path => !Files.hasNull path

/-- The option that asks for JSON. -/
def jsonForm : OptionForm := { long := "--json", takesValue := false }

end Arguments

open Arguments

/-- The command of the given name with its arguments. -/
def Invocation.ofCommand? (command : String) (arguments : List String) : Option Invocation :=
  match command with
  | "uniforms" => do
    let s ← scan [jsonForm] arguments
    match s.positional with
    | [shader] => some (.uniforms shader (s.option? "--json").isSome)
    | _ => none
  | "export-code" => do
    let s ← scan [formatForm] arguments
    let format := (s.option? "--format").getD "plain"
    match s.positional with
    | [shader] => some (.exportCode shader none format)
    | [shader, output] =>
      if canReceive (some output) then some (.exportCode shader (some output) format) else none
    | _ => none
  | "remap" => do
    let s ← scan [formatForm] arguments
    let format := (s.option? "--format").getD "plain"
    match s.positional with
    | [shader] => some (.remap shader "-" format)
    | [shader, log] => some (.remap shader log format)
    | _ => none
  | "watch" => do
    let s ← scan [outputForm] arguments
    match s.positional with
    | [shader] =>
      let output := s.option? "--output"
      if canReceive output then some (.watch shader output) else none
    | _ => none
  | _ => none

/-- The command that the arguments ask for, unless they are misused. -/
def Invocation.ofArguments? : List String → Option Invocation
  | "--" :: command :: arguments => ofCommand? command arguments
  | command :: arguments => ofCommand? command arguments
  | [] => none

end ShaderPreview
