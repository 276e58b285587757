import JavaTree.Analysis

/-! # The command line

    Arguments are read from left to right.  Two of them are paths; options
    may stand anywhere before `--`.  A long option takes its value after `=`
    or from the next argument, a short one also directly.  No option and no
    flag may be repeated.

    Asking for help or for the version counts from where it stands: what is
    wrong after it does not matter any more. -/

namespace JavaTree

/-! ## Section 1: Arguments -/

/-- What the arguments ask for. -/
structure Arguments where
  /-- The file to read. -/
  source : String
  /-- The directory to write to. -/
  outputDirectory : String
  /-- The configuration file. -/
  config : Option String := none
  /-- The format of the tree artifact. -/
  treeFormat : Option Format := none
  /-- Spaces for each level of the source code. -/
  indent : Option Nat := none
  parallel : Bool := false
  verbose : Bool := false
  deriving DecidableEq, Repr

/-- A reading of the command line. -/
inductive Command where
  | analyze (arguments : Arguments)
  | version
  | help
  /-- The arguments make no sense. -/
  | misuse
  deriving DecidableEq, Repr

namespace CommandLine

/-! ## Section 2: Options -/

/-- An option that takes a value. -/
inductive ValueOption where
  | config
  | treeFormat
  | indent
  deriving DecidableEq, Repr

/-- What a dash can introduce. -/
inductive Switch where
  | value (o : ValueOption)
  | parallel
  | verbose
  | version
  | help
  deriving DecidableEq, Repr

/-- The switch with a long name. -/
def Switch.ofLong? : String → Option Switch
  | "config" => some (.value .config)
  | "tree-format" => some (.value .treeFormat)
  | "indent" => some (.value .indent)
  | "parallel" => some .parallel
  | "verbose" => some .verbose
  | "version" => some .version
  | "help" => some .help
  | _ => none

/-- The switch with a short name. -/
def Switch.ofShort? : Char → Option Switch
  | 'c' => some (.value .config)
  | 'v' => some .verbose
  | 'V' => some .version
  | 'h' => some .help
  | _ => none

/-! ## Section 3: Reading arguments -/

/-- What was read so far. -/
structure Progress where
  /-- The paths, the last first. -/
  paths : List String := []
  config : Option String := none
  treeFormat : Option Format := none
  indent : Option Nat := none
  parallel : Bool := false
  verbose : Bool := false

/-- A step of reading: how to go on, or what the arguments amount to. -/
abbrev Reading := Except Command Progress

/-- A natural number of at most 64 bits, with or without plus sign. -/
def natural? (s : String) : Option Nat :=
  let digits :=
    match s.toList with
    | '+' :: rest => rest
    | cs => cs
  if digits.isEmpty || !digits.all Decimal.isDigit || Nat.pow 2 64 ≤ Decimal.value digits then none
  else some (Decimal.value digits)

namespace Progress

/-- Take in a path.  There are two, and neither is empty. -/
def addPath (p : Progress) (path : String) : Reading :=
  if path = "" || 2 ≤ p.paths.length then .error .misuse
  else .ok { p with paths := path :: p.paths }

/-- Take in the value of an option. -/
def addValue (p : Progress) (o : ValueOption) (value : String) : Reading :=
  match o with
  | .config =>
    if value = "" || p.config.isSome then .error .misuse
    else .ok { p with config := some value }
  | .treeFormat =>
    match Format.ofName? value, p.treeFormat with
    | some f, none => .ok { p with treeFormat := some f }
    | _, _ => .error .misuse
  | .indent =>
    match natural? value, p.indent with
    | some n, none => .ok { p with indent := some n }
    | _, _ => .error .misuse

/-- Take in a switch without value. -/
def addFlag (p : Progress) : Switch → Reading
  | .parallel => if p.parallel then .error .misuse else .ok { p with parallel := true }
  | .verbose => if p.verbose then .error .misuse else .ok { p with verbose := true }
  | .version => .error .version
  | .help => .error .help
  | .value _ => .error .misuse

/-- What the arguments amount to at their end. -/
def finish (p : Progress) : Command :=
  match p.paths with
  | [outputDirectory, source] =>
    .analyze
      { source, outputDirectory, config := p.config, treeFormat := p.treeFormat,
        indent := p.indent, parallel := p.parallel, verbose := p.verbose }
  | _ => .misuse

/-- Take in short switches that share a dash.  Returns the option that still
    needs a value. -/
def addShort (p : Progress) : List Char → Except Command (Progress × Option ValueOption)
  | [] => .ok (p, none)
  | c :: rest =>
    match Switch.ofShort? c with
    | none => .error .misuse
    | some (.value o) =>
      match rest with
      | [] => .ok (p, some o)
      | '=' :: value => (p.addValue o (String.ofList value)).map (·, none)
      | value => (p.addValue o (String.ofList value)).map (·, none)
    | some s => do
      let p ← p.addFlag s
      p.addShort rest

/-- Take in a long switch, after its dashes.  Returns the option that still
    needs a value. -/
def addLong (p : Progress) (cs : List Char) : Except Command (Progress × Option ValueOption) :=
  let name := String.ofList (cs.takeWhile (· ≠ '='))
  let attached := cs.dropWhile (· ≠ '=')
  match Switch.ofLong? name, attached with
  | some (.value o), [] => .ok (p, some o)
  | some (.value o), _ :: value => (p.addValue o (String.ofList value)).map (·, none)
  | some s, [] => (p.addFlag s).map (·, none)
  | _, _ => .error .misuse

end Progress

/-- Whether an argument is a switch.  A dash alone is none. -/
def isSwitch (argument : String) : Bool :=
  match argument.toList with
  | '-' :: _ :: _ => true
  | _ => false

/-- Read arguments.  `awaited` is the option that needs the next one, and
    `literal` says that `--` was met. -/
def read (p : Progress) (awaited : Option ValueOption) (literal : Bool) :
    List String → Command
  | [] => if awaited.isSome then .misuse else p.finish
  | argument :: rest =>
    let goOn (step : Except Command (Progress × Option ValueOption)) (literal : Bool) : Command :=
      match step with
      | .ok (p, awaited) => read p awaited literal rest
      | .error c => c
    match awaited with
    | some o =>
      -- A value from the next argument must not look like a switch.
      if isSwitch argument then .misuse else goOn ((p.addValue o argument).map (·, none)) literal
    | none =>
      if literal || !isSwitch argument then goOn ((p.addPath argument).map (·, none)) literal
      else
        match argument.toList with
        | ['-', '-'] => goOn (.ok (p, none)) true
        | '-' :: '-' :: cs => goOn (p.addLong cs) literal
        | _ :: cs => goOn (p.addShort cs) literal
        | [] => .misuse

/-- Read the command line. -/
def parse (arguments : List String) : Command := read {} none false arguments

/-! ## Section 4: Running -/

/-- What the program prints, and how it ends. -/
structure Result where
  exitCode : Nat
  stdout : String := ""
  stderr : String := ""
  deriving DecidableEq, Repr

/-- The answer to `--version`. -/
def versionText : String := "java_code_analyzer 0.1.0\n"

/-- The usage line. -/
def usageLine : String := "Usage: java-code-analyzer [OPTIONS] <SOURCE> <OUTPUT_DIR>\n"

/-- The answer to `--help`. -/
def helpText : String :=
  "Java Code Analyzer - structural AST analysis: pretty printing, DOT graphs, YAML/JSON trees and statistics.\n\n"
    ++ usageLine
    ++ "\nArguments:\n"
    ++ "  <SOURCE>      Parsed compilation unit (.yaml, .yml or .json tree document)\n"
    ++ "  <OUTPUT_DIR>  Directory receiving code.txt, ast.dot, ast.yaml and stats.txt\n"
    ++ "\nOptions:\n"
    ++ "  -c, --config <CONFIG>            TOML configuration file\n"
    ++ "      --tree-format <TREE_FORMAT>  Format of the tree artifact (yaml, json)\n"
    ++ "      --indent <INDENT>            Spaces per indentation level in code.txt\n"
    ++ "      --parallel                   Run the exporters concurrently\n"
    ++ "  -v, --verbose                    Enable debug logging\n"
    ++ "  -h, --help                       Print help\n"
    ++ "  -V, --version                    Print version\n"

/-- The options of a run: those of the file, with those of the command line
    in their place. -/
def overridden (a : Arguments) (c : Config) : Config :=
  { c with
    layout := { c.layout with indentWidth := a.indent.getD c.layout.indentWidth }
    treeFormat := a.treeFormat.getD c.treeFormat
    parallel := c.parallel || a.parallel }

/-- What a run prints. -/
def describe (directory : String) (outcome : Except Panic (Except RunError Report)) : Result :=
  let exitCode := runExitCode outcome
  match outcome with
  | .error p => { exitCode, stderr := "panicked: " ++ p.message ++ "\n" }
  | .ok (.ok report) =>
    if report.isComplete then
      { exitCode, stdout := "Parse tree and statistics saved to: " ++ directory ++ "\n" }
    else
      { exitCode
        stderr := toString report.failures.length ++ " of " ++ toString report.outcomes.length
          ++ " artifacts could not be written to " ++ directory ++ "\n" }
  | .ok (.error e) => { exitCode, stderr := "Error: " ++ e.message ++ "\n" }

variable {m : Type → Type} [Monad m]

/-- Do what the arguments ask for. -/
def analyze (s : Storage m) (a : Arguments) : m (Except Panic (Except RunError Report)) := do
  match ← s.readConfig? a.config with
  | .error e => return .ok (.error (.config e))
  | .ok c => s.analyze none (overridden a c) a.source a.outputDirectory

/-- Carry out a command. -/
def execute (s : Storage m) : Command → m Result
  | .version => return { exitCode := 0, stdout := versionText }
  | .help => return { exitCode := 0, stdout := helpText }
  | .misuse =>
    return { exitCode := 2, stderr := "error: invalid arguments\n\n" ++ usageLine }
  | .analyze a => return describe a.outputDirectory (← analyze s a)

/-- Run the program with the given arguments. -/
def run (s : Storage m) (arguments : List String) : m Result := execute s (parse arguments)

end CommandLine

end JavaTree
