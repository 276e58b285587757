import JavaTree.Config
import JavaTree.Pipeline
import JavaTree.Tree.Builder

/-! # One run of the analyzer

    A run reads a tree from a file, makes the output directory and exports
    the artifacts into it.  The tree is read before the directory is made, so
    that a source that cannot be read leaves nothing behind. -/

namespace JavaTree

/-! ## Section 1: Failures -/

/-- What is wrong with a source file. -/
inductive SourceFault where
  | unknownFormat
  | unreadable (cause : StorageError)
  | undecodable (format : Format) (cause : DecodeError)
  | invalidTree (cause : TreeError)
  deriving DecidableEq, Repr

/-- The wording of a fault. -/
def SourceFault.message : SourceFault → String
  | .unknownFormat => "unknown document format, expected .yaml, .yml or .json"
  | .unreadable cause => cause.message
  | .undecodable format cause => "invalid " ++ format.title ++ " document: " ++ cause.message
  | .invalidTree cause => cause.message

/-- Why no tree could be read. -/
inductive SourceError where
  | notFound (path : String)
  | malformed (path : String) (fault : SourceFault)
  deriving DecidableEq, Repr

/-- The wording of a failure. -/
def SourceError.message : SourceError → String
  | .notFound path => "File not found: " ++ path
  | .malformed path fault => "Malformed input " ++ path ++ ": " ++ fault.message

/-- Why a configuration could not be read. -/
inductive ConfigError where
  | unreadable (path : String) (cause : StorageError)
  | invalid (path : String)
  deriving DecidableEq, Repr

/-- The wording of every invalid configuration. -/
def ConfigError.invalidText : String := "Invalid analyzer configuration"

/-- The wording of a failure. -/
def ConfigError.message : ConfigError → String
  | .unreadable path cause => "Failed to read config file " ++ path ++ ": " ++ cause.message
  | .invalid path => "In " ++ path ++ ": " ++ invalidText

/-- Why a run wrote no artifact at all. -/
inductive RunError where
  | config (cause : ConfigError)
  | source (cause : SourceError)
  | outputDirectory (path : String) (cause : StorageError)
  deriving DecidableEq, Repr

namespace RunError

/-- The wording of a failure. -/
def message : RunError → String
  | .config cause => cause.message
  | .source cause => cause.message
  | .outputDirectory path cause =>
    "Cannot create output directory " ++ path ++ ": " ++ cause.message

/-- The exit code of a run that wrote no artifact. -/
def exitCode : Nat := 1

end RunError

/-! ## Section 2: Reading -/

/-- Read a tree from a text. -/
def Tree.ofText (format : Format) (text : String) : Except SourceFault Tree := do
  let d ← (Document.decode format text).mapError (.undecodable format)
  (Tree.ofDocument d).mapError .invalidTree

namespace Storage

variable {m : Type → Type} [Monad m]

/-- Read a tree from a file.  Its format is given or told by the file name. -/
def readTree (s : Storage m) (forced : Option Format) (path : String) :
    m (Except SourceError Tree) := do
  if !(← s.isFile path) then return .error (.notFound path)
  match forced.or (Format.ofPath? path) with
  | none => return .error (.malformed path .unknownFormat)
  | some format =>
    match ← s.read path with
    | .error e => return .error (.malformed path (.unreadable e))
    | .ok text => return (Tree.ofText format text).mapError (.malformed path)

/-- Read the options of a run from a file. -/
def readConfig (s : Storage m) (path : String) : m (Except ConfigError Config) := do
  match ← s.read path with
  | .error e => return .error (.unreadable path e)
  | .ok text =>
    match Config.ofText? text with
    | some c => return .ok c
    | none => return .error (.invalid path)

/-- Read the options from a file, if one is given. -/
def readConfig? (s : Storage m) : Option String → m (Except ConfigError Config)
  | some path => s.readConfig path
  | none => return .ok {}

/-! ## Section 3: Running -/

/-- A directory as the place where artifacts go. -/
def sink (s : Storage m) (directory : String) : Pipeline.Sink m := fun name text =>
  s.write (Path.join directory name) text

/-- Read a tree and write every artifact into a directory. -/
def analyze (s : Storage m) (forced : Option Format) (config : Config)
    (source directory : String) : m (Except Panic (Except RunError Report)) := do
  match ← s.readTree forced source with
  | .error e => return .ok (.error (.source e))
  | .ok t =>
    -- The source is fine: only now something is written.
    match ← s.ensureDirectories directory with
    | .error e => return .ok (.error (.outputDirectory directory e))
    | .ok () =>
      let exporters := Exporter.standard config.layout config.styled config.treeFormat
      return (← Pipeline.run (s.sink directory) config.parallel exporters t.root).map .ok

end Storage

/-- The exit code of a program that panics. -/
def Panic.exitCode : Nat := 101

/-- The exit code of a run. -/
def runExitCode : Except Panic (Except RunError Report) → Nat
  | .ok (.ok report) => report.exitCode
  | .ok (.error _) => RunError.exitCode
  | .error _ => Panic.exitCode

end JavaTree
