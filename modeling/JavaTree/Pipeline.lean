import JavaTree.Exporter

/-! # The export pipeline

    Every exporter runs once: it renders its text, which then is written.  One
    that fails loses its own artifact only; the others still run.  The report
    lists the outcomes in the order of the exporters.

    A panic is no outcome.  It breaks the run off, and there is no report.
    Whether the other exporters still have their shares is then up to how they
    run, in turn or together. -/

namespace JavaTree

/-! ## Section 1: Reports -/

/-- What became of one artifact. -/
structure Outcome where
  artifact : String
  result : Except ExportError Unit

namespace Outcome

/-- Whether the artifact was written. -/
def isWritten (o : Outcome) : Bool :=
  match o.result with
  | .ok () => true
  | .error _ => false

/-- The wording of the failure, if there is one. -/
def failure? (o : Outcome) : Option String :=
  match o.result with
  | .ok () => none
  | .error e => some ("Failed to write " ++ o.artifact ++ ": " ++ e.message)

end Outcome

/-- The outcomes of a run, in the order of the exporters. -/
structure Report where
  outcomes : List Outcome

namespace Report

/-- The wordings of the failures. -/
def failures (r : Report) : List String := r.outcomes.filterMap (·.failure?)

/-- The artifacts that were written. -/
def written (r : Report) : List String := (r.outcomes.filter (·.isWritten)).map (·.artifact)

/-- Whether every artifact was written. -/
def isComplete (r : Report) : Bool := r.failures.isEmpty

/-- Zero if every artifact was written, and two otherwise. -/
def exitCode (r : Report) : Nat := if r.isComplete then 0 else 2

end Report

/-! ## Section 2: Running exporters -/

namespace Pipeline

/-- Where artifacts go: a name and a text are accepted or refused. -/
abbrev Sink (m : Type → Type) := String → String → m (Except StorageError Unit)

variable {m : Type → Type} [Monad m]

/-- Write an artifact, if it could be rendered. -/
def deliver (sink : Sink m) (artifact : String) (text : Except ExportError String) :
    m Outcome := do
  match text with
  | .error e => return ⟨artifact, .error e⟩
  | .ok text => return ⟨artifact, (← sink artifact text).mapError .storage⟩

/-- Write an artifact, unless there was a panic instead of a text. -/
def deliverUnlessPanic (sink : Sink m) (artifact : String)
    (text : Except Panic (Except ExportError String)) : m (Except Panic Outcome) := do
  match text with
  | .error p => return .error p
  | .ok text => return .ok (← deliver sink artifact text)

/-- An exporter's share of a run: its text is rendered and written. -/
def exportOne (sink : Sink m) (root : Cursor) (e : Exporter) : m (Except Panic Outcome) :=
  deliverUnlessPanic sink e.artifact (e.render root)

/-- Every exporter has its share, one after the other.  A panic leaves those
    behind it without theirs. -/
def runInTurn (sink : Sink m) (root : Cursor) :
    List Exporter → m (Except Panic (List Outcome))
  | [] => return .ok []
  | e :: rest => do
    match ← exportOne sink root e with
    | .error p => return .error p
    | .ok outcome => return (← runInTurn sink root rest).map (outcome :: ·)

/-- Every exporter has its share, and each renders in a task of its own.  A
    panic is passed on when all of them have come to their ends. -/
def runTogether (sink : Sink m) (root : Cursor) (exporters : List Exporter) :
    m (Except Panic (List Outcome)) := do
  let tasks := exporters.map fun e => (e.artifact, Task.spawn fun _ => e.render root)
  let answers ← tasks.mapM fun (artifact, task) => deliverUnlessPanic sink artifact task.get
  return answers.mapM id

/-- Run every exporter once. -/
def run (sink : Sink m) (parallel : Bool) (exporters : List Exporter) (root : Cursor) :
    m (Except Panic Report) := do
  let outcomes ← if parallel then runTogether sink root exporters
    else runInTurn sink root exporters
  return outcomes.map Report.mk

end Pipeline

end JavaTree
