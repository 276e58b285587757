import JavaTree.Document.Format
import JavaTree.Graph
import JavaTree.Print
import JavaTree.Statistics
import JavaTree.Storage

/-! # Exporters

    An exporter turns a tree into the text of one artifact: the source code,
    the graph, the tree as a document, or the statistics.  It may fail, which
    is reported, and the source code may panic, which is not. -/

namespace JavaTree

/-- Why an artifact was not written. -/
inductive ExportError where
  | render (cause : RenderError)
  | encode (cause : EncodeError)
  | storage (cause : StorageError)
  deriving DecidableEq, Repr

/-- The wording of a failure. -/
def ExportError.message : ExportError → String
  | .render cause => "rendering aborted: " ++ cause.message
  | .encode cause => "encoding failed: " ++ cause.message
  | .storage cause => cause.message

/-- An artifact: its file name, and its text for a tree. -/
structure Exporter where
  /-- The file name. -/
  artifact : String
  /-- The text for the subtree of a node, unless there is a panic. -/
  render : Cursor → Except Panic (Except ExportError String)

namespace Exporter

/-- The source code under a layout. -/
def code (layout : Layout) : Exporter where
  artifact := "code.txt"
  render n :=
    match Printer.print layout n with
    | .ok text => .ok (.ok text)
    | .error (.reported e) => .ok (.error (.render e))
    | .error (.panicked p) => .error p

/-- The graph, with or without styles. -/
def graph (styled : Bool) : Exporter where
  artifact := "ast.dot"
  render n := .ok (.ok (Graph.render styled n))

/-- The tree as a document. -/
def tree (format : Format) : Exporter where
  artifact := "ast." ++ format.extension
  render n := .ok ((n.toDocument.encode format).mapError .encode)

/-- The statistics. -/
def statistics : Exporter where
  artifact := "stats.txt"
  render n := .ok (.ok (Statistics.report n))

/-- The four artifacts of a run, in order. -/
def standard (layout : Layout) (styled : Bool) (format : Format) : List Exporter :=
  [code layout, graph styled, tree format, statistics]

end Exporter

end JavaTree
