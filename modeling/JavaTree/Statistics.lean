import JavaTree.Walk

/-! # Statistics

    How often the structural categories occur in a subtree, counted in one
    walk, and the report table.  A node may count in several categories. -/

namespace JavaTree

/-! ## Section 1: Categories -/

/-- A counted category. -/
inductive Category where
  | classes
  | methods
  | statements
  | imports
  | fields
  | constructors
  | interfaces
  | enums
  | annotations
  | comments
  | ifStatements
  | forLoops
  | whileLoops
  | tryCatchBlocks
  | switchStatements
  | lambdaExpressions
  | methodReferences
  | assertStatements
  | synchronizedBlocks
  | throwStatements
  | generics
  | annotationUses
  | innerClasses
  deriving DecidableEq, Repr

namespace Category

/-- Every category, in report order. -/
def all : List Category :=
  [.classes, .methods, .statements, .imports, .fields, .constructors, .interfaces, .enums,
   .annotations, .comments, .ifStatements, .forLoops, .whileLoops, .tryCatchBlocks,
   .switchStatements, .lambdaExpressions, .methodReferences, .assertStatements,
   .synchronizedBlocks, .throwStatements, .generics, .annotationUses, .innerClasses]

/-- The label of a category in the report. -/
def label : Category → String
  | .classes => "Classes"
  | .methods => "Methods"
  | .statements => "Statements"
  | .imports => "Imports"
  | .fields => "Fields"
  | .constructors => "Constructors"
  | .interfaces => "Interfaces"
  | .enums => "Enums"
  | .annotations => "Annotations"
  | .comments => "Comments"
  | .ifStatements => "If Statements"
  | .forLoops => "For Loops"
  | .whileLoops => "While Loops"
  | .tryCatchBlocks => "Try-Catch Blocks"
  | .switchStatements => "Switch Statements"
  | .lambdaExpressions => "Lambda Expressions"
  | .methodReferences => "Method References"
  | .assertStatements => "Assert Statements"
  | .synchronizedBlocks => "Synchronized Blocks"
  | .throwStatements => "Throw Statements"
  | .generics => "Generics"
  | .annotationUses => "Annotation Uses"
  | .innerClasses => "Inner Classes"

/-- Where the count of a category is kept. -/
def index : Category → Fin 23
  | .classes => 0
  | .methods => 1
  | .statements => 2
  | .imports => 3
  | .fields => 4
  | .constructors => 5
  | .interfaces => 6
  | .enums => 7
  | .annotations => 8
  | .comments => 9
  | .ifStatements => 10
  | .forLoops => 11
  | .whileLoops => 12
  | .tryCatchBlocks => 13
  | .switchStatements => 14
  | .lambdaExpressions => 15
  | .methodReferences => 16
  | .assertStatements => 17
  | .synchronizedBlocks => 18
  | .throwStatements => 19
  | .generics => 20
  | .annotationUses => 21
  | .innerClasses => 22

/-- Every category has a place of its own. -/
theorem index_injective {c d : Category} (h : c.index = d.index) : c = d := by
  cases c <;> cases d <;> first | rfl | exact absurd h (by decide)

end Category

/-- The categories a node counts in because of its kind. -/
def Kind.categories : Kind → List Category
  | .importDecl => [.imports]
  | .type .class => [.classes]
  | .type .interface => [.classes, .interfaces]
  | .type .enum => [.enums]
  | .type .annotationType => [.annotations]
  | .member .method => [.methods]
  | .member .constructor => [.constructors]
  | .member .field => [.fields]
  | .typeParameter => [.generics]
  | .statement .conditional => [.statements, .ifStatements]
  | .statement .for => [.statements, .forLoops]
  | .statement .while => [.statements, .whileLoops]
  | .statement .tryCatch => [.statements, .tryCatchBlocks]
  | .statement .switch => [.statements, .switchStatements]
  | .statement .assert => [.statements, .assertStatements]
  | .statement .synchronized => [.statements, .synchronizedBlocks]
  | .statement .throw => [.statements, .throwStatements]
  | .statement _ => [.statements]
  | .expression .lambda => [.lambdaExpressions]
  | .expression .methodReference => [.methodReferences]
  | .expression .annotationUse => [.annotationUses]
  | .comment _ => [.comments]
  | _ => []

/-- Whether a node declares a type inside another type.  The parent counts
    wherever in the tree it is. -/
def Cursor.isInnerClass (n : Cursor) : Bool :=
  n.kind.isType && (n.parent?.map (·.kind.isType)).getD false

/-- All categories a node counts in. -/
def Cursor.categories (n : Cursor) : List Category :=
  if n.isInnerClass then n.kind.categories ++ [.innerClasses] else n.kind.categories

/-! ## Section 2: Counting -/

/-- A count for each category. -/
structure Statistics where
  /-- The counts, each at the index of its category. -/
  counts : Vector Nat 23
  deriving DecidableEq

namespace Statistics

/-- All counts zero. -/
def zero : Statistics := ⟨Vector.replicate 23 0⟩

/-- The count of a category. -/
def get (s : Statistics) (c : Category) : Nat := s.counts[c.index]

/-- Count one more of a category. -/
def bump (s : Statistics) (c : Category) : Statistics :=
  ⟨s.counts.set c.index (s.get c + 1)⟩

/-- Counts every node it enters in all its categories. -/
def visitor : Visitor Empty Statistics :=
  .pure (fun n s => n.categories.foldl bump s) (fun _ s => s)

/-- The counts of a subtree. -/
def collect (n : Cursor) : Statistics := visitor.finalState n zero

/-- The categories with their counts, in report order. -/
def entries (s : Statistics) : List (Category × Nat) := Category.all.map fun c => (c, s.get c)

/-! ## Section 3: The report -/

/-- Width of the label column. -/
def labelWidth : Nat := 30

/-- Width of the count column; larger counts widen their row. -/
def countWidth : Nat := 5

/-- A text filled up with spaces at its end. -/
def padEnd (width : Nat) (s : String) : String :=
  s ++ String.ofList (List.replicate (width - s.toList.length) ' ')

/-- A text filled up with spaces at its start. -/
def padStart (width : Nat) (s : String) : String :=
  String.ofList (List.replicate (width - s.toList.length) ' ') ++ s

/-- A horizontal line of the table. -/
def border : String :=
  "+" ++ String.ofList (List.replicate (labelWidth + 2) '-') ++ "+"
    ++ String.ofList (List.replicate (countWidth + 2) '-') ++ "+"

/-- A row of the table. -/
def row (label count : String) : String :=
  "| " ++ padEnd labelWidth label ++ " | " ++ padStart countWidth count ++ " |"

/-- The lines of the table: a heading and a row for each category. -/
def tableLines (s : Statistics) : List String :=
  [border, row "Statistic" "Count", border]
    ++ s.entries.map (fun (c, n) => row c.label (toString n))
    ++ [border]

/-- The table. -/
def table (s : Statistics) : String := String.join (s.tableLines.map (· ++ "\n"))

/-- The report on a subtree. -/
def report (n : Cursor) : String := "Stats:\n" ++ (collect n).table

end Statistics

end JavaTree
