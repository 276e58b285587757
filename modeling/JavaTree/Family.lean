import JavaTree.Kind

/-! # Families of kinds

    Kinds fall into thirteen families; those with several members (type
    declarations, members, statements, expressions, comments) are treated
    alike by graph styles. -/

namespace JavaTree

/-- A family of node kinds. -/
inductive Family where
  | compilationUnit
  | package
  | imports
  | typeDecl
  | member
  | parameter
  | variableDeclarator
  | typeParameter
  | catchClause
  | switchEntry
  | statement
  | expression
  | comment
  deriving DecidableEq, Repr

/-- The family of a kind. -/
def Kind.family : Kind → Family
  | .compilationUnit => .compilationUnit
  | .packageDecl => .package
  | .importDecl => .imports
  | .type _ => .typeDecl
  | .member _ => .member
  | .parameter => .parameter
  | .variableDeclarator => .variableDeclarator
  | .typeParameter => .typeParameter
  | .catchClause => .catchClause
  | .switchEntry => .switchEntry
  | .statement _ => .statement
  | .expression _ => .expression
  | .comment _ => .comment

end JavaTree
