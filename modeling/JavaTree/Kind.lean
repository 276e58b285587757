/-! # Node kinds

    The closed set of kinds a node of a Java syntax tree can have, grouped
    into families so that a whole family can be treated at once.  The module
    also fixes which kinds may stand below which (`Kind.accepts`) and how many
    children a node needs at least (`Kind.minChildren`).  Together the two
    tables are the grammar that a tree is checked against. -/

namespace JavaTree

/-! ## Section 1: Families of kinds -/

/-- Type declarations. -/
inductive TypeKind where
  | «class»
  | interface
  | enum
  /-- An `@interface` declaration. -/
  | annotationType
  deriving DecidableEq, Repr

/-- Declarations that live in the body of a type. -/
inductive MemberKind where
  | method
  | constructor
  | field
  | enumConstant
  | annotationMember
  | initializer
  deriving DecidableEq, Repr

/-- Statements. -/
inductive StatementKind where
  | block
  | expression
  | localVariable
  | conditional
  | «for»
  | forEach
  | while
  | doWhile
  | switch
  | tryCatch
  | throw
  | «return»
  | «break»
  | «continue»
  | assert
  | synchronized
  | labeled
  | empty
  | localClass
  /-- A `this(...)` or `super(...)` call at the start of a constructor. -/
  | constructorCall
  deriving DecidableEq, Repr

/-- Expressions; an annotation counts as one. -/
inductive ExpressionKind where
  | name
  | literal
  | this
  | super
  | fieldAccess
  | methodCall
  | objectCreation
  | arrayCreation
  | arrayAccess
  | arrayInitializer
  | unary
  | binary
  | assign
  | conditional
  | cast
  | instanceOf
  | enclosed
  | lambda
  | methodReference
  | annotationUse
  | classLiteral
  deriving DecidableEq, Repr

/-- Comments. -/
inductive CommentKind where
  | line
  | block
  | javadoc
  deriving DecidableEq, Repr

/-- The kind of a tree node. -/
inductive Kind where
  | compilationUnit
  | packageDecl
  | importDecl
  | type (kind : TypeKind)
  | member (kind : MemberKind)
  | parameter
  | variableDeclarator
  | typeParameter
  | catchClause
  | switchEntry
  | statement (kind : StatementKind)
  | expression (kind : ExpressionKind)
  | comment (kind : CommentKind)
  deriving DecidableEq, Repr

/-! ## Section 2: Listing and names -/

/-- Every type declaration kind, in report order. -/
def TypeKind.all : List TypeKind := [.class, .interface, .enum, .annotationType]

/-- The keyword that opens a declaration of this kind. -/
def TypeKind.keyword : TypeKind → String
  | .class => "class"
  | .interface => "interface"
  | .enum => "enum"
  | .annotationType => "@interface"

/-- Every member kind, in report order. -/
def MemberKind.all : List MemberKind :=
  [.method, .constructor, .field, .enumConstant, .annotationMember, .initializer]

/-- Every statement kind, in report order. -/
def StatementKind.all : List StatementKind :=
  [.block, .expression, .localVariable, .conditional, .for, .forEach, .while, .doWhile, .switch,
   .tryCatch, .throw, .return, .break, .continue, .assert, .synchronized, .labeled, .empty,
   .localClass, .constructorCall]

/-- Every expression kind, in report order. -/
def ExpressionKind.all : List ExpressionKind :=
  [.name, .literal, .this, .super, .fieldAccess, .methodCall, .objectCreation, .arrayCreation,
   .arrayAccess, .arrayInitializer, .unary, .binary, .assign, .conditional, .cast, .instanceOf,
   .enclosed, .lambda, .methodReference, .annotationUse, .classLiteral]

/-- Every comment kind, in report order. -/
def CommentKind.all : List CommentKind := [.line, .block, .javadoc]

namespace Kind

/-- Every kind, in report order. -/
def all : List Kind :=
  [.compilationUnit, .packageDecl, .importDecl]
    ++ TypeKind.all.map .type
    ++ MemberKind.all.map .member
    ++ [.parameter, .variableDeclarator, .typeParameter, .catchClause, .switchEntry]
    ++ StatementKind.all.map .statement
    ++ ExpressionKind.all.map .expression
    ++ CommentKind.all.map .comment

/-- The list of kinds leaves none out. -/
theorem mem_all (k : Kind) : k ∈ all := by
  cases k with
  | type k => cases k <;> decide
  | member k => cases k <;> decide
  | statement k => cases k <;> decide
  | expression k => cases k <;> decide
  | comment k => cases k <;> decide
  | _ => decide

/-- The stable name of a kind in documents and graph labels. -/
def name : Kind → String
  | .compilationUnit => "CompilationUnit"
  | .packageDecl => "PackageDecl"
  | .importDecl => "ImportDecl"
  | .type .class => "ClassDecl"
  | .type .interface => "InterfaceDecl"
  | .type .enum => "EnumDecl"
  | .type .annotationType => "AnnotationDecl"
  | .member .method => "MethodDecl"
  | .member .constructor => "ConstructorDecl"
  | .member .field => "FieldDecl"
  | .member .enumConstant => "EnumConstantDecl"
  | .member .annotationMember => "AnnotationMemberDecl"
  | .member .initializer => "InitializerDecl"
  | .parameter => "Parameter"
  | .variableDeclarator => "VariableDeclarator"
  | .typeParameter => "TypeParameter"
  | .catchClause => "CatchClause"
  | .switchEntry => "SwitchEntry"
  | .statement .block => "BlockStmt"
  | .statement .expression => "ExpressionStmt"
  | .statement .localVariable => "LocalVarStmt"
  | .statement .conditional => "IfStmt"
  | .statement .for => "ForStmt"
  | .statement .forEach => "ForEachStmt"
  | .statement .while => "WhileStmt"
  | .statement .doWhile => "DoStmt"
  | .statement .switch => "SwitchStmt"
  | .statement .tryCatch => "TryStmt"
  | .statement .throw => "ThrowStmt"
  | .statement .return => "ReturnStmt"
  | .statement .break => "BreakStmt"
  | .statement .continue => "ContinueStmt"
  | .statement .assert => "AssertStmt"
  | .statement .synchronized => "SynchronizedStmt"
  | .statement .labeled => "LabeledStmt"
  | .statement .empty => "EmptyStmt"
  | .statement .localClass => "LocalClassStmt"
  | .statement .constructorCall => "ExplicitCtorStmt"
  | .expression .name => "NameExpr"
  | .expression .literal => "LiteralExpr"
  | .expression .this => "ThisExpr"
  | .expression .super => "SuperExpr"
  | .expression .fieldAccess => "FieldAccessExpr"
  | .expression .methodCall => "MethodCallExpr"
  | .expression .objectCreation => "ObjectCreationExpr"
  | .expression .arrayCreation => "ArrayCreationExpr"
  | .expression .arrayAccess => "ArrayAccessExpr"
  | .expression .arrayInitializer => "ArrayInitializerExpr"
  | .expression .unary => "UnaryExpr"
  | .expression .binary => "BinaryExpr"
  | .expression .assign => "AssignExpr"
  | .expression .conditional => "ConditionalExpr"
  | .expression .cast => "CastExpr"
  | .expression .instanceOf => "InstanceOfExpr"
  | .expression .enclosed => "EnclosedExpr"
  | .expression .lambda => "LambdaExpr"
  | .expression .methodReference => "MethodReferenceExpr"
  | .expression .annotationUse => "AnnotationExpr"
  | .expression .classLiteral => "ClassExpr"
  | .comment .line => "LineComment"
  | .comment .block => "BlockComment"
  | .comment .javadoc => "JavadocComment"

/-- The kind with a given name. -/
def ofName? (s : String) : Option Kind := all.find? (·.name == s)

/-! ## Section 3: Classification -/

/-- Whether the kind declares a type. -/
def isType : Kind → Bool
  | .type _ => true
  | _ => false

/-- Whether the kind is a statement. -/
def isStatement : Kind → Bool
  | .statement _ => true
  | _ => false

/-- Whether the kind is an expression. -/
def isExpression : Kind → Bool
  | .expression _ => true
  | _ => false

/-- Whether the kind is a comment. -/
def isComment : Kind → Bool
  | .comment _ => true
  | _ => false

/-- Whether the kind is the use of an annotation. -/
def isAnnotationUse (k : Kind) : Bool := k = .expression .annotationUse

/-- Whether the kind is a statement block. -/
def isBlock (k : Kind) : Bool := k = .statement .block

/-! ## Section 4: The tree grammar -/

/-- Whether a type declaration of kind `k` may hold `child` as a member of
    its body.  Enum constants and annotation members have a home of their own. -/
def holdsMember (k : TypeKind) : Kind → Bool
  | .member .enumConstant => k = .enum
  | .member .annotationMember => k = .annotationType
  | .member _ => true
  | _ => false

/-- What a node of kind `parent` may hold, a nested compilation unit aside. -/
def admits (parent child : Kind) : Bool :=
  match parent with
  | .compilationUnit =>
      child = .packageDecl || child = .importDecl || child.isType || child.isComment
  | .packageDecl | .importDecl | .parameter | .typeParameter => child.isAnnotationUse
  | .type k =>
      holdsMember k child || child.isType || child = .typeParameter || child.isComment
        || child.isAnnotationUse
  | .member .method | .member .constructor =>
      child = .typeParameter || child = .parameter || child.isBlock || child.isComment
        || child.isAnnotationUse
  | .member .field | .statement .localVariable =>
      child = .variableDeclarator || child.isAnnotationUse
  | .member .enumConstant | .member .annotationMember | .variableDeclarator =>
      child.isExpression
  | .member .initializer => child.isBlock
  | .catchClause => child = .parameter || child.isBlock
  | .switchEntry => child.isExpression || child.isStatement || child.isComment
  | .statement .block => child.isStatement || child.isComment
  | .statement .localClass => child.isType
  | .statement .switch => child.isExpression || child = .switchEntry
  | .statement .tryCatch => child.isStatement || child.isExpression || child = .catchClause
  | .statement .empty | .statement .break | .statement .continue => false
  | .statement _ => child.isExpression || child.isStatement
  | .expression .lambda => child = .parameter || child.isExpression || child.isBlock
  | .expression .name | .expression .literal | .expression .this | .expression .super
  | .expression .classLiteral => false
  | .expression _ => child.isExpression
  | .comment _ => false

/-- Whether a node of kind `child` may stand directly below one of kind
    `parent`.  A compilation unit is never nested. -/
def accepts (parent child : Kind) : Bool :=
  child != .compilationUnit && parent.admits child

/-- The least number of children of a well-formed node. -/
def minChildren : Kind → Nat
  | .member .field | .member .initializer | .catchClause => 1
  | .statement .conditional | .statement .forEach | .statement .while | .statement .doWhile
  | .statement .synchronized => 2
  | .statement .expression | .statement .localVariable | .statement .for | .statement .switch
  | .statement .tryCatch | .statement .throw | .statement .assert | .statement .labeled
  | .statement .localClass => 1
  | .expression .conditional => 3
  | .expression .arrayAccess | .expression .binary | .expression .assign => 2
  | .expression .fieldAccess | .expression .unary | .expression .cast | .expression .instanceOf
  | .expression .enclosed | .expression .lambda | .expression .methodReference => 1
  | _ => 0

end Kind

end JavaTree
