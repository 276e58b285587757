import JavaTree.Proofs.Print.Fragment

/-! # Templates without layout

    The templates of `Renderer` on fragments.  Where a text is indented line
    by line there, a fragment is nested here, and positions and slices have no
    bounds.  What comes out, written with some unit of indentation, is the
    text that is rendered with this unit (`Template.renders_node`), so that
    everything about source texts that does not depend on the layout can be
    proved here. -/

namespace JavaTree.Template

/-! ## Section 1: Texts of several parts -/

/-- The texts of parts, with a separator between them. -/
def list (sep : String) (parts : List (Part Fragment)) : Fragment :=
  Fragment.join sep (parts.map (·.body))

/-- The texts of parts, each on a line of its own. -/
def ownLines (parts : List (Part Fragment)) : Fragment :=
  Fragment.joinEnding "\n" (parts.map (·.body))

/-- The texts of parts, each followed by a space. -/
def spaced (parts : List (Part Fragment)) : Fragment :=
  Fragment.joinEnding " " (parts.map (·.body))

/-! ## Section 2: Layout of bodies -/

/-- Declarations one below the other.  A blank line divides them, except
    after a comment and between imports. -/
def items : List (Part Fragment) → Fragment
  | [] => .empty
  | [p] => p.body
  | p :: q :: rest =>
    let tight := p.kind.isComment || (p.kind = .importDecl && q.kind = .importDecl)
    p.body ++ ((if tight then "\n" else "\n\n" : String) ++ items (q :: rest))

/-- A body in braces. -/
def braced (body : Fragment) : Fragment :=
  if body.isEmpty then ("\x7b\n\x7d" : Fragment)
  else Fragment.nest "\x7b" body ++ ("\n\x7d" : Fragment)

/-- The body of a control statement.  A block stays on the line of the
    header, any other statement goes below it. -/
def controlled (header : Fragment) (body : Part Fragment) : Fragment :=
  if body.kind.isBlock then header ++ (" " : Fragment) ++ body.body else header.nest body.body

/-! ## Section 3: Declarations -/

/-- A package declaration. -/
def packageDecl (a : Attributes) (parts : List (Part Fragment)) : Fragment :=
  ownLines parts ++ ("package " ++ textAt a Key.name ++ ";" : String)

/-- An import. -/
def importDecl (a : Attributes) : Fragment :=
  ("import " ++ (if a.flag Key.isStatic then "static " else "") ++ textAt a Key.name
    ++ (if a.flag Key.asterisk then ".*" else "") ++ ";" : String)

/-- Type parameters in angle brackets, or nothing. -/
def typeParameters (parts : List (Part Fragment)) : Fragment :=
  if parts.isEmpty then .empty
  else ("<" : Fragment) ++ list ", " parts ++ (">" : Fragment)

/-- The members of a type.  The constants of an enum come first, on one line. -/
def typeBody (kind : TypeKind) (members : List (Part Fragment)) : Fragment :=
  if kind = .enum then
    let constants := ofKind (.member .enumConstant) members
    let others := notOfKind (.member .enumConstant) members
    if others.isEmpty then list ", " constants
    else list ", " constants ++ (";\n\n" : Fragment) ++ items others
  else items members

/-- A type declaration. -/
def typeDecl (kind : TypeKind) (a : Attributes) (parts : List (Part Fragment)) : Fragment :=
  let annotations := annotationsOf parts
  let rest := withoutAnnotations parts
  let header := ownLines annotations
    ++ (wordAt a Key.modifiers ++ kind.keyword ++ " " ++ textAt a Key.name : String)
    ++ typeParameters (ofKind .typeParameter rest)
    ++ (clauseAt a "extends" Key.superTypes ++ clauseAt a "implements" Key.interfaces : String)
  let body := typeBody kind (notOfKind .typeParameter rest)
  if body.isEmpty then header ++ (" \x7b\n\x7d" : Fragment)
  else (header ++ (" \x7b\n" : Fragment)).nest body ++ ("\n\x7d" : Fragment)

/-- A method or a constructor, after its comments and annotations. -/
def callable (isMethod : Bool) (a : Attributes) (parts : List (Part Fragment)) : Fragment :=
  let typeParams := ofKind .typeParameter parts
  let rest := notOfKind .typeParameter parts
  let header := ofTextWithTypes typeParams
    ++ ((if isMethod then (a.text? Key.type).getD "void" ++ " " else "")
      ++ textAt a Key.name ++ "(" : String)
    ++ list ", " (ofKind .parameter rest)
    ++ (")" ++ clauseAt a "throws" Key.thrown : String)
  match notOfKind .parameter rest with
  | body :: _ => header ++ (" " : Fragment) ++ body.body
  | [] => header ++ (";" : Fragment)
where
  /-- Modifiers and type parameters, each with a space behind. -/
  ofTextWithTypes (typeParams : List (Part Fragment)) : Fragment :=
    if typeParams.isEmpty then (wordAt a Key.modifiers : Fragment)
    else (wordAt a Key.modifiers : Fragment) ++ typeParameters typeParams ++ (" " : Fragment)

/-- A member of a type. -/
def member (kind : MemberKind) (a : Attributes) (parts : List (Part Fragment)) :
    Except RenderFailure Fragment := do
  let comments := ownLines (parts.filter (·.kind.isComment))
  let parts := parts.filter (!·.kind.isComment)
  let annotations := annotationsOf parts
  let rest := withoutAnnotations parts
  match kind with
  | .method => return comments ++ ownLines annotations ++ callable true a rest
  | .constructor => return comments ++ ownLines annotations ++ callable false a rest
  | .field =>
    return comments ++ ownLines annotations
      ++ (wordAt a Key.modifiers ++ textAt a Key.type ++ " " : String) ++ list ", " rest
      ++ (";" : Fragment)
  | .enumConstant =>
    let named := comments ++ spaced annotations ++ (textAt a Key.name : Fragment)
    if rest.isEmpty then return named
    else return named ++ ("(" : Fragment) ++ list ", " rest ++ (")" : Fragment)
  | .annotationMember =>
    let named := comments ++ ownLines annotations
      ++ (wordAt a Key.modifiers ++ textAt a Key.type ++ " " ++ textAt a Key.name ++ "()" : String)
    match rest with
    | value :: _ => return named ++ (" default " : Fragment) ++ value.body ++ (";" : Fragment)
    | [] => return named ++ (";" : Fragment)
  | .initializer =>
    let body ← required (.member kind) rest 0 "body"
    return comments ++ ((if a.flag Key.isStatic then "static " else "") : String) ++ body.body

/-- A parameter.  Without a type it is just a name. -/
def parameter (a : Attributes) (parts : List (Part Fragment)) : Fragment :=
  if textAt a Key.type = "" then (textAt a Key.name : Fragment)
  else spaced parts
    ++ (wordAt a Key.modifiers ++ textAt a Key.type ++ (if a.flag Key.varargs then "..." else "")
      ++ " " ++ textAt a Key.name : String)

/-- A declared variable. -/
def variableDeclarator (a : Attributes) (parts : List (Part Fragment)) : Fragment :=
  match parts with
  | init :: _ => (textAt a Key.name ++ " = " : String) ++ init.body
  | [] => (textAt a Key.name : Fragment)

/-- A type parameter. -/
def typeParameter (a : Attributes) (parts : List (Part Fragment)) : Fragment :=
  spaced parts ++ (textAt a Key.name ++ clauseAt a "extends" Key.bound : String)

/-- A `catch` clause. -/
def catchClause (parts : List (Part Fragment)) : Except RenderFailure Fragment := do
  let param ← required .catchClause (ofKind .parameter parts) 0 "parameter"
  let body ← required .catchClause (notOfKind .parameter parts) 0 "body"
  return ("catch (" : Fragment) ++ param.body ++ (") " : Fragment) ++ body.body

/-- An entry of a `switch`. -/
def switchEntry (a : Attributes) (parts : List (Part Fragment)) : Fragment :=
  let labels := parts.take (a.count Key.labels)
  let body := parts.drop (a.count Key.labels)
  let header : Fragment :=
    if labels.isEmpty then ("default:" : Fragment)
    else ("case " : Fragment) ++ list ", " labels ++ (":" : Fragment)
  if body.isEmpty then header else header.nest (list "\n" body)

/-! ## Section 4: Statements -/

/-- A declaration of local variables. -/
def localVariable (a : Attributes) (parts : List (Part Fragment)) : Fragment :=
  spaced (annotationsOf parts)
    ++ (wordAt a Key.modifiers ++ (a.text? Key.type).getD "var" ++ " " : String)
    ++ list ", " (withoutAnnotations parts) ++ (";" : Fragment)

/-- An `if`.  The then-branch gets braces if it would take the `else`. -/
def conditional (condition thenPart : Part Fragment) : Option (Part Fragment) → Fragment
  | none => controlled (header condition) thenPart
  | some elsePart =>
    -- Without braces an open `if` at the end of the branch would take the `else`.
    let wrap := !thenPart.kind.isBlock && thenPart.endsInOpenIf
    let upper :=
      if wrap then header condition ++ (" " : Fragment) ++ braced thenPart.body
      else controlled (header condition) thenPart
    let upper := upper ++ ((if thenPart.kind.isBlock || wrap then " else" else "\nelse") : String)
    if elsePart.kind = .statement .conditional then upper ++ (" " : Fragment) ++ elsePart.body
    else controlled upper elsePart
where
  /-- The condition in its parentheses. -/
  header (condition : Part Fragment) : Fragment :=
    ("if (" : Fragment) ++ condition.body ++ (")" : Fragment)

/-- A `for` with counted initializers, an optional condition and counted
    updates in front of its body. -/
def forLoop (a : Attributes) (parts : List (Part Fragment)) : Except RenderFailure Fragment := do
  let init := a.count Key.init
  let condition := if a.flag Key.condition then 1 else 0
  let bodyIndex := init + condition + a.count Key.update
  let body ← required (.statement .for) parts bodyIndex "body"
  let head := parts.take bodyIndex
  -- Statements among the initializers bring semicolons of their own.
  let inits := Fragment.join ", " ((head.take init).map (·.body.trimSemicolons))
  let test := list "" ((head.drop init).take condition)
  let updates := list ", " (head.drop (init + condition))
  return controlled (("for (" : Fragment) ++ inits ++ ("; " : Fragment) ++ test
    ++ ("; " : Fragment) ++ updates ++ (")" : Fragment)) body

/-- A `try` with counted resources, a block, catch clauses, and a `finally`
    block if the node says that its last child is one. -/
def tryCatch (a : Attributes) (parts : List (Part Fragment)) : Except RenderFailure Fragment := do
  let resources := a.count Key.resources
  let block ← required (.statement .tryCatch) parts resources "try block"
  let opened : Fragment :=
    if resources = 0 then ("try " : Fragment)
    else ("try (" : Fragment)
      ++ Fragment.join "; " ((parts.take resources).map (·.body.trimSemicolons))
      ++ (") " : Fragment)
  let tail := parts.drop (resources + 1)
  -- Without any child left there is no `finally`, whatever the node says.
  let catches := if a.flag Key.hasFinally then tail.dropLast else tail
  let withCatches := catches.foldl (fun f c => f ++ (" " : Fragment) ++ c.body)
    (opened ++ block.body)
  match (if a.flag Key.hasFinally then tail.getLast? else none) with
  | some last => return withCatches ++ (" finally " : Fragment) ++ last.body
  | none => return withCatches

/-- A `break` or `continue`, with its label if it has one. -/
def jump (word : String) (a : Attributes) : Fragment :=
  match a.nonempty? Key.label with
  | some label => (word ++ " " ++ label ++ ";" : String)
  | none => (word ++ ";" : String)

/-- A statement. -/
def statement (kind : StatementKind) (a : Attributes) (parts : List (Part Fragment)) :
    Except RenderFailure Fragment := do
  let part := required (.statement kind) parts
  match kind with
  | .block => return braced (list "\n" parts)
  | .expression =>
    let e ← part 0 "expression"
    return e.body ++ (";" : Fragment)
  | .localVariable => return localVariable a parts
  | .conditional =>
    let condition ← part 0 "condition"
    let thenPart ← part 1 "then branch"
    return conditional condition thenPart parts[2]?
  | .for => forLoop a parts
  | .forEach =>
    let iterable ← part 0 "iterable"
    let body ← part 1 "body"
    return controlled
      (("for (" ++ wordAt a Key.modifiers ++ (a.text? Key.type).getD "var" ++ " "
        ++ textAt a Key.name ++ " : " : String) ++ iterable.body ++ (")" : Fragment)) body
  | .while =>
    let condition ← part 0 "condition"
    let body ← part 1 "body"
    return controlled (("while (" : Fragment) ++ condition.body ++ (")" : Fragment)) body
  | .doWhile =>
    let body ← part 0 "body"
    let condition ← part 1 "condition"
    return controlled ("do" : Fragment) body
      ++ ((if body.kind.isBlock then " " else "\n") ++ "while (" : String)
      ++ condition.body ++ (");" : Fragment)
  | .switch =>
    let selector ← part 0 "selector"
    return ("switch (" : Fragment) ++ selector.body ++ (") " : Fragment)
      ++ braced (list "\n" (parts.drop 1))
  | .tryCatch => tryCatch a parts
  | .throw =>
    let e ← part 0 "exception"
    return ("throw " : Fragment) ++ e.body ++ (";" : Fragment)
  | .return =>
    match parts with
    | value :: _ => return ("return " : Fragment) ++ value.body ++ (";" : Fragment)
    | [] => return ("return;" : Fragment)
  | .break => return jump "break" a
  | .continue => return jump "continue" a
  | .assert =>
    let check ← part 0 "check"
    match parts[1]? with
    | some message =>
      return ("assert " : Fragment) ++ check.body ++ (" : " : Fragment) ++ message.body
        ++ (";" : Fragment)
    | none => return ("assert " : Fragment) ++ check.body ++ (";" : Fragment)
  | .synchronized =>
    let lock ← part 0 "lock"
    let body ← part 1 "body"
    return controlled (("synchronized (" : Fragment) ++ lock.body ++ (")" : Fragment)) body
  | .labeled =>
    let body ← part 0 "statement"
    return (textAt a Key.label ++ ": " : String) ++ body.body
  | .empty => return (";" : Fragment)
  | .localClass =>
    let declaration ← part 0 "declaration"
    return declaration.body
  | .constructorCall =>
    return ((a.text? Key.name).getD "super" ++ "(" : String) ++ list ", " parts
      ++ (");" : Fragment)

/-! ## Section 5: Expressions -/

/-- A literal.  Line breaks in it are marked, so they are never indented. -/
def literal (a : Attributes) : Fragment :=
  String.ofList (((a.text? Key.value).getD "null").toList.map fun c =>
    if c = '\n' then lineMark else c)

/-- `this` or `super`, qualified by a name if there is one. -/
def selfReference (word : String) (a : Attributes) : Fragment :=
  if textAt a Key.name = "" then (word : Fragment)
  else (textAt a Key.name ++ "." ++ word : String)

/-- The creation of an array.  All children but an initializer are sizes, and
    there may be more dimensions, which have no size. -/
def arrayCreation (a : Attributes) (parts : List (Part Fragment)) :
    Except RenderFailure Fragment := do
  let sizes := (notOfKind (.expression .arrayInitializer) parts).map fun p =>
    ("[" : Fragment) ++ p.body ++ ("]" : Fragment)
  let groups ← Text.repeated (a.count Key.extraDims) "[]"
  let sized := ("new " ++ textAt a Key.type : String) ++ Fragment.join "" sizes
    ++ (groups : Fragment)
  match (ofKind (.expression .arrayInitializer) parts).getLast? with
  | some init => return sized ++ (" " : Fragment) ++ init.body
  | none => return sized

/-- Whether an operator written directly before an operand would run
    together with it, as in `- -x`. -/
def mergesWith (operator : String) (operand : Fragment) : Bool :=
  match operator.toList.getLast?, operand.firstChar? with
  | some last, some first => (last = '-' || last = '+') && (first = '-' || first = '+')
  | _, _ => false

/-- An expression with one operator and one operand. -/
def unary (a : Attributes) (operand : Fragment) : Fragment :=
  let operator := textAt a Key.operator
  if a.flag Key.trailingOperator then operand ++ (operator : Fragment)
  else if mergesWith operator operand then (operator ++ " " : String) ++ operand
  else (operator : Fragment) ++ operand

/-- A lambda.  A single parameter without type needs no parentheses. -/
def lambda (parts : List (Part Fragment)) : Except RenderFailure Fragment := do
  let params := ofKind .parameter parts
  -- The body is the last child; a parameter in its place is none.
  let body ← required (.expression .lambda)
    (parts.getLast?.toList.filter (·.kind ≠ .parameter)) 0 "body"
  match params with
  | [p] =>
    if textAt p.attributes Key.type = "" then
      return p.body ++ (" -> " : Fragment) ++ body.body
    else return ("(" : Fragment) ++ p.body ++ (") -> " : Fragment) ++ body.body
  | _ => return ("(" : Fragment) ++ list ", " params ++ (") -> " : Fragment) ++ body.body

/-- An expression. -/
def expression (kind : ExpressionKind) (a : Attributes) (parts : List (Part Fragment)) :
    Except RenderFailure Fragment := do
  let part := required (.expression kind) parts
  let name := textAt a Key.name
  let type := textAt a Key.type
  match kind with
  | .name => return (name : Fragment)
  | .literal => return literal a
  | .this => return selfReference "this" a
  | .super => return selfReference "super" a
  | .fieldAccess =>
    let scope ← part 0 "scope"
    return scope.body ++ ("." ++ name : String)
  | .methodCall =>
    if a.flag Key.hasScope then
      let scope ← part 0 "scope"
      return scope.body ++ ("." ++ name ++ "(" : String) ++ list ", " (parts.drop 1)
        ++ (")" : Fragment)
    else return (name ++ "(" : String) ++ list ", " parts ++ (")" : Fragment)
  | .objectCreation =>
    return ("new " ++ type ++ "(" : String) ++ list ", " parts ++ (")" : Fragment)
  | .arrayCreation => arrayCreation a parts
  | .arrayAccess =>
    let array ← part 0 "array"
    let index ← part 1 "index"
    return array.body ++ ("[" : Fragment) ++ index.body ++ ("]" : Fragment)
  | .arrayInitializer => return ("\x7b" : Fragment) ++ list ", " parts ++ ("\x7d" : Fragment)
  | .unary =>
    let operand ← part 0 "operand"
    return unary a operand.body
  | .binary =>
    let left ← part 0 "left operand"
    let right ← part 1 "right operand"
    return left.body ++ (" " ++ textAt a Key.operator ++ " " : String) ++ right.body
  | .assign =>
    let target ← part 0 "target"
    let value ← part 1 "value"
    return target.body ++ (" " ++ (a.text? Key.operator).getD "=" ++ " " : String) ++ value.body
  | .conditional =>
    let condition ← part 0 "condition"
    let yes ← part 1 "then value"
    let no ← part 2 "else value"
    return condition.body ++ (" ? " : Fragment) ++ yes.body ++ (" : " : Fragment) ++ no.body
  | .cast =>
    let operand ← part 0 "operand"
    return ("(" ++ type ++ ") " : String) ++ operand.body
  | .instanceOf =>
    let operand ← part 0 "operand"
    return operand.body ++ (" instanceof " ++ type : String)
  | .enclosed =>
    let inner ← part 0 "inner expression"
    return ("(" : Fragment) ++ inner.body ++ (")" : Fragment)
  | .lambda => lambda parts
  | .methodReference =>
    let scope ← part 0 "scope"
    return scope.body ++ ("::" ++ name : String)
  | .annotationUse =>
    if parts.isEmpty then return ("@" ++ name : String)
    else return ("@" ++ name ++ "(" : String) ++ list ", " parts ++ (")" : Fragment)
  | .classLiteral => return (type ++ ".class" : String)

/-! ## Section 6: Comments -/

/-- A comment. -/
def comment (kind : CommentKind) (a : Attributes) : Fragment :=
  let content := textAt a Key.content
  match kind with
  | .line => ("//" ++ String.ofList (Text.trimEnd content.toList) : String)
  | .block => (delimited "/*" content "*/" : Fragment)
  | .javadoc => (delimited "/**" content "*/" : Fragment)

/-! ## Section 7: All kinds -/

/-- The source text of a node from those of its children. -/
def node (kind : Kind) (a : Attributes) (parts : List (Part Fragment)) :
    Except RenderFailure Fragment :=
  match kind with
  | .compilationUnit => .ok (items parts)
  | .packageDecl => .ok (packageDecl a parts)
  | .importDecl => .ok (importDecl a)
  | .type k => .ok (typeDecl k a parts)
  | .member k => member k a parts
  | .parameter => .ok (parameter a parts)
  | .variableDeclarator => .ok (variableDeclarator a parts)
  | .typeParameter => .ok (typeParameter a parts)
  | .catchClause => catchClause parts
  | .switchEntry => .ok (switchEntry a parts)
  | .statement k => statement k a parts
  | .expression k => expression k a parts
  | .comment k => .ok (comment k a)

end JavaTree.Template
