import JavaTree.Attribute
import JavaTree.Kind
import JavaTree.Panic
import JavaTree.Text.Blank
import JavaTree.Text.Pieces

/-! # Source texts of nodes

    How the source text of a node is put together from the texts of its
    children.  There is one template for each kind.  Which part a child plays
    follows from its kind or its position, and from the counts and flags in
    the node's attributes; a template fails if a part it needs is missing, and
    it panics if a text that it repeats has no room.

    Bodies are indented as text: a template that sets a body off puts the unit
    of indentation in front of every line of the finished body
    (`Renderer.indent`), so that a line is moved once for each body it stands
    in. -/

namespace JavaTree

/-! ## Section 1: Parts -/

/-- What a node lacks that has no source text. -/
inductive RenderError where
  | missingChild (kind : Kind) (role : String)
  deriving DecidableEq, Repr

/-- The wording of a failure. -/
def RenderError.message : RenderError → String
  | .missingChild kind role => kind.name ++ " is missing its " ++ role

/-- Why there is no source text: for a reason that is reported, or because of
    a panic. -/
inductive RenderFailure where
  | reported (cause : RenderError)
  | panicked (cause : Panic)
  deriving DecidableEq, Repr

instance : MonadLift (Except Panic) (Except RenderFailure) where
  monadLift x := x.mapError .panicked

theorem lift_ok_bind {α β : Type} (a : α) (f : α → Except RenderFailure β) :
    (liftM (.ok a : Except Panic α) >>= f) = f a := rfl

theorem lift_error_bind {α β : Type} (e : Panic) (f : α → Except RenderFailure β) :
    (liftM (.error e : Except Panic α) >>= f) = .error (.panicked e) := rfl

/-- A child with its source text, which is of type `τ`. -/
structure Part (τ : Type) where
  /-- Kind of the child. -/
  kind : Kind
  /-- Attributes of the child. -/
  attributes : Attributes
  /-- Whether the child ends in an `if` that would take a following `else`. -/
  endsInOpenIf : Bool
  /-- Source text of the child. -/
  body : τ

namespace Template

variable {τ : Type}

/-- The parts that are annotations. -/
def annotationsOf (parts : List (Part τ)) : List (Part τ) := parts.filter (·.kind.isAnnotationUse)

/-- The parts that are no annotations. -/
def withoutAnnotations (parts : List (Part τ)) : List (Part τ) :=
  parts.filter (!·.kind.isAnnotationUse)

/-- The parts of one kind. -/
def ofKind (k : Kind) (parts : List (Part τ)) : List (Part τ) := parts.filter (·.kind = k)

/-- The parts of all other kinds. -/
def notOfKind (k : Kind) (parts : List (Part τ)) : List (Part τ) := parts.filter (·.kind ≠ k)

section

variable {α : Type} {part : α → Part τ} {kind : α → Kind}

theorem annotationsOf_map (h : ∀ x, (part x).kind = kind x) (xs : List α) :
    annotationsOf (xs.map part) = (xs.filter fun x => (kind x).isAnnotationUse).map part := by
  obtain rfl := funext h
  exact List.filter_map

theorem withoutAnnotations_map (h : ∀ x, (part x).kind = kind x) (xs : List α) :
    withoutAnnotations (xs.map part) = (xs.filter fun x => !(kind x).isAnnotationUse).map part := by
  obtain rfl := funext h
  exact List.filter_map

theorem ofKind_map (h : ∀ x, (part x).kind = kind x) (k : Kind) (xs : List α) :
    ofKind k (xs.map part) = (xs.filter fun x => kind x = k).map part := by
  obtain rfl := funext h
  exact List.filter_map

theorem notOfKind_map (h : ∀ x, (part x).kind = kind x) (k : Kind) (xs : List α) :
    notOfKind k (xs.map part) = (xs.filter fun x => kind x ≠ k).map part := by
  obtain rfl := funext h
  exact List.filter_map

end

/-- The part at a position, which the node cannot do without. -/
def required (kind : Kind) (parts : List (Part τ)) (i : Nat) (role : String) :
    Except RenderFailure (Part τ) :=
  match parts[i]? with
  | some p => .ok p
  | none => .error (.reported (.missingChild kind role))

/-- A required part is there exactly if the position is in range. -/
theorem required_cases (kind : Kind) (parts : List (Part τ)) (i : Nat) (role : String) :
    (∃ p, parts[i]? = some p ∧ required kind parts i role = pure p) ∨
      (parts.length ≤ i ∧
        required kind parts i role = .error (.reported (.missingChild kind role))) := by
  rw [required]
  cases h : parts[i]? with
  | some p => exact .inl ⟨p, rfl, rfl⟩
  | none => exact .inr ⟨List.getElem?_eq_none_iff.1 h, rfl⟩

/-- The text at a key, or nothing. -/
def textAt (a : Attributes) (key : String) : String := (a.text? key).getD ""

/-- The non-empty text at a key and a space, or nothing. -/
def wordAt (a : Attributes) (key : String) : String :=
  match a.nonempty? key with
  | some s => s ++ " "
  | none => ""

/-- A space, a word, a space and the non-empty text at a key, or nothing. -/
def clauseAt (a : Attributes) (word key : String) : String :=
  match a.nonempty? key with
  | some s => " " ++ word ++ " " ++ s
  | none => ""

/-- A comment between delimiters.  The first line loses white space at its
    end; every further line loses it at both ends and is set off by a space. -/
def delimited (opening content closing : String) : String :=
  match Text.pieces '\n' content.toList with
  | [] => opening ++ closing
  | first :: rest =>
    opening ++ String.ofList (Text.trimEnd first)
      ++ String.join (rest.map fun l => "\n " ++ String.ofList (Text.trim l)) ++ closing

end Template

/-- Drop the semicolons at the end of a text. -/
def Text.dropSemicolons (s : String) : String :=
  String.ofList (s.toList.reverse.dropWhile (· = ';')).reverse

/-- Stands for a line break that indentation does not touch. -/
def lineMark : Char := '\x00'

namespace Renderer

open Template (annotationsOf withoutAnnotations ofKind notOfKind required textAt wordAt clauseAt
  delimited)
open Checked (add item front back)

/-! ## Section 2: Texts of several parts -/

/-- The texts of parts, with a separator between them. -/
def list (sep : String) (parts : List (Part String)) : String :=
  sep.intercalate (parts.map (·.body))

/-- The texts of parts, each on a line of its own. -/
def ownLines (parts : List (Part String)) : String := String.join (parts.map (·.body ++ "\n"))

/-- The texts of parts, each followed by a space. -/
def spaced (parts : List (Part String)) : String := String.join (parts.map (·.body ++ " "))

/-- The texts of parts without semicolons at their ends, with a separator
    between them. -/
def trimmedList (sep : String) (parts : List (Part String)) : String :=
  sep.intercalate (parts.map (Text.dropSemicolons ·.body))

/-- Declarations behind those that came before, of which there are `i`.  A
    blank line divides them, except after a comment and between imports. -/
def itemsOnto (all : List (Part String)) (i : Nat) (out : String) :
    List (Part String) → Except RenderFailure String
  | [] => .ok out
  | p :: rest => do
    let out ← if i = 0 then pure out else do
      let prev ← item all (i - 1)
      let tight := prev.kind.isComment || (prev.kind = .importDecl && p.kind = .importDecl)
      pure (out ++ (if tight then "\n" else "\n\n"))
    itemsOnto all (i + 1) (out ++ p.body) rest

/-- Declarations one below the other. -/
def items (parts : List (Part String)) : Except RenderFailure String := itemsOnto parts 0 "" parts

/-! ## Section 3: Indentation -/

/-- Put the unit of indentation in front of every line that is not empty. -/
def indent (unit text : String) : String :=
  "\n".intercalate ((Text.pieces '\n' text.toList).map fun line =>
    if line = [] then "" else unit ++ String.ofList line)

/-- A body in braces. -/
def braced (unit body : String) : String :=
  if body = "" then "\x7b\n\x7d" else "\x7b\n" ++ indent unit body ++ "\n\x7d"

/-- The body of a control statement.  A block stays on the line of the
    header, any other statement goes below it, one level deeper. -/
def controlled (unit header : String) (body : Part String) : String :=
  if body.kind.isBlock then header ++ " " ++ body.body
  else header ++ "\n" ++ indent unit body.body

/-! ## Section 4: Declarations -/

/-- A package declaration. -/
def packageDecl (a : Attributes) (parts : List (Part String)) : String :=
  ownLines parts ++ ("package " ++ textAt a Key.name ++ ";")

/-- An import. -/
def importDecl (a : Attributes) : String :=
  "import " ++ (if a.flag Key.isStatic then "static " else "") ++ textAt a Key.name
    ++ (if a.flag Key.asterisk then ".*" else "") ++ ";"

/-- Type parameters in angle brackets, or nothing. -/
def typeParameters (parts : List (Part String)) : String :=
  if parts.isEmpty then "" else "<" ++ list ", " parts ++ ">"

/-- The members of a type.  The constants of an enum come first, on one line. -/
def typeBody (kind : TypeKind) (members : List (Part String)) : Except RenderFailure String := do
  if kind = .enum then
    let constants := ofKind (.member .enumConstant) members
    let others := notOfKind (.member .enumConstant) members
    if others.isEmpty then return list ", " constants
    else return list ", " constants ++ ";\n\n" ++ (← items others)
  else items members

/-- A type declaration. -/
def typeDecl (unit : String) (kind : TypeKind) (a : Attributes) (parts : List (Part String)) :
    Except RenderFailure String := do
  let rest := withoutAnnotations parts
  let header := ownLines (annotationsOf parts)
    ++ (wordAt a Key.modifiers ++ kind.keyword ++ " " ++ textAt a Key.name)
    ++ typeParameters (ofKind .typeParameter rest)
    ++ (clauseAt a "extends" Key.superTypes ++ clauseAt a "implements" Key.interfaces)
  let body ← typeBody kind (notOfKind .typeParameter rest)
  if body = "" then return header ++ " \x7b\n\x7d"
  else return header ++ " \x7b\n\n" ++ indent unit body ++ "\n\x7d"

/-- A method or a constructor, after its comments and annotations. -/
def callable (isMethod : Bool) (a : Attributes) (parts : List (Part String)) : String :=
  let typeParams := ofKind .typeParameter parts
  let rest := notOfKind .typeParameter parts
  let types := if typeParams.isEmpty then "" else typeParameters typeParams ++ " "
  let header := wordAt a Key.modifiers ++ types
    ++ ((if isMethod then (a.text? Key.type).getD "void" ++ " " else "")
      ++ textAt a Key.name ++ "(")
    ++ list ", " (ofKind .parameter rest) ++ (")" ++ clauseAt a "throws" Key.thrown)
  match notOfKind .parameter rest with
  | body :: _ => header ++ " " ++ body.body
  | [] => header ++ ";"

/-- A member of a type. -/
def member (kind : MemberKind) (a : Attributes) (parts : List (Part String)) :
    Except RenderFailure String := do
  let comments := ownLines (parts.filter (·.kind.isComment))
  let parts := parts.filter (!·.kind.isComment)
  let annotations := annotationsOf parts
  let rest := withoutAnnotations parts
  match kind with
  | .method => return comments ++ ownLines annotations ++ callable true a rest
  | .constructor => return comments ++ ownLines annotations ++ callable false a rest
  | .field =>
    return comments ++ ownLines annotations
      ++ (wordAt a Key.modifiers ++ textAt a Key.type ++ " ") ++ list ", " rest ++ ";"
  | .enumConstant =>
    let named := comments ++ spaced annotations ++ textAt a Key.name
    if rest.isEmpty then return named
    else return named ++ "(" ++ list ", " rest ++ ")"
  | .annotationMember =>
    let named := comments ++ ownLines annotations
      ++ (wordAt a Key.modifiers ++ textAt a Key.type ++ " " ++ textAt a Key.name ++ "()")
    match rest with
    | value :: _ => return named ++ " default " ++ value.body ++ ";"
    | [] => return named ++ ";"
  | .initializer =>
    let body ← required (.member kind) rest 0 "body"
    return comments ++ (if a.flag Key.isStatic then "static " else "") ++ body.body

/-- A parameter.  Without a type it is just a name. -/
def parameter (a : Attributes) (parts : List (Part String)) : String :=
  if textAt a Key.type = "" then textAt a Key.name
  else spaced parts
    ++ (wordAt a Key.modifiers ++ textAt a Key.type ++ (if a.flag Key.varargs then "..." else "")
      ++ " " ++ textAt a Key.name)

/-- A declared variable. -/
def variableDeclarator (a : Attributes) (parts : List (Part String)) : String :=
  match parts with
  | init :: _ => (textAt a Key.name ++ " = ") ++ init.body
  | [] => textAt a Key.name

/-- A type parameter. -/
def typeParameter (a : Attributes) (parts : List (Part String)) : String :=
  spaced parts ++ (textAt a Key.name ++ clauseAt a "extends" Key.bound)

/-- A `catch` clause. -/
def catchClause (parts : List (Part String)) : Except RenderFailure String := do
  let param ← required .catchClause (ofKind .parameter parts) 0 "parameter"
  let body ← required .catchClause (notOfKind .parameter parts) 0 "body"
  return "catch (" ++ param.body ++ ") " ++ body.body

/-- An entry of a `switch`, whose number of labels is cut to that of the
    children. -/
def switchEntry (unit : String) (a : Attributes) (parts : List (Part String)) :
    Except RenderFailure String := do
  let count := min (a.count Key.labels) parts.length
  let labels ← front parts count
  let body ← back parts count
  let header := if count = 0 then "default:" else "case " ++ list ", " labels ++ ":"
  return if body.isEmpty then header else header ++ "\n" ++ indent unit (list "\n" body)

/-! ## Section 5: Statements -/

/-- A declaration of local variables. -/
def localVariable (a : Attributes) (parts : List (Part String)) : String :=
  spaced (annotationsOf parts)
    ++ (wordAt a Key.modifiers ++ (a.text? Key.type).getD "var" ++ " ")
    ++ list ", " (withoutAnnotations parts) ++ ";"

/-- An `if`.  The then-branch gets braces if it would take the `else`. -/
def conditional (unit : String) (condition thenPart : Part String) : Option (Part String) → String
  | none => controlled unit (header condition) thenPart
  | some elsePart =>
    -- Without braces an open `if` at the end of the branch would take the `else`.
    let wrap := !thenPart.kind.isBlock && thenPart.endsInOpenIf
    let upper :=
      if wrap then header condition ++ " " ++ braced unit thenPart.body
      else controlled unit (header condition) thenPart
    let upper := upper ++ (if thenPart.kind.isBlock || wrap then " else" else "\nelse")
    if elsePart.kind = .statement .conditional then upper ++ " " ++ elsePart.body
    else controlled unit upper elsePart
where
  /-- The condition in its parentheses. -/
  header (condition : Part String) : String := "if (" ++ condition.body ++ ")"

/-- The parts before a position, which the node cannot do without. -/
def head (kind : Kind) (parts : List (Part String)) (n : Nat) :
    Except RenderFailure (List (Part String)) :=
  if n ≤ parts.length then .ok (parts.take n)
  else .error (.reported (.missingChild kind "header"))

/-- A `for` with counted initializers, an optional condition and counted
    updates in front of its body. -/
def forLoop (unit : String) (a : Attributes) (parts : List (Part String)) :
    Except RenderFailure String := do
  let init := a.count Key.init
  let condition := if a.flag Key.condition then 1 else 0
  let bodyIndex ← add (← add init condition) (a.count Key.update)
  let body ← required (.statement .for) parts bodyIndex "body"
  let head ← head (.statement .for) parts bodyIndex
  -- Statements among the initializers bring semicolons of their own.
  let inits ← front head init
  let test ← if condition = 1 then do
    let p ← item head init
    pure p.body else pure ""
  let updates ← back head (← add init condition)
  return controlled unit ("for (" ++ trimmedList ", " inits ++ "; " ++ test ++ "; "
    ++ list ", " updates ++ ")") body

/-- A `switch`. -/
def switch (unit : String) (parts : List (Part String)) : Except RenderFailure String := do
  let selector ← required (.statement .switch) parts 0 "selector"
  return "switch (" ++ selector.body ++ ") " ++ braced unit (list "\n" (← back parts 1))

/-- The head of a `try` with its resources. -/
def tryHead (resources : Nat) (parts : List (Part String)) : Except RenderFailure String := do
  if resources = 0 then return "try "
  else return "try (" ++ trimmedList "; " (← front parts resources) ++ ") "

/-- A `try` with counted resources, a block, catch clauses, and a `finally`
    block if the node says that its last child is one. -/
def tryCatch (a : Attributes) (parts : List (Part String)) : Except RenderFailure String := do
  let resources := a.count Key.resources
  let block ← required (.statement .tryCatch) parts resources "try block"
  let opened ← tryHead resources parts
  let tail ← back parts (← add resources 1)
  -- Without any child left there is no `finally`, whatever the node says.
  let catches := if a.flag Key.hasFinally then tail.dropLast else tail
  let withCatches := catches.foldl (fun out c => out ++ " " ++ c.body) (opened ++ block.body)
  match (if a.flag Key.hasFinally then tail.getLast? else none) with
  | some last => return withCatches ++ " finally " ++ last.body
  | none => return withCatches

/-- A `break` or `continue`, with its label if it has one. -/
def jump (word : String) (a : Attributes) : String :=
  match a.nonempty? Key.label with
  | some label => word ++ " " ++ label ++ ";"
  | none => word ++ ";"

/-- A statement. -/
def statement (unit : String) (kind : StatementKind) (a : Attributes)
    (parts : List (Part String)) : Except RenderFailure String := do
  let part := required (.statement kind) parts
  match kind with
  | .block => return braced unit (list "\n" parts)
  | .expression =>
    let e ← part 0 "expression"
    return e.body ++ ";"
  | .localVariable => return localVariable a parts
  | .conditional =>
    let condition ← part 0 "condition"
    let thenPart ← part 1 "then branch"
    return conditional unit condition thenPart parts[2]?
  | .for => forLoop unit a parts
  | .forEach =>
    let iterable ← part 0 "iterable"
    let body ← part 1 "body"
    return controlled unit
      (("for (" ++ wordAt a Key.modifiers ++ (a.text? Key.type).getD "var" ++ " "
        ++ textAt a Key.name ++ " : ") ++ iterable.body ++ ")") body
  | .while =>
    let condition ← part 0 "condition"
    let body ← part 1 "body"
    return controlled unit ("while (" ++ condition.body ++ ")") body
  | .doWhile =>
    let body ← part 0 "body"
    let condition ← part 1 "condition"
    return controlled unit "do" body
      ++ ((if body.kind.isBlock then " " else "\n") ++ "while (") ++ condition.body ++ ");"
  | .switch => switch unit parts
  | .tryCatch => tryCatch a parts
  | .throw =>
    let e ← part 0 "exception"
    return "throw " ++ e.body ++ ";"
  | .return =>
    match parts with
    | value :: _ => return "return " ++ value.body ++ ";"
    | [] => return "return;"
  | .break => return jump "break" a
  | .continue => return jump "continue" a
  | .assert =>
    let check ← part 0 "check"
    match parts[1]? with
    | some message => return "assert " ++ check.body ++ " : " ++ message.body ++ ";"
    | none => return "assert " ++ check.body ++ ";"
  | .synchronized =>
    let lock ← part 0 "lock"
    let body ← part 1 "body"
    return controlled unit ("synchronized (" ++ lock.body ++ ")") body
  | .labeled =>
    let body ← part 0 "statement"
    return (textAt a Key.label ++ ": ") ++ body.body
  | .empty => return ";"
  | .localClass =>
    let declaration ← part 0 "declaration"
    return declaration.body
  | .constructorCall =>
    return ((a.text? Key.name).getD "super" ++ "(") ++ list ", " parts ++ ");"

/-! ## Section 6: Expressions -/

/-- A literal.  Line breaks in it are marked, so they are never indented. -/
def literal (a : Attributes) : String :=
  String.ofList (((a.text? Key.value).getD "null").toList.map fun c =>
    if c = '\n' then lineMark else c)

/-- `this` or `super`, qualified by a name if there is one. -/
def selfReference (word : String) (a : Attributes) : String :=
  if textAt a Key.name = "" then word else textAt a Key.name ++ "." ++ word

/-- A method call, with its scope in front if the node says that it has one. -/
def methodCall (a : Attributes) (parts : List (Part String)) : Except RenderFailure String := do
  let name := textAt a Key.name
  if a.flag Key.hasScope then
    let scope ← required (.expression .methodCall) parts 0 "scope"
    return scope.body ++ ("." ++ name ++ "(") ++ list ", " (← back parts 1) ++ ")"
  else return (name ++ "(") ++ list ", " parts ++ ")"

/-- The creation of an array.  All children but an initializer are sizes, and
    there may be more dimensions, which have no size. -/
def arrayCreation (a : Attributes) (parts : List (Part String)) : Except RenderFailure String := do
  let sizes := (notOfKind (.expression .arrayInitializer) parts).map fun p => "[" ++ p.body ++ "]"
  let groups ← Text.repeated (a.count Key.extraDims) "[]"
  let sized := ("new " ++ textAt a Key.type) ++ String.join sizes ++ groups
  match (ofKind (.expression .arrayInitializer) parts).getLast? with
  | some init => return sized ++ " " ++ init.body
  | none => return sized

/-- Whether an operator written directly before an operand would run
    together with it, as in `- -x`. -/
def mergesWith (operator operand : String) : Bool :=
  match operator.toList.getLast?, operand.toList.head? with
  | some last, some first => (last = '-' || last = '+') && (first = '-' || first = '+')
  | _, _ => false

/-- An expression with one operator and one operand. -/
def unary (a : Attributes) (operand : String) : String :=
  let operator := textAt a Key.operator
  if a.flag Key.trailingOperator then operand ++ operator
  else if mergesWith operator operand then operator ++ " " ++ operand
  else operator ++ operand

/-- A lambda.  A single parameter without type needs no parentheses. -/
def lambda (parts : List (Part String)) : Except RenderFailure String := do
  let params := ofKind .parameter parts
  -- The body is the last child; a parameter in its place is none.
  let body ← required (.expression .lambda)
    (parts.getLast?.toList.filter (·.kind ≠ .parameter)) 0 "body"
  let bare ← if params.length = 1 then do
    let p ← item params 0
    pure (textAt p.attributes Key.type = "" : Bool) else pure false
  if bare then
    let p ← item params 0
    return p.body ++ " -> " ++ body.body
  else return "(" ++ list ", " params ++ ") -> " ++ body.body

/-- An expression. -/
def expression (kind : ExpressionKind) (a : Attributes) (parts : List (Part String)) :
    Except RenderFailure String := do
  let part := required (.expression kind) parts
  let name := textAt a Key.name
  let type := textAt a Key.type
  match kind with
  | .name => return name
  | .literal => return literal a
  | .this => return selfReference "this" a
  | .super => return selfReference "super" a
  | .fieldAccess =>
    let scope ← part 0 "scope"
    return scope.body ++ ("." ++ name)
  | .methodCall => methodCall a parts
  | .objectCreation => return ("new " ++ type ++ "(") ++ list ", " parts ++ ")"
  | .arrayCreation => arrayCreation a parts
  | .arrayAccess =>
    let array ← part 0 "array"
    let index ← part 1 "index"
    return array.body ++ "[" ++ index.body ++ "]"
  | .arrayInitializer => return "\x7b" ++ list ", " parts ++ "\x7d"
  | .unary =>
    let operand ← part 0 "operand"
    return unary a operand.body
  | .binary =>
    let left ← part 0 "left operand"
    let right ← part 1 "right operand"
    return left.body ++ (" " ++ textAt a Key.operator ++ " ") ++ right.body
  | .assign =>
    let target ← part 0 "target"
    let value ← part 1 "value"
    return target.body ++ (" " ++ (a.text? Key.operator).getD "=" ++ " ") ++ value.body
  | .conditional =>
    let condition ← part 0 "condition"
    let yes ← part 1 "then value"
    let no ← part 2 "else value"
    return condition.body ++ " ? " ++ yes.body ++ " : " ++ no.body
  | .cast =>
    let operand ← part 0 "operand"
    return ("(" ++ type ++ ") ") ++ operand.body
  | .instanceOf =>
    let operand ← part 0 "operand"
    return operand.body ++ (" instanceof " ++ type)
  | .enclosed =>
    let inner ← part 0 "inner expression"
    return "(" ++ inner.body ++ ")"
  | .lambda => lambda parts
  | .methodReference =>
    let scope ← part 0 "scope"
    return scope.body ++ ("::" ++ name)
  | .annotationUse =>
    if parts.isEmpty then return "@" ++ name
    else return ("@" ++ name ++ "(") ++ list ", " parts ++ ")"
  | .classLiteral => return type ++ ".class"

/-! ## Section 7: All kinds -/

/-- A comment. -/
def comment (kind : CommentKind) (a : Attributes) : String :=
  let content := textAt a Key.content
  match kind with
  | .line => "//" ++ String.ofList (Text.trimEnd content.toList)
  | .block => delimited "/*" content "*/"
  | .javadoc => delimited "/**" content "*/"

/-- The source text of a node from those of its children, with a unit of
    indentation. -/
def node (unit : String) (kind : Kind) (a : Attributes) (parts : List (Part String)) :
    Except RenderFailure String :=
  match kind with
  | .compilationUnit => items parts
  | .packageDecl => .ok (packageDecl a parts)
  | .importDecl => .ok (importDecl a)
  | .type k => typeDecl unit k a parts
  | .member k => member k a parts
  | .parameter => .ok (parameter a parts)
  | .variableDeclarator => .ok (variableDeclarator a parts)
  | .typeParameter => .ok (typeParameter a parts)
  | .catchClause => catchClause parts
  | .switchEntry => switchEntry unit a parts
  | .statement k => statement unit k a parts
  | .expression k => expression k a parts
  | .comment k => .ok (comment k a)

end Renderer

end JavaTree
