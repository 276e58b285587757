import JavaTree.Proofs.Print.Structural

/-! # Selected children

    A template does not use every child that a tree may hold.  Most use all
    of them, some only those at the first few positions, some only one of the
    children of certain kinds.  `Kind.selection` says which ones, kind by kind.

    The main result is that a template looks at no other child: what it makes
    of the selected parts is what it makes of all parts
    (`Template.node_select`). -/

namespace JavaTree

/-! ## Section 1: Keeping one of many -/

variable {α β : Type}

/-- Leave out every element that passes the test but the first. -/
def keepFirst (test : α → Bool) : List α → List α
  | [] => []
  | x :: xs => if test x then x :: xs.filter (!test ·) else x :: keepFirst test xs

/-- Leave out every element that passes the test but the last. -/
def keepLast (test : α → Bool) (xs : List α) : List α := (keepFirst test xs.reverse).reverse

section Keep

variable {test other : α → Bool}

theorem keepFirst_sublist (test : α → Bool) (xs : List α) : (keepFirst test xs).Sublist xs := by
  induction xs with
  | nil => exact .refl _
  | cons x xs ih =>
    unfold keepFirst
    split
    · exact List.filter_sublist.cons_cons x
    · exact ih.cons_cons x

theorem keepFirst_map (test : β → Bool) (f : α → β) (xs : List α) :
    keepFirst test (xs.map f) = (keepFirst (test ∘ f) xs).map f := by
  induction xs with
  | nil => rfl
  | cons x xs ih =>
    rw [List.map_cons, keepFirst, keepFirst, ih, List.filter_map, apply_ite (List.map f)]
    rfl

/-- What passes another test only is kept. -/
theorem filter_keepFirst (h : ∀ x, other x = true → test x = false) (xs : List α) :
    (keepFirst test xs).filter other = xs.filter other := by
  induction xs with
  | nil => rfl
  | cons x xs ih =>
    have hxs : (xs.filter (!test ·)).filter other = xs.filter other := by
      rw [List.filter_filter]
      apply List.filter_congr
      intro y _
      cases hy : other y with
      | true => simp [h y hy]
      | false => rfl
    unfold keepFirst
    split
    · rw [List.filter_cons, List.filter_cons, hxs]
    · rw [List.filter_cons, List.filter_cons, ih]

/-- Of what passes the test the first one is kept. -/
theorem filter_keepFirst_self (test : α → Bool) (xs : List α) :
    (keepFirst test xs).filter test = (xs.filter test).take 1 := by
  induction xs with
  | nil => rfl
  | cons x xs ih =>
    cases hx : test x with
    | true => simp [keepFirst, hx]
    | false => simp [keepFirst, hx, ih]

theorem length_filter_keepFirst_le (test : α → Bool) (xs : List α) :
    ((keepFirst test xs).filter test).length ≤ 1 := by
  rw [filter_keepFirst_self]
  exact List.length_take_le 1 _

theorem keepLast_sublist (test : α → Bool) (xs : List α) : (keepLast test xs).Sublist xs := by
  have h := (keepFirst_sublist test xs.reverse).reverse
  rwa [List.reverse_reverse] at h

theorem keepLast_map (test : β → Bool) (f : α → β) (xs : List α) :
    keepLast test (xs.map f) = (keepLast (test ∘ f) xs).map f := by
  rw [keepLast, ← List.map_reverse, keepFirst_map, ← List.map_reverse, keepLast]

theorem filter_keepLast (h : ∀ x, other x = true → test x = false) (xs : List α) :
    (keepLast test xs).filter other = xs.filter other := by
  rw [keepLast, List.filter_reverse, filter_keepFirst h, List.filter_reverse,
    List.reverse_reverse]

/-- Of what passes the test the last one is kept. -/
theorem filter_keepLast_self (test : α → Bool) (xs : List α) :
    (keepLast test xs).filter test = (xs.filter test).getLast?.toList := by
  rw [keepLast, List.filter_reverse, filter_keepFirst_self, List.filter_reverse,
    ← List.head?_reverse]
  cases (xs.filter test).reverse <;> rfl

theorem getLast?_keepLast (test : α → Bool) (xs : List α) :
    (keepLast test xs).getLast? = xs.getLast? := by
  rw [keepLast, List.getLast?_reverse, ← List.head?_reverse]
  cases xs.reverse with
  | nil => rfl
  | cons x _ => unfold keepFirst; split <;> rfl

end Keep

/-! ## Section 2: Selections -/

/-- A choice among the children of a node, by position and by kind. -/
inductive Selection where
  /-- All children. -/
  | all
  /-- The children at the first positions. -/
  | first (count : Nat)
  /-- All children but those of certain kinds. -/
  | except (test : Kind → Bool)
  /-- All children, but of certain kinds only the first. -/
  | onlyFirst (test : Kind → Bool)
  /-- All children, but of certain kinds only the last. -/
  | onlyLast (test : Kind → Bool)
  /-- One choice after another. -/
  | both (s t : Selection)

namespace Selection

/-- The selected ones among things that have a kind. -/
def select (kindOf : α → Kind) : Selection → List α → List α
  | .all, xs => xs
  | .first count, xs => xs.take count
  | .except test, xs => xs.filter fun x => !test (kindOf x)
  | .onlyFirst test, xs => keepFirst (test ∘ kindOf) xs
  | .onlyLast test, xs => keepLast (test ∘ kindOf) xs
  | .both s t, xs => t.select kindOf (s.select kindOf xs)

theorem select_sublist (kindOf : α → Kind) (s : Selection) (xs : List α) :
    (s.select kindOf xs).Sublist xs := by
  induction s generalizing xs with
  | all => exact .refl xs
  | first count => exact List.take_sublist count xs
  | except test => exact List.filter_sublist
  | onlyFirst test => exact keepFirst_sublist _ xs
  | onlyLast test => exact keepLast_sublist _ xs
  | both s t hs ht => exact (ht _).trans (hs xs)

/-- Only the kinds and the positions count. -/
theorem select_map (kindOf : β → Kind) (f : α → β) (s : Selection) (xs : List α) :
    s.select kindOf (xs.map f) = (s.select (kindOf ∘ f) xs).map f := by
  induction s generalizing xs with
  | all => rfl
  | first count => exact List.map_take.symm
  | except test => exact List.filter_map
  | onlyFirst test => exact keepFirst_map ..
  | onlyLast test => exact keepLast_map ..
  | both s t hs ht => rw [select, hs, ht, select]

end Selection

/-- Whether a child of a method or a constructor stands in the place of its
    body: it belongs neither in front of the header nor into it. -/
def Kind.isCallableBody (k : Kind) : Bool :=
  !(k.isComment || k.isAnnotationUse || k = .typeParameter || k = .parameter)

/-- The children that a member shows. -/
def MemberKind.selection : MemberKind → Selection
  | .method | .constructor => .onlyFirst Kind.isCallableBody
  | .field | .enumConstant => .all
  | .annotationMember => .onlyFirst fun k => !(k.isComment || k.isAnnotationUse)
  | .initializer => .both (.except Kind.isAnnotationUse) (.onlyFirst (!·.isComment))

/-- The children that a statement shows. -/
def StatementKind.selection (a : Attributes) : StatementKind → Selection
  | .empty | .break | .continue => .first 0
  | .expression | .throw | .return | .labeled | .localClass => .first 1
  | .forEach | .while | .doWhile | .assert | .synchronized => .first 2
  | .conditional => .first 3
  | .for =>
    .first (a.count Key.init + (if a.flag Key.condition then 1 else 0) + a.count Key.update + 1)
  | .block | .localVariable | .switch | .tryCatch | .constructorCall => .all

/-- The children that an expression shows. -/
def ExpressionKind.selection : ExpressionKind → Selection
  | .name | .literal | .this | .super | .classLiteral => .first 0
  | .fieldAccess | .unary | .cast | .instanceOf | .enclosed | .methodReference => .first 1
  | .arrayAccess | .binary | .assign => .first 2
  | .conditional => .first 3
  | .methodCall | .objectCreation | .arrayInitializer | .annotationUse => .all
  | .arrayCreation => .onlyLast (· = .expression .arrayInitializer)
  | .lambda => .onlyLast (· ≠ .parameter)

/-- The children that a node shows. -/
def Kind.selection (a : Attributes) : Kind → Selection
  | .compilationUnit | .packageDecl | .type _ | .typeParameter | .switchEntry => .all
  | .importDecl | .comment _ => .first 0
  | .member k => k.selection
  -- A parameter without a type is a name and nothing else.
  | .parameter => if Template.textAt a Key.type = "" then .first 0 else .all
  | .variableDeclarator => .first 1
  | .catchClause => .both (.onlyFirst (· = .parameter)) (.onlyFirst (· ≠ .parameter))
  | .statement k => k.selection a
  | .expression k => k.selection

namespace Template

/-! ## Section 3: Templates look at selected parts only -/

variable {a : Attributes}

/-- The selected parts. -/
def select (s : Selection) (ps : List (Part Fragment)) : List (Part Fragment) :=
  s.select Part.kind ps

/-- A method or a constructor looks at the first of its bodies only. -/
theorem callable_congr {isMethod : Bool} {ps qs : List (Part Fragment)}
    (types : ofKind .typeParameter ps = ofKind .typeParameter qs)
    (params : ofKind .parameter (notOfKind .typeParameter ps) =
      ofKind .parameter (notOfKind .typeParameter qs))
    (body : (notOfKind .parameter (notOfKind .typeParameter ps)).head? =
      (notOfKind .parameter (notOfKind .typeParameter qs)).head?) :
    callable isMethod a ps = callable isMethod a qs := by
  unfold callable
  dsimp only
  rw [types, params]
  cases hp : notOfKind .parameter (notOfKind .typeParameter ps) with
  | nil =>
    rw [hp] at body
    rw [List.head?_eq_none_iff.1 body.symm]
  | cons p _ =>
    rw [hp] at body
    obtain ⟨rest, hq⟩ := List.head?_eq_some_iff.1 body.symm
    rw [hq]

/-- What the filters of a method or a constructor leave over are its bodies. -/
theorem bodies_eq (ps : List (Part Fragment)) :
    notOfKind .parameter (notOfKind .typeParameter
        (withoutAnnotations (ps.filter (!·.kind.isComment)))) =
      ps.filter (Kind.isCallableBody ∘ Part.kind) := by
  simp only [withoutAnnotations, notOfKind, List.filter_filter]
  apply List.filter_congr
  intro p _
  simp [Kind.isCallableBody, Bool.and_comm]

theorem callable_keepFirst (isMethod : Bool) (ps : List (Part Fragment)) :
    callable isMethod a (withoutAnnotations
        ((keepFirst (Kind.isCallableBody ∘ Part.kind) ps).filter (!·.kind.isComment))) =
      callable isMethod a (withoutAnnotations (ps.filter (!·.kind.isComment))) := by
  apply callable_congr
  · simp only [withoutAnnotations, ofKind, List.filter_filter]
    apply filter_keepFirst
    intro p hp
    simp_all [Kind.isCallableBody]
  · simp only [withoutAnnotations, ofKind, notOfKind, List.filter_filter]
    apply filter_keepFirst
    intro p hp
    simp_all [Kind.isCallableBody]
  · rw [bodies_eq, bodies_eq, filter_keepFirst_self, List.head?_take, if_neg Nat.one_ne_zero]

/-- The filters of a member leave the parts that are neither comments nor
    annotations. -/
theorem withoutAnnotations_eq (ps : List (Part Fragment)) :
    withoutAnnotations (ps.filter (!·.kind.isComment)) =
      ps.filter ((fun k => !(k.isComment || k.isAnnotationUse)) ∘ Part.kind) := by
  rw [withoutAnnotations, List.filter_filter]
  apply List.filter_congr
  intro p _
  simp [Bool.and_comm]

/-- What is no body of a member is kept: its comments and annotations. -/
theorem required_congr {kind : Kind} {ps qs : List (Part Fragment)} {role : String}
    (h : ps.head? = qs.head?) : required kind ps 0 role = required kind qs 0 role := by
  rw [required, required, ← List.head?_eq_getElem?, ← List.head?_eq_getElem?, h]

theorem comments_keepFirst (test : Kind → Bool) (h : ∀ k, k.isComment = true → test k = false)
    (ps : List (Part Fragment)) : (keepFirst (test ∘ Part.kind) ps).filter (·.kind.isComment) =
      ps.filter (·.kind.isComment) :=
  filter_keepFirst (fun p hp => h p.kind hp) ps

theorem annotations_keepFirst (test : Kind → Bool)
    (h : ∀ k, k.isAnnotationUse = true → test k = false) (ps : List (Part Fragment)) :
    annotationsOf ((keepFirst (test ∘ Part.kind) ps).filter (!·.kind.isComment)) =
      annotationsOf (ps.filter (!·.kind.isComment)) := by
  rw [annotationsOf, annotationsOf, List.filter_filter, List.filter_filter]
  apply filter_keepFirst
  intro p hp
  exact h p.kind (Bool.and_eq_true_iff.1 hp).1

/-- The filters of an initializer can be swapped. -/
theorem withoutAnnotations_comm (ps : List (Part Fragment)) :
    withoutAnnotations (ps.filter (!·.kind.isComment)) =
      (withoutAnnotations ps).filter ((!·.isComment) ∘ Part.kind) := by
  rw [withoutAnnotations, withoutAnnotations, List.filter_filter, List.filter_filter]
  exact List.filter_congr fun p _ => Bool.and_comm ..

theorem withoutAnnotations_keepFirst (test : Part Fragment → Bool) (ps : List (Part Fragment)) :
    withoutAnnotations (keepFirst test (withoutAnnotations ps)) =
      keepFirst test (withoutAnnotations ps) :=
  List.filter_eq_self.2 fun _ hp => (List.mem_filter.1 ((keepFirst_sublist _ _).subset hp)).2

theorem member_select (kind : MemberKind) (ps : List (Part Fragment)) :
    member kind a (select kind.selection ps) = member kind a ps := by
  cases kind with
  | field => rfl
  | enumConstant => rfl
  | method | constructor =>
    have hcomments := comments_keepFirst Kind.isCallableBody
      (fun k hk => by simp [Kind.isCallableBody, hk]) ps
    have hannotations := annotations_keepFirst Kind.isCallableBody
      (fun k hk => by simp [Kind.isCallableBody, hk]) ps
    simp only [select, MemberKind.selection, Selection.select, member, hcomments, hannotations,
      callable_keepFirst]
  | annotationMember =>
    have hcomments := comments_keepFirst (fun k => !(k.isComment || k.isAnnotationUse))
      (fun k hk => by simp [hk]) ps
    have hannotations := annotations_keepFirst (fun k => !(k.isComment || k.isAnnotationUse))
      (fun k hk => by simp [hk]) ps
    simp only [select, MemberKind.selection, Selection.select, member, hcomments, hannotations,
      withoutAnnotations_eq, filter_keepFirst_self]
    -- The default value is the first of what is left over.
    cases ps.filter _ <;> rfl
  | initializer =>
    have hcomments : (keepFirst ((!·.isComment) ∘ Part.kind)
        (ps.filter (!·.kind.isAnnotationUse))).filter (·.kind.isComment) =
          ps.filter (·.kind.isComment) := by
      rw [comments_keepFirst _ (fun k hk => by simp [hk]), List.filter_filter]
      apply List.filter_congr
      intro p _
      cases hk : p.kind <;> simp [Kind.isComment, Kind.isAnnotationUse]
    have hbody : (withoutAnnotations ((keepFirst ((!·.isComment) ∘ Part.kind)
        (ps.filter (!·.kind.isAnnotationUse))).filter (!·.kind.isComment))).head? =
          (withoutAnnotations (ps.filter (!·.kind.isComment))).head? := by
      rw [withoutAnnotations_comm, withoutAnnotations_comm, ← withoutAnnotations,
        withoutAnnotations_keepFirst, filter_keepFirst_self, List.head?_take,
        if_neg Nat.one_ne_zero]
    simp only [select, MemberKind.selection, Selection.select, member, hcomments,
      required_congr hbody]

theorem ofKind_select_catchClause (ps : List (Part Fragment)) :
    ofKind .parameter (select (Kind.catchClause.selection a) ps) =
      (ofKind .parameter ps).take 1 := by
  have hself := filter_keepFirst_self ((· = .parameter) ∘ Part.kind) ps
  exact (filter_keepFirst (by simp) _).trans hself

theorem notOfKind_select_catchClause (ps : List (Part Fragment)) :
    notOfKind .parameter (select (Kind.catchClause.selection a) ps) =
      (notOfKind .parameter ps).take 1 := by
  have hself := filter_keepFirst_self ((· ≠ .parameter) ∘ Part.kind)
    (keepFirst ((· = .parameter) ∘ Part.kind) ps)
  exact hself.trans (congrArg (List.take 1) (filter_keepFirst (by simp) ps))

theorem catchClause_select (ps : List (Part Fragment)) :
    catchClause (select (Kind.catchClause.selection a) ps) = catchClause ps := by
  rw [catchClause, ofKind_select_catchClause, notOfKind_select_catchClause, catchClause]
  cases ofKind .parameter ps with
  | nil => rfl
  | cons param _ => cases notOfKind .parameter ps <;> rfl

theorem forLoop_select (ps : List (Part Fragment)) :
    forLoop a (select (StatementKind.for.selection a) ps) = forLoop a ps := by
  simp only [select, StatementKind.selection, Selection.select, forLoop]
  generalize a.count Key.init + (if a.flag Key.condition then 1 else 0) + a.count Key.update = i
  have hbody : required (.statement .for) (ps.take (i + 1)) i "body" =
      required (.statement .for) ps i "body" := by
    rw [required, List.getElem?_take_of_lt (Nat.lt_succ_self i), required]
  have hhead : (ps.take (i + 1)).take i = ps.take i := by
    rw [List.take_take, Nat.min_eq_left (Nat.le_succ i)]
  rw [hbody, hhead]

theorem statement_select (kind : StatementKind) (ps : List (Part Fragment)) :
    statement kind a (select (kind.selection a) ps) = statement kind a ps := by
  cases kind with
  | «for» => exact forLoop_select ps
  | block | localVariable | «switch» | tryCatch | constructorCall => rfl
  | empty | «break» | «continue» => rfl
  | expression | throw | «return» | labeled | localClass => cases ps <;> rfl
  | forEach | «while» | doWhile | assert | synchronized =>
    match ps with
    | [] | [_] | _ :: _ :: _ => rfl
  | conditional =>
    match ps with
    | [] | [_] | [_, _] | _ :: _ :: _ :: _ => rfl

theorem notOfKind_select_arrayCreation (ps : List (Part Fragment)) :
    notOfKind (.expression .arrayInitializer)
        (select ExpressionKind.arrayCreation.selection ps) =
      notOfKind (.expression .arrayInitializer) ps :=
  filter_keepLast (by simp) ps

theorem ofKind_select_arrayCreation (ps : List (Part Fragment)) :
    ofKind (.expression .arrayInitializer) (select ExpressionKind.arrayCreation.selection ps) =
      (ofKind (.expression .arrayInitializer) ps).getLast?.toList :=
  filter_keepLast_self _ ps

theorem arrayCreation_select (ps : List (Part Fragment)) :
    arrayCreation a (select ExpressionKind.arrayCreation.selection ps) = arrayCreation a ps := by
  have hinit : (ofKind (.expression .arrayInitializer)
      (select ExpressionKind.arrayCreation.selection ps)).getLast? =
        (ofKind (.expression .arrayInitializer) ps).getLast? := by
    rw [ofKind_select_arrayCreation]
    cases (ofKind (.expression .arrayInitializer) ps).getLast? <;> rfl
  rw [arrayCreation, notOfKind_select_arrayCreation, hinit, arrayCreation]

theorem ofKind_select_lambda (ps : List (Part Fragment)) :
    ofKind .parameter (select ExpressionKind.lambda.selection ps) = ofKind .parameter ps :=
  filter_keepLast (by simp) ps

theorem notOfKind_select_lambda {ps : List (Part Fragment)} {body : Part Fragment}
    (hlast : ps.getLast? = some body) (hbody : body.kind ≠ .parameter) :
    notOfKind .parameter (select ExpressionKind.lambda.selection ps) = [body] := by
  obtain ⟨before, rfl⟩ := List.getLast?_eq_some_iff.1 hlast
  have hself := filter_keepLast_self ((· ≠ .parameter) ∘ Part.kind) (before ++ [body])
  rw [List.filter_append, List.filter_cons_of_pos (by simpa using hbody), List.filter_nil,
    List.getLast?_concat] at hself
  exact hself

theorem lambda_select (ps : List (Part Fragment)) :
    lambda (select ExpressionKind.lambda.selection ps) = lambda ps := by
  have hlast : (select ExpressionKind.lambda.selection ps).getLast? = ps.getLast? :=
    getLast?_keepLast _ ps
  rw [lambda, ofKind_select_lambda, hlast, lambda]

theorem expression_select (kind : ExpressionKind) (ps : List (Part Fragment)) :
    expression kind a (select kind.selection ps) = expression kind a ps := by
  cases kind with
  | name | literal | this | super | classLiteral => rfl
  | fieldAccess | unary | cast | instanceOf | enclosed | methodReference => cases ps <;> rfl
  | arrayAccess | binary | assign =>
    match ps with
    | [] | [_] | _ :: _ :: _ => rfl
  | conditional =>
    match ps with
    | [] | [_] | [_, _] | _ :: _ :: _ :: _ => rfl
  | methodCall | objectCreation | arrayInitializer | annotationUse => rfl
  | arrayCreation => exact arrayCreation_select ps
  | lambda => exact lambda_select ps

/-- What a template makes of the selected parts is what it makes of all. -/
theorem node_select (kind : Kind) (a : Attributes) (ps : List (Part Fragment)) :
    node kind a (select (kind.selection a) ps) = node kind a ps := by
  cases kind with
  | compilationUnit | packageDecl | type | typeParameter | switchEntry => rfl
  | importDecl | comment => rfl
  | member k => exact member_select k ps
  | parameter =>
    by_cases htype : textAt a Key.type = ""
    · simp only [node, parameter, if_pos htype]
    · rw [Kind.selection, if_neg htype]
      rfl
  | variableDeclarator => cases ps <;> rfl
  | catchClause => exact catchClause_select ps
  | statement k => exact statement_select k ps
  | expression k => exact expression_select k ps

end Template

end JavaTree
