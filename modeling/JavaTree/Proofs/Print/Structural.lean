import JavaTree.Proofs.Print.Simulation
import JavaTree.Proofs.Tree.Links
import JavaTree.Proofs.Walk.Stack

/-! # Printing is structural recursion

    The printer walks a tree and keeps source texts on a stack.  Seen from
    outside it is a recursion on the document of the node: the text of a node
    is its template applied to the texts of its children (`Printer.text_eq`).
    The node's place in the tree and its number leave no trace.

    The same recursion with the templates on fragments gives the lines of the
    text, each with its level (`Document.fragment`).  They do not depend on the
    layout, and the printer lays them out: with room for the spaces of a level
    it writes the fragment of the node (`Printer.print_eq_write`). -/

namespace JavaTree

variable {τ : Type}

/-! ## Section 1: Source texts of documents -/

namespace Document

mutual

/-- Whether the topmost statement is an `if` without `else`, or ends in one
    through a chain of bodies without braces. -/
def endsInOpenIf : Document → Bool
  | .node k _ cs =>
    if k = .statement .conditional && cs.length < 3 then true
    else if k.endsInBody then lastEndsInOpenIf cs
    else false

/-- Whether the last document is a body without braces that ends in an open
    `if`. -/
def lastEndsInOpenIf : List Document → Bool
  | [] => false
  | [d] => !d.kind.isBlock && d.endsInOpenIf
  | _ :: d :: ds => lastEndsInOpenIf (d :: ds)

end

/-- A document together with its source text. -/
def toPart (d : Document) (body : τ) : Part τ := ⟨d.kind, d.attributes, d.endsInOpenIf, body⟩

section

variable (template : Kind → Attributes → List (Part τ) → Except RenderFailure τ)

mutual

/-- The source text of a document: its template applied to the texts of its
    children. -/
def assemble : Document → Except RenderFailure τ
  | .node k a cs =>
    (assembleAll cs).bind fun bodies => template k a (cs.zipWith toPart bodies)

/-- The source texts of several documents, up to the first failure. -/
def assembleAll : List Document → Except RenderFailure (List τ)
  | [] => .ok []
  | d :: ds => d.assemble.bind fun body => (assembleAll ds).map (body :: ·)

end

end

/-- The source text of a document with a unit of indentation. -/
def text (unit : String) : Document → Except RenderFailure String := assemble (Renderer.node unit)

/-- The source text of a document in lines. -/
def fragment : Document → Except RenderFailure Fragment := assemble Template.node

/-- The source text of a document under a layout. -/
def print (layout : Layout) (d : Document) : Except RenderFailure String := do
  let unit ← Text.repeated layout.indentWidth " "
  return layout.finish (← d.text unit)

theorem lastEndsInOpenIf_eq (ds : List Document) :
    lastEndsInOpenIf ds =
      match ds.getLast? with
      | some d => !d.kind.isBlock && d.endsInOpenIf
      | none => false := by
  induction ds with
  | nil => rfl
  | cons d ds ih =>
    cases ds with
    | nil => rfl
    | cons e es =>
      rw [lastEndsInOpenIf, ih, List.getLast?_cons_cons]

end Document

/-! ## Section 2: The printer follows the recursion -/

namespace Cursor

/-- The look ahead through unbraced bodies sees the document only. -/
theorem endsInOpenIf_eq (n : Cursor) : n.endsInOpenIf = n.toDocument.endsInOpenIf := by
  induction n using children_induction with
  | step n ih =>
    -- Only the last child is looked into.
    have hlast : Document.lastEndsInOpenIf (n.children.map toDocument) =
        match n.children.getLast? with
        | some body => !body.kind.isBlock && body.endsInOpenIf
        | none => false := by
      rw [Document.lastEndsInOpenIf_eq, List.getLast?_map]
      cases hbody : n.children.getLast? with
      | none => rfl
      | some body =>
        show (!body.toDocument.kind.isBlock && body.toDocument.endsInOpenIf) = _
        rw [← ih body (List.mem_of_getLast? hbody), kind_toDocument]
    rw [endsInOpenIf, toDocument_eq, Document.endsInOpenIf, hlast, List.length_map, length_children]
    congr 2
    split <;> simp_all

theorem toPart_toDocument (n : Cursor) (body : τ) : n.toDocument.toPart body = n.toPart body := by
  rw [Document.toPart, toPart, kind_toDocument, attributes_toDocument, endsInOpenIf_eq]

theorem toParts_eq (n : Cursor) (bodies : List τ) :
    (n.children.map toDocument).zipWith Document.toPart bodies = n.toParts bodies := by
  have hpart : (fun (c : Cursor) (body : τ) => c.toDocument.toPart body) = toPart := by
    funext c body
    rw [toPart_toDocument]
  rw [List.zipWith_map_left, hpart, toParts]

variable (template : Kind → Attributes → List (Part τ) → Except RenderFailure τ)

theorem assembleAll_map_toDocument (ns : List Cursor) :
    Document.assembleAll template (ns.map toDocument) =
      ns.mapM fun n => n.toDocument.assemble template := by
  induction ns with
  | nil => rfl
  | cons n ns ih =>
    rw [List.map_cons, Document.assembleAll, ih, List.mapM_cons]
    cases n.toDocument.assemble template with
    | error e => rfl
    | ok body => cases ns.mapM fun n => n.toDocument.assemble template <;> rfl

/-- The recursion on documents is a recursion along child links. -/
theorem combines_assemble : Visitor.Combines
    (fun n bodies => template n.kind n.attributes (n.toParts bodies))
    (fun n => n.toDocument.assemble template) := by
  intro n
  rw [← assembleAll_map_toDocument]
  show n.toDocument.assemble template = _
  rw [toDocument_eq, Document.assemble]
  congr 1
  funext bodies
  rw [toParts_eq]

end Cursor

namespace Printer

variable {unit : String} {n : Cursor}

/-- The source text of a node is that of its document. -/
theorem text_eq (unit : String) (n : Cursor) : text unit n = n.toDocument.text unit := by
  have hstacks := Visitor.printer_stacks unit
  have hcombines := Cursor.combines_assemble (Renderer.node unit)
  rw [text]
  cases h : n.toDocument.text unit with
  | ok s =>
    rw [Visitor.stacks_walk_ok hstacks hcombines h]
    rfl
  | error e =>
    obtain ⟨stack, hwalk⟩ := Visitor.stacks_walk_error hstacks hcombines h
    rw [hwalk]

/-- A node is printed as its document. -/
theorem print_eq (layout : Layout) (n : Cursor) : print layout n = n.toDocument.print layout := by
  have htext : (fun unit => text unit n) = fun unit => n.toDocument.text unit :=
    funext fun unit => text_eq unit n
  unfold print Document.print
  simp only [congrFun htext]

theorem combines_text (unit : String) : Visitor.Combines
    (fun n bodies => Renderer.node unit n.kind n.attributes (n.toParts bodies)) (text unit) := by
  have h : text unit = fun n => n.toDocument.assemble (Renderer.node unit) :=
    funext (text_eq unit)
  rw [h]
  exact Cursor.combines_assemble (Renderer.node unit)

/-- On the way up every node takes the texts of its children off the stack. -/
theorem popsResults (unit : String) (n : Cursor) : (visitor unit).PopsResults (text unit) n :=
  Visitor.stacks_popsResults (Visitor.printer_stacks unit) (combines_text unit) n

/-- A printing walk that does not fail leaves one text on the stack. -/
theorem walk_ok {stack : List String} (h : (visitor unit).walk n [] = (.ok (), stack)) :
    ∃ s, stack = [s] := by
  cases hs : text unit n with
  | ok s =>
    rw [Visitor.stacks_walk_ok (Visitor.printer_stacks unit) (combines_text unit) hs] at h
    cases h
    exact ⟨s, rfl⟩
  | error e =>
    obtain ⟨rest, hwalk⟩ :=
      Visitor.stacks_walk_error (Visitor.printer_stacks unit) (combines_text unit) hs
    rw [hwalk] at h
    cases h

end Printer

/-! ## Section 3: The lines of a source text -/

namespace Document

variable {width : Nat}

mutual

/-- The source text of a document is that of its fragment, or both fail. -/
theorem renders_text (width : Nat) :
    (d : Document) → RendersAnswer width (d.text (Text.copies width " ")) d.fragment
  | .node k a cs => by
    show RendersAnswer width ((assembleAll _ cs).bind _) ((assembleAll _ cs).bind _)
    rcases renders_texts width cs with ⟨e, htexts, hfragments⟩ |
      ⟨ss, fs, ps, htexts, hfragments, hss, hfs⟩
    · rw [htexts, hfragments]
      exact .error e
    · rw [htexts, hfragments]
      show RendersAnswer width (Renderer.node _ k a (cs.zipWith toPart ss))
        (Template.node k a (cs.zipWith toPart fs))
      rw [hss, hfs]
      exact Template.renders_node a ps k

/-- Several documents fail in one way, or they are parts. -/
theorem renders_texts (width : Nat) : (ds : List Document) →
    (∃ e, assembleAll (Renderer.node (Text.copies width " ")) ds = .error e ∧
      assembleAll Template.node ds = .error e) ∨
    ∃ ss fs, ∃ ps : List (RenderedPart width),
      assembleAll (Renderer.node (Text.copies width " ")) ds = .ok ss ∧
      assembleAll Template.node ds = .ok fs ∧
      ds.zipWith toPart ss = ps.map (·.asText) ∧ ds.zipWith toPart fs = ps.map (·.inLines)
  | [] => .inr ⟨[], [], [], rfl, rfl, rfl, rfl⟩
  | d :: ds => by
    have hd := renders_text width d
    unfold text fragment at hd
    rw [assembleAll, assembleAll]
    revert hd
    generalize d.assemble (Renderer.node (Text.copies width " ")) = r
    generalize d.assemble Template.node = x
    intro hd
    cases hd with
    | error e => exact .inl ⟨e, rfl, rfl⟩
    | @ok s f h =>
      rcases renders_texts width ds with ⟨e, htexts, hfragments⟩ |
        ⟨ss, fs, ps, htexts, hfragments, hss, hfs⟩
      · rw [htexts, hfragments]
        exact .inl ⟨e, rfl, rfl⟩
      · rw [htexts, hfragments]
        refine .inr ⟨s :: ss, f :: fs, ⟨d.kind, d.attributes, d.endsInOpenIf, s, f, h⟩ :: ps,
          rfl, rfl, ?_, ?_⟩
        · rw [List.zipWith_cons_cons, hss]
          rfl
        · rw [List.zipWith_cons_cons, hfs]
          rfl

end

end Document

/-- A level needs as much room as it is wide. -/
theorem Layout.room_iff (layout : Layout) :
    layout.indentWidth * " ".utf8ByteSize ≤ maxBytes ↔ layout.indentWidth ≤ maxBytes := by
  have hsize : " ".utf8ByteSize = 1 := by decide
  rw [hsize, Nat.mul_one]

/-- With room for the spaces of a level a document is printed as its fragment. -/
theorem Document.print_eq_write {layout : Layout} (h : layout.indentWidth ≤ maxBytes)
    (d : Document) : d.print layout = d.fragment.map (·.write layout) := by
  have hanswer := d.renders_text layout.indentWidth
  rw [print, Text.repeated_eq_ok (layout.room_iff.2 h), lift_ok_bind]
  revert hanswer
  generalize d.text (Text.copies layout.indentWidth " ") = r
  generalize d.fragment = x
  intro hanswer
  cases hanswer with
  | error e => rfl
  | ok hrenders => exact congrArg Except.ok hrenders.finish_eq

/-- Without room for them nothing is printed at all. -/
theorem Document.print_of_wide {layout : Layout} (h : maxBytes < layout.indentWidth)
    (d : Document) : d.print layout = .error (.panicked .capacity) := by
  have hroom : maxBytes < layout.indentWidth * " ".utf8ByteSize := by
    rw [← Nat.not_le, layout.room_iff]
    exact Nat.not_le.2 h
  rw [print, Text.repeated_eq_error hroom, lift_error_bind]

/-- The source text of a node in lines. -/
def Printer.fragment (n : Cursor) : Except RenderFailure Fragment := n.toDocument.fragment

/-- The source text of a node, or nothing if it has none. -/
def Cursor.sourceText (n : Cursor) : Fragment :=
  match Printer.fragment n with
  | .ok f => f
  | .error _ => .empty

/-- A node together with its source text. -/
def Cursor.part (n : Cursor) : Part Fragment := n.toPart n.sourceText

namespace Printer

theorem print_eq_write {layout : Layout} (h : layout.indentWidth ≤ maxBytes) (n : Cursor) :
    print layout n = (fragment n).map (·.write layout) := by
  rw [print_eq, Document.print_eq_write h, fragment]

theorem print_of_wide {layout : Layout} (h : maxBytes < layout.indentWidth) (n : Cursor) :
    print layout n = .error (.panicked .capacity) := by
  rw [print_eq, Document.print_of_wide h]

theorem combines_fragment : Visitor.Combines
    (fun n bodies => Template.node n.kind n.attributes (n.toParts bodies)) fragment :=
  Cursor.combines_assemble Template.node

/-- A node with a source text has children with source texts, and its
    template puts them together. -/
theorem of_fragment_eq_ok {n : Cursor} {f : Fragment} (h : fragment n = .ok f) :
    ∃ bodies, n.children.mapM fragment = .ok bodies ∧
      Template.node n.kind n.attributes (n.toParts bodies) = .ok f := by
  cases hbodies : n.children.mapM fragment with
  | error e =>
    rw [combines_fragment.of_children_error hbodies] at h
    cases h
  | ok bodies =>
    rw [combines_fragment.of_children hbodies] at h
    exact ⟨bodies, rfl, h⟩

/-- Each child takes part with its own source text. -/
theorem getElem?_toParts {n : Cursor} {bodies : List Fragment}
    (h : n.children.mapM fragment = .ok bodies) {i : Nat} {c : Cursor}
    (hc : n.children[i]? = some c) :
    ∃ f, fragment c = .ok f ∧ (n.toParts bodies)[i]? = some (c.toPart f) := by
  obtain ⟨f, hf, hfragment⟩ := getElem?_of_mapM_ok h hc
  refine ⟨f, hfragment, ?_⟩
  rw [Cursor.toParts, List.getElem?_zipWith, hc, hf]

/-- Every part is a child with its own source text. -/
theorem exists_of_mem_toParts {n : Cursor} {bodies : List Fragment}
    (h : n.children.mapM fragment = .ok bodies) {p : Part Fragment} (hp : p ∈ n.toParts bodies) :
    ∃ c f, c ∈ n.children ∧ fragment c = .ok f ∧ p = c.toPart f := by
  obtain ⟨i, hi⟩ := List.getElem?_of_mem hp
  cases hc : n.children[i]? with
  | none =>
    rw [Cursor.toParts, List.getElem?_zipWith, hc] at hi
    cases hi
  | some c =>
    obtain ⟨f, hf, hpart⟩ := getElem?_toParts h hc
    exact ⟨c, f, List.mem_of_getElem? hc, hf, Option.some.inj (hi.symm.trans hpart)⟩

theorem fragment_of_mem_children {n c : Cursor} {f : Fragment} (h : fragment n = .ok f)
    (hc : c ∈ n.children) : ∃ g, fragment c = .ok g := by
  obtain ⟨bodies, hbodies, -⟩ := of_fragment_eq_ok h
  obtain ⟨i, hi⟩ := List.getElem?_of_mem hc
  obtain ⟨g, hg, -⟩ := getElem?_toParts hbodies hi
  exact ⟨g, hg⟩

/-- What is printed is a source text, laid out. -/
theorem of_print_eq_ok {layout : Layout} {n : Cursor} {out : String}
    (h : print layout n = .ok out) : ∃ f, fragment n = .ok f ∧ f.write layout = out := by
  rcases Nat.lt_or_ge maxBytes layout.indentWidth with hwide | hroom
  · rw [print_of_wide hwide] at h
    cases h
  · rw [print_eq_write hroom] at h
    cases hf : fragment n with
    | error e =>
      rw [hf] at h
      cases h
    | ok f =>
      rw [hf] at h
      exact ⟨f, rfl, Except.ok.inj h⟩

theorem sourceText_eq {n : Cursor} {f : Fragment} (h : fragment n = .ok f) : n.sourceText = f := by
  rw [Cursor.sourceText, h]

theorem toParts_eq_map {n : Cursor} {bodies : List Fragment}
    (h : n.children.mapM fragment = .ok bodies) :
    n.toParts bodies = n.children.map Cursor.part := by
  rw [Cursor.toParts]
  generalize n.children = ns at h
  induction ns generalizing bodies with
  | nil => rfl
  | cons c ns ih =>
    obtain ⟨b, bs, hb, hbs, rfl⟩ := mapM_cons_eq_ok h
    rw [List.zipWith_cons_cons, List.map_cons, ih hbs, Cursor.part, sourceText_eq hb]

/-- The template of a node puts the source texts of its children together. -/
theorem node_of_fragment_eq_ok {n : Cursor} {f : Fragment} (h : fragment n = .ok f) :
    (∀ c ∈ n.children, fragment c = .ok c.sourceText) ∧
      Template.node n.kind n.attributes (n.children.map Cursor.part) = .ok f := by
  obtain ⟨bodies, hbodies, hnode⟩ := of_fragment_eq_ok h
  refine ⟨?_, by rwa [toParts_eq_map hbodies] at hnode⟩
  intro c hc
  obtain ⟨g, hg⟩ := fragment_of_mem_children h hc
  rw [hg, sourceText_eq hg]

end Printer

/-- Everything below a node with a source text has one. -/
theorem Cursor.Contains.exists_fragment {r n : Cursor} {f : Fragment} (h : r.Contains n)
    (printed : Printer.fragment r = .ok f) : ∃ g, Printer.fragment n = .ok g := by
  induction h with
  | refl => exact ⟨f, printed⟩
  | tail _ hchild ih =>
    obtain ⟨g, hg⟩ := ih
    exact Printer.fragment_of_mem_children hg hchild

end JavaTree
