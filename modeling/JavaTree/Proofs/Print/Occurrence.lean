import JavaTree.Proofs.Print.Fragment
import JavaTree.Text.Blank
import JavaTree.Proofs.Print.Template

/-! # Occurrence of texts in texts

    One text occurs in another if, white space and semicolons aside, it stands
    there in one piece (`Fragment.Occurs`).  It still does when the other one
    is indented, loses semicolons at its end, or other texts are put in front
    of it or behind it. -/

namespace JavaTree

/-! ## Section 1: Fragments -/

namespace Fragment

/-- The characters of a fragment that are neither white space nor semicolons. -/
def bare (f : Fragment) : List Char := f.chars.filter fun c => !Text.isBlank c && c ≠ ';'

theorem bare_append (f g : Fragment) : (f ++ g).bare = f.bare ++ g.bare := by
  rw [bare, chars_append, List.filter_append]
  rfl

theorem bare_nest (f body : Fragment) : (f.nest body).bare = f.bare ++ body.bare := by
  rw [bare, chars_nest, List.filter_append]
  rfl

theorem bare_trimSemicolons (f : Fragment) : f.trimSemicolons.bare = f.bare :=
  filter_trimSemicolons (by decide) f

/-- One text occurs in another in one piece, white space and semicolons aside. -/
def Occurs (g f : Fragment) : Prop := g.bare <:+: f.bare

instance (g f : Fragment) : Decidable (g.Occurs f) := inferInstanceAs (Decidable (_ <:+: _))

namespace Occurs

variable {f g k : Fragment}

theorem refl (f : Fragment) : f.Occurs f := List.infix_rfl

theorem trans (h : g.Occurs f) (hf : f.Occurs k) : g.Occurs k := List.IsInfix.trans h hf

theorem left (h : g.Occurs f) (k : Fragment) : g.Occurs (f ++ k) := by
  rw [Occurs, bare_append]
  exact List.IsInfix.trans h (List.prefix_append _ _).isInfix

theorem right (h : g.Occurs f) (k : Fragment) : g.Occurs (k ++ f) := by
  rw [Occurs, bare_append]
  exact List.IsInfix.trans h (List.suffix_append _ _).isInfix

theorem front (f k : Fragment) : f.Occurs (f ++ k) := (refl f).left k

theorem back (f k : Fragment) : f.Occurs (k ++ f) := (refl f).right k

theorem middle (f k l : Fragment) : f.Occurs (k ++ f ++ l) := (back f k).left l

theorem nest_left (h : g.Occurs f) (body : Fragment) : g.Occurs (f.nest body) := by
  rw [Occurs, bare_nest]
  exact List.IsInfix.trans h (List.prefix_append _ _).isInfix

theorem nest_right (h : g.Occurs f) (k : Fragment) : g.Occurs (k.nest f) := by
  rw [Occurs, bare_nest]
  exact List.IsInfix.trans h (List.suffix_append _ _).isInfix

/-- What occurs in an empty text occurs in any text. -/
theorem of_isEmpty (h : g.Occurs f) (hf : f.isEmpty = true) : g.Occurs k := by
  have hbare : f.bare = [] := by
    simp only [isEmpty, Bool.and_eq_true, decide_eq_true_eq, List.isEmpty_iff] at hf
    rw [bare, chars_eq, hf.1, hf.2]
    rfl
  rw [Occurs, hbare, List.infix_nil] at h
  rw [Occurs, h]
  exact List.nil_infix

theorem join (sep : String) {fs : List Fragment} (h : g ∈ fs) :
    g.Occurs (Fragment.join sep fs) := by
  induction fs with
  | nil => cases h
  | cons f fs ih =>
    cases fs with
    | nil =>
      obtain rfl := List.mem_singleton.1 h
      exact refl g
    | cons f' fs =>
      unfold Fragment.join
      rcases List.mem_cons.1 h with rfl | hfs
      · exact front g _
      · exact ((ih hfs).right _).right f

theorem joinEnding (ending : String) {fs : List Fragment} (h : g ∈ fs) :
    g.Occurs (Fragment.joinEnding ending fs) := by
  induction fs with
  | nil => cases h
  | cons f fs ih =>
    unfold Fragment.joinEnding
    rcases List.mem_cons.1 h with rfl | hfs
    · exact front g _
    · exact ((ih hfs).right _).right f

end Occurs

end Fragment

/-! ## Section 2: Parts -/

/-- The texts of all these parts occur in a text. -/
def Part.AllShown (ps : List (Part Fragment)) (f : Fragment) : Prop := ∀ p ∈ ps, p.body.Occurs f

namespace Part.AllShown

variable {ps qs : List (Part Fragment)} {p q : Part Fragment} {f g : Fragment}

theorem nil : AllShown [] f := fun _ hp => nomatch hp

theorem of_isEmpty (h : ps.isEmpty = true) : AllShown ps f := by
  rw [List.isEmpty_iff.1 h]
  exact nil

theorem cons (hp : p.body.Occurs f) (hps : AllShown ps f) : AllShown (p :: ps) f :=
  List.forall_mem_cons.2 ⟨hp, hps⟩

theorem append (hps : AllShown ps f) (hqs : AllShown qs f) : AllShown (ps ++ qs) f :=
  List.forall_mem_append.2 ⟨hps, hqs⟩

theorem single (hp : p.body.Occurs f) : AllShown [p] f := cons hp nil

theorem pair (hp : p.body.Occurs f) (hq : q.body.Occurs f) : AllShown [p, q] f :=
  cons hp (single hq)

theorem within (h : AllShown ps f) (hf : f.Occurs g) : AllShown ps g := fun p hp =>
  (h p hp).trans hf

theorem left (h : AllShown ps f) (g : Fragment) : AllShown ps (f ++ g) := fun p hp =>
  (h p hp).left g

theorem right (h : AllShown ps f) (g : Fragment) : AllShown ps (g ++ f) := fun p hp =>
  (h p hp).right g

/-- Every part is among those that pass one of two tests. -/
theorem of_filter {test other : Part Fragment → Bool} (h : ∀ p, test p = true ∨ other p = true)
    (htest : AllShown (ps.filter test) f) (hother : AllShown (ps.filter other) f) :
    AllShown ps f := by
  intro p hp
  rcases h p with hp' | hp'
  · exact htest p (List.mem_filter.2 ⟨hp, hp'⟩)
  · exact hother p (List.mem_filter.2 ⟨hp, hp'⟩)

theorem of_annotations (h : AllShown (Template.annotationsOf ps) f)
    (hrest : AllShown (Template.withoutAnnotations ps) f) : AllShown ps f :=
  of_filter (fun p => by cases p.kind.isAnnotationUse <;> simp) h hrest

theorem of_comments (h : AllShown (ps.filter (·.kind.isComment)) f)
    (hrest : AllShown (ps.filter (!·.kind.isComment)) f) : AllShown ps f :=
  of_filter (fun p => by cases p.kind.isComment <;> simp) h hrest

theorem of_kind (k : Kind) (h : AllShown (Template.ofKind k ps) f)
    (hrest : AllShown (Template.notOfKind k ps) f) : AllShown ps f :=
  of_filter (fun p => by by_cases hk : p.kind = k <;> simp [hk]) h hrest

/-- Every part is among the first ones or the last ones. -/
theorem of_take_drop (n : Nat) (h : AllShown (ps.take n) f) (hrest : AllShown (ps.drop n) f) :
    AllShown ps f := by
  rw [← List.take_append_drop n ps]
  exact h.append hrest

end Part.AllShown

end JavaTree
