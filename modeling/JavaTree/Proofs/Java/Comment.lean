import JavaTree.Proofs.Java.Lexer
import Mathlib.Data.List.Infix

/-! # Comments of Java

    A text is a single comment if lexing it by longest match takes all of it
    as one comment, white space in front of it aside (`Java.IsOneComment`).
    Behind two slashes that means that no line ends
    (`Java.accepts_slashes_iff`), and behind a slash and an asterisk that the
    first closer stands at the very end (`Java.accepts_closed_iff`).

    It does not matter how the lines of a comment end
    (`Java.accepts_withLineEnds`), and a single comment and the end of its line
    have no tokens (`Java.tokens_of_isOneComment_lineEnd`). -/

namespace JavaTree.Java

variable {A : Alphabet}

/-! ## Section 1: Single comments -/

/-- Lexing by longest match takes the text as one comment, white space in
    front of it aside. -/
def IsOneComment (A : Alphabet) (cs : List Char) : Prop :=
  ∃ front w, cs = front ++ w ∧ (∀ c ∈ front, isSpace c = true) ∧ isComment w = true ∧
    longest A .start w = some (w, [])

/-- What is matched leads to an accepted state. -/
theorem accepts_of_longest {q : State} {cs t rest : List Char}
    (h : longest A q cs = some (t, rest)) : accepts (run A q t) = true := by
  induction cs generalizing q t with
  | nil =>
    unfold longest at h
    split at h
    · cases h
      assumption
    · cases h
  | cons c cs ih =>
    unfold longest at h
    split at h
    · rename_i hlongest
      cases h
      rw [run_cons]
      exact ih hlongest
    · split at h
      · cases h
        assumption
      · cases h

/-- All of a text is matched exactly if it is accepted. -/
theorem longest_self_iff {q : State} {w : List Char} :
    longest A q w = some (w, []) ↔ accepts (run A q w) = true := by
  constructor
  · exact accepts_of_longest
  · intro h
    have hlongest : longest A q (w ++ []) = some (w, []) := longest_append h nofun
    rwa [List.append_nil] at hlongest

theorem head?_of_isComment {w : List Char} (h : isComment w = true) : w.head? = some '/' := by
  unfold isComment at h
  split at h
  · rfl
  · rfl
  · cases h

/-- Where the comment begins is told by the white space in front of it. -/
theorem isOneComment_append_iff {front w : List Char} (hfront : ∀ c ∈ front, isSpace c = true)
    (hw : w.head? = some '/') :
    IsOneComment A (front ++ w) ↔ isComment w = true ∧ accepts (run A .start w) = true := by
  constructor
  · rintro ⟨other, v, heq, hother, hcomment, hlongest⟩
    -- Both are what is left without the white space.
    have hdrop : ∀ {f u : List Char}, (∀ c ∈ f, isSpace c = true) → u.head? = some '/' →
        (f ++ u).dropWhile isSpace = u := by
      intro f u hf hu
      obtain ⟨u, rfl⟩ := List.head?_eq_some_iff.1 hu
      rw [List.dropWhile_append_of_pos hf]
      rfl
    have hsame : w = v := by
      rw [← hdrop hfront hw, heq, hdrop hother (head?_of_isComment hcomment)]
    rw [hsame]
    exact ⟨hcomment, longest_self_iff.1 hlongest⟩
  · rintro ⟨hcomment, haccepts⟩
    exact ⟨front, w, rfl, hfront, hcomment, longest_self_iff.2 haccepts⟩

theorem tokens_spaces_append {front : List Char} (h : ∀ c ∈ front, isSpace c = true)
    (cs : List Char) : tokens A (front ++ cs) = tokens A cs := by
  induction front with
  | nil => rfl
  | cons c front ih =>
    rw [List.cons_append, tokens_space (h c List.mem_cons_self)]
    exact ih fun d hd => h d (List.mem_cons_of_mem c hd)

/-- A comment in front of a text that it cannot go on with is no token. -/
theorem tokens_comment_append {w rest : List Char} (hcomment : isComment w = true)
    (haccepts : accepts (run A .start w) = true) (hstops : Stops A (run A .start w) rest) :
    tokens A (w ++ rest) = tokens A rest := by
  have hlongest := longest_append haccepts hstops
  obtain ⟨w, rfl⟩ := List.head?_eq_some_iff.1 (head?_of_isComment hcomment)
  rw [List.cons_append] at hlongest ⊢
  rw [tokens, if_neg (by decide)]
  split
  · rename_i t rest' heq
    obtain ⟨rfl, rfl⟩ := Prod.mk.inj (Option.some.inj (heq.symm.trans hlongest))
    rw [if_pos hcomment]
  · rename_i heq
    rw [hlongest] at heq
    cases heq

/-! ## Section 2: Comments up to the end of the line -/

theorem run_dead (cs : List Char) : run A .dead cs = .dead := by
  induction cs with
  | nil => rfl
  | cons c cs ih => exact ih

theorem step_start_slash : step A .start '/' = .operator ['/'] := by
  have hstart : A.isStart '/' = false := A.start_plain '/' rfl
  rw [step, hstart]
  rfl

theorem run_slashes (cs : List Char) :
    run A .start ('/' :: '/' :: cs) = run A .lineComment cs := by
  rw [run_cons, step_start_slash]
  rfl

theorem run_slash_star (cs : List Char) :
    run A .start ('/' :: '*' :: cs) = run A (.comment false) cs := by
  rw [run_cons, step_start_slash]
  rfl

/-- Two slashes open a comment up to the end of the line. -/
theorem accepts_slashes_iff {cs : List Char} :
    accepts (run A .start ('/' :: '/' :: cs)) = true ↔ ∀ c ∈ cs, isLineEnd c = false := by
  rw [run_slashes]
  induction cs with
  | nil => exact ⟨fun _ c hc => absurd hc List.not_mem_nil, fun _ => rfl⟩
  | cons c cs ih =>
    rw [run_cons, List.forall_mem_cons, step]
    cases hc : isLineEnd c with
    | true =>
      rw [if_pos rfl, run_dead]
      constructor
      · intro h
        cases h
      · intro h
        cases h.1
    | false =>
      rw [if_neg (by decide), ih]
      exact ⟨fun h => ⟨rfl, h⟩, fun h => h.2⟩

/-! ## Section 3: Comments with a closer -/

/-- What closes a comment. -/
def closer : List Char := ['*', '/']

theorem closer_suffix_iff {cs : List Char} {c : Char} :
    closer <:+ cs ++ [c] ↔ cs.getLast? = some '*' ∧ c = '/' := by
  constructor
  · rintro ⟨front, h⟩
    have hsplit : front ++ ['*'] ++ ['/'] = cs ++ [c] := by
      rw [← h, List.append_assoc]
      rfl
    obtain ⟨rfl, hc⟩ := List.append_inj' hsplit rfl
    exact ⟨List.getLast?_concat, (List.cons.inj hc).1.symm⟩
  · rintro ⟨hlast, rfl⟩
    obtain ⟨front, rfl⟩ := List.getLast?_eq_some_iff.1 hlast
    exact ⟨front, by rw [List.append_assoc]; rfl⟩

/-- Without a closer a comment goes on, and behind one it does not. -/
theorem run_comment (cs : List Char) :
    (¬closer <:+: cs → run A (.comment false) cs = .comment (cs.getLast? = some '*')) ∧
      (closer <:+: cs → run A (.comment false) cs ∈ [.finished, .dead]) := by
  induction cs using List.reverseRecOn with
  | nil => exact ⟨fun _ => rfl, fun h => absurd h (by decide)⟩
  | append_singleton cs c ih =>
    rw [run_append, List.infix_concat_iff, closer_suffix_iff]
    by_cases hcs : closer <:+: cs
    · refine ⟨fun h => absurd (.inr hcs) h, fun _ => ?_⟩
      have hended : ∀ q ∈ [State.finished, .dead], run A q [c] = .dead := by
        intro q hq
        rcases List.mem_cons.1 hq with rfl | hq
        · rfl
        · rw [List.mem_singleton.1 hq]
          rfl
      rw [hended _ (ih.2 hcs)]
      decide
    · have hone : run A (.comment (cs.getLast? = some '*')) [c] =
          if (decide (cs.getLast? = some '*') && decide (c = '/')) = true then .finished
          else .comment (c = '*') := rfl
      rw [ih.1 hcs, hone]
      by_cases hends : cs.getLast? = some '*' ∧ c = '/'
      · refine ⟨fun h => absurd (.inl hends) h, fun _ => ?_⟩
        rw [if_pos (by simp [hends])]
        decide
      · refine ⟨fun _ => ?_, fun h => absurd h (by simp [hends, hcs])⟩
        rw [if_neg (by simpa using hends), List.getLast?_concat]
        simp

/-- The first closer is the one at the end. -/
theorem accepts_closed_iff {cs : List Char} :
    accepts (run A .start ('/' :: '*' :: (cs ++ closer))) = true ↔ ¬closer <:+: cs := by
  have hstar : closer <:+: cs ++ ['*'] ↔ closer <:+: cs := by
    rw [List.infix_concat_iff, closer_suffix_iff]
    exact or_iff_right fun h => absurd h.2 (by decide)
  have hclosed : run A .start ('/' :: '*' :: (cs ++ closer)) =
      step A (run A (.comment false) (cs ++ ['*'])) '/' := by
    rw [run_slash_star, show cs ++ closer = cs ++ ['*'] ++ ['/'] by simp [closer], run_append]
    rfl
  obtain ⟨hopen, hended⟩ := run_comment (A := A) (cs ++ ['*'])
  rw [hstar] at hopen hended
  rw [hclosed]
  by_cases h : closer <:+: cs
  · have hdead : ∀ q ∈ [State.finished, .dead], accepts (step A q '/') = false := by
      intro q hq
      rcases List.mem_cons.1 hq with rfl | hq
      · rfl
      · rw [List.mem_singleton.1 hq]
        rfl
    rw [hdead _ (hended h)]
    exact ⟨nofun, fun hnot => absurd h hnot⟩
  · rw [hopen h, List.getLast?_concat]
    exact ⟨fun _ => h, fun _ => rfl⟩

-- The asterisk that opens a comment is no part of a closer.
example : accepts (run .ascii .start "/*/".toList) = false ∧
    accepts (run .ascii .start "/*/*/".toList) = true := by
  decide

/-- Within a comment every line end does the same. -/
theorem run_comment_withLineEnds {ending : List Char} (hending : ending ∈ lineEnds) (star : Bool)
    (cs : List Char) :
    run A (.comment star) (withLineEnds ending cs) = run A (.comment star) cs := by
  induction cs generalizing star with
  | nil => rfl
  | cons c cs ih =>
    rw [withLineEnds, List.flatMap_cons, run_append, run_cons]
    by_cases hc : c = '\n'
    · have hfeed : ∀ e ∈ lineEnds, run A (.comment star) e = .comment false := by
        intro e he
        have hcases : e = ['\n'] ∨ e = ['\r'] ∨ e = ['\r', '\n'] := by simpa [lineEnds] using he
        rcases hcases with rfl | rfl | rfl <;> cases star <;> rfl
      have hstep : step A (.comment star) '\n' = .comment false := by cases star <;> rfl
      rw [if_pos hc, hfeed ending hending, hc, hstep]
      exact ih false
    · rw [if_neg hc]
      show run A (step A (.comment star) c) (withLineEnds ending cs) = _
      rw [step]
      by_cases hends : (star && c = '/') = true
      · rw [if_pos hends]
        exact run_withLineEnds rfl hending cs
      · rw [if_neg hends]
        exact ih _

/-- Written with other line ends a comment is still one. -/
theorem accepts_withLineEnds {w ending : List Char} (hcomment : isComment w = true)
    (haccepts : accepts (run A .start w) = true) (hending : ending ∈ lineEnds) :
    isComment (withLineEnds ending w) = true ∧
      accepts (run A .start (withLineEnds ending w)) = true := by
  unfold isComment at hcomment
  split at hcomment
  · rename_i cs
    have hfeed : '\n' ∉ '/' :: '/' :: cs := by
      intro hmem
      have hcs : '\n' ∈ cs := by simpa using hmem
      exact absurd (accepts_slashes_iff.1 haccepts '\n' hcs) (by decide)
    rw [withLineEnds_of_not_mem hfeed]
    exact ⟨rfl, haccepts⟩
  · rename_i cs
    have hfront : withLineEnds ending ('/' :: '*' :: cs) =
        '/' :: '*' :: withLineEnds ending cs := rfl
    rw [run_slash_star] at haccepts
    rw [hfront, run_slash_star, run_comment_withLineEnds hending]
    exact ⟨rfl, haccepts⟩
  · cases hcomment

/-! ## Section 4: Behind a comment -/

theorem eq_lineComment_of_accepts {cs : List Char}
    (h : accepts (run A .lineComment cs) = true) : run A .lineComment cs = .lineComment := by
  induction cs with
  | nil => rfl
  | cons c cs ih =>
    rw [run_cons, step] at h ⊢
    split at h
    · rw [run_dead] at h
      cases h
    · rename_i hc
      rw [if_neg hc]
      exact ih h

theorem eq_finished_of_accepts {star : Bool} {cs : List Char}
    (h : accepts (run A (.comment star) cs) = true) : run A (.comment star) cs = .finished := by
  induction cs generalizing star with
  | nil => cases h
  | cons c cs ih =>
    rw [run_cons, step] at h ⊢
    split at h
    · rename_i hends
      rw [if_pos hends]
      -- Nothing more may follow the closer.
      cases cs with
      | nil => rfl
      | cons d cs =>
        have hdead : run A .finished (d :: cs) = .dead := run_dead cs
        rw [hdead] at h
        cases h
    · rename_i hgoes
      rw [if_neg hgoes]
      exact ih h

theorem isLineEnd_of_mem {ending : List Char} {c : Char} (hending : ending ∈ lineEnds)
    (hc : c ∈ ending) : isLineEnd c = true := by
  have hclosed : ∀ e ∈ lineEnds, e.all isLineEnd = true := by decide
  exact List.all_eq_true.1 (hclosed ending hending) c hc

theorem isSpace_of_isLineEnd {c : Char} (h : isLineEnd c = true) : isSpace c = true := by
  rw [isSpace, h, Bool.or_true]

/-- No comment goes on behind the end of the line that it ends on. -/
theorem tokens_comment_lineEnd {w ending : List Char} (hcomment : isComment w = true)
    (haccepts : accepts (run A .start w) = true) (hending : ending ∈ lineEnds) :
    tokens A (w ++ ending) = some [] := by
  have hends : ∀ c ∈ ending, isLineEnd c = true := fun c => isLineEnd_of_mem hending
  have hstops : Stops A (run A .start w) ending := by
    intro c hc
    unfold isComment at hcomment
    split at hcomment
    · rw [run_slashes] at haccepts ⊢
      rw [eq_lineComment_of_accepts haccepts, step, if_pos (hends c (List.mem_of_mem_head? hc))]
    · rw [run_slash_star] at haccepts ⊢
      rw [eq_finished_of_accepts haccepts]
      rfl
    · cases hcomment
  rw [tokens_comment_append hcomment haccepts hstops,
    tokens_of_spaces fun c hc => isSpace_of_isLineEnd (hends c hc)]

/-! ## Section 5: Single comments on lines of their own -/

/-- Written with other line ends a single comment is still one. -/
theorem isOneComment_withLineEnds {cs ending : List Char} (h : IsOneComment A cs)
    (hending : ending ∈ lineEnds) : IsOneComment A (withLineEnds ending cs) := by
  obtain ⟨front, w, rfl, hfront, hcomment, hlongest⟩ := h
  obtain ⟨hcomment', haccepts⟩ :=
    accepts_withLineEnds hcomment (longest_self_iff.1 hlongest) hending
  refine ⟨withLineEnds ending front, withLineEnds ending w, List.flatMap_append, ?_, hcomment',
    longest_self_iff.2 haccepts⟩
  intro c hc
  obtain ⟨d, hd, hc⟩ := List.mem_flatMap.1 hc
  split at hc
  · exact isSpace_of_isLineEnd (isLineEnd_of_mem hending hc)
  · rw [List.mem_singleton.1 hc]
    exact hfront d hd

/-- Nothing of a single comment and of the end of its line is a token. -/
theorem tokens_of_isOneComment_lineEnd {cs ending : List Char} (h : IsOneComment A cs)
    (hending : ending ∈ lineEnds) : tokens A (cs ++ ending) = some [] := by
  obtain ⟨front, w, rfl, hfront, hcomment, hlongest⟩ := h
  rw [List.append_assoc, tokens_spaces_append hfront]
  exact tokens_comment_lineEnd hcomment (longest_self_iff.1 hlongest) hending

end JavaTree.Java
