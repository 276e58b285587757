import JavaTree.Proofs.Java.Lexer
import JavaTree.Proofs.Print.Layout
import JavaTree.Proofs.Print.Structural
import Mathlib.Data.List.Chain

/-! # Operators never run together

    An expression of names, literals, parentheses and operators is printed
    without a space around a unary operator, unless a sign would meet a sign.
    Lexing the text by longest match still gives the tokens of the tree in
    order.

    The induction is over the tree.  It carries that the text of a subtree
    lexes to the tokens of the subtree in front of every character that can
    follow it (`LexesTo`), and with which characters a text can begin and end
    (`Reads`).  Text blocks have several lines, so the text is taken as it is
    written, with line ends for its breaks (`Layout.breakAll`).  The main
    statement is `Printer.tokens_print`. -/

namespace JavaTree

open Java

/-! ## Section 1: Expressions and their tokens -/

/-- The operators in front of an operand. -/
def leadingOperators : List String := ["+", "-", "++", "--", "!", "~"]

/-- The operators behind an operand. -/
def trailingOperators : List String := ["++", "--"]

/-- The operators between two operands. -/
def binaryOperators : List String :=
  ["*", "/", "%", "+", "-", "<<", ">>", ">>>", "<", ">", "<=", ">=", "==", "!=", "&", "^", "|",
   "&&", "||"]

/-- No carriage return stands in front of a line feed. -/
def Text.PlainFeeds (cs : List Char) : Prop := cs.IsChain fun c d => d = '\n' → c ≠ '\r'

/-- The tokens of an expression of names, literals, parentheses and operators,
    in order. -/
inductive Cursor.Spells (A : Alphabet) : Cursor → List (List Char) → Prop where
  | name {n : Cursor} {s : String} (kind : n.kind = .expression .name)
      (text : Template.textAt n.attributes Key.name = s) (children : n.children = [])
      (operand : IsOperand A s.toList) (feeds : Text.PlainFeeds s.toList) : Spells A n [s.toList]
  | literal {n : Cursor} {s : String} (kind : n.kind = .expression .literal)
      (text : (n.attributes.text? Key.value).getD "null" = s) (children : n.children = [])
      (operand : IsOperand A s.toList) : Spells A n [s.toList]
  | enclosed {n c : Cursor} {ts : List (List Char)} (kind : n.kind = .expression .enclosed)
      (children : n.children = [c]) (inner : Spells A c ts) : Spells A n (['('] :: (ts ++ [[')']]))
  | leading {n c : Cursor} {ts : List (List Char)} {o : String}
      (kind : n.kind = .expression .unary) (flag : n.attributes.flag Key.trailingOperator = false)
      (text : Template.textAt n.attributes Key.operator = o) (operator : o ∈ leadingOperators)
      (children : n.children = [c]) (operand : Spells A c ts) : Spells A n (o.toList :: ts)
  | trailing {n c : Cursor} {ts : List (List Char)} {o : String}
      (kind : n.kind = .expression .unary) (flag : n.attributes.flag Key.trailingOperator = true)
      (text : Template.textAt n.attributes Key.operator = o) (operator : o ∈ trailingOperators)
      (children : n.children = [c]) (operand : Spells A c ts) : Spells A n (ts ++ [o.toList])
  | binary {n l r : Cursor} {ts us : List (List Char)} {o : String}
      (kind : n.kind = .expression .binary)
      (text : Template.textAt n.attributes Key.operator = o) (operator : o ∈ binaryOperators)
      (children : n.children = [l, r]) (left : Spells A l ts) (right : Spells A r us) :
      Spells A n (ts ++ o.toList :: us)

/-! ## Section 2: Operators as tokens -/

namespace Java

variable {A : Alphabet}

/-- The separators and operators of such expressions. -/
def usedOperators : List String :=
  ["(", ")"] ++ leadingOperators ++ trailingOperators ++ binaryOperators

theorem mem_usedOperators_of_leading : ∀ o ∈ leadingOperators, o ∈ usedOperators := by decide

theorem step_start_of_not_operandStart {c : Char} (h : isOperandStart A c = false) :
    step A .start c = stepOperator [] c := by
  simp only [isOperandStart, Bool.or_eq_false_iff, decide_eq_false_iff_not] at h
  have hzero : c ≠ '0' := by
    rintro rfl
    exact absurd h.1.1.2 (by decide)
  rw [step]
  simp [h, hzero]

/-- Whether a text is read as one operator. -/
def readsOperator (read : List Char) : List Char → Bool
  | [] => true
  | c :: cs => stepOperator read c = .operator (read ++ [c]) && readsOperator (read ++ [c]) cs

theorem run_of_readsOperator {read cs : List Char} (h : readsOperator read cs = true) :
    run A (.operator read) cs = .operator (read ++ cs) := by
  induction cs generalizing read with
  | nil => rw [List.append_nil]; rfl
  | cons c cs ih =>
    obtain ⟨hstep, hrest⟩ := Bool.and_eq_true_iff.1 h
    rw [run_cons, step, of_decide_eq_true hstep, ih hrest, List.append_assoc]
    rfl

/-- Whether a character starts separators and operators only. -/
def isOperatorStart (c : Char) : Bool := isPlain c && !isOperandStart .ascii c

theorem usedOperators_read : ∀ o ∈ usedOperators, o.toList.head?.any isOperatorStart = true ∧
    readsOperator [] o.toList = true := by decide

theorem run_operator {o : String} (ho : o ∈ usedOperators) :
    run A .start o.toList = .operator o.toList := by
  obtain ⟨hstart, hreads⟩ := usedOperators_read o ho
  cases hw : o.toList with
  | nil =>
    rw [hw] at hstart
    cases hstart
  | cons c cs =>
    rw [hw] at hstart hreads
    obtain ⟨hplain, hc⟩ : isPlain c = true ∧ isOperandStart .ascii c = false := by
      simpa [isOperatorStart] using hstart
    rw [← isOperandStart_plain (A := A) hplain] at hc
    obtain ⟨hstep, hrest⟩ := Bool.and_eq_true_iff.1 hreads
    rw [run_cons, step_start_of_not_operandStart hc, of_decide_eq_true hstep,
      run_of_readsOperator hrest]
    rfl

/-- An operator that cannot go on is the next token. -/
theorem tokens_operator {o : String} (ho : o ∈ usedOperators) {rest : List Char}
    (hstops : ∀ c ∈ rest.head?, stepOperator o.toList c = .dead) :
    tokens A (o.toList ++ rest) = (tokens A rest).map (o.toList :: ·) := by
  have hclosed : ∀ o ∈ usedOperators, accepts (.operator o.toList) = true ∧
      o.toList.all (!isSpace ·) = true ∧ isComment o.toList = false := by decide
  obtain ⟨haccepts, hspace, hcomment⟩ := hclosed o ho
  apply tokens_append
  · rwa [run_operator ho]
  · rwa [run_operator ho]
  · intro c hc
    simpa using List.all_eq_true.1 hspace c (List.mem_of_mem_head? hc)
  · exact hcomment

/-- Whether the text of an expression may begin with the character. -/
def isLead (A : Alphabet) (c : Char) : Bool :=
  isOperandStart A c || c ∈ ['(', '+', '-', '!', '~']

theorem ne_of_isLead {c d : Char} (hc : isLead A c = true) (hplain : isPlain d = true)
    (hd : isLead .ascii d = false) : c ≠ d := by
  rintro rfl
  rw [isLead, isOperandStart_plain hplain] at hc
  rw [isLead, hc] at hd
  cases hd

/-- Unless two signs meet, an operator in front of an expression does not go
    on with the first character of the expression. -/
theorem stepOperator_leading {o : String} (ho : o ∈ leadingOperators) {c : Char}
    (hc : isLead A c = true)
    (hsigns : ¬((o.toList.getLast? = some '-' ∨ o.toList.getLast? = some '+') ∧
      (c = '-' ∨ c = '+'))) : stepOperator o.toList c = .dead := by
  -- Only these two and a sign could lengthen one of the operators.
  have hequals : c ≠ '=' := ne_of_isLead hc rfl rfl
  have hgreater : c ≠ '>' := ne_of_isLead hc rfl rfl
  simp only [leadingOperators, List.mem_cons, List.not_mem_nil, or_false] at ho
  rcases ho with rfl | rfl | rfl | rfl | rfl | rfl <;>
    simp_all [stepOperator, operators]

theorem stepOperator_opening (c : Char) : stepOperator "(".toList c = .dead := by
  simp [stepOperator, operators]

theorem stepOperator_space : ∀ o ∈ usedOperators, stepOperator o.toList ' ' = .dead := by decide

/-- What ends an expression does not go on with a boundary. -/
theorem stepOperator_boundary {o : String} (ho : o ∈ [")", "++", "--"]) {c : Char}
    (hc : isBoundary c = true) : stepOperator o.toList c = .dead := by
  have hclosed : ∀ o ∈ [")", "++", "--"], [' ', ')', '+', '-', '\n', '\r'].all
      (fun c => stepOperator o.toList c = .dead) = true := by decide
  exact of_decide_eq_true (List.all_eq_true.1 (hclosed o ho) c (of_decide_eq_true hc))

/-! ## Section 3: Texts that lex to tokens -/

/-- In front of the end and of every boundary, a text lexes to some tokens. -/
def LexesTo (A : Alphabet) (text : List Char) (ts : List (List Char)) : Prop :=
  ∀ rest, (∀ c ∈ rest.head?, isBoundary c = true) →
    tokens A (text ++ rest) = (tokens A rest).map (ts ++ ·)

namespace LexesTo

variable {text other : List Char} {ts us : List (List Char)}

theorem operand {w ending : List Char} (hw : IsOperand A w) (hending : ending ∈ lineEnds) :
    LexesTo A (withLineEnds ending w) [withLineEnds ending w] :=
  fun _ hrest => tokens_operand hw hending hrest

theorem leading (h : LexesTo A text ts) {o : String} (ho : o ∈ leadingOperators)
    (hstops : ∀ c ∈ text.head?, stepOperator o.toList c = .dead) (htext : text ≠ []) :
    LexesTo A (o.toList ++ text) (o.toList :: ts) := by
  intro rest hrest
  rw [List.append_assoc, tokens_operator (mem_usedOperators_of_leading o ho), h rest hrest,
    Option.map_map]
  · rfl
  · rwa [List.head?_append_of_ne_nil _ htext]

theorem leading_spaced (h : LexesTo A text ts) {o : String} (ho : o ∈ leadingOperators) :
    LexesTo A (o.toList ++ ' ' :: text) (o.toList :: ts) := by
  intro rest hrest
  have hused := mem_usedOperators_of_leading o ho
  rw [List.append_assoc, List.cons_append, tokens_operator hused, tokens_space rfl,
    h rest hrest, Option.map_map]
  · rfl
  · intro c hc
    obtain rfl := Option.some.inj hc
    exact stepOperator_space o hused

/-- What ends an expression is a token in front of every boundary. -/
theorem ending {o : String} (ho : o ∈ [")", "++", "--"]) : LexesTo A o.toList [o.toList] := by
  have hused : ∀ o ∈ [")", "++", "--"], o ∈ usedOperators := by decide
  intro rest hrest
  apply tokens_operator (hused o ho)
  intro c hc
  exact stepOperator_boundary ho (hrest c hc)

/-- Two texts lex to the tokens of both if the second begins with a boundary. -/
theorem append (h : LexesTo A text ts) (hother : LexesTo A other us) (hne : other ≠ [])
    (hfirst : ∀ c ∈ other.head?, isBoundary c = true) : LexesTo A (text ++ other) (ts ++ us) := by
  intro rest hrest
  rw [List.append_assoc, h _ (by rwa [List.head?_append_of_ne_nil _ hne]), hother rest hrest,
    Option.map_map]
  congr 1
  funext vs
  exact (List.append_assoc ts us vs).symm

theorem ended (h : LexesTo A text ts) {o : String} (ho : o ∈ [")", "++", "--"]) :
    LexesTo A (text ++ o.toList) (ts ++ [o.toList]) := by
  have hclosed : ∀ o ∈ [")", "++", "--"], o.toList ≠ [] ∧ o.toList.all isBoundary = true := by
    decide
  obtain ⟨hne, hboundary⟩ := hclosed o ho
  refine h.append (ending ho) hne fun c hc => ?_
  exact List.all_eq_true.1 hboundary c (List.mem_of_mem_head? hc)

theorem opened (h : LexesTo A text ts) : LexesTo A ("(".toList ++ text) ("(".toList :: ts) := by
  intro rest hrest
  rw [List.append_assoc, tokens_operator (by decide) fun c _ => stepOperator_opening c,
    h rest hrest, Option.map_map]
  rfl

theorem binary (h : LexesTo A text ts) (hother : LexesTo A other us) {o : String}
    (ho : o ∈ binaryOperators) :
    LexesTo A (text ++ ' ' :: (o.toList ++ ' ' :: other)) (ts ++ o.toList :: us) := by
  have hused : ∀ o ∈ binaryOperators, o ∈ usedOperators := by decide
  have hright : LexesTo A (' ' :: (o.toList ++ ' ' :: other)) (o.toList :: us) := by
    intro rest hrest
    rw [List.cons_append, tokens_space rfl, List.append_assoc, List.cons_append,
      tokens_operator (hused o ho), tokens_space rfl, hother rest hrest, Option.map_map]
    · rfl
    · intro c hc
      obtain rfl := Option.some.inj hc
      exact stepOperator_space o (hused o ho)
  refine h.append hright (List.cons_ne_nil _ _) fun c hc => ?_
  obtain rfl := Option.some.inj hc
  rfl

end LexesTo

end Java

/-! ## Section 4: Texts as they are written -/

theorem Text.plainFeeds_of_not_mem {cs : List Char} (h : '\n' ∉ cs) : PlainFeeds cs := by
  induction cs with
  | nil => exact .nil
  | cons c cs ih =>
    refine (ih fun hmem => h (List.mem_cons_of_mem c hmem)).cons ?_
    rintro d hd rfl
    exact absurd (List.mem_cons_of_mem c (List.mem_of_mem_head? hd)) h

theorem Text.PlainFeeds.append {cs ds : List Char} (hcs : PlainFeeds cs) (hds : PlainFeeds ds)
    (hhead : ds.head? ≠ some '\n') : PlainFeeds (cs ++ ds) := by
  refine List.IsChain.append hcs hds ?_
  rintro _ - d hd rfl
  exact absurd hd hhead

/-- A text that ends with a line has no carriage return at the end of another
    line. -/
theorem Text.pieces_of_plainFeeds {cs : List Char} (hfeeds : PlainFeeds cs)
    (hlast : cs.getLast? ≠ some '\n') :
    ∃ ps p, pieces '\n' cs = ps ++ [p] ∧ (ps ≠ [] → p ≠ []) ∧ ∀ q ∈ ps, q.getLast? ≠ some '\r' := by
  induction cs with
  | nil => exact ⟨[], [], rfl, by simp, by simp⟩
  | cons c cs ih =>
    obtain ⟨hnext, htail⟩ := List.isChain_cons.1 hfeeds
    have hlast' : cs.getLast? ≠ some '\n' := by
      cases cs with
      | nil => simp
      | cons d cs => rwa [List.getLast?_cons_cons] at hlast
    obtain ⟨ps, p, hpieces, hne, hends⟩ := ih htail hlast'
    have hjoin := intercalate_pieces '\n' cs
    rw [hpieces] at hjoin
    by_cases hc : c = '\n'
    · refine ⟨[] :: ps, p, by rw [pieces, if_pos hc, hpieces]; rfl, ?_, ?_⟩
      · rintro - rfl
        have hnil : ps = [] := by_contra fun h => hne h rfl
        rw [hnil] at hjoin
        subst hjoin hc
        exact hlast rfl
      · intro q hq
        rcases List.mem_cons.1 hq with rfl | hq
        · simp
        · exact hends q hq
    · cases ps with
      | nil => exact ⟨[], c :: p, by rw [pieces, if_neg hc, hpieces]; rfl, by simp, by simp⟩
      | cons q ps =>
        refine ⟨(c :: q) :: ps, p, by rw [pieces, if_neg hc, hpieces]; rfl,
          fun _ => hne (by simp), ?_⟩
        intro r hr
        rcases List.mem_cons.1 hr with rfl | hr
        · cases q with
          | nil =>
            -- The next character is the line feed that ends this piece.
            have hfeed : cs.head? = some '\n' := by
              rw [← hjoin]
              cases ps <;> rfl
            rw [List.getLast?_singleton]
            exact fun heq => hnext '\n' hfeed rfl (Option.some.inj heq)
          | cons d q =>
            rw [List.getLast?_cons_cons]
            exact hends _ List.mem_cons_self
        · exact hends r (List.mem_cons_of_mem _ hr)

theorem Line.dropReturn_of_getLast? {level : Nat} {p : List Char} (h : p.getLast? ≠ some '\r') :
    dropReturn ⟨level, String.ofList p⟩ = ⟨level, String.ofList p⟩ := by
  have hsame : Text.dropReturn p = p := by
    unfold Text.dropReturn
    split
    · rename_i rest hrest
      rw [← List.head?_reverse, hrest] at h
      exact absurd rfl h
    · rfl
  rw [dropReturn, String.toList_ofList, hsame]

namespace Layout

variable {layout : Layout}

/-- A text with the line end for every line feed and every mark. -/
def breakAll (layout : Layout) (cs : List Char) : List Char :=
  cs.flatMap fun c =>
    if c = '\n' ∨ c = lineMark then layout.lineTerminator.toList else [c]

theorem breakAll_append (cs ds : List Char) :
    layout.breakAll (cs ++ ds) = layout.breakAll cs ++ layout.breakAll ds :=
  List.flatMap_append

theorem head?_breakAll {cs : List Char} {c : Char} (h : cs.head? = some c) (hfeed : c ≠ '\n')
    (hmark : c ≠ lineMark) : (layout.breakAll cs).head? = some c := by
  obtain ⟨w, rfl⟩ := List.head?_eq_some_iff.1 h
  rw [breakAll, List.flatMap_cons, if_neg (not_or.2 ⟨hfeed, hmark⟩)]
  rfl

theorem breakAll_of_unmarked {cs : List Char} (h : lineMark ∉ cs) :
    layout.breakAll cs = withLineEnds layout.lineTerminator.toList cs := by
  apply List.flatMap_congr
  intro c hc
  have hmark : c ≠ lineMark := fun heq => h (heq ▸ hc)
  simp only [hmark, or_false]

theorem breakAll_of_not_mem {cs : List Char} (hfeed : '\n' ∉ cs) (hmark : lineMark ∉ cs) :
    layout.breakAll cs = cs := by
  rw [breakAll_of_unmarked hmark, withLineEnds_of_not_mem hfeed]

/-- Marks stand for line feeds. -/
theorem breakAll_marked {cs : List Char} (h : lineMark ∉ cs) :
    layout.breakAll (cs.map fun c => if c = '\n' then lineMark else c) =
      withLineEnds layout.lineTerminator.toList cs := by
  rw [breakAll, List.flatMap_map]
  apply List.flatMap_congr
  intro c hc
  have hmark : c ≠ lineMark := fun heq => h (heq ▸ hc)
  by_cases hfeed : c = '\n'
  · rw [if_pos hfeed, if_pos (.inr rfl), if_pos hfeed]
  · rw [if_neg hfeed, if_neg (not_or.2 ⟨hfeed, hmark⟩), if_neg hfeed]

/-- Breaking at line feeds and then at marks is breaking at both. -/
theorem breakMarks_withLineEnds (h : lineMark ∉ layout.lineTerminator.toList) (cs : List Char) :
    (layout.breakMarks (String.ofList (withLineEnds layout.lineTerminator.toList cs))).toList =
      layout.breakAll cs := by
  have hending : (layout.breakMarks layout.lineTerminator).toList =
      layout.lineTerminator.toList := by
    rw [breakMarks_of_not_mem h]
  rw [breakMarks, String.toList_ofList] at hending
  rw [breakMarks, String.toList_ofList, String.toList_ofList, withLineEnds, List.flatMap_assoc]
  apply List.flatMap_congr
  intro c _
  by_cases hfeed : c = '\n'
  · rw [if_pos hfeed, if_pos (.inl hfeed), hending]
  · simp only [hfeed, false_or, if_false, List.flatMap_singleton]

end Layout

namespace Fragment

/-- A text is written with line ends for its breaks, and one at the end. -/
theorem write_ofText {layout : Layout} (hplain : lineMark ∉ layout.lineTerminator.toList)
    {s : String} (hfeeds : Text.PlainFeeds s.toList) (hlast : s.toList.getLast? ≠ some '\n') :
    ((ofText s).write layout).toList =
      layout.breakAll s.toList ++ layout.lineTerminator.toList := by
  obtain ⟨ps, p, hpieces, hne, hends⟩ := Text.pieces_of_plainFeeds hfeeds hlast
  -- No carriage return is dropped, and the last line is there.
  have hwritten : written (ofText s).lines = (ofText s).lines := by
    rw [lines_ofText, hpieces, List.map_append, List.map_singleton]
    cases ps with
    | nil => rfl
    | cons q ps =>
      rw [written_append (by simpa using hne (by simp)), List.map_map]
      congr 1
      apply List.map_congr_left
      intro r hr
      exact Line.dropReturn_of_getLast? (hends r hr)
  have hjoin : String.join ((ofText s).lines.map layout.writeLine) = String.ofList
      (withLineEnds layout.lineTerminator.toList s.toList ++ layout.lineTerminator.toList) := by
    rw [withLineEnds, Text.flatMap_pieces, lines_ofText, ← String.toList_inj]
    simp [Layout.writeLine, List.flatMap_map]
  rw [write, hwritten, hjoin, String.ofList_append, Layout.breakMarks_append,
    String.ofList_toList, Layout.breakMarks_of_not_mem hplain, String.toList_append,
    Layout.breakMarks_withLineEnds hplain]

end Fragment

/-! ## Section 5: Printed expressions -/

/-- A text begins as an expression does, ends with a line, and lexes to some
    tokens once its breaks are written as line ends. -/
structure Java.Reads (A : Alphabet) (layout : Layout) (cs : List Char) (ts : List (List Char)) :
    Prop where
  lead : ∃ c ∈ cs.head?, isLead A c = true ∧ c ≠ lineMark
  feeds : Text.PlainFeeds cs
  last : cs.getLast? ≠ some '\n'
  lexes : LexesTo A (layout.breakAll cs) ts

namespace Java

variable {A : Alphabet} {layout : Layout} {cs ds : List Char} {ts us : List (List Char)}

/-- Operators are single lines without marks. -/
theorem usedOperators_plain : ∀ o ∈ usedOperators, '\n' ∉ o.toList ∧ lineMark ∉ o.toList := by
  decide

theorem isLead_leading {o : String} (ho : o ∈ leadingOperators) :
    ∃ c ∈ o.toList.head?, isLead A c = true := by
  have hclosed : ∀ o ∈ leadingOperators,
      o.toList.head?.any (· ∈ ['(', '+', '-', '!', '~']) = true := by decide
  obtain ⟨c, hc, hsign⟩ := (Option.any_eq_true _ _).1 (hclosed o ho)
  exact ⟨c, hc, by rw [isLead, hsign, Bool.or_true]⟩

namespace Reads

theorem head?_ne_feed (h : Reads A layout cs ts) : cs.head? ≠ some '\n' := by
  obtain ⟨c, hc, hlead, -⟩ := h.lead
  intro hfeed
  exact ne_of_isLead hlead rfl rfl (Option.some.inj (hc.symm.trans hfeed))

theorem ne_nil (h : Reads A layout cs ts) : cs ≠ [] := by
  rintro rfl
  obtain ⟨c, hc, -⟩ := h.lead
  cases hc

theorem operand {w : List Char} (hw : IsOperand A w) (feeds : Text.PlainFeeds w)
    (unmarked : lineMark ∉ w) (hending : layout.lineTerminator.toList ∈ lineEnds) :
    Reads A layout w [withLineEnds layout.lineTerminator.toList w] := by
  obtain ⟨c, hc, hstart⟩ := hw.1
  refine ⟨⟨c, hc, by rw [isLead, hstart]; rfl, ?_⟩, feeds, getLast?_operand hw, ?_⟩
  · exact fun heq => unmarked (heq ▸ List.mem_of_mem_head? hc)
  · rw [Layout.breakAll_of_unmarked unmarked]
    exact LexesTo.operand hw hending

/-- The breaks of a literal are marks. -/
theorem marked {w : List Char} (hw : IsOperand A w) (unmarked : lineMark ∉ w)
    (hending : layout.lineTerminator.toList ∈ lineEnds) :
    Reads A layout (w.map fun c => if c = '\n' then lineMark else c)
      [withLineEnds layout.lineTerminator.toList w] := by
  obtain ⟨c, hc, hstart⟩ := hw.1
  have hfeed : c ≠ '\n' := ne_of_isOperandStart hstart rfl rfl
  have honeLine : '\n' ∉ w.map fun c => if c = '\n' then lineMark else c := by
    intro hmem
    obtain ⟨d, -, hd⟩ := List.mem_map.1 hmem
    split at hd
    · cases hd
    · contradiction
  refine ⟨⟨c, ?_, by rw [isLead, hstart]; rfl, ?_⟩, Text.plainFeeds_of_not_mem honeLine, ?_, ?_⟩
  · rw [List.head?_map, Option.mem_def.1 hc, Option.map_some, if_neg hfeed]
    rfl
  · exact fun heq => unmarked (heq ▸ List.mem_of_mem_head? hc)
  · exact fun hlast => honeLine (List.mem_of_getLast? hlast)
  · rw [Layout.breakAll_marked unmarked]
    exact LexesTo.operand hw hending

/-- Put an operator in front, with or without a space. -/
theorem prepend (h : Reads A layout cs ts) {u : List Char} (hfeed : '\n' ∉ u)
    (hmark : lineMark ∉ u) (hlead : ∃ c ∈ u.head?, isLead A c = true)
    (hlexes : LexesTo A (u ++ layout.breakAll cs) us) : Reads A layout (u ++ cs) us := by
  obtain ⟨c, hc, hlead⟩ := hlead
  refine ⟨⟨c, ?_, hlead, ?_⟩, ?_, ?_, ?_⟩
  · rw [List.head?_append, Option.mem_def.1 hc]
    rfl
  · exact fun heq => hmark (heq ▸ List.mem_of_mem_head? hc)
  · exact (Text.plainFeeds_of_not_mem hfeed).append h.feeds h.head?_ne_feed
  · rw [List.getLast?_append_of_ne_nil _ h.ne_nil]
    exact h.last
  · rwa [Layout.breakAll_append, Layout.breakAll_of_not_mem hfeed hmark]

theorem leading (h : Reads A layout cs ts) {o : String} (ho : o ∈ leadingOperators)
    (hsigns : ∀ c ∈ cs.head?, ¬((o.toList.getLast? = some '-' ∨ o.toList.getLast? = some '+') ∧
      (c = '-' ∨ c = '+'))) : Reads A layout (o.toList ++ cs) (o.toList :: ts) := by
  obtain ⟨c, hc, hlead, hmark⟩ := h.lead
  have hhead : (layout.breakAll cs).head? = some c :=
    Layout.head?_breakAll hc (ne_of_isLead hlead rfl rfl) hmark
  have hused := mem_usedOperators_of_leading o ho
  obtain ⟨hfeed, hplain⟩ := usedOperators_plain o hused
  refine h.prepend hfeed hplain (isLead_leading ho) (h.lexes.leading ho ?_ ?_)
  · intro d hd
    obtain rfl : c = d := Option.some.inj (hhead.symm.trans hd)
    exact stepOperator_leading ho hlead (hsigns c hc)
  · intro hnil
    rw [hnil] at hhead
    cases hhead

theorem leading_spaced (h : Reads A layout cs ts) {o : String} (ho : o ∈ leadingOperators) :
    Reads A layout (o.toList ++ [' '] ++ cs) (o.toList :: ts) := by
  obtain ⟨hfeed, hmark⟩ := usedOperators_plain o (mem_usedOperators_of_leading o ho)
  obtain ⟨c, hc, hlead⟩ := isLead_leading (A := A) ho
  refine h.prepend ?_ ?_ ⟨c, ?_, hlead⟩ ?_
  · simpa using hfeed
  · simpa [lineMark] using hmark
  · rw [List.head?_append, Option.mem_def.1 hc]
    rfl
  · rw [List.append_assoc]
    exact h.lexes.leading_spaced ho

theorem opened (h : Reads A layout cs ts) :
    Reads A layout ("(".toList ++ cs) ("(".toList :: ts) := by
  obtain ⟨hfeed, hmark⟩ := usedOperators_plain "(" (by decide)
  refine h.prepend hfeed hmark ⟨'(', rfl, ?_⟩ h.lexes.opened
  simp [isLead]

theorem ended (h : Reads A layout cs ts) {o : String} (ho : o ∈ [")", "++", "--"]) :
    Reads A layout (cs ++ o.toList) (ts ++ [o.toList]) := by
  have hclosed : ∀ o ∈ [")", "++", "--"], o ∈ usedOperators ∧ o.toList ≠ [] := by decide
  obtain ⟨hused, hne⟩ := hclosed o ho
  obtain ⟨hfeed, hmark⟩ := usedOperators_plain o hused
  refine ⟨?_, h.feeds.append (Text.plainFeeds_of_not_mem hfeed) ?_, ?_, ?_⟩
  · rw [List.head?_append_of_ne_nil _ h.ne_nil]
    exact h.lead
  · exact fun hhead => hfeed (List.mem_of_mem_head? hhead)
  · rw [List.getLast?_append_of_ne_nil _ hne]
    exact fun hlast => hfeed (List.mem_of_getLast? hlast)
  · rw [Layout.breakAll_append, Layout.breakAll_of_not_mem hfeed hmark]
    exact h.lexes.ended ho

theorem binary (h : Reads A layout cs ts) (hother : Reads A layout ds us) {o : String}
    (ho : o ∈ binaryOperators) :
    Reads A layout (cs ++ ([' '] ++ o.toList ++ [' ']) ++ ds) (ts ++ o.toList :: us) := by
  have hused : ∀ o ∈ binaryOperators, o ∈ usedOperators := by decide
  obtain ⟨hfeed, hmark⟩ := usedOperators_plain o (hused o ho)
  have hfeed' : '\n' ∉ [' '] ++ o.toList ++ [' '] := by simpa using hfeed
  have hmark' : lineMark ∉ [' '] ++ o.toList ++ [' '] := by simpa [lineMark] using hmark
  refine ⟨?_, ?_, ?_, ?_⟩
  · rw [List.append_assoc, List.head?_append_of_ne_nil _ h.ne_nil]
    exact h.lead
  · refine (h.feeds.append (Text.plainFeeds_of_not_mem hfeed') ?_).append hother.feeds
      hother.head?_ne_feed
    exact fun hhead => hfeed' (List.mem_of_mem_head? hhead)
  · rw [List.getLast?_append_of_ne_nil _ hother.ne_nil]
    exact hother.last
  · rw [Layout.breakAll_append, Layout.breakAll_append, Layout.breakAll_of_not_mem hfeed' hmark']
    simpa using h.lexes.binary hother.lexes ho

end Reads

end Java

/-- The text of an expression reads as some tokens. -/
def Cursor.PrintsAs (A : Alphabet) (layout : Layout) (n : Cursor) (ts : List (List Char)) : Prop :=
  ∃ s, Printer.fragment n = .ok (Fragment.ofText s) ∧ Reads A layout s.toList ts

theorem Fragment.firstChar?_ofText {s : String} (h : s.toList.head? ≠ some '\n') :
    (ofText s).firstChar? = s.toList.head? := by
  rw [firstChar?, ofText]
  cases hs : s.toList with
  | nil => rfl
  | cons c cs =>
    rw [hs] at h
    have hc : c ≠ '\n' := fun heq => h (congrArg some heq)
    rw [Text.pieces, if_neg hc]
    cases Text.pieces '\n' cs <;> simp

namespace Printer

variable {A : Alphabet} {layout : Layout} {n c l r : Cursor} {ts us : List (List Char)}

theorem fragment_of_leaf (hchildren : n.children = []) :
    fragment n = Template.node n.kind n.attributes [] := by
  have hbodies : n.children.mapM fragment = .ok [] := by
    rw [hchildren]
    rfl
  rw [combines_fragment.of_children hbodies, Cursor.toParts, hchildren]
  rfl

theorem fragment_of_one {f : Fragment} (hchildren : n.children = [c]) (hf : fragment c = .ok f) :
    fragment n = Template.node n.kind n.attributes [c.toPart f] := by
  have hbodies : n.children.mapM fragment = .ok [f] := by
    rw [hchildren, List.mapM_cons, hf]
    rfl
  rw [combines_fragment.of_children hbodies, Cursor.toParts, hchildren]
  rfl

theorem fragment_of_two {f g : Fragment} (hchildren : n.children = [l, r])
    (hf : fragment l = .ok f) (hg : fragment r = .ok g) :
    fragment n = Template.node n.kind n.attributes [l.toPart f, r.toPart g] := by
  have hbodies : n.children.mapM fragment = .ok [f, g] := by
    rw [hchildren, List.mapM_cons, List.mapM_cons, hf, hg]
    rfl
  rw [combines_fragment.of_children hbodies, Cursor.toParts, hchildren]
  rfl

theorem printsAs_name {s : String} (kind : n.kind = .expression .name)
    (text : Template.textAt n.attributes Key.name = s) (children : n.children = [])
    (operand : IsOperand A s.toList) (feeds : Text.PlainFeeds s.toList)
    (unmarked : lineMark ∉ s.toList) (hending : layout.lineTerminator.toList ∈ lineEnds) :
    n.PrintsAs A layout [withLineEnds layout.lineTerminator.toList s.toList] := by
  refine ⟨s, ?_, .operand operand feeds unmarked hending⟩
  rw [fragment_of_leaf children, kind, ← text]
  rfl

theorem printsAs_literal {s : String} (kind : n.kind = .expression .literal)
    (text : (n.attributes.text? Key.value).getD "null" = s) (children : n.children = [])
    (operand : IsOperand A s.toList) (unmarked : lineMark ∉ s.toList)
    (hending : layout.lineTerminator.toList ∈ lineEnds) :
    n.PrintsAs A layout [withLineEnds layout.lineTerminator.toList s.toList] := by
  refine ⟨String.ofList (s.toList.map fun c => if c = '\n' then lineMark else c), ?_, ?_⟩
  · rw [fragment_of_leaf children, kind, ← text]
    rfl
  · rw [String.toList_ofList]
    exact .marked operand unmarked hending

theorem printsAs_enclosed (kind : n.kind = .expression .enclosed) (children : n.children = [c])
    (inner : c.PrintsAs A layout ts) : n.PrintsAs A layout (['('] :: (ts ++ [[')']])) := by
  obtain ⟨s, hfragment, hreads⟩ := inner
  refine ⟨"(" ++ (s ++ ")"), ?_, ?_⟩
  · rw [fragment_of_one children hfragment, kind, Fragment.ofText_append, Fragment.ofText_append,
      ← Fragment.append_assoc]
    rfl
  · rw [String.toList_append, String.toList_append]
    exact (hreads.ended (o := ")") (by decide)).opened

theorem printsAs_leading {o : String} (kind : n.kind = .expression .unary)
    (flag : n.attributes.flag Key.trailingOperator = false)
    (text : Template.textAt n.attributes Key.operator = o) (operator : o ∈ leadingOperators)
    (children : n.children = [c]) (operand : c.PrintsAs A layout ts) :
    n.PrintsAs A layout (o.toList :: ts) := by
  obtain ⟨s, hfragment, hreads⟩ := operand
  have hnode : fragment n = .ok (Template.unary n.attributes (.ofText s)) := by
    rw [fragment_of_one children hfragment, kind]
    rfl
  rw [Template.unary, text, if_neg (by simp [flag])] at hnode
  by_cases hmerge : Template.mergesWith o (.ofText s) = true
  · -- Two signs meet, and a space keeps them apart.
    rw [if_pos hmerge, ← Fragment.ofText_append] at hnode
    refine ⟨_, hnode, ?_⟩
    rw [String.toList_append, String.toList_append]
    exact hreads.leading_spaced operator
  · rw [if_neg hmerge, ← Fragment.ofText_append] at hnode
    refine ⟨_, hnode, ?_⟩
    rw [String.toList_append]
    refine hreads.leading operator fun d hd => ?_
    rintro ⟨hlast, hsigns⟩
    -- The template looks at the character with which the text begins.
    apply hmerge
    rw [Template.mergesWith, Fragment.firstChar?_ofText hreads.head?_ne_feed, Option.mem_def.1 hd]
    rcases hlast with hlast | hlast <;> rw [hlast] <;> simp [hsigns]

theorem printsAs_trailing {o : String} (kind : n.kind = .expression .unary)
    (flag : n.attributes.flag Key.trailingOperator = true)
    (text : Template.textAt n.attributes Key.operator = o) (operator : o ∈ trailingOperators)
    (children : n.children = [c]) (operand : c.PrintsAs A layout ts) :
    n.PrintsAs A layout (ts ++ [o.toList]) := by
  have hends : ∀ o ∈ trailingOperators, o ∈ [")", "++", "--"] := by decide
  obtain ⟨s, hfragment, hreads⟩ := operand
  refine ⟨s ++ o, ?_, ?_⟩
  · rw [fragment_of_one children hfragment, kind, Fragment.ofText_append]
    show Except.ok (Template.unary n.attributes (.ofText s)) = _
    rw [Template.unary, if_pos flag, text]
  · rw [String.toList_append]
    exact hreads.ended (hends o operator)

theorem printsAs_binary {o : String} (kind : n.kind = .expression .binary)
    (text : Template.textAt n.attributes Key.operator = o) (operator : o ∈ binaryOperators)
    (children : n.children = [l, r]) (left : l.PrintsAs A layout ts)
    (right : r.PrintsAs A layout us) : n.PrintsAs A layout (ts ++ o.toList :: us) := by
  obtain ⟨s, hleft, hreads⟩ := left
  obtain ⟨t, hright, hother⟩ := right
  refine ⟨s ++ (" " ++ o ++ " ") ++ t, ?_, ?_⟩
  · rw [fragment_of_two children hleft hright, kind, Fragment.ofText_append,
      Fragment.ofText_append, ← text]
    rfl
  · simp only [String.toList_append]
    exact hreads.binary hother operator

/-- The induction over the tree. -/
theorem printsAs_of_spells (hspells : n.Spells A ts) (unmarked : ∀ t ∈ ts, lineMark ∉ t)
    (hending : layout.lineTerminator.toList ∈ lineEnds) :
    n.PrintsAs A layout (ts.map (withLineEnds layout.lineTerminator.toList)) := by
  -- Writing line ends concerns the operands only.
  have hsame : ∀ o ∈ usedOperators,
      withLineEnds layout.lineTerminator.toList o.toList = o.toList := by
    intro o ho
    exact withLineEnds_of_not_mem (usedOperators_plain o ho).1
  have hused : ∀ o ∈ leadingOperators ++ trailingOperators ++ binaryOperators,
      o ∈ usedOperators := by decide
  induction hspells with
  | name kind text children operand feeds =>
    exact printsAs_name kind text children operand feeds (unmarked _ (by simp)) hending
  | literal kind text children operand =>
    exact printsAs_literal kind text children operand (unmarked _ (by simp)) hending
  | enclosed kind children _ ih =>
    have hparts := ih fun t ht => unmarked t (by simp [ht])
    rw [List.map_cons, List.map_append, List.map_singleton]
    exact printsAs_enclosed kind children hparts
  | leading kind flag text operator children _ ih =>
    have hoperand := ih fun t ht => unmarked t (by simp [ht])
    rw [List.map_cons, hsame _ (hused _ (by simp [operator]))]
    exact printsAs_leading kind flag text operator children hoperand
  | trailing kind flag text operator children _ ih =>
    have hoperand := ih fun t ht => unmarked t (by simp [ht])
    rw [List.map_append, List.map_singleton, hsame _ (hused _ (by simp [operator]))]
    exact printsAs_trailing kind flag text operator children hoperand
  | binary kind text operator children _ _ ihl ihr =>
    have hleft := ihl fun t ht => unmarked t (by simp [ht])
    have hright := ihr fun t ht => unmarked t (by simp [ht])
    rw [List.map_append, List.map_cons, hsame _ (hused _ (by simp [operator]))]
    exact printsAs_binary kind text operator children hleft hright

/-! ## Section 6: Main statement -/

/-- Operator tokens never merge.

    An expression of names, literals, parentheses, unary and binary operators
    is printed, with levels of any width there is room for, and lexing what is
    printed by longest match gives the tokens of the tree in order, provided
    that no name and no literal holds the character that marks line breaks.  A
    line feed in a text block is written as the layout ends lines, so with line
    feeds the tokens are the very same.  In the text of a name, unlike in that
    of a literal, a carriage return in front of a line feed would be lost. -/
theorem tokens_print (hspells : n.Spells A ts) (unmarked : ∀ t ∈ ts, lineMark ∉ t)
    (hending : layout.lineTerminator.toList ∈ lineEnds)
    (hwidth : layout.indentWidth ≤ maxBytes) :
    ∃ out, print layout n = .ok out ∧
      tokens A out.toList = some (ts.map (withLineEnds layout.lineTerminator.toList)) ∧
      (layout.lineTerminator = "\n" → tokens A out.toList = some ts) := by
  obtain ⟨s, hfragment, hreads⟩ := printsAs_of_spells hspells unmarked hending
  have hclosed : ∀ ending ∈ lineEnds, lineMark ∉ ending ∧
      ending.all (fun c => isBoundary c && isSpace c) = true := by decide
  obtain ⟨hplain, hall⟩ := hclosed _ hending
  have hboundary : ∀ c ∈ layout.lineTerminator.toList, isBoundary c = true ∧ isSpace c = true :=
    fun c hc => Bool.and_eq_true_iff.1 (List.all_eq_true.1 hall c hc)
  have hprint : print layout n = .ok ((Fragment.ofText s).write layout) := by
    rw [print_eq_write hwidth, hfragment]
    rfl
  have htokens : tokens A ((Fragment.ofText s).write layout).toList =
      some (ts.map (withLineEnds layout.lineTerminator.toList)) := by
    have hfirst := fun c hc => (hboundary c (List.mem_of_mem_head? hc)).1
    rw [Fragment.write_ofText hplain hreads.feeds hreads.last, hreads.lexes _ hfirst,
      tokens_of_spaces fun c hc => (hboundary c hc).2, Option.map_some, List.append_nil]
  refine ⟨_, hprint, htokens, ?_⟩
  intro hfeed
  rw [htokens, hfeed, List.map_congr_left fun t _ => withLineEnds_feed t, List.map_id']

-- A text that is not marked loses carriage returns in front of its line feeds.
example : (Fragment.ofText "\"\"\"\r\n\"\"\"").write {} = "\"\"\"\n\"\"\"\n" := by rfl

end Printer

/-! ## Section 7: Signs that meet, and a mark in a literal -/

/-- A block with the expression `- -x++ + +y`, and with a string that holds
    the character for line breaks. -/
def Builder.signs : Builder :=
  let text (key s : String) : Attributes := Attributes.empty.insert key (.text s)
  let block := ((new.add 0 (.type .class) .empty).add 1 (.member .initializer) .empty).add 2
    (.statement .block) .empty
  let sum := (block.add 3 (.statement .expression) .empty).add 4 (.expression .binary)
    (text Key.operator "+")
  let left := (((sum.add 5 (.expression .unary) (text Key.operator "-")).add 6 (.expression .unary)
    (text Key.operator "-")).add 7 (.expression .unary)
      ((text Key.operator "++").insert Key.trailingOperator (.flag true))).add 8 (.expression .name)
        (text Key.name "x")
  let right := (left.add 5 (.expression .unary) (text Key.operator "+")).add 10 (.expression .name)
    (text Key.name "y")
  (right.add 3 (.statement .expression) .empty).add 12 (.expression .literal)
    (text Key.value "\"\x00\"")

/-- The tree of `Builder.signs`. -/
def Tree.signs : Tree := ⟨Builder.signs.arena, Builder.signs.ordered, by decide⟩

theorem Tree.built_signs : signs.Built := by
  have hreach : Builder.signs.Reachable := by
    iterate 13 refine Builder.Reachable.add ?_ (by decide) _ _
    exact .start _ _
  exact ⟨Builder.signs, hreach, Builder.finish_eq_ok_iff.2 ⟨by decide, rfl⟩⟩

/-- A node of `Tree.signs`. -/
def Cursor.signs (i : Fin 14) : Cursor := ⟨Tree.signs, i, i.isLt⟩

namespace Printer

/-- The signs stay apart. -/
theorem tokens_print_signs :
    Tree.signs.Built ∧
      (Cursor.signs 5).Spells .ascii
        (["-", "-", "x", "++", "+", "+", "y"].map String.toList) ∧
      ∃ out, print {} (.signs 5) = .ok out ∧ tokens .ascii out.toList =
        some (["-", "-", "x", "++", "+", "+", "y"].map String.toList) := by
  have hspells : (Cursor.signs 5).Spells .ascii
      (["-", "-", "x", "++", "+", "+", "y"].map String.toList) := by
    have hx : (Cursor.signs 9).Spells .ascii ["x".toList] :=
      .name rfl rfl rfl ⟨⟨'x', rfl, rfl⟩, rfl⟩ (.singleton _)
    have hy : (Cursor.signs 11).Spells .ascii ["y".toList] :=
      .name rfl rfl rfl ⟨⟨'y', rfl, rfl⟩, rfl⟩ (.singleton _)
    have hstep : (Cursor.signs 8).Spells .ascii (["x", "++"].map String.toList) :=
      .trailing (o := "++") rfl rfl rfl (by decide) rfl hx
    have hinner : (Cursor.signs 7).Spells .ascii (["-", "x", "++"].map String.toList) :=
      .leading (o := "-") rfl rfl rfl (by decide) rfl hstep
    have hleft : (Cursor.signs 6).Spells .ascii (["-", "-", "x", "++"].map String.toList) :=
      .leading (o := "-") rfl rfl rfl (by decide) rfl hinner
    have hright : (Cursor.signs 10).Spells .ascii (["+", "y"].map String.toList) :=
      .leading (o := "+") rfl rfl rfl (by decide) rfl hy
    exact .binary (o := "+") rfl rfl (by decide) rfl hleft hright
  have hfeed : ({} : Layout).lineTerminator.toList ∈ lineEnds := by decide
  obtain ⟨out, hprint, -, htokens⟩ := tokens_print hspells (by decide) hfeed (by decide)
  exact ⟨Tree.built_signs, hspells, out, hprint, htokens rfl⟩

/-- A string that holds the character for line breaks is torn apart. -/
theorem print_tears_marked_literal :
    Tree.signs.Built ∧ (Cursor.signs 13).Spells .ascii ["\"\x00\"".toList] ∧
      ∃ out, print {} (.signs 13) = .ok out ∧
        tokens .ascii out.toList ≠ some ["\"\x00\"".toList] := by
  have hspells : (Cursor.signs 13).Spells .ascii ["\"\x00\"".toList] :=
    .literal rfl rfl rfl ⟨⟨'"', rfl, rfl⟩, rfl⟩
  have hleaf : (Cursor.signs 13).children = [] := rfl
  have hprint : print {} (.signs 13) = .ok "\"\n\"\n" := by
    rw [print_eq_write (by decide), fragment_of_leaf hleaf]
    rfl
  have htokens : tokens .ascii "\"\n\"\n".toList = none :=
    tokens_eq_none (c := '"') rfl rfl
  refine ⟨Tree.built_signs, hspells, _, hprint, ?_⟩
  rw [htokens]
  exact Option.some_ne_none _ |>.symm

end Printer

end JavaTree
