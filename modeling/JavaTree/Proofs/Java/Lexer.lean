import Mathlib.Data.List.Basic

/-! # Tokens of Java

    The lexical grammar of Java as an automaton (`Java.step`), and lexing by
    longest match with it (`Java.tokens`): from each position on, the longest
    text that the automaton accepts is the next token, and white space and
    comments are left out.

    The text is one in which Unicode escapes are already translated.  Which
    characters are letters is left to an alphabet, which is only known on
    printable ASCII and on white space.  What may follow a backslash in a
    literal is not checked, for it does not matter to where the literal ends.

    The main result is that a text the automaton accepts is the next token
    if it cannot go on with the next character (`Java.tokens_append`). -/

namespace JavaTree.Java

/-! ## Section 1: Characters -/

/-- Whether the character ends a line. -/
def isLineEnd (c : Char) : Bool := c = '\n' || c = '\r'

/-- Whether the character is white space between tokens. -/
def isSpace (c : Char) : Bool := c = ' ' || c = '\t' || c = '\x0c' || isLineEnd c

/-- Whether the character is printable ASCII or white space. -/
def isPlain (c : Char) : Bool := (0x20 ≤ c.toNat && c.toNat ≤ 0x7e) || isSpace c

/-- Which characters an identifier starts with and consists of. -/
structure Alphabet where
  /-- Whether an identifier may start with the character. -/
  isStart : Char → Bool
  /-- Whether an identifier may go on with the character. -/
  isPart : Char → Bool
  /-- Among plain characters, these are letters, the underscore and the
      dollar sign. -/
  start_plain : ∀ c, isPlain c = true → isStart c = (c.isAlpha || c = '_' || c = '$')
  /-- And digits within. -/
  part_plain : ∀ c, isPlain c = true → isPart c = (c.isAlphanum || c = '_' || c = '$')

/-- The alphabet without letters beyond ASCII. -/
def Alphabet.ascii : Alphabet where
  isStart c := c.isAlpha || c = '_' || c = '$'
  isPart c := c.isAlphanum || c = '_' || c = '$'
  start_plain _ _ := rfl
  part_plain _ _ := rfl

/-- Whether the character is a hexadecimal digit. -/
def isHexDigit (c : Char) : Bool :=
  c.isDigit || ('a' ≤ c && c ≤ 'f') || ('A' ≤ c && c ≤ 'F')

/-- Separators and operators. -/
def operators : List String :=
  ["(", ")", "\x7b", "\x7d", "[", "]", ";", ",", ".", "...", "@", "::",
   "=", ">", "<", "!", "~", "?", ":", "->", "==", ">=", "<=", "!=", "&&", "||", "++", "--",
   "+", "-", "*", "/", "&", "|", "^", "%", "<<", ">>", ">>>",
   "+=", "-=", "*=", "/=", "&=", "|=", "^=", "%=", "<<=", ">>=", ">>>="]

/-! ## Section 2: The automaton -/

/-- A run of digits within a number. -/
inductive Digits where
  /-- The number starts with a digit other than zero. -/
  | decimal
  /-- It starts with a zero, and all digits are octal. -/
  | octal
  /-- It starts with a zero, and some digit is not octal: only a fraction, an
      exponent or a suffix makes it a number. -/
  | loose
  | hex
  | binary
  /-- Behind the point. -/
  | fraction
  /-- Behind the point of a hexadecimal number, which needs an exponent. -/
  | hexFraction
  | exponent
  deriving DecidableEq

/-- How far a token has been read. -/
inductive State where
  | start
  /-- What was read is not the beginning of a token. -/
  | dead
  /-- An identifier, a keyword, or a literal that looks like one. -/
  | word
  /-- A beginning of separators or operators. -/
  | operator (read : List Char)
  /-- A number that is a single zero so far. -/
  | zero
  /-- A run of digits, behind an underscore if there is a gap. -/
  | digits (run : Digits) (gap : Bool)
  /-- Behind `0x`. -/
  | hexStart
  /-- Behind `0x.`. -/
  | hexDot
  /-- Behind the point of a hexadecimal number with digits in front of it. -/
  | hexPoint
  /-- Behind `0b`. -/
  | binaryStart
  /-- Behind a point with digits in front of it. -/
  | point
  | exponentStart
  | exponentSign
  /-- A token that cannot go on. -/
  | finished
  /-- Behind the quote of a character. -/
  | charStart
  | charEscape
  | charBody
  /-- Behind the quote of a string. -/
  | stringStart
  | stringBody
  | stringEscape
  /-- Two quotes, which are a string or the beginning of a text block. -/
  | stringEmpty
  /-- On the first line of a text block. -/
  | blockStart
  /-- In a text block, behind some quotes in a row. -/
  | block (quotes : Nat)
  | blockEscape
  | lineComment
  /-- In a comment, maybe behind an asterisk. -/
  | comment (star : Bool)
  deriving DecidableEq

/-- Whether the character is a digit of the run. -/
def Digits.has : Digits → Char → Bool
  | .hex, c | .hexFraction, c => isHexDigit c
  | .binary, c => c = '0' || c = '1'
  | _, c => c.isDigit

/-- The run after one more digit. -/
def Digits.next : Digits → Char → Digits
  | .octal, c => if c = '8' || c = '9' then .loose else .octal
  | r, _ => r

/-- Whether the run of digits may end a number. -/
def Digits.isComplete : Digits → Bool
  | .loose | .hexFraction => false
  | _ => true

/-- Behind the last digit of a run. -/
def Digits.leave : Digits → Char → State
  | .decimal, c | .octal, c =>
    if c = '.' then .point else if c = 'e' || c = 'E' then .exponentStart
    else if c ∈ ['l', 'L', 'f', 'F', 'd', 'D'] then .finished else .dead
  | .loose, c =>
    if c = '.' then .point else if c = 'e' || c = 'E' then .exponentStart
    else if c ∈ ['f', 'F', 'd', 'D'] then .finished else .dead
  | .hex, c =>
    if c = '.' then .hexPoint else if c = 'p' || c = 'P' then .exponentStart
    else if c = 'l' || c = 'L' then .finished else .dead
  | .binary, c => if c = 'l' || c = 'L' then .finished else .dead
  | .fraction, c =>
    if c = 'e' || c = 'E' then .exponentStart
    else if c ∈ ['f', 'F', 'd', 'D'] then .finished else .dead
  | .hexFraction, c => if c = 'p' || c = 'P' then .exponentStart else .dead
  | .exponent, c => if c ∈ ['f', 'F', 'd', 'D'] then .finished else .dead

/-- Go on with a run of digits. -/
def Digits.step (r : Digits) (gap : Bool) (c : Char) : State :=
  if r.has c then .digits (r.next c) false
  else if c = '_' then .digits r true
  else if gap then .dead
  else r.leave c

/-- Go on with separators and operators.  Two of them open comments, and a
    point may open a number. -/
def stepOperator (read : List Char) (c : Char) : State :=
  if read = ['/'] && c = '/' then .lineComment
  else if read = ['/'] && c = '*' then .comment false
  else if read = ['.'] && c.isDigit then .digits .fraction false
  else if operators.any fun o => (read ++ [c]).isPrefixOf o.toList then .operator (read ++ [c])
  else .dead

/-- Go on inside a string. -/
def stepString (c : Char) : State :=
  if c = '"' then .finished else if c = '\\' then .stringEscape
  else if isLineEnd c then .dead else .stringBody

/-- Go on by one character. -/
def step (A : Alphabet) : State → Char → State
  | .start, c =>
    if A.isStart c then .word
    else if c = '0' then .zero
    else if c.isDigit then .digits .decimal false
    else if c = '\'' then .charStart
    else if c = '"' then .stringStart
    else stepOperator [] c
  | .dead, _ | .finished, _ => .dead
  | .word, c => if A.isPart c then .word else .dead
  | .operator read, c => stepOperator read c
  | .zero, c =>
    if c = 'x' || c = 'X' then .hexStart else if c = 'b' || c = 'B' then .binaryStart
    else Digits.octal.step false c
  | .digits r gap, c => r.step gap c
  | .hexStart, c =>
    if isHexDigit c then .digits .hex false else if c = '.' then .hexDot else .dead
  | .hexDot, c => if isHexDigit c then .digits .hexFraction false else .dead
  | .hexPoint, c =>
    if isHexDigit c then .digits .hexFraction false
    else if c = 'p' || c = 'P' then .exponentStart else .dead
  | .binaryStart, c => if c = '0' || c = '1' then .digits .binary false else .dead
  | .point, c => if c.isDigit then .digits .fraction false else Digits.fraction.leave c
  | .exponentStart, c =>
    if c.isDigit then .digits .exponent false
    else if c = '+' || c = '-' then .exponentSign else .dead
  | .exponentSign, c => if c.isDigit then .digits .exponent false else .dead
  | .charStart, c =>
    if c = '\\' then .charEscape else if c = '\'' || isLineEnd c then .dead else .charBody
  | .charEscape, c => if isLineEnd c then .dead else .charBody
  | .charBody, c =>
    if c = '\'' then .finished else if c = '\\' || isLineEnd c then .dead else .charBody
  | .stringStart, c => if c = '"' then .stringEmpty else stepString c
  | .stringBody, c => stepString c
  | .stringEscape, c => if isLineEnd c then .dead else .stringBody
  | .stringEmpty, c => if c = '"' then .blockStart else .dead
  | .blockStart, c => if isLineEnd c then .block 0 else if isSpace c then .blockStart else .dead
  | .block quotes, c =>
    if c = '"' then if quotes < 2 then .block (quotes + 1) else .finished
    else if c = '\\' then .blockEscape else .block 0
  | .blockEscape, _ => .block 0
  | .lineComment, c => if isLineEnd c then .dead else .lineComment
  | .comment star, c => if star && c = '/' then .finished else .comment (c = '*')

/-- Whether what was read is a token or a comment. -/
def accepts : State → Bool
  | .word | .zero | .point | .finished | .stringEmpty | .lineComment => true
  | .operator read => operators.any (·.toList = read)
  | .digits r gap => r.isComplete && !gap
  | _ => false

/-- Go on by several characters. -/
def run (A : Alphabet) (q : State) (cs : List Char) : State := cs.foldl (step A) q

/-! ## Section 3: Longest match -/

/-- The longest beginning of a text that leads to an accepted state, and what
    is left of the text. -/
def longest (A : Alphabet) (q : State) : List Char → Option (List Char × List Char)
  | [] => if accepts q then some ([], []) else none
  | c :: cs =>
    match longest A (step A q c) cs with
    | some (t, rest) => some (c :: t, rest)
    | none => if accepts q then some ([], c :: cs) else none

/-- Whether an accepted text is a comment. -/
def isComment : List Char → Bool
  | '/' :: '/' :: _ | '/' :: '*' :: _ => true
  | _ => false

variable {A : Alphabet}

theorem append_of_longest {q : State} {cs t rest : List Char}
    (h : longest A q cs = some (t, rest)) : t ++ rest = cs := by
  induction cs generalizing q t with
  | nil =>
    unfold longest at h
    split at h
    · cases h
      rfl
    · cases h
  | cons c cs ih =>
    unfold longest at h
    split at h
    · rename_i t' rest' hlongest
      cases h
      rw [List.cons_append, ih hlongest]
    · split at h
      · cases h
        rfl
      · cases h

/-- The start is not accepted, so a match from there takes something away. -/
theorem length_of_longest {cs t rest : List Char} (h : longest A .start cs = some (t, rest)) :
    rest.length < cs.length := by
  have hcs := append_of_longest h
  cases t with
  | cons c t =>
    rw [← hcs, List.cons_append, List.length_cons, List.length_append]
    omega
  | nil =>
    obtain rfl : rest = cs := hcs
    exfalso
    cases rest with
    | nil => cases h
    | cons c rest =>
      unfold longest at h
      split at h
      · cases h
      · cases h

/-- The tokens of a text, if it has any. -/
def tokens (A : Alphabet) (cs : List Char) : Option (List (List Char)) :=
  match cs with
  | [] => some []
  | c :: cs =>
    if isSpace c then tokens A cs
    else
      match _h : longest A .start (c :: cs) with
      | some (t, rest) => if isComment t then tokens A rest else (tokens A rest).map (t :: ·)
      | none => none
termination_by cs.length
decreasing_by
  · exact Nat.lt_succ_self _
  · exact length_of_longest _h
  · exact length_of_longest _h

theorem run_append (q : State) (u v : List Char) : run A q (u ++ v) = run A (run A q u) v :=
  List.foldl_append

theorem run_cons (q : State) (c : Char) (cs : List Char) :
    run A q (c :: cs) = run A (step A q c) cs := rfl

/-- Nothing leads out of the dead state. -/
theorem longest_dead (cs : List Char) : longest A .dead cs = none := by
  induction cs with
  | nil => rfl
  | cons c cs ih =>
    unfold longest
    rw [show step A .dead c = .dead from rfl, ih]
    rfl

/-- The text ends, or the state cannot go on with it. -/
def Stops (A : Alphabet) (q : State) (rest : List Char) : Prop :=
  ∀ c ∈ rest.head?, step A q c = .dead

/-- A text that is accepted and cannot go on is the longest match. -/
theorem longest_append {q : State} {w rest : List Char} (haccepts : accepts (run A q w) = true)
    (hstops : Stops A (run A q w) rest) : longest A q (w ++ rest) = some (w, rest) := by
  induction w generalizing q with
  | nil =>
    change accepts q = true at haccepts
    change Stops A q rest at hstops
    -- A longer match would lead through the dead state.
    cases rest with
    | nil => simp [longest, haccepts]
    | cons c rest => simp [longest, hstops c rfl, longest_dead, haccepts]
  | cons c w ih =>
    rw [run_cons] at haccepts hstops
    simp [longest, ih haccepts hstops]

-- The sign belongs to the exponent of a decimal number only.
example : longest .ascii .start "0xe+1".toList = some ("0xe".toList, "+1".toList) ∧
    longest .ascii .start "0e+1".toList = some ("0e+1".toList, []) := by
  decide

theorem tokens_nil : tokens A [] = some [] := by
  rw [tokens]

theorem tokens_space {c : Char} (h : isSpace c = true) (cs : List Char) :
    tokens A (c :: cs) = tokens A cs := by
  rw [tokens, if_pos h]

theorem tokens_of_spaces {cs : List Char} (h : ∀ c ∈ cs, isSpace c = true) :
    tokens A cs = some [] := by
  induction cs with
  | nil => exact tokens_nil
  | cons c cs ih =>
    rw [tokens_space (h c List.mem_cons_self)]
    exact ih fun d hd => h d (List.mem_cons_of_mem c hd)

/-- A text that does not begin with a token has no tokens. -/
theorem tokens_eq_none {c : Char} {cs : List Char} (hspace : isSpace c = false)
    (h : longest A .start (c :: cs) = none) : tokens A (c :: cs) = none := by
  rw [tokens, if_neg (by simp [hspace])]
  split
  · rename_i heq
    rw [h] at heq
    cases heq
  · rfl

/-- A text that is accepted and cannot go on is the next token, unless it is
    a comment or starts with white space. -/
theorem tokens_append {w rest : List Char} (haccepts : accepts (run A .start w) = true)
    (hstops : Stops A (run A .start w) rest) (hspace : ∀ c ∈ w.head?, isSpace c = false)
    (hcomment : isComment w = false) :
    tokens A (w ++ rest) = (tokens A rest).map (w :: ·) := by
  have hlongest := longest_append haccepts hstops
  cases w with
  | nil => cases haccepts
  | cons c w =>
    rw [List.cons_append] at hlongest ⊢
    rw [tokens, if_neg (by simp [hspace c rfl])]
    split
    · rename_i t rest' heq
      obtain ⟨rfl, rfl⟩ := Prod.mk.inj (Option.some.inj (heq.symm.trans hlongest))
      rw [if_neg (by simp [hcomment])]
    · rename_i heq
      rw [hlongest] at heq
      cases heq

/-! ## Section 4: Operands -/

/-- Whether the state is one inside a word, a number or a quoted literal, or
    the dead state. -/
def State.isOperand : State → Bool
  | .start | .operator _ | .lineComment | .comment _ => false
  | _ => true

/-- Whether a token that starts with the character is an operand: a letter,
    a digit, an underscore, a dollar sign or a quote. -/
def isOperandStart (A : Alphabet) (c : Char) : Bool :=
  A.isStart c || c.isDigit || c = '\'' || c = '"'

/-- A single token that starts with a letter, a digit, an underscore, a dollar
    sign or a quote. -/
def IsOperand (A : Alphabet) (w : List Char) : Prop :=
  (∃ c ∈ w.head?, isOperandStart A c = true) ∧ accepts (run A .start w) = true

/-- Characters that may stand directly behind an operand. -/
def isBoundary (c : Char) : Bool := c ∈ [' ', ')', '+', '-', '\n', '\r']

theorem isOperand_leave (r : Digits) (c : Char) : (r.leave c).isOperand = true := by
  cases r <;> unfold Digits.leave <;> dsimp only <;> split_ifs <;> rfl

theorem isOperand_digits (r : Digits) (gap : Bool) (c : Char) :
    (r.step gap c).isOperand = true := by
  unfold Digits.step
  split_ifs
  · rfl
  · rfl
  · rfl
  · exact isOperand_leave r c

theorem isOperand_stepString (c : Char) : (stepString c).isOperand = true := by
  unfold stepString
  split_ifs <;> rfl

/-- An operand stays one. -/
theorem isOperand_step {q : State} (h : q.isOperand = true) (c : Char) :
    (step A q c).isOperand = true := by
  cases q with
  | start | operator | lineComment | comment => cases h
  | digits r gap => exact isOperand_digits r gap c
  | zero =>
    rw [step]
    split_ifs
    · rfl
    · rfl
    · exact isOperand_digits .octal false c
  | point =>
    rw [step]
    split_ifs
    · rfl
    · exact isOperand_leave .fraction c
  | stringStart =>
    rw [step]
    split_ifs
    · rfl
    · exact isOperand_stepString c
  | stringBody => exact isOperand_stepString c
  | dead | finished | blockEscape => rfl
  | word | hexStart | hexDot | hexPoint | binaryStart | exponentStart | exponentSign | charStart
  | charEscape | charBody | stringEscape | stringEmpty | blockStart | block =>
    rw [step]
    split_ifs <;> rfl

theorem isOperand_run {q : State} (h : q.isOperand = true) (cs : List Char) :
    (run A q cs).isOperand = true := by
  induction cs generalizing q with
  | nil => exact h
  | cons c cs ih => exact ih (isOperand_step h c)

theorem isOperand_start {c : Char} (h : isOperandStart A c = true) :
    (step A .start c).isOperand = true := by
  simp only [isOperandStart, Bool.or_eq_true, decide_eq_true_eq] at h
  rw [step]
  split_ifs
  · rfl
  · rfl
  · rfl
  · rfl
  · rfl
  · simp_all

/-- No operand goes on with a boundary. -/
theorem step_boundary {q : State} {c : Char} (hq : q.isOperand = true) (haccepts : accepts q = true)
    (hc : isBoundary c = true) : step A q c = .dead := by
  have hcases : c = ' ' ∨ c = ')' ∨ c = '+' ∨ c = '-' ∨ c = '\n' ∨ c = '\r' := by
    simpa [isBoundary] using hc
  cases q with
  | word =>
    have hplain : isPlain c = true := by
      rcases hcases with rfl | rfl | rfl | rfl | rfl | rfl <;> rfl
    have hpart : A.isPart c = false := by
      rw [A.part_plain c hplain]
      rcases hcases with rfl | rfl | rfl | rfl | rfl | rfl <;> rfl
    simp [step, hpart]
  | digits r gap =>
    cases gap with
    | true => simp [accepts] at haccepts
    | false => cases r <;> rcases hcases with rfl | rfl | rfl | rfl | rfl | rfl <;> rfl
  | zero | point | finished | stringEmpty =>
    rcases hcases with rfl | rfl | rfl | rfl | rfl | rfl <;> rfl
  | lineComment | operator => cases hq
  | _ => cases haccepts

/-- The line ends that Java knows, written out. -/
def lineEnds : List (List Char) := [['\n'], ['\r'], ['\r', '\n']]

/-- Only a text block goes on behind the end of a line, and then it does not
    matter how the line ends. -/
theorem run_lineEnd {q : State} {ending : List Char} (hq : q.isOperand = true)
    (hending : ending ∈ lineEnds) : run A q ending = step A q '\n' := by
  have hcases : ending = ['\n'] ∨ ending = ['\r'] ∨ ending = ['\r', '\n'] := by
    simpa [lineEnds] using hending
  cases q with
  | start | operator | lineComment | comment => cases hq
  | word =>
    have hnewline : A.isPart '\n' = false := by
      rw [A.part_plain _ rfl]
      rfl
    have hreturn : A.isPart '\r' = false := by
      rw [A.part_plain _ rfl]
      rfl
    rcases hcases with rfl | rfl | rfl <;> simp [run, step, hnewline, hreturn]
  | digits r gap => cases r <;> cases gap <;> rcases hcases with rfl | rfl | rfl <;> rfl
  | _ => rcases hcases with rfl | rfl | rfl <;> rfl

/-- A text with every line feed written as another line end. -/
def withLineEnds (ending : List Char) (cs : List Char) : List Char :=
  cs.flatMap fun c => if c = '\n' then ending else [c]

theorem withLineEnds_of_not_mem {ending cs : List Char} (h : '\n' ∉ cs) :
    withLineEnds ending cs = cs := by
  have hsingle : ∀ c ∈ cs, (if c = '\n' then ending else [c]) = [c] := by
    intro c hc
    have hfeed : c ≠ '\n' := fun heq => h (heq ▸ hc)
    rw [if_neg hfeed]
  rw [withLineEnds, List.flatMap_congr hsingle, List.flatMap_singleton']

theorem withLineEnds_feed (cs : List Char) : withLineEnds "\n".toList cs = cs := by
  have hsingle : ∀ c ∈ cs, (if c = '\n' then "\n".toList else [c]) = [c] := by
    intro c _
    split
    · rename_i hfeed
      rw [hfeed]
      rfl
    · rfl
  rw [withLineEnds, List.flatMap_congr hsingle, List.flatMap_singleton']

theorem run_withLineEnds {q : State} {ending : List Char} (hq : q.isOperand = true)
    (hending : ending ∈ lineEnds) (cs : List Char) :
    run A q (withLineEnds ending cs) = run A q cs := by
  induction cs generalizing q with
  | nil => rfl
  | cons c cs ih =>
    rw [withLineEnds, List.flatMap_cons, run_append, run_cons]
    by_cases hc : c = '\n'
    · rw [if_pos hc, run_lineEnd hq hending, hc]
      exact ih (isOperand_step hq _)
    · rw [if_neg hc]
      exact ih (isOperand_step hq _)

theorem isOperandStart_plain {c : Char} (h : isPlain c = true) :
    isOperandStart A c = isOperandStart .ascii c := by
  rw [isOperandStart, A.start_plain c h]
  rfl

/-- An operand starts with none of the other plain characters. -/
theorem ne_of_isOperandStart {c d : Char} (hc : isOperandStart A c = true)
    (hplain : isPlain d = true) (hd : isOperandStart .ascii d = false) : c ≠ d := by
  rintro rfl
  rw [isOperandStart_plain hplain, hd] at hc
  cases hc

theorem not_isSpace_of_isOperandStart {c : Char} (hc : isOperandStart A c = true) :
    isSpace c = false := by
  have hne : ∀ {d : Char}, isPlain d = true → isOperandStart .ascii d = false → c ≠ d :=
    ne_of_isOperandStart hc
  simp [isSpace, isLineEnd, hne (d := ' ') rfl rfl, hne (d := '\t') rfl rfl,
    hne (d := '\x0c') rfl rfl, hne (d := '\n') rfl rfl, hne (d := '\r') rfl rfl]

/-- In front of a boundary an operand is the next token. -/
theorem tokens_operand {w rest : List Char} {ending : List Char} (hw : IsOperand A w)
    (hending : ending ∈ lineEnds) (hrest : ∀ c ∈ rest.head?, isBoundary c = true) :
    tokens A (withLineEnds ending w ++ rest) =
      (tokens A rest).map (withLineEnds ending w :: ·) := by
  obtain ⟨⟨c, hc, hstart⟩, haccepts⟩ := hw
  cases w with
  | nil => cases hc
  | cons d w =>
    obtain rfl : d = c := Option.some.inj hc
    -- The first character makes it an operand, however it goes on.
    have hfirst := isOperand_start hstart
    have hfront : withLineEnds ending (d :: w) = d :: withLineEnds ending w := by
      rw [withLineEnds, List.flatMap_cons, if_neg (ne_of_isOperandStart hstart rfl rfl)]
      rfl
    have hrun : run A .start (d :: withLineEnds ending w) = run A .start (d :: w) :=
      run_withLineEnds hfirst hending w
    rw [hfront]
    apply tokens_append
    · rwa [hrun]
    · intro e he
      rw [hrun]
      exact step_boundary (isOperand_run hfirst w) haccepts (hrest e he)
    · intro e he
      obtain rfl : d = e := Option.some.inj he
      exact not_isSpace_of_isOperandStart hstart
    · have hslash : d ≠ '/' := ne_of_isOperandStart hstart rfl rfl
      unfold isComment
      split
      · simp_all
      · simp_all
      · rfl

/-- Behind a line feed an operand is not at its end. -/
theorem accepts_feed {q : State} (hq : q.isOperand = true) : accepts (step A q '\n') = false := by
  cases q with
  | start | operator | lineComment | comment => cases hq
  | word =>
    have hpart : A.isPart '\n' = false := by
      rw [A.part_plain _ rfl]
      rfl
    simp [step, hpart, accepts]
  | digits r gap => cases r <;> cases gap <;> rfl
  | _ => rfl

theorem getLast?_operand {w : List Char} (hw : IsOperand A w) : w.getLast? ≠ some '\n' := by
  obtain ⟨⟨c, hc, hstart⟩, haccepts⟩ := hw
  intro hlast
  obtain ⟨u, rfl⟩ := List.getLast?_eq_some_iff.1 hlast
  rw [run_append] at haccepts
  cases u with
  | nil => exact ne_of_isOperandStart hstart rfl rfl (Option.some.inj hc).symm
  | cons d u =>
    obtain rfl : d = c := Option.some.inj hc
    have hnot : accepts (step A (run A .start (d :: u)) '\n') = false :=
      accepts_feed (isOperand_run (isOperand_start hstart) u)
    exact Bool.noConfusion (hnot.symm.trans haccepts)

end JavaTree.Java
