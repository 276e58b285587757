import JavaTree.Proofs.Json.Lexemes

/-! # JSON values read back

    A value is written as a text, cut into tokens and read from these.  The
    tokens of a value (`Json.tokens`) stand between the two halves: the text
    of a value is cut into exactly its tokens, at any level and before any
    text that does not run on with it (`ofChars_renderAt`), and the reader
    makes exactly the value of them, whatever arrays and objects are open
    around it (`foldl_tokens`).

    The results are `parse_pretty`, and `parse_pretty_append` for a text that
    goes on after the value. -/

namespace JavaTree.Json

/-! ## Section 1: Values that can be written -/

mutual

/-- Nothing is broken off, every string and key has a text, and every number
    is an integer of at most 64 bits. -/
def Writable : Json → Prop
  | .null | .bool _ => True
  | .number (.integer i) => -(Nat.pow 2 63 : Int) ≤ i ∧ i < Nat.pow 2 64
  | .number (.decimal _ _) => False
  | .string s => s.isSome
  | .array items => AllWritable items
  | .object members => MembersWritable members
  | .cut => False

/-- Every item can be written. -/
def AllWritable : List Json → Prop
  | [] => True
  | v :: rest => v.Writable ∧ AllWritable rest

/-- Every key has a text and every value can be written. -/
def MembersWritable : List (Option String × Json) → Prop
  | [] => True
  | (key, v) :: rest => key.isSome ∧ v.Writable ∧ MembersWritable rest

end

mutual

/-- The tokens of a value. -/
def tokens : Json → List Token
  | .null | .cut => [.null]
  | .bool b => [.bool b]
  | .number n => [.number n]
  | .string s => [.string s]
  | .array [] => [.openBracket, .closeBracket]
  | .array (v :: rest) => .openBracket :: (v.tokens ++ (itemTokens rest ++ [.closeBracket]))
  | .object [] => [.openBrace, .closeBrace]
  | .object ((key, v) :: rest) =>
      .openBrace :: .string key :: .colon ::
        (v.tokens ++ (memberTokens rest ++ [.closeBrace]))

/-- The tokens of the items after the first. -/
def itemTokens : List Json → List Token
  | [] => []
  | v :: rest => .comma :: (v.tokens ++ itemTokens rest)

/-- The tokens of the members after the first. -/
def memberTokens : List (Option String × Json) → List Token
  | [] => []
  | (key, v) :: rest => .comma :: .string key :: .colon :: (v.tokens ++ memberTokens rest)

end

/-! ## Section 2: Cutting a text into tokens -/

namespace Token

/-- The tokens of a text, in order. -/
def ofChars (cs : List Char) : List Token := (scanOnto [] cs).reverse

theorem scan_eq (text : String) : scan text = ofChars text.toList := rfl

theorem scanOnto_append (found : List Token) (cs : List Char) :
    scanOnto found cs = scanOnto [] cs ++ found := by
  induction h : cs.length using Nat.strongRecOn generalizing cs found with
  | _ n ih =>
    subst h
    cases cs with
    | nil => simp [scanOnto]
    | cons c rest =>
      rw [scanOnto, scanOnto.eq_def [] (c :: rest)]
      dsimp only
      split
      · exact ih rest.length (by simp) found rest rfl
      · have hlt : (next c rest).2.length < (c :: rest).length := by
          have := length_next c rest
          rw [List.length_cons]
          omega
        rw [ih _ hlt (_ :: found) _ rfl, ih _ hlt [_] _ rfl, List.append_assoc]
        rfl

@[simp] theorem ofChars_nil : ofChars [] = [] := by
  rw [ofChars, scanOnto]
  rfl

theorem ofChars_space {c : Char} (h : isSpace c) (rest : List Char) :
    ofChars (c :: rest) = ofChars rest := by
  rw [ofChars, scanOnto, if_pos h, ofChars]

theorem ofChars_next {c : Char} (h : ¬isSpace c) (rest : List Char) :
    ofChars (c :: rest) = (next c rest).1 :: ofChars (next c rest).2 := by
  rw [ofChars, scanOnto, if_neg h, scanOnto_append, List.reverse_append, ofChars]
  rfl

theorem ofChars_spaces {spaces : List Char} (h : ∀ c ∈ spaces, isSpace c) (rest : List Char) :
    ofChars (spaces ++ rest) = ofChars rest := by
  induction spaces with
  | nil => rfl
  | cons c spaces ih =>
    rw [List.cons_append, ofChars_space (h c List.mem_cons_self)]
    exact ih fun d hd => h d (List.mem_cons_of_mem c hd)

/-- A text has a token exactly if it holds more than white space. -/
theorem ofChars_ne_nil {cs : List Char} {c : Char} (hc : c ∈ cs) (h : ¬isSpace c) :
    ofChars cs ≠ [] := by
  induction cs with
  | nil => cases hc
  | cons d cs ih =>
    by_cases hd : isSpace d
    · rw [ofChars_space hd]
      rcases List.mem_cons.1 hc with rfl | hc
      · exact absurd hd h
      · exact ih hc
    · rw [ofChars_next hd]
      exact List.cons_ne_nil _ _

end Token

open Token (ofChars ofChars_next ofChars_spaces)

/-! ### The tokens of the pieces of a text -/

theorem ofChars_lineBreak (level : Nat) (rest : List Char) :
    ofChars ((lineBreak level).toList ++ rest) = ofChars rest := by
  apply ofChars_spaces
  intro c hc
  simp only [lineBreak, String.toList_append, String.toList_ofList, List.mem_append,
    List.mem_replicate] at hc
  rcases hc with hc | ⟨-, rfl⟩
  · have hnl : c = '\n' := by simpa using hc
    rw [hnl]
    rfl
  · rfl

theorem ofChars_quote (s : String) (rest : List Char) :
    ofChars ((quote s).toList ++ rest) = .string (some s) :: ofChars rest := by
  have hchars : (quote s).toList ++ rest = '"' :: (s.toList.flatMap escapeChar ++ '"' :: rest) := by
    simp [quote]
  have hnext : Token.next '"' (s.toList.flatMap escapeChar ++ '"' :: rest) =
      (.string (some s), rest) := by
    rw [Token.next]
    simp only [scanString_quote]
  rw [hchars, ofChars_next (by decide), hnext]

/-- A digit or a minus sign begins a number. -/
theorem next_number {c : Char} (h : Decimal.isDigit c ∨ c = '-') (rest : List Char) :
    Token.next c rest =
      match scanNumber (c :: rest) with
      | some (n, rest) => (.number n, rest)
      | none => (.invalid, []) := by
  have hne : ∀ d : Char, (Decimal.isDigit d || d == '-') = false → c ≠ d := by
    rintro d hd rfl
    simp [Bool.or_eq_false_iff] at hd
    rcases h with h | h
    · rw [hd.1] at h
      cases h
    · exact hd.2 h
  unfold Token.next
  split
  case h_11 => rfl
  all_goals exact absurd rfl (hne _ (by decide))

theorem ofChars_render {i : Int} (hlow : -(Nat.pow 2 63 : Int) ≤ i) (hhigh : i < Nat.pow 2 64)
    {rest : List Char} (hrest : EndsNumber rest) :
    ofChars ((Number.integer i).render.toList ++ rest) = .number (.integer i) :: ofChars rest := by
  have hscan := scanNumber_render hlow hhigh hrest
  -- The literal begins with a digit or a minus sign, so it is read as a number.
  obtain ⟨c, cs, hcs, hc⟩ : ∃ c cs, (Number.integer i).render.toList = c :: cs ∧
      (Decimal.isDigit c ∨ c = '-') := by
    rw [toList_render]
    split
    · cases hdigits : Nat.toDigits 10 i.toNat with
      | nil => exact absurd hdigits Nat.toDigits_ne_nil
      | cons c cs =>
        exact ⟨c, cs, rfl, .inl (Decimal.isDigit_of_mem_toDigits (hdigits ▸ List.mem_cons_self))⟩
    · exact ⟨'-', _, rfl, .inr rfl⟩
  have hspace : ¬isSpace c := by
    rcases hc with hc | rfl
    · intro h
      simp only [isSpace, Bool.or_eq_true, decide_eq_true_eq] at h
      rcases h with ((rfl | rfl) | rfl) | rfl <;> exact absurd hc (by decide)
    · decide
  rw [hcs, List.cons_append] at hscan ⊢
  rw [ofChars_next hspace, next_number hc, hscan]

/-! ### The tokens of a whole value -/

theorem endsNumber_lineBreak (level : Nat) (rest : List Char) :
    EndsNumber ((lineBreak level).toList ++ rest) := by
  have hbreak : (lineBreak level).toList = '\n' :: List.replicate (2 * level) ' ' := by
    simp [lineBreak]
  rw [hbreak]
  exact ⟨by decide, by decide, by decide, by decide⟩

theorem endsNumber_renderItems {rest : List Char} (hrest : EndsNumber rest) (level : Nat)
    (items : List Json) : EndsNumber ((renderItems level items).toList ++ rest) := by
  cases items with
  | nil => simpa [renderItems] using hrest
  | cons v items =>
    simp only [renderItems, String.toList_append, List.append_assoc]
    exact ⟨by decide, by decide, by decide, by decide⟩

theorem endsNumber_renderMembers {rest : List Char} (hrest : EndsNumber rest) (level : Nat)
    (members : List (Option String × Json)) :
    EndsNumber ((renderMembers level members).toList ++ rest) := by
  cases members with
  | nil => simpa [renderMembers] using hrest
  | cons m members =>
    simp only [renderMembers, String.toList_append, List.append_assoc]
    exact ⟨by decide, by decide, by decide, by decide⟩

theorem ofChars_openBracket (rest : List Char) :
    ofChars ("[".toList ++ rest) = .openBracket :: ofChars rest :=
  ofChars_next (by decide) rest

theorem ofChars_closeBracket (rest : List Char) :
    ofChars ("]".toList ++ rest) = .closeBracket :: ofChars rest :=
  ofChars_next (by decide) rest

theorem ofChars_openBrace (rest : List Char) :
    ofChars ("\x7b".toList ++ rest) = .openBrace :: ofChars rest :=
  ofChars_next (by decide) rest

theorem ofChars_closeBrace (rest : List Char) :
    ofChars ("\x7d".toList ++ rest) = .closeBrace :: ofChars rest :=
  ofChars_next (by decide) rest

theorem ofChars_comma (rest : List Char) :
    ofChars (",".toList ++ rest) = .comma :: ofChars rest :=
  ofChars_next (by decide) rest

theorem ofChars_colon (rest : List Char) :
    ofChars (": ".toList ++ rest) = .colon :: ofChars rest := by
  show ofChars (':' :: ' ' :: rest) = _
  rw [ofChars_next (by decide)]
  show _ :: ofChars (' ' :: rest) = _
  rw [Token.ofChars_space (by decide)]
  rfl

mutual

/-- The text of a value is cut into the tokens of the value. -/
theorem ofChars_renderAt (level : Nat) : (v : Json) → v.Writable → {rest : List Char} →
    EndsNumber rest → ofChars ((renderAt level v).toList ++ rest) = v.tokens ++ ofChars rest
  | .null, _, rest, _ => by
    rw [renderAt]
    show ofChars ('n' :: 'u' :: 'l' :: 'l' :: rest) = _
    rw [ofChars_next (by decide)]
    rfl
  | .bool true, _, rest, _ => by
    rw [renderAt]
    show ofChars ('t' :: 'r' :: 'u' :: 'e' :: rest) = _
    rw [ofChars_next (by decide)]
    rfl
  | .bool false, _, rest, _ => by
    rw [renderAt]
    show ofChars ('f' :: 'a' :: 'l' :: 's' :: 'e' :: rest) = _
    rw [ofChars_next (by decide)]
    rfl
  | .number (.integer i), hv, _, hrest => by
    rw [Writable] at hv
    rw [renderAt, ofChars_render hv.1 hv.2 hrest]
    rfl
  | .string (some s), _, rest, _ => by
    rw [renderAt, ofChars_quote]
    rfl
  | .array [], _, rest, _ => by
    rw [renderAt]
    show ofChars ("[".toList ++ ("]".toList ++ rest)) = _
    rw [ofChars_openBracket, ofChars_closeBracket]
    rfl
  | .array (v :: items), hv, rest, _ => by
    rw [Writable, AllWritable] at hv
    have hends := endsNumber_lineBreak level ("]".toList ++ rest)
    have hitems := ofChars_renderItems (level + 1) items hv.2 hends
    have hfirst := ofChars_renderAt (level + 1) v hv.1
      (endsNumber_renderItems hends (level + 1) items)
    rw [hitems, ofChars_lineBreak, ofChars_closeBracket] at hfirst
    simp only [renderAt, String.toList_append, List.append_assoc, ofChars_openBracket,
      ofChars_lineBreak, hfirst, tokens]
    simp
  | .object [], _, rest, _ => by
    rw [renderAt]
    show ofChars ("\x7b".toList ++ ("\x7d".toList ++ rest)) = _
    rw [ofChars_openBrace, ofChars_closeBrace]
    rfl
  | .object ((some key, v) :: members), hv, rest, _ => by
    rw [Writable, MembersWritable] at hv
    have hends := endsNumber_lineBreak level ("\x7d".toList ++ rest)
    have hmembers := ofChars_renderMembers (level + 1) members hv.2.2 hends
    have hfirst := ofChars_renderAt (level + 1) v hv.2.1
      (endsNumber_renderMembers hends (level + 1) members)
    rw [hmembers, ofChars_lineBreak, ofChars_closeBrace] at hfirst
    simp only [renderAt, String.toList_append, List.append_assoc, ofChars_openBrace,
      ofChars_lineBreak, ofChars_quote, ofChars_colon, Option.getD_some, hfirst, tokens]
    simp
  | .number (.decimal _ _), hv, _, _ => by
    rw [Writable] at hv
    exact hv.elim
  | .string none, hv, _, _ => by
    rw [Writable] at hv
    cases hv
  | .object ((none, _) :: _), hv, _, _ => by
    rw [Writable, MembersWritable] at hv
    cases hv.1
  | .cut, hv, _, _ => by
    rw [Writable] at hv
    exact hv.elim

/-- The text of the items after the first is cut into their tokens. -/
theorem ofChars_renderItems (level : Nat) : (items : List Json) → AllWritable items →
    {rest : List Char} → EndsNumber rest →
    ofChars ((renderItems level items).toList ++ rest) = itemTokens items ++ ofChars rest
  | [], _, _, _ => rfl
  | v :: items, hv, rest, hrest => by
    rw [AllWritable] at hv
    have hfirst := ofChars_renderAt level v hv.1 (endsNumber_renderItems hrest level items)
    rw [ofChars_renderItems level items hv.2 hrest] at hfirst
    simp only [renderItems, String.toList_append, List.append_assoc, ofChars_comma,
      ofChars_lineBreak, hfirst, itemTokens]
    simp

/-- The text of the members after the first is cut into their tokens. -/
theorem ofChars_renderMembers (level : Nat) : (members : List (Option String × Json)) →
    MembersWritable members → {rest : List Char} → EndsNumber rest →
    ofChars ((renderMembers level members).toList ++ rest) = memberTokens members ++ ofChars rest
  | [], _, _, _ => rfl
  | (some key, v) :: members, hv, rest, hrest => by
    rw [MembersWritable] at hv
    have hfirst := ofChars_renderAt level v hv.2.1 (endsNumber_renderMembers hrest level members)
    rw [ofChars_renderMembers level members hv.2.2 hrest] at hfirst
    simp only [renderMembers, String.toList_append, List.append_assoc, ofChars_comma,
      ofChars_lineBreak, ofChars_quote, ofChars_colon, Option.getD_some, hfirst, memberTokens]
    simp
  | (none, _) :: _, hv, _, _ => by
    rw [MembersWritable] at hv
    cases hv.1

end

/-! ## Section 3: Reading tokens -/

namespace Reader

/-- A value begins alike at the start of an array and after a comma. -/
theorem step_item {around : List Context} {t : Token} (h : t ≠ .closeBracket) :
    step (.item around) t = step (.value (.array [] :: around)) t := by
  cases t with
  | closeBracket => exact absurd rfl h
  | _ => rfl

end Reader

/-- The tokens of a value begin with one that closes no array. -/
theorem tokens_eq_cons (v : Json) : ∃ t ts, v.tokens = t :: ts ∧ t ≠ .closeBracket := by
  cases v with
  | array items => cases items <;> exact ⟨_, _, rfl, by simp⟩
  | object members => cases members <;> exact ⟨_, _, rfl, by simp⟩
  | _ => exact ⟨_, _, rfl, by simp⟩

mutual

/-- The reader makes a value of its tokens, whatever is open around it. -/
theorem foldl_tokens : (v : Json) → v.Writable → (around : List Context) →
    v.tokens.foldl Reader.step (.value around) = .after v around
  | .null, _, _ | .bool _, _, _ | .number _, _, _ | .string _, _, _ => rfl
  | .array [], _, _ | .object [], _, _ => rfl
  | .array (v :: items), hv, around => by
    rw [Writable, AllWritable] at hv
    obtain ⟨t, ts, htokens, ht⟩ := v.tokens_eq_cons
    -- The first item follows the bracket as it would follow a comma.
    have hfirst : v.tokens.foldl Reader.step (.item around) = .after v (.array [] :: around) := by
      rw [← foldl_tokens v hv.1 (.array [] :: around), htokens, List.foldl_cons, List.foldl_cons,
        Reader.step_item ht]
    rw [tokens, List.foldl_cons, List.foldl_append]
    show List.foldl Reader.step (List.foldl Reader.step (.item around) v.tokens) _ = _
    rw [hfirst, foldl_itemTokens items hv.2]
    rfl
  | .object ((key, v) :: members), hv, around => by
    rw [Writable, MembersWritable] at hv
    rw [tokens, List.foldl_cons, List.foldl_cons, List.foldl_cons, List.foldl_append]
    show List.foldl Reader.step
      (List.foldl Reader.step (.value (.object [] key :: around)) v.tokens) _ = _
    rw [foldl_tokens v hv.2.1, foldl_memberTokens members hv.2.2]
    rfl
  | .cut, hv, _ => by
    rw [Writable] at hv
    exact hv.elim

/-- The reader adds items to an array up to its end. -/
theorem foldl_itemTokens : (items : List Json) → AllWritable items → {v : Json} →
    {before : List Json} → {around : List Context} →
    (itemTokens items ++ [Token.closeBracket]).foldl Reader.step
        (.after v (.array before :: around)) =
      .after (.array ((v :: before).reverse ++ items)) around
  | [], _, v, before, around => by
    rw [List.append_nil]
    rfl
  | w :: items, hv, v, before, around => by
    rw [AllWritable] at hv
    rw [itemTokens, List.cons_append, List.foldl_cons, List.append_assoc, List.foldl_append]
    show List.foldl Reader.step
      (List.foldl Reader.step (.value (.array (v :: before) :: around)) w.tokens) _ = _
    rw [foldl_tokens w hv.1, foldl_itemTokens items hv.2]
    simp

/-- The reader adds members to an object up to its end. -/
theorem foldl_memberTokens : (members : List (Option String × Json)) → MembersWritable members →
    {v : Json} → {key : Option String} → {before : List (Option String × Json)} →
    {around : List Context} →
    (memberTokens members ++ [Token.closeBrace]).foldl Reader.step
        (.after v (.object before key :: around)) =
      .after (.object (((key, v) :: before).reverse ++ members)) around
  | [], _, v, key, before, around => by
    rw [List.append_nil]
    rfl
  | (name, w) :: members, hv, v, key, before, around => by
    rw [MembersWritable] at hv
    rw [memberTokens, List.cons_append, List.cons_append, List.cons_append, List.foldl_cons,
      List.foldl_cons, List.foldl_cons, List.append_assoc, List.foldl_append]
    show List.foldl Reader.step
      (List.foldl Reader.step (.value (.object ((key, v) :: before) name :: around)) w.tokens) _ = _
    rw [foldl_tokens w hv.2.1, foldl_memberTokens members hv.2.2]
    simp

end

theorem foldl_step_trailing (ts : List Token) (v : Json) :
    ts.foldl Reader.step (.trailing v) = .trailing v := by
  induction ts with
  | nil => rfl
  | cons t ts ih => exact ih

/-! ## Section 4: Reading a text -/

theorem scan_pretty_append {v : Json} (hv : v.Writable) (s : String) :
    Token.scan (v.pretty ++ s) = v.tokens ++ ofChars s.toList := by
  have hends : EndsNumber ('\n' :: s.toList) := ⟨by decide, by decide, by decide, by decide⟩
  have htext : (v.pretty ++ s).toList = (renderAt 0 v).toList ++ '\n' :: s.toList := by
    simp [pretty]
  rw [Token.scan_eq, htext, ofChars_renderAt 0 v hv hends, Token.ofChars_space (by decide)]

/-- A value is read back from its text. -/
theorem parse_pretty {v : Json} (hv : v.Writable) : parse v.pretty = ⟨v, false⟩ := by
  have hscan : Token.scan v.pretty = v.tokens := by
    have h := scan_pretty_append hv ""
    simpa using h
  rw [parse, ofTokens, hscan, foldl_tokens v hv []]
  rfl

/-- A value is read back from its text also if something else follows, and
    what follows is noticed. -/
theorem parse_pretty_append {v : Json} (hv : v.Writable) {s : String} {c : Char}
    (hc : c ∈ s.toList) (hspace : ¬isSpace c) : parse (v.pretty ++ s) = ⟨v, true⟩ := by
  rw [parse, ofTokens, scan_pretty_append hv, List.foldl_append, foldl_tokens v hv []]
  cases hs : ofChars s.toList with
  | nil => exact absurd hs (Token.ofChars_ne_nil hc hspace)
  | cons t ts =>
    have htrailing : (t :: ts).foldl Reader.step (.after v []) = .trailing v := by
      rw [List.foldl_cons]
      show ts.foldl Reader.step (.trailing v) = _
      exact foldl_step_trailing ts v
    rw [htrailing]

end JavaTree.Json
