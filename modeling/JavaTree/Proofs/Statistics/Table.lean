import JavaTree.Proofs.Json.Lexemes
import JavaTree.Statistics
import JavaTree.Text.Blank
import JavaTree.Text.Pieces

/-! # The table determines the statistics

    The report is a table with a row for each category, the label to the left
    and the count to the right between vertical bars.  Cutting a row at its
    bars and trimming what stands between them gives the label and the
    numeral of the count (`Statistics.cells_category`), and a numeral is read
    back to its number (`Decimal.value_digits`).  So the table tells all
    counts, and the counts are all that statistics hold
    (`Statistics.eq_of_get_eq`).

    The columns have fixed widths.  Every label fits into its column, and a
    numeral that does not fit is not cut but makes its row longer
    (`Statistics.length_row`).

    The main statement is `Statistics.table_determines_counts`. -/

namespace JavaTree

/-! ## Section 1: Lines and numerals -/

/-- The lines of a text.  A line break ends a line, so behind the last one
    there is another line only if something stands there. -/
def Text.lines (cs : List Char) : List (List Char) :=
  let ps := pieces '\n' cs
  if ps.getLast? = some [] then ps.dropLast else ps

theorem Text.lines_join {ls : List String} (h : ∀ l ∈ ls, '\n' ∉ l.toList) :
    lines (String.join (ls.map (· ++ "\n"))).toList = ls.map String.toList := by
  rw [lines, pieces_join_lines h]
  simp

namespace Decimal

theorem toList_toString (n : Nat) : (toString n).toList = digits n := by
  rw [Nat.toString_eq_repr, Nat.toList_repr, digits]

/-- Digits are read one by one onto the number that is already there. -/
theorem foldl_digits_eq {ds : List Char} (hds : ∀ c ∈ ds, isDigit c) (m : Nat) :
    ds.foldl (fun n c => n * 10 + digitValue c) m = Nat.ofDigitChars 10 ds m := by
  induction ds generalizing m with
  | nil => rfl
  | cons c ds ih =>
    rw [List.foldl_cons, Nat.ofDigitChars_cons, digitValue_of_isDigit (hds c List.mem_cons_self),
      Nat.mul_comm m]
    exact ih (fun d hd => hds d (List.mem_cons_of_mem c hd)) _

/-- A numeral is read back to its number. -/
theorem value_digits (n : Nat) : value (digits n) = n := by
  have hdigits : ∀ c ∈ digits n, isDigit c := fun c hc => isDigit_of_mem_toDigits hc
  calc value (digits n)
      = Nat.ofDigitChars 10 (digits n) 0 := foldl_digits_eq hdigits 0
    _ = n := Nat.ofDigitChars_ten_toDigits

theorem not_mem_digits {c : Char} (h : isDigit c = false) (n : Nat) : c ∉ digits n := by
  intro hc
  rw [isDigit_of_mem_toDigits hc] at h
  cases h

theorem not_isBlank_of_isDigit {c : Char} (h : isDigit c) : Text.isBlank c = false := by
  rw [isDigit_eq, Char.isDigit_iff_toNat] at h
  simp only [Char.reduceToNat] at h
  simp only [Text.isBlank, Bool.or_eq_false_iff, Bool.and_eq_false_iff, decide_eq_false_iff_not]
  omega

theorem trim_digits (n : Nat) : Text.trim (digits n) = digits n :=
  Text.trim_of_not_blank fun _ hc => not_isBlank_of_isDigit (isDigit_of_mem_toDigits hc)

end Decimal

/-! ## Section 2: Categories and their counts -/

namespace Category

theorem mem_all (c : Category) : c ∈ all := by
  cases c <;> decide

/-- Every place belongs to a category. -/
theorem exists_index_eq (i : Fin 23) : ∃ c ∈ all, c.index = i := by
  revert i
  decide

theorem length_label_le (c : Category) : c.label.toList.length ≤ Statistics.labelWidth := by
  cases c <;> decide

theorem trim_label (c : Category) : Text.trim c.label.toList = c.label.toList := by
  cases c <;> decide

/-- No label can be taken for more than one cell or more than one line. -/
theorem not_mem_label (c : Category) : '|' ∉ c.label.toList ∧ '\n' ∉ c.label.toList := by
  cases c <;> decide

end Category

namespace Statistics

/-- Statistics with the same count for every category are the same. -/
theorem eq_of_get_eq {s t : Statistics} (h : ∀ c, s.get c = t.get c) : s = t := by
  obtain ⟨ns⟩ := s
  obtain ⟨ms⟩ := t
  congr 1
  apply Vector.ext
  intro i hi
  obtain ⟨c, -, hc⟩ := Category.exists_index_eq ⟨i, hi⟩
  have hget := h c
  simp only [get, hc] at hget
  exact hget

/-! ## Section 3: Rows -/

/-- A row is its label and its count between bars, with spaces around them. -/
theorem toList_row (label count : String) :
    (row label count).toList =
      '|' :: (List.replicate 1 ' ' ++ label.toList
          ++ List.replicate (labelWidth - label.toList.length + 1) ' '
        ++ '|' :: (List.replicate (countWidth - count.toList.length + 1) ' ' ++ count.toList
          ++ List.replicate 1 ' ' ++ ['|'])) := by
  -- The space that is always there stands behind the label and in front of the count.
  rw [List.replicate_succ' (n := labelWidth - label.toList.length),
    List.replicate_succ (n := countWidth - count.toList.length)]
  simp [row, padEnd, padStart]

theorem not_mem_row {c : Char} {label count : String} (hspace : c ≠ ' ') (hbar : c ≠ '|')
    (hlabel : c ∉ label.toList) (hcount : c ∉ count.toList) : c ∉ (row label count).toList := by
  rw [toList_row]
  simp [hspace, hbar, hlabel, hcount]

/-- A label or a count that is too wide for its column makes the row longer. -/
theorem length_row (label count : String) :
    (row label count).toList.length =
      7 + max labelWidth label.toList.length + max countWidth count.toList.length := by
  rw [toList_row]
  simp only [List.length_cons, List.length_append, List.length_replicate, List.length_nil]
  omega

/-- The cells of a row: what stands between its bars, without white space
    around it.  The outer bars leave an empty cell at each end. -/
def cells (cs : List Char) : List (List Char) := (Text.pieces '|' cs).map Text.trim

theorem cells_row {label count : String} (hlabel : '|' ∉ label.toList)
    (hcount : '|' ∉ count.toList) :
    cells (row label count).toList = [[], Text.trim label.toList, Text.trim count.toList, []] := by
  have hleft : ∀ n, '|' ∉ List.replicate 1 ' ' ++ label.toList ++ List.replicate n ' ' := by
    simp [hlabel]
  have hright : ∀ n, '|' ∉ List.replicate n ' ' ++ count.toList ++ List.replicate 1 ' ' := by
    simp [hcount]
  rw [toList_row, cells, ← List.nil_append ('|' :: _), Text.pieces_append_cons List.not_mem_nil,
    Text.pieces_append_cons (hleft _), Text.pieces_append_cons (hright _),
    Text.pieces_of_not_mem List.not_mem_nil]
  simp only [List.map_cons, List.map_nil, Text.trim_spaces]
  rfl

/-- The row of a category holds its label and the numeral of its count. -/
theorem cells_category (c : Category) (n : Nat) :
    cells (row c.label (toString n)).toList = [[], c.label.toList, Decimal.digits n, []] := by
  have hbar : '|' ∉ (toString n).toList := by
    rw [Decimal.toList_toString]
    exact Decimal.not_mem_digits (by decide) n
  rw [cells_row c.not_mem_label.1 hbar, c.trim_label, Decimal.toList_toString,
    Decimal.trim_digits]

/-- The row of a category is as long as a border exactly if its count has no
    more digits than the column is wide. -/
theorem length_category_eq_iff (c : Category) (n : Nat) :
    (row c.label (toString n)).toList.length = border.toList.length ↔ n ≤ 99999 := by
  have hborder : border.toList.length = 7 + labelWidth + countWidth := by decide
  have hlabel := c.length_label_le
  have hdigits : (Decimal.digits n).length ≤ countWidth ↔ n < 10 ^ countWidth :=
    Nat.length_toDigits_le_iff (by decide) (by decide)
  rw [length_row, Decimal.toList_toString, hborder, Nat.max_eq_left hlabel]
  simp only [countWidth] at hdigits ⊢
  omega

-- One more at the limit is one more character.
example : (row "Classes" "99999").toList.length = border.toList.length ∧
    (row "Classes" "100000").toList.length = border.toList.length + 1 := by
  decide

/-! ## Section 4: The table -/

/-- The heading between borders, a row for each category in report order, and
    a border. -/
theorem tableLines_eq (s : Statistics) :
    s.tableLines = [border, row "Statistic" "Count", border]
      ++ Category.all.map (fun c => row c.label (toString (s.get c))) ++ [border] := by
  rw [tableLines, entries, List.map_map]
  rfl

theorem mem_tableLines {s : Statistics} {l : String} :
    l ∈ s.tableLines ↔ l = border ∨ l = row "Statistic" "Count" ∨
      ∃ c : Category, row c.label (toString (s.get c)) = l := by
  rw [tableLines_eq]
  simp only [List.mem_append, List.mem_cons, List.mem_map, Category.mem_all, List.not_mem_nil]
  grind

theorem newline_not_mem_tableLines (s : Statistics) : ∀ l ∈ s.tableLines, '\n' ∉ l.toList := by
  intro l hl
  rcases mem_tableLines.1 hl with rfl | rfl | ⟨c, rfl⟩
  · decide
  · decide
  · apply not_mem_row (by decide) (by decide) c.not_mem_label.2
    rw [Decimal.toList_toString]
    exact Decimal.not_mem_digits (by decide) (s.get c)

theorem lines_table (s : Statistics) :
    Text.lines s.table.toList = s.tableLines.map String.toList :=
  Text.lines_join s.newline_not_mem_tableLines

/-- The rows of a table that are about categories: all lines but the heading
    between its borders and the border at the end. -/
def categoryRows (table : List Char) : List (List Char) := ((Text.lines table).drop 3).dropLast

theorem categoryRows_table (s : Statistics) :
    categoryRows s.table.toList =
      Category.all.map fun c => (row c.label (toString (s.get c))).toList := by
  rw [categoryRows, lines_table, tableLines_eq]
  simp

/-- The cells of the rows name every category in report order with its count. -/
theorem cells_table (s : Statistics) :
    (categoryRows s.table.toList).map cells =
      Category.all.map fun c => [[], c.label.toList, Decimal.digits (s.get c), []] := by
  rw [categoryRows_table, List.map_map]
  apply List.map_congr_left
  intro c _
  exact cells_category c (s.get c)

theorem eq_of_table_eq {s t : Statistics} (h : s.table = t.table) : s = t := by
  apply eq_of_get_eq
  intro c
  have hcells := s.cells_table
  rw [h, cells_table, List.map_inj_left] at hcells
  have hdigits : Decimal.digits (t.get c) = Decimal.digits (s.get c) := by
    simpa using hcells c c.mem_all
  calc s.get c
      = Decimal.value (Decimal.digits (s.get c)) := (Decimal.value_digits _).symm
    _ = Decimal.value (Decimal.digits (t.get c)) := by rw [hdigits]
    _ = t.get c := Decimal.value_digits _

/-- All lines are as long as a border exactly if every count fits into its
    column. -/
theorem exists_length_eq_iff (s : Statistics) :
    (∃ width, ∀ l ∈ Text.lines s.table.toList, l.length = width) ↔ ∀ c, s.get c ≤ 99999 := by
  simp only [lines_table, List.forall_mem_map]
  constructor
  · rintro ⟨width, hwidth⟩ c
    have hborder := hwidth border (mem_tableLines.2 (.inl rfl))
    have hrow := hwidth _ (mem_tableLines.2 (.inr (.inr ⟨c, rfl⟩)))
    exact (length_category_eq_iff c (s.get c)).1 (hrow.trans hborder.symm)
  · intro h
    refine ⟨border.toList.length, fun l hl => ?_⟩
    rcases mem_tableLines.1 hl with rfl | rfl | ⟨c, rfl⟩
    · rfl
    · decide
    · exact (length_category_eq_iff c (s.get c)).2 (h c)

/-- The table of any statistics has 27 lines.  The rows of the categories, cut
    at their bars and trimmed, are the labels in report order, each with the
    decimal numeral of its count, so that no two statistics have the same
    table.  The lines are equally long exactly if no count is larger than
    99999. -/
theorem table_determines_counts :
    (∀ s : Statistics,
      (Text.lines s.table.toList).length = 27 ∧
      (categoryRows s.table.toList).map cells =
        Category.all.map (fun c => [[], c.label.toList, Decimal.digits (s.get c), []]) ∧
      (∀ c, Decimal.value (Decimal.digits (s.get c)) = s.get c) ∧
      ((∃ width, ∀ l ∈ Text.lines s.table.toList, l.length = width) ↔
        ∀ c, s.get c ≤ 99999)) ∧
    Function.Injective table := by
  refine ⟨fun s => ⟨?_, s.cells_table, fun c => Decimal.value_digits (s.get c),
    s.exists_length_eq_iff⟩, fun s t h => eq_of_table_eq h⟩
  rw [lines_table, List.length_map, tableLines_eq]
  simp [Category.all]

end Statistics

end JavaTree
