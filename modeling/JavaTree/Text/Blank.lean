/-! # White space

    The characters with the Unicode property `White_Space`, and trimming. -/

namespace JavaTree.Text

/-- Whether the character is white space. -/
def isBlank (c : Char) : Bool :=
  let n := c.toNat
  (0x09 ≤ n && n ≤ 0x0D) || n = 0x20 || n = 0x85 || n = 0xA0 || n = 0x1680
    || (0x2000 ≤ n && n ≤ 0x200A) || n = 0x2028 || n = 0x2029 || n = 0x202F || n = 0x205F
    || n = 0x3000

/-- Drop white space at the end. -/
def trimEnd (cs : List Char) : List Char := (cs.reverse.dropWhile isBlank).reverse

/-- Drop white space at both ends. -/
def trim (cs : List Char) : List Char := trimEnd (cs.dropWhile isBlank)

theorem trimEnd_append_of_blank {back : List Char} (h : ∀ c ∈ back, isBlank c) (cs : List Char) :
    trimEnd (cs ++ back) = trimEnd cs := by
  have hback : ∀ c ∈ back.reverse, isBlank c := fun c hc => h c (List.mem_reverse.1 hc)
  rw [trimEnd, List.reverse_append, List.dropWhile_append_of_pos hback, trimEnd]

/-- Spaces around a text are trimmed off with the white space of the text. -/
theorem trim_spaces (before behind : Nat) (cs : List Char) :
    trim (List.replicate before ' ' ++ cs ++ List.replicate behind ' ') = trim cs := by
  have hblank : ∀ n, ∀ c ∈ List.replicate n ' ', isBlank c := by
    intro n c hc
    rw [List.eq_of_mem_replicate hc]
    decide
  rw [trim, List.append_assoc, List.dropWhile_append_of_pos (hblank before), List.dropWhile_append]
  split
  · -- Nothing is left of the text, so the spaces behind it are dropped from the front.
    rename_i hcs
    have hspaces : (List.replicate behind ' ' ++ []).dropWhile isBlank = [] :=
      List.dropWhile_append_of_pos (hblank behind)
    rw [List.append_nil] at hspaces
    rw [trim, List.isEmpty_iff.1 hcs, hspaces]
  · rw [trimEnd_append_of_blank (hblank behind), trim]

/-- A text without white space has nothing to trim. -/
theorem trim_of_not_blank {cs : List Char} (h : ∀ c ∈ cs, isBlank c = false) : trim cs = cs := by
  have hkept : ∀ ds : List Char, (∀ c ∈ ds, isBlank c = false) → ds.dropWhile isBlank = ds := by
    intro ds hds
    cases ds with
    | nil => rfl
    | cons d ds => exact List.dropWhile_cons_of_neg (by simp [hds d List.mem_cons_self])
  rw [trim, hkept cs h, trimEnd, hkept cs.reverse fun c hc => h c (List.mem_reverse.1 hc),
    List.reverse_reverse]

end JavaTree.Text
