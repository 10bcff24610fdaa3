import SnippetPreview.Text.Basic

/-!
# White space

* `isBlank`: the characters with the Unicode property `White_Space`;
* `Text.trim`: a text without the blanks at its two ends.
-/

namespace SnippetPreview

/-- The Unicode property `White_Space`. -/
def isBlank (c : Char) : Bool :=
  let n := c.toNat
  (9 ≤ n && n ≤ 13) || n == 0x20 || n == 0x85 || n == 0xA0 || n == 0x1680 || (0x2000 ≤ n && n ≤ 0x200A)
    || n == 0x2028 || n == 0x2029 || n == 0x202F || n == 0x205F || n == 0x3000

/-- Every blank of ASCII in the sense of the core library is a blank here. -/
theorem isBlank_of_isWhitespace {c : Char} (h : c.isWhitespace = true) : isBlank c = true := by
  simp only [Char.isWhitespace, Bool.or_eq_true, decide_eq_true_eq] at h
  rcases h with ((rfl | rfl) | rfl) | rfl <;> decide

/-- The space and the tabulator, the blanks within a line of code. -/
def isLineBlank (c : Char) : Bool := c == ' ' || c == '\t'

namespace Text

def trimStart (t : Text) : Text := t.dropWhile isBlank

def trimEnd (t : Text) : Text := (t.reverse.dropWhile isBlank).reverse

def trim (t : Text) : Text := trimEnd (trimStart t)

def isBlankText (t : Text) : Bool := t.all isBlank

theorem exists_trimEnd (t : Text) : ∃ b, t = t.trimEnd ++ b ∧ b.all isBlank = true := by
  refine ⟨(t.reverse.takeWhile isBlank).reverse, ?_, ?_⟩
  · rw [trimEnd, ← List.reverse_append, List.takeWhile_append_dropWhile, List.reverse_reverse]
  · rw [List.all_reverse]
    exact List.all_takeWhile

/-- A text is what is left of it without the blanks at its ends, between blanks. -/
theorem exists_trim (t : Text) : ∃ a b, t = a ++ (t.trim ++ b) ∧ a.all isBlank = true ∧ b.all isBlank = true := by
  obtain ⟨b, hb, hblank⟩ := exists_trimEnd t.trimStart
  refine ⟨t.takeWhile isBlank, b, ?_, List.all_takeWhile, hblank⟩
  rw [trim, ← hb, trimStart, List.takeWhile_append_dropWhile]

theorem trim_isInfix (t : Text) : t.trim <:+: t := by
  obtain ⟨a, b, ht, -, -⟩ := exists_trim t
  exact ⟨a, b, by rw [List.append_assoc, ← ht]⟩

end Text

end SnippetPreview
