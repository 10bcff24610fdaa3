import SnippetPreview.Proofs.Script.Parts
import SnippetPreview.Proofs.Text.Classes
import SnippetPreview.Text.Blank
import SnippetPreview.Text.Word

/-!
# Identifiers

* `isName`: the ASCII identifiers, a letter, `_` or `$`, and then any number of letters, digits, `_` and `$`;
* `isIdentifier`: all identifiers, with word characters of any script behind the first character;
* the characters of an identifier are not blank and are plain code.
-/

namespace SnippetPreview.Script

/-- A character of an ASCII identifier. -/
def isNameRest (c : Char) : Bool := c.isAlphanum || c == '_' || c == '$'

/-- An ASCII identifier. -/
def isName : Text → Bool
  | [] => false
  | c :: rest => isIdentStart c && rest.all isNameRest

theorem isNameRest_of_isIdentStart {c : Char} (h : isIdentStart c = true) : isNameRest c = true := by
  simp only [isIdentStart, isNameRest, Char.isAlphanum, Bool.or_eq_true] at h ⊢
  rcases h with (h | h) | h
  · exact .inl (.inl (.inl h))
  · exact .inl (.inr h)
  · exact .inr h

theorem toNat_lt_of_isNameRest {c : Char} (h : isNameRest c = true) :
    c.toNat = 36 ∨ c.toNat = 95 ∨ 48 ≤ c.toNat ∧ c.toNat ≤ 57 ∨ 65 ≤ c.toNat ∧ c.toNat ≤ 90 ∨
      97 ≤ c.toNat ∧ c.toNat ≤ 122 := by
  have hupper : c.isUpper = decide (c.val ≥ 65 ∧ c.val ≤ 90) := rfl
  have hlower : c.isLower = (decide (c.val ≥ 97) && decide (c.val ≤ 122)) := rfl
  have hdigit : c.isDigit = (decide (c.val ≥ 48) && decide (c.val ≤ 57)) := rfl
  change (((c.isUpper || c.isLower) || c.isDigit) || c == '_' || c == '$') = true at h
  simp only [hupper, hlower, hdigit, Bool.or_eq_true, Bool.and_eq_true, decide_eq_true_eq, beq_iff_eq, ge_iff_le,
    UInt32.le_iff_toNat_le] at h
  rcases h with (((h | h) | h) | rfl) | rfl
  · exact .inr (.inr (.inr (.inl h)))
  · exact .inr (.inr (.inr (.inr h)))
  · exact .inr (.inr (.inl h))
  · exact .inr (.inl rfl)
  · exact .inl rfl

theorem isIdentRest_of_isNameRest {c : Char} (h : isNameRest c = true) : isIdentRest c = true := by
  have hascii := toNat_lt_of_isNameRest h
  unfold isIdentRest isWord
  rw [if_pos (by omega)]
  exact h

theorem isBlank_eq_false_of_isNameRest {c : Char} (h : isNameRest c = true) : isBlank c = false := by
  have hascii := toNat_lt_of_isNameRest h
  unfold isBlank
  simp only [Bool.or_eq_false_iff, Bool.and_eq_false_iff, decide_eq_false_iff_not, beq_eq_false_iff_ne]
  omega

theorem isPlainCode_of_isNameRest {c : Char} (h : isNameRest c = true) : isPlainCode c = true := by
  unfold isPlainCode
  rw [decide_eq_true_eq]
  simp only [List.mem_cons, List.not_mem_nil, or_false]
  rintro (rfl | rfl | rfl | rfl | rfl | rfl) <;> exact absurd h (by decide)

theorem all_isNameRest_of_isName {name : Text} (h : isName name = true) : name.all isNameRest = true := by
  cases name with
  | nil => rfl
  | cons c rest =>
    rw [isName, Bool.and_eq_true] at h
    rw [List.all_cons, isNameRest_of_isIdentStart h.1, h.2]
    rfl

/-! ### Identifiers of any script -/

/-- An identifier: like a name, with word characters of any script behind its first character. -/
def isIdentifier : Text → Bool
  | [] => false
  | c :: rest => isIdentStart c && rest.all isIdentRest

theorem isIdentRest_of_isIdentStart {c : Char} (h : isIdentStart c = true) : isIdentRest c = true :=
  isIdentRest_of_isNameRest (isNameRest_of_isIdentStart h)

theorem all_isIdentRest_of_isIdentifier {name : Text} (h : isIdentifier name = true) :
    name.all isIdentRest = true := by
  cases name with
  | nil => rfl
  | cons c rest =>
    rw [isIdentifier, Bool.and_eq_true] at h
    rw [List.all_cons, isIdentRest_of_isIdentStart h.1, h.2]
    rfl

theorem ne_nil_of_isIdentifier {name : Text} (h : isIdentifier name = true) : name ≠ [] := by
  rintro rfl
  exact Bool.false_ne_true h

theorem isIdentifier_of_isName {name : Text} (h : isName name = true) : isIdentifier name = true := by
  cases name with
  | nil => exact h
  | cons c rest =>
    rw [isName, Bool.and_eq_true] at h
    rw [isIdentifier, h.1, List.all_eq_true.2 fun d hd => isIdentRest_of_isNameRest (List.all_eq_true.1 h.2 d hd)]
    rfl

/-- The code points of the blanks. -/
def blankCodes : List Nat :=
  [9, 10, 11, 12, 13, 0x20, 0x85, 0xA0, 0x1680, 0x2000, 0x2001, 0x2002, 0x2003, 0x2004, 0x2005, 0x2006, 0x2007, 0x2008,
    0x2009, 0x200A, 0x2028, 0x2029, 0x202F, 0x205F, 0x3000]

theorem mem_blankCodes {c : Char} (h : isBlank c = true) : c.toNat ∈ blankCodes := by
  simp only [isBlank, Bool.or_eq_true, Bool.and_eq_true, decide_eq_true_eq, beq_iff_eq] at h
  simp only [blankCodes, List.mem_cons, List.not_mem_nil, or_false]
  omega

/-- No blank belongs to an identifier, in whatever script. -/
theorem isIdentRest_of_isBlank {c : Char} (h : isBlank c = true) : isIdentRest c = false := by
  have hcodes : ∀ n ∈ blankCodes, isIdentRest (Char.ofNat n) = false := by decide
  have hnone := hcodes _ (mem_blankCodes h)
  rwa [Char.ofNat_toNat] at hnone

theorem isBlank_eq_false_of_isIdentRest {c : Char} (h : isIdentRest c = true) : isBlank c = false :=
  Bool.eq_false_iff.2 fun hc => Bool.eq_false_iff.1 (isIdentRest_of_isBlank hc) h

theorem isPlainCode_of_isIdentRest {c : Char} (h : isIdentRest c = true) : isPlainCode c = true := by
  unfold isPlainCode
  rw [decide_eq_true_eq]
  simp only [List.mem_cons, List.not_mem_nil, or_false]
  rintro (rfl | rfl | rfl | rfl | rfl | rfl) <;> exact absurd h (by decide)

end SnippetPreview.Script
