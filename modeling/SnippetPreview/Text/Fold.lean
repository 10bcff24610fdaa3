import SnippetPreview.Text.Basic

/-!
# Letters up to case

* `foldCase`: the representative of a character under Unicode simple case folding, for the ASCII letters. Besides its
  capital, `s` also has the long s and `k` the Kelvin sign; no other character folds to an ASCII letter;
* `sameLetter`: equal up to case;
* `Text.foldCase`: the same for texts under full case folding, where ligatures fold to several letters.
-/

namespace SnippetPreview

/-- The small ASCII letter that `c` folds to, and `c` itself when there is none. -/
def foldCase (c : Char) : Char :=
  if c = 'ſ' then 's' else if c = '\u212a' then 'k' else c.toLower

/-- Equal up to the case of ASCII letters. -/
def sameLetter (a b : Char) : Bool := foldCase a == foldCase b

/-- The letters that a ligature folds to, and the folded character when `c` is none. -/
def unligated (c : Char) : Text :=
  if c = 'ß' || c = 'ẞ' then ['s', 's']
  else if c = 'ﬀ' then ['f', 'f']
  else if c = 'ﬁ' then ['f', 'i']
  else if c = 'ﬂ' then ['f', 'l']
  else if c = 'ﬃ' then ['f', 'f', 'i']
  else if c = 'ﬄ' then ['f', 'f', 'l']
  else if c = 'ﬅ' || c = 'ﬆ' then ['s', 't']
  else [foldCase c]

/-- The text up to the case of ASCII letters. -/
def Text.foldCase (t : Text) : Text := t.flatMap unligated

theorem sameLetter_self (c : Char) : sameLetter c c = true := by simp [sameLetter]

/-- No other character becomes one that comes before the small letters. -/
theorem toLower_ne {c d : Char} (hne : c ≠ d) (hd : d.val.toNat < 97) : c.toLower ≠ d := by
  unfold Char.toLower
  split
  · next h =>
    intro heq
    have hmin : 65 ≤ c.val.toNat := UInt32.le_iff_toNat_le.1 h.1
    have hmax : c.val.toNat ≤ 90 := UInt32.le_iff_toNat_le.1 h.2
    have hval : (c.val + 32).toNat = d.val.toNat := congrArg (·.val.toNat) heq
    rw [UInt32.toNat_add] at hval
    have h32 : UInt32.toNat 32 = 32 := rfl
    omega
  · exact hne

end SnippetPreview
