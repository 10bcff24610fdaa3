import SnippetPreview.Pattern.Basic

/-!
# Classes of characters

* `ne_of_class`, `not_mem_of_class`: what is of a class is none of the characters that are not;
* `charNotOf_of_class`, `charOf_eq_false`: nor is it one of a whole set of signs without a character of the class;
* `all_charNotOf_iff`: a text is of the class of the characters that are no signs iff no sign is in it.
-/

namespace SnippetPreview

variable {S S' : Char → Bool} {c d : Char} {t signs signs' : Text}

theorem all_mono (h : ∀ c, S c = true → S' c = true) (ht : t.all S = true) : t.all S' = true :=
  List.all_eq_true.2 fun c hc => h c (List.all_eq_true.1 ht c hc)

theorem eq_false_of_any (h : t.any S = false) (hc : c ∈ t) : S c = false :=
  Bool.eq_false_iff.2 (List.any_eq_false.1 h c hc)

/-! ### One character -/

theorem ne_of_class (hc : S c = true) (hd : S d = false) : c ≠ d := by
  rintro rfl
  rw [hc] at hd
  exact Bool.noConfusion hd

theorem bne_of_class (hd : S d = false) (c : Char) (hc : S c = true) : (c != d) = true :=
  bne_iff_ne.2 (ne_of_class hc hd)

theorem not_mem_of_class (hd : S d = false) (ht : t.all S = true) : d ∉ t :=
  fun hmem => ne_of_class (List.all_eq_true.1 ht d hmem) hd rfl

/-! ### Signs -/

/-- A character of a class is none of the signs that are not of this class. -/
theorem charNotOf_of_class (hsigns : signs.all (fun d => !S d) = true) (hc : S c = true) : charNotOf signs c = true := by
  have hmem : c ∉ signs := by
    intro hmem
    have hnot := List.all_eq_true.1 hsigns c hmem
    rw [hc] at hnot
    exact absurd hnot Bool.false_ne_true
  simpa [charNotOf] using hmem

theorem charOf_eq_false (hsigns : signs.all (fun d => !S d) = true) (hc : S c = true) : charOf signs c = false := by
  rw [← Bool.not_eq_true']
  exact charNotOf_of_class hsigns hc

theorem charNotOf_mono (h : signs ⊆ signs') (c : Char) (hc : charNotOf signs' c = true) : charNotOf signs c = true := by
  unfold charNotOf at *
  rw [Bool.not_eq_true', List.elem_eq_mem, decide_eq_false_iff_not] at *
  exact fun hmem => hc (h hmem)

theorem all_charNotOf_iff : t.all (charNotOf signs) = true ↔ ∀ d ∈ signs, d ∉ t := by
  rw [List.all_eq_true]
  constructor
  · intro h d hd ht
    have hnot := h d ht
    simp [charNotOf, hd] at hnot
  · intro h c hc
    have hmem : c ∉ signs := fun hsign => h c hsign hc
    simpa [charNotOf] using hmem

end SnippetPreview
