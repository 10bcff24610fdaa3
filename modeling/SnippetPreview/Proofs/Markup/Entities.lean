import SnippetPreview.Publish.Page

/-!
# Escaped text

* `unescapeMarkup`: a text as a reader takes it, with its entities read as what they stand for;
* `markupSigns`: the characters of a text that can start or end a tag or the value of an attribute, in their order;
* `IsEscape`: a way to write characters down, as they are or as entities, that writes no sign as it is;
* `IsEscape.unescapeMarkup_append`, `IsEscape.markupSigns_flatMap`: a reader takes a text that is so written back for what
  it was, and the text brings no sign into the page.
-/

namespace SnippetPreview

/-! ### Entities -/

/-- The entities of escaped text, and what they stand for. -/
def entities : List (Text × Char) :=
  [(['&', 'l', 't', ';'], '<'), (['&', 'g', 't', ';'], '>'), (['&', 'a', 'm', 'p', ';'], '&'),
    (['&', 'q', 'u', 'o', 't', ';'], '"'), (['&', '#', 'x', '2', '7', ';'], '\''), (['&', '#', 'x', '2', 'f', ';'], '/')]

/-- The entity that the text starts with, if any. -/
def leadingEntity? (t : Text) : Option (Text × Char) := entities.find? fun e => e.1.isPrefixOf t

/-- What a reader makes of a text when the next `skipped` characters belong to an entity that it has read. -/
def unescapeFrom (skipped : Nat) : Text → Text
  | [] => []
  | c :: t =>
    match skipped with
    | n + 1 => unescapeFrom n t
    | 0 =>
      match leadingEntity? (c :: t) with
      | some e => e.2 :: unescapeFrom (e.1.length - 1) t
      | none => c :: unescapeFrom 0 t

/-- The text with its entities taken for what they stand for. -/
def unescapeMarkup (t : Text) : Text := unescapeFrom 0 t

theorem leadingEntity?_of_ne {c : Char} (hc : c ≠ '&') (t : Text) : leadingEntity? (c :: t) = none := by
  refine List.find?_eq_none.2 ?_
  intro e he hlead
  have hamp : ∀ e ∈ entities, e.1.head? = some '&' := by decide
  have hhead := hamp e he
  obtain ⟨w, rest⟩ := e
  cases w with
  | nil => exact absurd hhead nofun
  | cons d w =>
    obtain rfl : d = '&' := Option.some.inj hhead
    simp only [List.isPrefixOf_cons_cons, Bool.and_eq_true, beq_iff_eq] at hlead
    exact hc hlead.1.symm

theorem unescapeMarkup_cons {c : Char} (hc : c ≠ '&') (t : Text) : unescapeMarkup (c :: t) = c :: unescapeMarkup t := by
  rw [unescapeMarkup, unescapeFrom, leadingEntity?_of_ne hc]
  rfl

theorem unescapeMarkup_eq_self {t : Text} (h : '&' ∉ t) : unescapeMarkup t = t := by
  induction t with
  | nil => rfl
  | cons c t ih =>
    rw [List.mem_cons, not_or] at h
    rw [unescapeMarkup_cons (Ne.symm h.1), ih h.2]

theorem unescapeMarkup_entity {e : Text × Char} (he : e ∈ entities) (t : Text) :
    unescapeMarkup (e.1 ++ t) = e.2 :: unescapeMarkup t := by
  simp only [entities, List.mem_cons, List.not_mem_nil, or_false] at he
  rcases he with rfl | rfl | rfl | rfl | rfl | rfl <;> rfl

/-! ### Signs of markup -/

/-- The character can start or end a tag or the value of an attribute. -/
def isMarkupSign (c : Char) : Bool := ['<', '>', '"', '\''].contains c

/-- The signs of a text in their order. -/
def markupSigns (t : Text) : Text := t.filter isMarkupSign

theorem markupSigns_append (s t : Text) : markupSigns (s ++ t) = markupSigns s ++ markupSigns t :=
  List.filter_append s t

theorem markupSigns_eq_nil_iff {t : Text} : markupSigns t = [] ↔ ∀ c ∈ t, isMarkupSign c = false := by
  simp only [markupSigns, List.filter_eq_nil_iff, Bool.not_eq_true]

theorem not_mem_of_markupSigns {t : Text} (h : markupSigns t = []) {c : Char} (hc : isMarkupSign c = true) : c ∉ t := by
  intro hmem
  rw [markupSigns_eq_nil_iff.1 h c hmem] at hc
  exact absurd hc nofun

/-! ### Ways to write characters -/

/-- Each character is written as an entity that stands for it or as it is, and then it is no sign and no ampersand. -/
def IsEscape (escape : Char → Text) : Prop :=
  ∀ c, (escape c, c) ∈ entities ∨ escape c = [c] ∧ isMarkupSign c = false ∧ c ≠ '&'

namespace IsEscape

variable {escape : Char → Text} (h : IsEscape escape)

include h

/-- A text that is so written is taken back for what it was, whatever follows it. -/
theorem unescapeMarkup_append (s t : Text) : unescapeMarkup (s.flatMap escape ++ t) = s ++ unescapeMarkup t := by
  induction s with
  | nil => rfl
  | cons c s ih =>
    rw [List.flatMap_cons, List.append_assoc]
    rcases h c with hentity | ⟨hplain, -, hamp⟩
    · rw [unescapeMarkup_entity hentity, ih]
      rfl
    · rw [hplain, List.singleton_append, unescapeMarkup_cons hamp, ih]
      rfl

theorem unescapeMarkup_flatMap (s : Text) : unescapeMarkup (s.flatMap escape) = s := by
  have happend := h.unescapeMarkup_append s []
  rw [List.append_nil] at happend
  rw [happend]
  exact List.append_nil s

/-- No sign comes into the page with the text. -/
theorem markupSigns_flatMap (s : Text) : markupSigns (s.flatMap escape) = [] := by
  refine markupSigns_eq_nil_iff.2 ?_
  intro d hd
  obtain ⟨c, -, hc⟩ := List.mem_flatMap.1 hd
  rcases h c with hentity | ⟨hplain, hsign, -⟩
  · have hsignless : entities.all (fun e => e.1.all fun d => !isMarkupSign d) = true := by decide
    have hfree : (escape c).all (fun d => !isMarkupSign d) = true := List.all_eq_true.1 hsignless _ hentity
    simpa using List.all_eq_true.1 hfree d hc
  · rw [hplain, List.mem_singleton] at hc
    rw [hc]
    exact hsign

end IsEscape

/-! ### Texts in the index page -/

theorem isEscape_escapeMarkupChar : IsEscape escapeMarkupChar := by
  intro c
  by_cases hc : c ∈ ['<', '>', '&', '"', '\'', '/']
  · simp only [List.mem_cons, List.not_mem_nil, or_false] at hc
    rcases hc with rfl | rfl | rfl | rfl | rfl | rfl <;> exact .inl (by decide)
  · simp only [List.mem_cons, List.not_mem_nil, or_false, not_or] at hc
    exact .inr ⟨by simp [escapeMarkupChar, hc], by simp [isMarkupSign, hc], hc.2.2.1⟩

/-- Escaped text is taken back for what it was, whatever follows it. -/
theorem unescapeMarkup_escapeMarkup (s t : Text) : unescapeMarkup (escapeMarkup s ++ t) = s ++ unescapeMarkup t :=
  isEscape_escapeMarkupChar.unescapeMarkup_append s t

theorem quote_not_mem_escapeMarkup (t : Text) : '"' ∉ escapeMarkup t :=
  not_mem_of_markupSigns (isEscape_escapeMarkupChar.markupSigns_flatMap t) (by decide)

end SnippetPreview
