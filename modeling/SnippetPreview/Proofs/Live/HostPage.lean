import Mathlib.Data.List.Basic
import SnippetPreview.Live.HostPage
import SnippetPreview.Proofs.Markup.Forms

/-!
# Texts in the host page

* `Text.replaceChars`, `Text.replaceChars_eq_flatMap`: characters that are replaced one after the other are replaced all at
  once, when no replacement brings a character that is replaced later;
* `escapeHtml_eq_flatMap`: so is a text that is escaped for the host page;
* `hostForm`, `markupSigns_hostPage`: the signs of the host page are those of a form that does not know the entry;
* `escapeHtml_hostPage`: escaping is faithful, and no entry changes the markup of the host page.
-/

namespace SnippetPreview

/-! ### Replacements one after the other -/

namespace Text

/-- The text after all replacements, in their order. -/
def replaceChars (passes : List (Char × Text)) (t : Text) : Text := passes.foldl (fun t pass => t.replaceChar pass.1 pass.2) t

/-- What becomes of a character in one pass over all replacements. -/
def replacement (passes : List (Char × Text)) (c : Char) : Text := (passes.lookup c).getD [c]

theorem replacement_of_forall_ne {passes : List (Char × Text)} {c : Char} (h : ∀ pass ∈ passes, pass.1 ≠ c) :
    replacement passes c = [c] := by
  have hnone : passes.lookup c = none := by
    refine List.lookup_eq_none_iff.2 ?_
    intro pass hpass
    simpa using (h pass hpass).symm
  rw [replacement, hnone]
  rfl

theorem replacement_cons_self (c : Char) (new : Text) (passes : List (Char × Text)) :
    replacement ((c, new) :: passes) c = new := by
  rw [replacement, List.lookup_cons_self]
  rfl

theorem replacement_cons_of_ne {c d : Char} (h : c ≠ d) (new : Text) (passes : List (Char × Text)) :
    replacement ((d, new) :: passes) c = replacement passes c := by
  rw [replacement, List.lookup_cons, beq_false_of_ne h]
  rfl

/-- No later replacement works on what an earlier one brings, so one pass makes them all. -/
theorem replaceChars_eq_flatMap {passes : List (Char × Text)} (h : passes.Pairwise fun early late => late.1 ∉ early.2)
    (t : Text) : t.replaceChars passes = t.flatMap (replacement passes) := by
  induction passes generalizing t with
  | nil => exact (List.flatMap_singleton' t).symm
  | cons pass passes ih =>
    obtain ⟨hpass, hpasses⟩ := List.pairwise_cons.1 h
    obtain ⟨d, new⟩ := pass
    -- what the first pass brings stays as it is
    have hnew : new.flatMap (replacement passes) = new := by
      have hkept : ∀ c ∈ new, replacement passes c = [c] := by
        intro c hc
        exact replacement_of_forall_ne fun late hlate heq => hpass late hlate (heq ▸ hc)
      rw [List.flatMap_congr hkept, List.flatMap_singleton']
    have hfirst : replaceChars ((d, new) :: passes) t = replaceChars passes (t.replaceChar d new) := rfl
    rw [hfirst, ih hpasses, replaceChar, List.flatMap_assoc]
    refine List.flatMap_congr fun c _ => ?_
    by_cases hc : c = d
    · subst hc
      rw [if_pos rfl, hnew, replacement_cons_self]
    · rw [if_neg hc, List.flatMap_singleton, replacement_cons_of_ne hc]

end Text

/-! ### Escaping -/

/-- The entities of the host page in the order of their passes. -/
def htmlEntities : List (Char × Text) :=
  [('&', ['&', 'a', 'm', 'p', ';']), ('<', ['&', 'l', 't', ';']), ('>', ['&', 'g', 't', ';']),
    ('"', ['&', 'q', 'u', 'o', 't', ';']), ('\'', ['&', '#', 'x', '2', '7', ';'])]

/-- A character of a text in the host page. -/
def escapeHtmlChar (c : Char) : Text := Text.replacement htmlEntities c

/-- The passes together write each character once. -/
theorem escapeHtml_eq_flatMap (t : Text) : escapeHtml t = t.flatMap escapeHtmlChar := by
  have hpasses : escapeHtml t = t.replaceChars htmlEntities := rfl
  rw [hpasses]
  exact Text.replaceChars_eq_flatMap (by decide) t

theorem isEscape_escapeHtmlChar : IsEscape escapeHtmlChar := by
  intro c
  by_cases hc : ∃ pass ∈ htmlEntities, pass.1 = c
  · obtain ⟨pass, hpass, rfl⟩ := hc
    have hentity : ∀ pass ∈ htmlEntities, (escapeHtmlChar pass.1, pass.1) ∈ entities := by decide
    exact .inl (hentity pass hpass)
  · have hne : ∀ pass ∈ htmlEntities, pass.1 ≠ c := fun pass hpass heq => hc ⟨pass, hpass, heq⟩
    refine .inr ⟨Text.replacement_of_forall_ne hne, ?_, ?_⟩
    · simp only [htmlEntities, List.forall_mem_cons] at hne
      simp [isMarkupSign, hne.2.1.symm, hne.2.2.1.symm, hne.2.2.2.1.symm, hne.2.2.2.2.1.symm]
    · exact (hne ('&', ['&', 'a', 'm', 'p', ';']) List.mem_cons_self).symm

/-! ### The page -/

/-- The host page with blanks for the entry. -/
def hostForm (kind : Kind) (sandbox : Sandbox) : PageForm :=
  ⟨HostPage.head, [HostPage.style,
    HostPage.heading ++ (kind.name ++ (HostPage.frame ++ (sandbox.permissions ++ HostPage.tail)))]⟩

theorem hostPage_eq_fill (entry : Text) (kind : Kind) (sandbox : Sandbox) :
    hostPage entry kind sandbox = (hostForm kind sandbox).fill escapeHtmlChar [entry, entry] := by
  simp only [hostPage, hostForm, PageForm.fill, PageForm.fillBlanks, escapeHtml_eq_flatMap, List.append_assoc,
    List.append_nil]

theorem markupSigns_hostPage (entry : Text) (kind : Kind) (sandbox : Sandbox) :
    markupSigns (hostPage entry kind sandbox) = (hostForm kind sandbox).signs := by
  rw [hostPage_eq_fill, PageForm.markupSigns_fill isEscape_escapeHtmlChar]

/-- **Texts in the host page.** The passes that escape a text write each of its characters by itself, as one pass would.
So a text that is put together is escaped in parts, no two texts are escaped alike, and escaped text has none of the signs
that could start or end a tag or the value of an attribute. Two host pages for the same kind and the same permissions have
the same signs in the same order, whatever the entries are called. -/
theorem escapeHtml_hostPage :
    (∀ t : Text, escapeHtml t = t.flatMap escapeHtmlChar) ∧
    (∀ s t : Text, escapeHtml (s ++ t) = escapeHtml s ++ escapeHtml t) ∧
    Function.Injective escapeHtml ∧
    (∀ t : Text, markupSigns (escapeHtml t) = []) ∧
    ∀ (kind : Kind) (sandbox : Sandbox) (entry entry' : Text),
      markupSigns (hostPage entry kind sandbox) = markupSigns (hostPage entry' kind sandbox) := by
  refine ⟨escapeHtml_eq_flatMap, ?_, ?_, ?_, ?_⟩
  · intro s t
    rw [escapeHtml_eq_flatMap, escapeHtml_eq_flatMap, escapeHtml_eq_flatMap, List.flatMap_append]
  · refine Function.LeftInverse.injective (g := unescapeMarkup) fun t => ?_
    rw [escapeHtml_eq_flatMap, isEscape_escapeHtmlChar.unescapeMarkup_flatMap]
  · intro t
    rw [escapeHtml_eq_flatMap, isEscape_escapeHtmlChar.markupSigns_flatMap]
  · intro kind sandbox entry entry'
    rw [markupSigns_hostPage, markupSigns_hostPage]

end SnippetPreview
