import SnippetPreview.Markup.Sections
import SnippetPreview.Proofs.Pattern.Groups
import SnippetPreview.Text.Blank

/-!
# Sections are parts of their source

* `template?_isInfix`, `styleBody?_isInfix`, `scriptBody?_isInfix`: so are the contents of the sections of a single-file
  component;
* `decoratorTemplate?_isInfix`, `decoratorStyles_isInfix`: so are the texts of a decorator.
-/

namespace SnippetPreview.Markup

open Pattern

variable {source t : Text}

theorem template?_isInfix (h : template? source = some t) : t <:+: source := by
  obtain ⟨m, hm, rfl⟩ := Option.map_eq_some_iff.1 h
  exact (Text.trim_isInfix _).trans (groupText_isInfix_of_find? hm 1)

theorem styleBody?_isInfix (h : styleBody? source = some t) : t <:+: source := by
  obtain ⟨m, hm, rfl⟩ := Option.map_eq_some_iff.1 h
  exact (Text.trim_isInfix _).trans (groupText_isInfix_of_find? hm 1)

theorem scriptBody?_isInfix (h : scriptBody? source = some t) : t <:+: source := by
  obtain ⟨m, hm, rfl⟩ := Option.map_eq_some_iff.1 h
  exact (Text.trim_isInfix _).trans (scriptElement.groupText_isInfix (List.mem_of_find?_eq_some hm) 2)

theorem decoratorTemplate?_isInfix (h : decoratorTemplate? source = some t) : t <:+: source := by
  obtain ⟨m, hm, h⟩ := Option.bind_eq_some_iff.1 h
  obtain ⟨found, hfound, h⟩ := Option.bind_eq_some_iff.1 h
  obtain rfl := Option.some.inj h
  have hgroup : ∃ i, m.group? i = some found := by
    rcases h1 : m.group? 1 with _ | s
    · rcases h2 : m.group? 2 with _ | s
      · rw [h1, h2] at hfound
        exact ⟨3, hfound⟩
      · rw [h1, h2] at hfound
        exact ⟨2, h2.trans hfound⟩
    · rw [h1] at hfound
      exact ⟨1, h1.trans hfound⟩
  obtain ⟨i, hi⟩ := hgroup
  rw [← Match.groupText_of_group? hi]
  exact (Text.trim_isInfix _).trans (groupText_isInfix_of_find? hm i)

theorem decoratorStyles_isInfix (source : Text) : decoratorStyles source <:+: source := by
  unfold decoratorStyles
  cases h : stylesMember.find? source with
  | none => exact List.nil_infix
  | some m => exact groupText_isInfix_of_find? h 1

end SnippetPreview.Markup
