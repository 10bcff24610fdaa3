import SnippetPreview.Document.Script
import SnippetPreview.Proofs.Pattern.First
import SnippetPreview.Proofs.Pattern.Replaces

/-!
# Escaped code

* `closingTag`, `escapedFrom`: what is looked for in code, and the code behind a place with all of it replaced;
* `escapedFrom_cases`: what escaping does at a place;
* `not_infix_escapeScript`: escaped code has no closing tag, in whatever letters. None is left, and none comes about where
  what is put in meets its neighbours, since a closing tag has one angle and a replacement no slash behind its own.
-/

namespace SnippetPreview

open Pattern

def closingTag : Text := "</script"

/-- The code behind the place `k`, escaped. -/
def escapedFrom (k : Cursor) : Text := scriptClose.replacedFrom (fun _ => "<\\/script") k

theorem escapeScript_eq_escapedFrom (code : Text) : escapeScript code = escapedFrom (.start code) :=
  Pattern.replaceAll_eq_replacedFrom _ _ code

theorem map_foldCase_closingTag : closingTag.map foldCase = closingTag := by decide

/-- Escaping ends with the code, keeps a character in front of which no closing tag stands, or replaces a closing tag. -/
theorem escapedFrom_cases (k : Cursor) :
    (k.after = [] ∧ escapedFrom k = []) ∨
    (∃ c t, k.after = c :: t ∧ ¬ closingTag <+: k.after.map foldCase ∧ escapedFrom k = c :: escapedFrom (k.past c t)) ∨
    (∃ u y, u ≠ [] ∧ k.after = u ++ y ∧ escapedFrom k = "<\\/script".toList ++ escapedFrom (k.behind u y)) := by
  by_cases hclose : ∃ u y, k.after = u ++ y ∧ u.map foldCase = closingTag
  · obtain ⟨u, y, hk, hu⟩ := hclose
    have hne : u ≠ [] := by
      rintro rfl
      exact absurd hu (by decide)
    have hfirst : First scriptClose k (.nothing (k.behind u y)) :=
      first_anyCase hk (hu.trans map_foldCase_closingTag.symm)
    exact .inr (.inr ⟨u, y, hne, hk, replacedFrom_match hk hne hfirst rfl⟩)
  · have hnone : scriptClose.readings k = [] := by
      refine readings_eq_nil_iff.2 fun u y hk hr => hclose ⟨u, y, hk, ?_⟩
      exact (reads_anyCase_iff.1 hr).trans map_foldCase_closingTag
    cases hk : k.after with
    | nil => exact .inl ⟨rfl, replacedFrom_nil hk hnone⟩
    | cons c t =>
      refine .inr (.inl ⟨c, t, rfl, ?_, replacedFrom_skip hk hnone⟩)
      rintro ⟨y', hy⟩
      rw [← hk] at hy
      obtain ⟨u, y, hk', hu, -⟩ := List.map_eq_append_iff.1 hy.symm
      exact hclose ⟨u, y, hk', hu⟩

/-- A text that does not start with an angle stands in front of the escaped code only if it stands in front of the code. -/
theorem prefix_of_prefix_escapedFrom {v : Text} (hv : '<' ∉ v) {k : Cursor}
    (h : v <+: (escapedFrom k).map foldCase) : v <+: k.after.map foldCase := by
  induction v generalizing k with
  | nil => exact List.nil_prefix
  | cons d v ih =>
    rcases escapedFrom_cases k with ⟨-, he⟩ | ⟨c, t, hk, -, he⟩ | ⟨u, y, -, -, he⟩
    · rw [he] at h
      exact absurd (List.prefix_nil.1 h) (List.cons_ne_nil _ _)
    · rw [he, List.map_cons, List.cons_prefix_cons] at h
      rw [hk, List.map_cons, List.cons_prefix_cons]
      exact ⟨h.1, ih (fun hmem => hv (List.mem_cons_of_mem d hmem)) h.2⟩
    · have hhead : d = '<' := by
        rw [he, List.map_append] at h
        exact (List.cons_prefix_cons.1 h).1
      exact absurd (hhead ▸ List.mem_cons_self) hv

/-- An infix does not start in a text without its first character. -/
theorem infix_of_infix_append {a : Char} {w x y : Text} (hx : a ∉ x) (h : a :: w <:+: x ++ y) : a :: w <:+: y := by
  induction x with
  | nil => exact h
  | cons c x ih =>
    rw [List.cons_append] at h
    rcases List.infix_cons_iff.1 h with h | h
    · exact absurd ((List.cons_prefix_cons.1 h).1 ▸ List.mem_cons_self) hx
    · exact ih (fun hmem => hx (List.mem_cons_of_mem c hmem)) h

theorem not_infix_escapedFrom (k : Cursor) : ¬ closingTag <:+: (escapedFrom k).map foldCase := by
  -- the code behind the place gets shorter with each step of the escaping
  induction hn : k.after.length using Nat.strongRecOn generalizing k with
  | ind n ih =>
    intro h
    rcases escapedFrom_cases k with ⟨-, he⟩ | ⟨c, t, hk, hnone, he⟩ | ⟨u, y, hu, hk, he⟩
    · rw [he] at h
      exact absurd h (by decide)
    · have hlt : (k.past c t).after.length < n := by
        rw [← hn, hk]
        exact Nat.lt_succ_self _
      rw [he, List.map_cons] at h
      rcases List.infix_cons_iff.1 h with h | h
      · obtain ⟨hc, htail⟩ : '<' = foldCase c ∧ "/script".toList <+: (escapedFrom (k.past c t)).map foldCase :=
          List.cons_prefix_cons.1 h
        refine hnone ?_
        rw [hk, List.map_cons]
        exact List.cons_prefix_cons.2 ⟨hc, prefix_of_prefix_escapedFrom (k := k.past c t) (by decide) htail⟩
      · exact ih _ hlt _ rfl h
    · have hlt : (k.behind u y).after.length < n := by
        have hpos := List.length_pos_iff.2 hu
        rw [← hn, hk, List.length_append]
        show y.length < _
        omega
      have hput : (escapedFrom k).map foldCase
          = ['<'] ++ '\\' :: ("/script".toList ++ (escapedFrom (k.behind u y)).map foldCase) := by
        rw [he, List.map_append]
        rfl
      rw [hput] at h
      rcases (infix_append_cons (by decide)).1 h with h | h
      · exact absurd h (by decide)
      · exact ih _ hlt _ rfl (infix_of_infix_append (by decide) h)

/-- Escaped code has no closing tag, in whatever letters. -/
theorem not_infix_escapeScript (code : Text) : ¬ closingTag <:+: (escapeScript code).map foldCase := by
  rw [escapeScript_eq_escapedFrom]
  exact not_infix_escapedFrom (.start code)

end SnippetPreview
