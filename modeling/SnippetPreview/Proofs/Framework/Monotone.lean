import Mathlib.Data.List.Basic
import SnippetPreview.Framework.Signals
import SnippetPreview.Proofs.Pattern.Context

/-!
# Signals in longer sources

What decides is that every signal is either a text that the source must contain or a pattern that it must match, never one
that it must not, and that of its surroundings a pattern sees only line starts and word edges.

* `Kind.showsIn_of_setApart`: a kind that shows in some lines shows in all sources that have these lines;
* `rank_classifyKind_le`: the kind that is chosen comes first among those that show;
* `classifyKind_monotone`: lines that are added hide no kind, and the kind that is chosen never comes later.
-/

namespace SnippetPreview

/-! ### Signals -/

theorem Text.containsAny_of_isInfix {t t' : Text} {needles : List Text} (h : t.containsAny needles = true)
    (ht : t <:+: t') : t'.containsAny needles = true := by
  obtain ⟨needle, hmem, hcontains⟩ := List.any_eq_true.1 h
  exact List.any_eq_true.2 ⟨needle, hmem, contains_of_isInfix hcontains ht⟩

theorem SetApart.hasScriptMarkup {t t' : Text} (h : SetApart t t') (ht : hasScriptMarkup t = true) :
    hasScriptMarkup t' = true := by
  simp only [SnippetPreview.hasScriptMarkup, Bool.or_eq_true] at ht ⊢
  exact ht.imp (Or.imp h.isMatch h.isMatch) h.isMatch

/-- A kind that shows in some lines shows in all sources that have these lines. -/
theorem Kind.showsIn_of_setApart {t t' : Text} (h : SetApart t t') {k : Kind} (hk : k.showsIn t = true) :
    k.showsIn t' = true := by
  have markers {needles : List Text} (hn : t.containsAny needles = true) : t'.containsAny needles = true :=
    Text.containsAny_of_isInfix hn h.isInfix
  have marker {needle : Text} (hn : t.contains needle = true) : t'.contains needle = true :=
    Text.contains_of_isInfix hn h.isInfix
  cases k with
  | react =>
    simp only [showsIn, Bool.or_eq_true] at hk ⊢
    exact hk.imp (Or.imp h.isMatch markers) h.hasScriptMarkup
  | vue =>
    simp only [showsIn, Bool.or_eq_true] at hk ⊢
    exact hk.imp (Or.imp (Or.imp h.isMatch markers) h.isMatch) h.isMatch
  | angular | alpine => exact markers hk
  | svelte =>
    simp only [showsIn, Bool.or_eq_true] at hk ⊢
    exact hk.imp (Or.imp marker marker) h.isMatch
  | html => exact h.isMatch hk
  | vanilla => exact hk

theorem SetApart.matchingKinds_sublist {t t' : Text} (h : SetApart t t') : (matchingKinds t).Sublist (matchingKinds t') :=
  List.monotone_filter_right _ fun _ => Kind.showsIn_of_setApart h

/-! ### Priorities -/

/-- The place of a kind in the order in which signals are tried. -/
def Kind.rank (k : Kind) : Nat := Kind.all.idxOf k

theorem Kind.rank_le_vanilla (k : Kind) : k.rank ≤ Kind.vanilla.rank := by
  cases k <;> decide

/-- What is found first comes first. -/
theorem idxOf_le_of_find? {α : Type} [DecidableEq α] {l : List α} {p : α → Bool} {j k : α} (hj : l.find? p = some j)
    (hp : p k = true) : l.idxOf j ≤ l.idxOf k := by
  induction l with
  | nil => exact Nat.le_refl _
  | cons i l ih =>
    rw [List.find?_cons] at hj
    by_cases hi : p i = true
    · rw [hi] at hj
      obtain rfl := Option.some.inj hj
      rw [List.idxOf_cons_self]
      exact Nat.zero_le _
    · rw [Bool.not_eq_true] at hi
      rw [hi] at hj
      have hik : i ≠ k := fun e => by simp [← e, hi] at hp
      have hij : i ≠ j := fun e => by simp [e, List.find?_some hj] at hi
      rw [List.idxOf_cons, List.idxOf_cons, beq_false_of_ne hik, beq_false_of_ne hij]
      exact Nat.succ_le_succ (ih hj)

/-- The kind that is chosen comes first among those that show. -/
theorem rank_classifyKind_le {source : Text} {k : Kind} (hk : k.showsIn source = true) :
    (classifyKind source).rank ≤ k.rank := by
  rcases classifyKind_eq_iff.1 rfl with h | ⟨-, hnone⟩
  · exact idxOf_le_of_find? h hk
  · exact absurd hk (by simp [hnone k])

theorem SetApart.rank_classifyKind_le {t t' : Text} (h : SetApart t t') :
    (classifyKind t').rank ≤ (classifyKind t).rank := by
  rcases classifyKind_eq_iff.1 (rfl : classifyKind t = _) with hfound | ⟨hvanilla, -⟩
  · exact SnippetPreview.rank_classifyKind_le (Kind.showsIn_of_setApart h (List.find?_some hfound))
  · rw [hvanilla]
    exact Kind.rank_le_vanilla _

/-! ### Joined sources -/

/-- **Lines that are added hide no kind.** Every kind that shows in one of two sources shows in both of them joined by a
line feed, in the same order, and the kind chosen for the whole never comes later than the kind chosen for a part. -/
theorem classifyKind_monotone (a b : Text) :
    (matchingKinds a).Sublist (matchingKinds (a ++ '\n' :: b))
      ∧ (matchingKinds b).Sublist (matchingKinds (a ++ '\n' :: b))
      ∧ (classifyKind (a ++ '\n' :: b)).rank ≤ (classifyKind a).rank
      ∧ (classifyKind (a ++ '\n' :: b)).rank ≤ (classifyKind b).rank :=
  have hfront := SetApart.in_front a b
  have hbehind := SetApart.behind a b
  ⟨hfront.matchingKinds_sublist, hbehind.matchingKinds_sublist, hfront.rank_classifyKind_le,
    hbehind.rank_classifyKind_le⟩

end SnippetPreview
