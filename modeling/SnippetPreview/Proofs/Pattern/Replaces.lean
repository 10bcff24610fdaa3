import SnippetPreview.Proofs.Pattern.Context
import SnippetPreview.Proofs.Pattern.Finds

/-!
# Texts with their matches replaced

* `Pattern.replacedFrom`: the text behind a place with the matches from there on replaced;
* `replacedFrom_nil`, `replacedFrom_skip`, `replacedFrom_match`: a place without a reading keeps its character, and a match
  gives way to its image. Nothing else is needed of `Pattern.replaceAll`;
* `replacedFrom_cases`: one of these happens at each place.
-/

namespace SnippetPreview.Pattern

/-- The text behind the place `k` with the matches from there on replaced. -/
def replacedFrom (p : Pattern) (f : Match → Text) (k : Cursor) : Text := replaceFrom k f (p.findsFrom k)

theorem replaceAll_eq_replacedFrom (p : Pattern) (f : Match → Text) (t : Text) :
    p.replaceAll f t = p.replacedFrom f (.start t) := rfl

variable {p : Pattern} {f : Match → Text} {k : Cursor} {r : Reading}

/-- A text without matches stays. -/
theorem replaceAll_eq_self {t : Text} (h : p.isMatch t = false) : p.replaceAll f t = t := by
  rw [replaceAll, finds_eq_nil h]
  rfl

theorem replacedFrom_nil (hk : k.after = []) (h : p.readings k = []) : p.replacedFrom f k = [] := by
  rw [replacedFrom, findsFrom_nil hk h]
  exact hk

/-- Matches further on leave the next character where it is. -/
theorem replaceFrom_past {c : Char} {t : Text} {ms : List Match} (hk : k.after = c :: t)
    (hms : ∀ m ∈ ms, ∃ x u y, t = x ++ (u ++ y) ∧ m.span.start = (k.past c t).behind x (u ++ y)) :
    replaceFrom k f ms = c :: replaceFrom (k.past c t) f ms := by
  cases ms with
  | nil => exact hk
  | cons m ms =>
    obtain ⟨x, u, y, rfl, hstart⟩ := hms m List.mem_cons_self
    have hpast : Span.text ⟨k.past c (x ++ (u ++ y)), m.span.start⟩ = x := by
      have h := Span.text_behind (k.past c (x ++ (u ++ y))) [] x (u ++ y) (u ++ y)
      rwa [List.nil_append, ← hstart] at h
    have hfrom : Span.text ⟨k, m.span.start⟩ = c :: x := by
      have h := Span.text_behind k [] (c :: x) (u ++ y) (u ++ y)
      rwa [List.cons_append, ← hk, Cursor.behind_nil, List.nil_append, ← Cursor.past_behind k c x (x ++ (u ++ y)),
        ← hstart] at h
    rw [replaceFrom, replaceFrom, hpast, hfrom]
    rfl

/-- A place without a reading keeps its character. -/
theorem replacedFrom_skip {c : Char} {t : Text} (hk : k.after = c :: t) (h : p.readings k = []) :
    p.replacedFrom f k = c :: p.replacedFrom f (k.past c t) := by
  rw [replacedFrom, findsFrom_skip hk h]
  refine replaceFrom_past hk fun m hm => ?_
  obtain ⟨x, u, y, ht, hstart, -, -⟩ := exists_cut_of_mem_findsFrom hm
  exact ⟨x, u, y, ht, hstart⟩

/-- A match gives way to its image. -/
theorem replacedFrom_match {u y : Text} (hk : k.after = u ++ y) (hu : u ≠ []) (h : p.First k r)
    (hr : r.stop = k.behind u y) :
    p.replacedFrom f k = f (Match.ofReading k r) ++ p.replacedFrom f (k.behind u y) := by
  have hfront : Span.text ⟨k, k⟩ = [] := by
    have h := Span.text_behind k [] [] k.after k.after
    rwa [List.nil_append, Cursor.behind_nil] at h
  rw [replacedFrom, findsFrom_match hk hu h hr, replaceFrom]
  show Span.text ⟨k, k⟩ ++ _ ++ replaceFrom r.stop f _ = _
  rw [hfront, hr]
  rfl

/-- The replacement ends with the text, keeps a character where nothing is read, or replaces a match. -/
theorem replacedFrom_cases (hp : p.consumes = true) (f : Match → Text) (k : Cursor) :
    (k.after = [] ∧ p.replacedFrom f k = []) ∨
    (∃ c t, k.after = c :: t ∧ p.readings k = [] ∧ p.findsFrom k = p.findsFrom (k.past c t) ∧
      p.replacedFrom f k = c :: p.replacedFrom f (k.past c t)) ∨
    ∃ r u y, u ≠ [] ∧ k.after = u ++ y ∧ p.First k r ∧ r.stop = k.behind u y ∧
      p.findsFrom k = .ofReading k r :: p.findsFrom (k.behind u y) ∧
      p.replacedFrom f k = f (.ofReading k r) ++ p.replacedFrom f (k.behind u y) := by
  cases hread : p.readings k with
  | nil =>
    cases hk : k.after with
    | nil => exact .inl ⟨rfl, replacedFrom_nil hk hread⟩
    | cons c t => exact .inr (.inl ⟨c, t, rfl, rfl, findsFrom_skip hk hread, replacedFrom_skip hk hread⟩)
  | cons r rs =>
    have hfirst : p.First k r := by
      unfold First
      rw [hread]
      rfl
    obtain ⟨u, hk, hstop, hreads⟩ := readsTo_of_mem_readings p k r (List.mem_of_mem_head? hfirst)
    have hu := hreads.ne_nil hp
    exact .inr (.inr ⟨r, u, r.stop.after, hu, hk, hfirst, hstop, findsFrom_match hk hu hfirst hstop,
      replacedFrom_match hk hu hfirst hstop⟩)

end SnippetPreview.Pattern
