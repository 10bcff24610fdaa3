import Mathlib.Order.Bounds.Basic
import SnippetPreview.Proofs.Publish.ObjectMap
import SnippetPreview.Proofs.Publish.Slugs
import SnippetPreview.Publish.Run

/-!
# The search for free slugs

* `SlugSearch`: the search for a free slug round by round, with no bound on the rounds;
* `IsFirstFree.slugSearch`: it ends with the first free candidate, in as many rounds as candidates are taken in front of it;
* `getElem?_withSlugs`: the slug of each snippet of a sequence, among those of the earlier ones;
* `Directory.target_objectPath`: a directory takes each object whose path has a slug in it;
* `slugs_withSlugs`: the slugs of a sequence of snippets.
-/

namespace SnippetPreview

/-! ### Rounds -/

/-- The search for a free slug from a candidate on, with the number for the next one: it ends after so many rounds with the
slug that is found. A round passes over a candidate that is taken. -/
inductive SlugSearch (taken : List Text) (base : Text) : (candidate : Text) → (next rounds : Nat) → (found : Text) → Prop
  | free {candidate : Text} {next : Nat} (h : candidate ∉ taken) : SlugSearch taken base candidate next 0 candidate
  | round {candidate found : Text} {next rounds : Nat} (h : candidate ∈ taken)
      (hrest : SlugSearch taken base (numbered base next) (next + 1) rounds found) :
      SlugSearch taken base candidate next (rounds + 1) found

variable {taken : List Text} {base : Text}

theorem slugSearch_slugCandidate {k : Nat} (hfree : slugCandidate base k ∉ taken) (i rounds : Nat) (hk : i + rounds = k)
    (htaken : ∀ j, i ≤ j → j < k → slugCandidate base j ∈ taken) :
    SlugSearch taken base (slugCandidate base i) (i + 2) rounds (slugCandidate base k) := by
  induction rounds generalizing i with
  | zero =>
    obtain rfl : i = k := hk
    exact .free hfree
  | succ rounds ih =>
    exact .round (htaken i (Nat.le_refl i) (by omega)) (ih (i + 1) (by omega) fun j hj => htaken j (Nat.le_of_succ_le hj))

namespace IsFirstFree

variable {k : Nat} (h : IsFirstFree taken base k)

include h

/-- The search passes over the candidates in front of the first free one, and ends with it. -/
theorem slugSearch : SlugSearch taken base base 2 k (slugCandidate base k) :=
  slugSearch_slugCandidate h.free 0 k (Nat.zero_add k) fun j _ hj => h.taken j hj

/-- The first free candidate is the base or has the least number from two on that makes it free. -/
theorem eq_or_isLeast : base ∉ taken ∧ slugCandidate base k = base ∨
    base ∈ taken ∧ ∃ n, IsLeast {n | 2 ≤ n ∧ numbered base n ∉ taken} n ∧ slugCandidate base k = numbered base n := by
  cases k with
  | zero => exact .inl ⟨h.free, rfl⟩
  | succ i =>
    refine .inr ⟨h.taken 0 (Nat.succ_pos i), i + 2, ⟨⟨Nat.le_add_left 2 i, h.free⟩, ?_⟩, rfl⟩
    rintro n ⟨hn, hfree⟩
    obtain ⟨j, rfl⟩ := Nat.exists_eq_add_of_le' hn
    by_contra hlt
    exact hfree (h.taken (j + 1) (by omega))

end IsFirstFree

/-- The order in which the slugs were taken does not count. -/
theorem IsFirstFree.reverse {k : Nat} (h : IsFirstFree taken.reverse base k) : IsFirstFree taken base k :=
  ⟨fun hmem => h.free (List.mem_reverse.2 hmem), fun j hj => List.mem_reverse.1 (h.taken j hj)⟩

/-! ### The slugs of a sequence -/

/-- Each slug is the free one among those that were taken before and those of the earlier snippets. -/
theorem getElem?_withSlugs (taken : List Text) {sources : List (List Text × Text)} {i : Nat} {p : List Text × Text}
    (h : sources[i]? = some p) : ((withSlugs taken sources).map Snippet.slug)[i]?
      = some (freeSlug ((((withSlugs taken sources).map Snippet.slug).take i).reverse ++ taken)
          (slug (withoutExtension p.1))) := by
  induction sources generalizing taken i with
  | nil => exact absurd h nofun
  | cons source sources ih =>
    cases i with
    | zero =>
      obtain rfl : source = p := Option.some.inj h
      rfl
    | succ i =>
      have hrest := ih (freeSlug taken (slug (withoutExtension source.1)) :: taken) h
      rw [withSlugs, List.map_cons, List.getElem?_cons_succ, hrest, List.take_succ_cons, List.reverse_cons,
        List.append_assoc]
      rfl

theorem length_withSlugs (taken : List Text) (sources : List (List Text × Text)) :
    (withSlugs taken sources).length = sources.length := by
  induction sources generalizing taken with
  | nil => rfl
  | cons source sources ih => exact congrArg (· + 1) (ih _)

theorem Directory.target_objectPath (d : Directory) {s : Snippet} (h : IsSlug s.slug) :
    d.target s.objectPath = .ok (Path.join d.root s.objectPath) := by
  have hpath : s.objectPath = "previews".toList ++ '/' :: (s.slug ++ '/' :: "index.html".toList) := rfl
  have hslug : Path.pieces s.slug = [s.slug] := Path.pieces_name (fun hc => (h.plain _ hc).1 rfl) h.nonempty
  have hpieces : Path.pieces s.objectPath = ["previews".toList, s.slug, "index.html"] := by
    rw [hpath, Path.pieces_append_slash, Path.pieces_append_slash, hslug]
    rfl
  have hplain : isPlain s.objectPath = true := by
    refine isPlain_iff.2 (not_isStray_iff.2 ⟨?_, ?_, ?_, ?_⟩)
    · rw [hpath]
      exact List.append_ne_nil_of_right_ne_nil _ (List.cons_ne_nil _ _)
    · have hhead : s.objectPath.head? = some 'p' := rfl
      rw [hhead]
      decide
    · rw [hpieces]
      exact fun hdot => absurd (Option.some.inj hdot) (by decide)
    · rw [hpieces]
      intro hup
      simp only [List.mem_cons, List.not_mem_nil, or_false] at hup
      rcases hup with hup | hup | hup
      · exact absurd hup (by decide)
      · exact (h.plain '.' (hup ▸ List.mem_cons_self)).2 rfl
      · exact absurd hup (by decide)
  rw [target, if_pos hplain]

/-- **The slugs of a sequence of snippets.** For every sequence of paths, no two of the slugs are the same. Each is the slug
of its path, when no earlier snippet has it, or else that slug with the least number from two on that makes it free, and the
search for it ends after at most as many rounds as slugs are taken. All slugs are runs of small letters and digits with
single hyphens in between, so every directory takes the objects that are stored under them. -/
theorem slugs_withSlugs (sources : List (List Text × Text)) :
    let slugs := (withSlugs [] sources).map Snippet.slug
    slugs.Nodup ∧ slugs.length = sources.length ∧
    (∀ i (hi : i < sources.length),
      let taken := slugs.take i
      let base := slug (withoutExtension sources[i].1)
      ∃ s, slugs[i]? = some s ∧
        (base ∉ taken ∧ s = base ∨
          base ∈ taken ∧ ∃ n, IsLeast {n | 2 ≤ n ∧ numbered base n ∉ taken} n ∧ s = numbered base n) ∧
        ∃ rounds ≤ taken.length, SlugSearch taken base base 2 rounds s) ∧
    ∀ s ∈ withSlugs [] sources, IsHyphenated s.slug ∧
      ∀ d : Directory, d.target s.objectPath = .ok (Path.join d.root s.objectPath) := by
  intro slugs
  refine ⟨(withSlugs_slugs [] sources).1, ?_, ?_, ?_⟩
  · rw [List.length_map, length_withSlugs]
  · intro i hi taken base
    have hslug : slugs[i]? = some (freeSlug taken.reverse base) := by
      rw [getElem?_withSlugs [] (List.getElem?_eq_getElem hi), List.append_nil]
    obtain ⟨k, hk, hfirst, hcandidate⟩ := exists_isFirstFree taken.reverse base
    rw [List.length_reverse] at hk
    rw [hcandidate] at hslug
    exact ⟨_, hslug, hfirst.reverse.eq_or_isLeast, k, hk, hfirst.reverse.slugSearch⟩
  · intro s hs
    have hhyphenated := isHyphenated_withSlugs [] sources s hs
    exact ⟨hhyphenated, fun d => d.target_objectPath hhyphenated.isSlug⟩

/-- A numbered slug is what a later path would be called, so that one is numbered in its turn. -/
theorem slugs_withSlugs_numberedTwice :
    let sources : List (List Text × Text) := [(["a.js"], "1"), (["A.vue"], "2"), (["ä", "a-2.js"], "3")]
    (withSlugs [] sources).map Snippet.slug = ["a".toList, "a-2", "a-2-2"] ∧ 2 < sources.length ∧
      (∃ rounds ≤ 2, SlugSearch ["a".toList, "a-2"] "a-2" "a-2" 2 rounds "a-2-2") ∧
      ∃ s ∈ withSlugs [] sources, s.slug = "a-2-2" ∧ IsHyphenated s.slug ∧
        (⟨"dist", "/"⟩ : Directory).target s.objectPath = .ok "dist/previews/a-2-2/index.html".toList := by
  intro sources
  have hsnippets : withSlugs [] sources
      = [⟨"a.js", "a", "1"⟩, ⟨"A.vue", "a-2", "2"⟩, ⟨"ä/a-2.js", "a-2-2", "3"⟩] := by decide +kernel
  have hbase : slug (withoutExtension ["ä".toList, "a-2.js"]) = "a-2".toList := by decide +kernel
  obtain ⟨-, -, hsearch, hstorable⟩ := slugs_withSlugs sources
  refine ⟨by rw [hsnippets]; rfl, by decide, ?_, ?_⟩
  · obtain ⟨s, hs, -, rounds, hrounds, hrun⟩ := hsearch 2 (by decide)
    rw [hsnippets] at hs hrounds hrun
    obtain rfl : "a-2-2".toList = s := Option.some.inj hs
    refine ⟨rounds, hrounds, ?_⟩
    rw [← hbase]
    exact hrun
  · have hmem : (⟨"ä/a-2.js", "a-2-2", "3"⟩ : Snippet) ∈ withSlugs [] sources := by
      rw [hsnippets]
      decide
    obtain ⟨hhyphenated, htarget⟩ := hstorable _ hmem
    exact ⟨_, hmem, rfl, hhyphenated, htarget ⟨"dist", "/"⟩⟩

end SnippetPreview
