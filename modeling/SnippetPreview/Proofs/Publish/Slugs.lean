import Mathlib.Data.List.Perm.Subperm
import SnippetPreview.Proofs.Files.Path
import SnippetPreview.Proofs.Publish.Search

/-!
# Slugs of their own

* `slugCandidate`, `exists_isFirstFree`: the candidates for a slug, of which a free one comes before the taken slugs are
  used up. They are one more than the slugs that are taken, and no two of them are the same;
* `freeSlug_not_mem`: a free slug is not taken;
* `IsHyphenated`, `isHyphenated_withSlugs`: slugs are runs of small letters and digits with single hyphens in between;
* `IsSlug`, `IsHyphenated.isSlug`: such a slug is the name of a directory, without slashes and dots;
* `nodup_slugs`, `isSlug_slugs`: of the snippets that are found, each has such a slug, and no two have the same.
-/

namespace SnippetPreview

theorem Text.ofNat_inj {m n : Nat} : Text.ofNat m = Text.ofNat n ↔ m = n := by
  refine ⟨fun h => ?_, congrArg Text.ofNat⟩
  have hread : ∀ k : Nat, Nat.ofDigitChars 10 (Text.ofNat k) 0 = k := fun _ => Nat.ofDigitChars_ten_toDigits
  rw [← hread m, h, hread]

theorem numbered_inj {base : Text} {m n : Nat} : numbered base m = numbered base n ↔ m = n := by
  unfold numbered
  rw [List.append_right_inj, List.cons_inj_right, Text.ofNat_inj]

theorem numbered_ne (base : Text) (n : Nat) : numbered base n ≠ base := by
  intro h
  have hlen := congrArg List.length h
  simp only [numbered, List.length_append, List.length_cons] at hlen
  omega

/-! ### The first free candidate -/

/-- The candidates for a slug. -/
def slugCandidates (base : Text) (count : Nat) : List Text :=
  base :: (List.range count).map fun i => numbered base (i + 2)

/-- The candidate of this place. -/
def slugCandidate (base : Text) : Nat → Text
  | 0 => base
  | i + 1 => numbered base (i + 2)

theorem getElem_slugCandidates (base : Text) {count k : Nat} (h : k < (slugCandidates base count).length) :
    (slugCandidates base count)[k] = slugCandidate base k := by
  cases k with
  | zero => rfl
  | succ i => simp only [slugCandidates, slugCandidate, List.getElem_cons_succ, List.getElem_map, List.getElem_range]

theorem length_slugCandidates (base : Text) (count : Nat) : (slugCandidates base count).length = count + 1 := by
  rw [slugCandidates, List.length_cons, List.length_map, List.length_range]

theorem nodup_slugCandidates (base : Text) (count : Nat) : (slugCandidates base count).Nodup := by
  refine List.nodup_cons.2 ⟨fun h => ?_, ?_⟩
  · obtain ⟨i, -, hi⟩ := List.mem_map.1 h
    exact numbered_ne base _ hi
  · refine List.pairwise_map.2 (List.nodup_range.imp fun hne h => hne ?_)
    have := numbered_inj.1 h
    omega

/-- The candidate of this place is free, and those in front of it are taken. -/
structure IsFirstFree (taken : List Text) (base : Text) (k : Nat) : Prop where
  free : slugCandidate base k ∉ taken
  taken : ∀ j < k, slugCandidate base j ∈ taken

/-- One of the candidates is free, and it is the slug. -/
theorem exists_isFirstFree (taken : List Text) (base : Text) :
    ∃ k ≤ taken.length, IsFirstFree taken base k ∧ freeSlug taken base = slugCandidate base k := by
  have hcandidates : freeSlug taken base
      = ((slugCandidates base taken.length).find? fun s => !taken.contains s).getD base := rfl
  cases hfind : (slugCandidates base taken.length).find? fun s => !taken.contains s with
  | none =>
    -- all candidates would be among the taken ones
    have hsub : slugCandidates base taken.length ⊆ taken := by
      intro s hs
      have := List.find?_eq_none.1 hfind s hs
      simpa using this
    have hlen := ((nodup_slugCandidates base taken.length).subperm hsub).length_le
    rw [length_slugCandidates] at hlen
    omega
  | some s =>
    obtain ⟨hfree, k, hk, rfl, htaken⟩ := List.find?_eq_some_iff_getElem.1 hfind
    have hcount := hk
    rw [length_slugCandidates] at hcount
    rw [getElem_slugCandidates] at hfree
    refine ⟨k, Nat.le_of_lt_succ hcount, ⟨by simpa using hfree, fun j hj => ?_⟩, ?_⟩
    · have hj' := htaken j hj
      rw [getElem_slugCandidates] at hj'
      simpa using hj'
    · rw [hcandidates, hfind, Option.getD_some, getElem_slugCandidates]

theorem freeSlug_not_mem (taken : List Text) (base : Text) : freeSlug taken base ∉ taken := by
  obtain ⟨k, -, hfirst, hslug⟩ := exists_isFirstFree taken base
  rw [hslug]
  exact hfirst.free

theorem withSlugs_slugs (taken : List Text) (sources : List (List Text × Text)) :
    ((withSlugs taken sources).map Snippet.slug).Nodup ∧
      ∀ s ∈ withSlugs taken sources, s.slug ∉ taken := by
  induction sources generalizing taken with
  | nil => exact ⟨List.nodup_nil, List.forall_mem_nil _⟩
  | cons source sources ih =>
    obtain ⟨hnodup, hfree⟩ := ih (freeSlug taken (slug (withoutExtension source.1)) :: taken)
    refine ⟨List.nodup_cons.2 ⟨fun h => ?_, hnodup⟩, List.forall_mem_cons.2 ⟨freeSlug_not_mem _ _, fun s hs => ?_⟩⟩
    · obtain ⟨s, hs, heq⟩ := List.mem_map.1 h
      exact hfree s hs (heq ▸ List.mem_cons_self)
    · exact fun h => hfree s hs (List.mem_cons_of_mem _ h)

/-! ### Runs of letters and digits -/

/-- A small letter or a digit. -/
def isSlugChar (c : Char) : Bool := c.isLower || c.isDigit

/-- Runs of small letters and digits, with one hyphen between two of them. -/
def IsHyphenated (t : Text) : Prop :=
  ∃ runs : List Text, runs ≠ [] ∧ (∀ run ∈ runs, run ≠ [] ∧ run.all isSlugChar = true) ∧ t = Text.join ['-'] runs

theorem isSlugChar_toLower {c : Char} (h : c.isAlphanum = true) : isSlugChar c.toLower = true := by
  unfold Char.toLower
  split
  · next hupper =>
    have hmin : 65 ≤ c.val.toNat := UInt32.le_iff_toNat_le.1 hupper.1
    have hmax : c.val.toNat ≤ 90 := UInt32.le_iff_toNat_le.1 hupper.2
    have h32 : UInt32.toNat 32 = 32 := rfl
    have hval : (c.val + 32).toNat = c.val.toNat + 32 := by
      rw [UInt32.toNat_add]
      omega
    have hlower : 97 ≤ (c.val + 32).toNat ∧ (c.val + 32).toNat ≤ 122 := by omega
    exact Bool.or_eq_true_iff.2 (.inl (Bool.and_eq_true_iff.2 ⟨decide_eq_true (UInt32.le_iff_toNat_le.2 hlower.1),
      decide_eq_true (UInt32.le_iff_toNat_le.2 hlower.2)⟩))
  · next hupper =>
    rcases Bool.or_eq_true_iff.1 h with halpha | hdigit
    · exact Bool.or_eq_true_iff.2
        (.inl ((Bool.or_eq_true_iff.1 halpha).resolve_left fun h => hupper (of_decide_eq_true h)))
    · exact Bool.or_eq_true_iff.2 (.inr hdigit)

theorem isHyphenated_slug (t : Text) : IsHyphenated (slug t) := by
  unfold slug
  split
  · exact ⟨["snippet"], List.cons_ne_nil _ _, by decide, rfl⟩
  · next ws hne =>
    refine ⟨(words t).map Text.lowerAscii, fun hnil => hne (List.map_eq_nil_iff.1 hnil), ?_, rfl⟩
    intro run hrun
    obtain ⟨word, hword, rfl⟩ := List.mem_map.1 hrun
    obtain ⟨hpiece, hword⟩ := List.mem_filter.1 hword
    refine ⟨fun hnil => ?_, List.all_eq_true.2 fun c hc => ?_⟩
    · rw [List.map_eq_nil_iff.1 hnil] at hword
      exact absurd hword nofun
    · obtain ⟨d, hd, rfl⟩ := List.mem_map.1 hc
      have halnum := Text.isSep_of_mem_splitWhere hpiece hd
      exact isSlugChar_toLower (by simpa using halnum)

/-- A number is one more run. -/
theorem IsHyphenated.numbered {base : Text} (h : IsHyphenated base) (n : Nat) : IsHyphenated (numbered base n) := by
  obtain ⟨runs, hne, hruns, rfl⟩ := h
  refine ⟨runs ++ [Text.ofNat n], List.append_ne_nil_of_left_ne_nil hne _, ?_, (Text.join_concat _ hne _).symm⟩
  intro run hrun
  rcases List.mem_append.1 hrun with hrun | hrun
  · exact hruns run hrun
  · rw [List.mem_singleton.1 hrun]
    refine ⟨Nat.toDigits_ne_nil, List.all_eq_true.2 fun c hc => ?_⟩
    have hdigit : c.isDigit = true := Nat.isDigit_of_mem_toDigits (by decide) (by decide) hc
    rw [isSlugChar, hdigit, Bool.or_true]

theorem IsHyphenated.freeSlug {base : Text} (h : IsHyphenated base) (taken : List Text) :
    IsHyphenated (freeSlug taken base) := by
  obtain ⟨k, -, -, hslug⟩ := exists_isFirstFree taken base
  rw [hslug]
  cases k with
  | zero => exact h
  | succ i => exact h.numbered _

theorem isHyphenated_withSlugs (taken : List Text) (sources : List (List Text × Text)) :
    ∀ s ∈ withSlugs taken sources, IsHyphenated s.slug := by
  induction sources generalizing taken with
  | nil => exact List.forall_mem_nil _
  | cons source sources ih => exact List.forall_mem_cons.2 ⟨(isHyphenated_slug _).freeSlug taken, ih _⟩

/-! ### Slugs are names of directories -/

/-- A name that is neither empty nor has slashes or dots. -/
structure IsSlug (t : Text) : Prop where
  nonempty : t ≠ []
  plain : ∀ c ∈ t, c ≠ '/' ∧ c ≠ '.'

theorem IsHyphenated.isSlug {t : Text} (h : IsHyphenated t) : IsSlug t := by
  obtain ⟨runs, hne, hruns, rfl⟩ := h
  refine ⟨fun hnil => ?_, fun c hc => ?_⟩
  · obtain ⟨run, rest, rfl⟩ := List.exists_cons_of_ne_nil hne
    obtain ⟨c, hc⟩ := List.exists_mem_of_ne_nil _ (hruns run List.mem_cons_self).1
    have hmem : c ∈ Text.join ['-'] (run :: rest) := Text.mem_join List.mem_cons_self hc
    rw [hnil] at hmem
    exact absurd hmem List.not_mem_nil
  · rcases Text.mem_of_mem_join hc with hc | ⟨run, hrun, hc⟩
    · rw [List.mem_singleton.1 hc]
      decide
    · have hchar := List.all_eq_true.1 (hruns run hrun).2 c hc
      exact ⟨by rintro rfl; exact absurd hchar nofun, by rintro rfl; exact absurd hchar nofun⟩

/-! ### The slugs of snippets -/

variable {n : Node} {source output : Text} {snippets : List Snippet}

/-- No two snippets that are found have the same slug. -/
theorem nodup_slugs (h : discover n source output = .ok snippets) : (snippets.map Snippet.slug).Nodup := by
  obtain ⟨-, -, sources, -, -, -, rfl⟩ := exists_sources h
  exact (withSlugs_slugs [] sources).1

theorem isSlug_slugs (h : discover n source output = .ok snippets) : ∀ s ∈ snippets, IsSlug s.slug := by
  obtain ⟨-, -, sources, -, -, -, rfl⟩ := exists_sources h
  exact fun s hs => (isHyphenated_withSlugs [] sources s hs).isSlug

end SnippetPreview
