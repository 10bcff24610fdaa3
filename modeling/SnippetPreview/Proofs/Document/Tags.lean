import SnippetPreview.Proofs.Document.Reader
import SnippetPreview.Proofs.Document.Seams

/-!
# Counting tags

* `occurrences`: how often a word stands in a text, with what comes about where two texts meet;
* `tagsNamed`: how many tags of a document open with a name, in whatever letters;
* `HeadPlace.tagsNamed_around`: a script brings no body with it, and a head only where it is put into a new one;
* `HasHeadTag`: the tags that a script can be put next to within a head.
-/

namespace SnippetPreview

open Pattern

/-! ### Occurrences of a word -/

/-- How often a word stands in a text, overlaps included. -/
def occurrences (word t : Text) : Nat := t.tails.countP word.isPrefixOf

variable {word x y added : Text} {c : Char}

theorem occurrences_cons (word : Text) (c : Char) (t : Text) :
    occurrences word (c :: t) = occurrences word t + if word <+: c :: t then 1 else 0 := by
  unfold occurrences
  rw [List.tails_cons, List.countP_cons]
  simp only [List.isPrefixOf_iff_prefix]

theorem occurrences_nil (hword : word ≠ []) : occurrences word [] = 0 := by
  cases word with
  | nil => exact absurd rfl hword
  | cons a word => rfl

/-- All that stands in one of two texts stands in both together. -/
theorem occurrences_add_le (hword : word ≠ []) (x y : Text) :
    occurrences word x + occurrences word y ≤ occurrences word (x ++ y) := by
  induction x with
  | nil => rw [occurrences_nil hword, Nat.zero_add, List.nil_append]
  | cons c x ih =>
    rw [List.cons_append, occurrences_cons, occurrences_cons]
    by_cases h : word <+: c :: x
    · have hwhole : word <+: c :: (x ++ y) := h.trans (List.prefix_append (c :: x) y)
      rw [if_pos h, if_pos hwhole]
      omega
    · rw [if_neg h]
      omega

/-- Nothing goes across into a character that stands in the word at its start at most. -/
theorem occurrences_append_cons (hword : word ≠ []) (hc : c ∉ word.tail) (x y : Text) :
    occurrences word (x ++ c :: y) = occurrences word x + occurrences word (c :: y) := by
  induction x with
  | nil => rw [occurrences_nil hword, Nat.zero_add, List.nil_append]
  | cons d x ih =>
    have hprefix : word <+: d :: x ++ c :: y ↔ word <+: d :: x := by
      refine ⟨fun h => ?_, fun h => h.trans (List.prefix_append _ _)⟩
      rcases prefix_append_cases h with h | ⟨v, rfl, hv⟩
      · exact h
      · have hnil : v = [] := eq_nil_of_prefix_cons (fun hmem => hc (List.mem_append_right x hmem)) hv
        rw [hnil, List.append_nil]
    rw [List.cons_append, occurrences_cons, occurrences_cons, ih]
    simp only [← List.cons_append, hprefix]
    omega

theorem occurrences_cons_of_not_mem (hword : word ≠ []) (hc : c ∉ word) (y : Text) :
    occurrences word (c :: y) = occurrences word y := by
  rw [occurrences_cons, if_neg fun h => hword (eq_nil_of_prefix_cons hc h), Nat.add_zero]

/-- A text that the word can neither reach into nor go on behind brings its own occurrences at most. -/
theorem occurrences_insert_le (hword : word ≠ []) (hfirst : added.head?.any (· ∈ word.tail) = false)
    (hlast : added.getLast?.any (· ∈ word) = false) (x y : Text) :
    occurrences word (x ++ (added ++ y)) ≤ occurrences word (x ++ y) + occurrences word added := by
  cases added with
  | nil => exact Nat.le_add_right _ _
  | cons c t =>
    obtain ⟨v, d, hd⟩ : ∃ v d, c :: t = v ++ [d] :=
      ⟨_, _, (List.dropLast_append_getLast (List.cons_ne_nil c t)).symm⟩
    have hc : c ∉ word.tail := of_decide_eq_false hfirst
    have hd' : d ∉ word := by
      rw [hd, List.getLast?_concat] at hlast
      exact of_decide_eq_false hlast
    have hbehind : occurrences word (c :: t ++ y) = occurrences word (c :: t) + occurrences word y := by
      have htail : d ∉ word.tail := fun hmem => hd' (List.mem_of_mem_tail hmem)
      rw [hd, List.append_assoc, List.singleton_append, occurrences_append_cons hword htail v y,
        occurrences_append_cons hword htail v [], occurrences_cons_of_not_mem hword hd',
        occurrences_cons_of_not_mem hword hd', occurrences_nil hword, Nat.add_zero]
    have hwhole := occurrences_add_le hword x y
    rw [List.cons_append, occurrences_append_cons hword hc, ← List.cons_append, hbehind]
    omega

/-! ### Tags -/

/-- How many tags open with the name, in whatever letters. -/
def tagsNamed (name t : Text) : Nat := occurrences ('<' :: name) t.lowerAscii

/-- No tag with the name goes across the ends of the text. -/
def partsTagsNamed (name t : Text) : Bool :=
  !t.lowerAscii.head?.any (· ∈ name) && !t.lowerAscii.getLast?.any (· ∈ '<' :: name)

/-- A text put into a document brings its own tags at most, unless one goes across its ends. -/
theorem tagsNamed_insert_le {name : Text} (hparts : partsTagsNamed name added = true) (x y : Text) :
    tagsNamed name (x ++ (added ++ y)) ≤ tagsNamed name (x ++ y) + tagsNamed name added := by
  rw [partsTagsNamed, Bool.and_eq_true, Bool.not_eq_true', Bool.not_eq_true'] at hparts
  obtain ⟨hfirst, hlast⟩ := hparts
  unfold tagsNamed
  have hwhole := occurrences_insert_le (List.cons_ne_nil _ _) hfirst hlast x.lowerAscii y.lowerAscii
  simpa only [Text.lowerAscii, List.map_append] using hwhole

/-- A part of a document has no more tags than the whole. -/
theorem tagsNamed_le_of_isInfix {name : Text} (h : x <:+: y) : tagsNamed name x ≤ tagsNamed name y := by
  obtain ⟨u, v, rfl⟩ := h
  have hword := List.cons_ne_nil '<' name
  have hfront := occurrences_add_le hword (Text.lowerAscii u ++ Text.lowerAscii x) (Text.lowerAscii v)
  have hback := occurrences_add_le hword (Text.lowerAscii u) (Text.lowerAscii x)
  simp only [tagsNamed, Text.lowerAscii, List.map_append] at hfront hback ⊢
  omega

/-- A finished document has a body. -/
theorem Shell.tagsNamed_finish_pos (s : Shell) : 0 < tagsNamed "body" s.finish := by
  have hpos : 0 < tagsNamed "body" "<body" := by decide +kernel
  have hopen : "<body".toList <+: "<body ".toList := by decide
  have htag : "<body".toList <:+: s.bodyTag := by
    unfold bodyTag
    split
    · exact List.IsPrefix.isInfix (by decide)
    · rw [List.append_assoc]
      exact (hopen.trans (List.prefix_append _ _)).isInfix
  have hfinish : s.bodyTag <:+: s.finish := by
    unfold finish tail
    simp only [List.append_assoc]
    exact List.infix_append_of_infix_right List.infix_append_left
  exact Nat.lt_of_lt_of_le hpos (tagsNamed_le_of_isInfix (htag.trans hfinish))

/-! ### Scripts -/

/-- A tag of a head that a script can be put next to. -/
def HasHeadTag (t : Text) : Prop := headClose.isMatch t = true ∨ (openTag "head").isMatch t = true

instance (t : Text) : Decidable (HasHeadTag t) := inferInstanceAs (Decidable (_ ∨ _))

/-- A new head is made only when there is none. -/
theorem IsHeadCut.not_hasHeadTag {html : Text} {cut : HeadCut} (h : IsHeadCut html cut) (hplace : cut.place = .newHead) :
    ¬ HasHeadTag html := by
  cases h with
  | newHead _ hclose hopen =>
    unfold HasHeadTag
    rw [hclose, hopen]
    exact fun h => h.elim Bool.false_ne_true Bool.false_ne_true
  | headEnd | headStart | front => exact absurd hplace nofun

/-- The tags that a place brings with it. -/
def HeadPlace.heads : HeadPlace → Nat
  | newHead => 1
  | headEnd | headStart | front => 0

/-- No tag goes across the ends of what is put in for an element of a known runtime. It brings no body, and a head only
where it is put into a new one. -/
theorem HeadPlace.tagsNamed_around {k : Kind} {url : Text} (hurl : url ∈ k.scripts) (place : HeadPlace) :
    let added := place.around (ScriptElement.src url).render
    partsTagsNamed "body" added = true ∧ partsTagsNamed "head" added = true ∧
      tagsNamed "body" added = 0 ∧ tagsNamed "head" added = place.heads := by
  have hall : Kind.all.all (fun k => k.scripts.all fun url => [headEnd, headStart, newHead, front].all fun place =>
      let added := place.around (ScriptElement.src url).render
      partsTagsNamed "body" added && partsTagsNamed "head" added
        && tagsNamed "body" added == 0 && tagsNamed "head" added == place.heads) = true := by
    decide +kernel
  have hplace : place ∈ [headEnd, headStart, newHead, front] := by cases place <;> decide
  have hfacts := List.all_eq_true.1 (List.all_eq_true.1 (List.all_eq_true.1 hall k (Kind.mem_all k)) url hurl) place hplace
  simpa only [Bool.and_eq_true, beq_iff_eq, and_assoc] using hfacts

end SnippetPreview
