import Mathlib.Data.List.Infix
import SnippetPreview.Proofs.Document.Completion

/-!
# Counting document types

* `doctypes`, `doctypesIn`: how many document types a text contains, in whatever letters, and how many texts do;
* `progress`, `reach`, `hits`: a reader that goes through a text character by character, and knows how much of a
  document type it has just read. `doctypes_eq_hits` says that it counts right;
* `doctypes_append`: what comes about where two texts meet. Nothing does in front of an angle (`doctypes_append_angle`),
  at a character that stands in no document type (`doctypes_append_cons`), or behind a text that does not end with the
  beginning of one (`reach_eq_zero`);
* `doctypes_ensureDoctype_of_zero`: a completed document has one if there was none.
-/

namespace SnippetPreview

/-- What a document type starts with, in small letters. -/
def doctypeWord : Text := ['<', '!', 'd', 'o', 'c', 't', 'y', 'p', 'e']

/-- How many document types a text contains, in whatever letters. -/
def doctypes (t : Text) : Nat := t.lowerAscii.tails.countP doctypeWord.isPrefixOf

/-- How many document types texts contain, each for itself. -/
def doctypesIn (texts : List Text) : Nat := texts.foldr (fun t n => doctypes t + n) 0

/-- The text ends with the beginning of a document type. -/
def OpensDoctype (t : Text) : Prop := ∃ j, j < 9 ∧ 0 < j ∧ doctypeWord.take j <:+ t.lowerAscii

instance (t : Text) : Decidable (OpensDoctype t) := inferInstanceAs (Decidable (∃ j, j < 9 ∧ _))

/-! ### Reading character by character -/

/-- How many characters of the word have been read, with one more character. -/
def progress (q : Nat) (c : Char) : Nat :=
  if doctypeWord[q]? = some c.toLower then (q + 1) % 9 else if c = '<' then 1 else 0

/-- How many characters of the word have been read behind a text. -/
def reach (q : Nat) (t : Text) : Nat := t.foldl progress q

/-- The character completes the word. -/
def Completes (q : Nat) (c : Char) : Prop := q = 8 ∧ c.toLower = 'e'

instance (q : Nat) (c : Char) : Decidable (Completes q c) := inferInstanceAs (Decidable (_ ∧ _))

/-- How often the word is completed within a text. -/
def hits : Nat → Text → Nat
  | _, [] => 0
  | q, c :: t => (if Completes q c then 1 else 0) + hits (progress q c) t

variable {q s : Nat} {c : Char} {t x y v : Text}

theorem reach_cons (q : Nat) (c : Char) (t : Text) : reach q (c :: t) = reach (progress q c) t := rfl

theorem reach_append (q : Nat) (x y : Text) : reach q (x ++ y) = reach (reach q x) y := List.foldl_append

theorem hits_append (q : Nat) (x y : Text) : hits q (x ++ y) = hits q x + hits (reach q x) y := by
  induction x generalizing q with
  | nil => exact (Nat.zero_add _).symm
  | cons c x ih =>
    rw [List.cons_append, hits, hits, ih, Nat.add_assoc]
    rfl

theorem eq_angle_of_toLower (h : c.toLower = '<') : c = '<' :=
  Classical.byContradiction fun hne => toLower_ne hne (by decide) h

theorem progress_angle (q : Nat) : progress q '<' = 1 := by
  have hlower : '<'.toLower = '<' := by decide
  unfold progress
  rw [hlower]
  cases q with
  | zero => rfl
  | succ q =>
    rw [if_neg, if_pos rfl]
    exact fun h => absurd (List.mem_of_getElem? (l := doctypeWord.tail) h) (by decide)

/-- A character that stands in no document type starts all over. -/
theorem progress_of_not_mem (hc : c.toLower ∉ doctypeWord) (q : Nat) : progress q c = 0 := by
  unfold progress
  rw [if_neg fun h => hc (List.mem_of_getElem? h), if_neg]
  rintro rfl
  exact hc (by decide)

theorem progress_zero_of_ne (hc : c ≠ '<') : progress 0 c = 0 := by
  unfold progress
  rw [if_neg, if_neg hc]
  exact fun h => hc (eq_angle_of_toLower (Option.some.inj h).symm)

theorem hits_angle (q : Nat) (t : Text) : hits q ('<' :: t) = hits 1 t := by
  rw [hits, progress_angle, if_neg fun h => absurd h.2 (by decide), Nat.zero_add]

theorem hits_cons_of_not_mem (hc : c.toLower ∉ doctypeWord) (q : Nat) (t : Text) : hits q (c :: t) = hits 0 t := by
  rw [hits, progress_of_not_mem hc, if_neg, Nat.zero_add]
  rintro ⟨-, he⟩
  exact hc (he ▸ by decide)

theorem hits_zero_cons_of_ne (hc : c ≠ '<') (t : Text) : hits 0 (c :: t) = hits 0 t := by
  rw [hits, progress_zero_of_ne hc, if_neg (fun h => absurd h.1 (by decide)), Nat.zero_add]

/-- A text without angles brings no document type. -/
theorem reach_zero_of_not_mem (h : '<' ∉ v) : reach 0 v = 0 := by
  induction v with
  | nil => rfl
  | cons c v ih =>
    rw [reach_cons, progress_zero_of_ne fun hc => h (hc ▸ List.mem_cons_self)]
    exact ih fun hmem => h (List.mem_cons_of_mem c hmem)

theorem hits_zero_of_not_mem (h : '<' ∉ v) : hits 0 v = 0 := by
  induction v with
  | nil => rfl
  | cons c v ih =>
    rw [hits_zero_cons_of_ne fun hc => h (hc ▸ List.mem_cons_self)]
    exact ih fun hmem => h (List.mem_cons_of_mem c hmem)

/-! ### A reader that knows less

A reader that has just started all over reads on like one that has not, or is still at the start. -/

theorem progress_of_behind (h : q = 0 ∨ q = s) (c : Char) : progress q c = 0 ∨ progress q c = progress s c := by
  rcases h with rfl | rfl
  · by_cases hc : c = '<'
    · subst hc
      exact .inr ((progress_angle 0).trans (progress_angle s).symm)
    · exact .inl (progress_zero_of_ne hc)
  · exact .inr rfl

theorem reach_of_behind (h : q = 0 ∨ q = s) (t : Text) : reach q t = 0 ∨ reach q t = reach s t := by
  induction t generalizing q s with
  | nil => exact h
  | cons c t ih => exact ih (progress_of_behind h c)

theorem hits_le_of_behind (h : q = 0 ∨ q = s) (t : Text) : hits q t ≤ hits s t := by
  induction t generalizing q s with
  | nil => exact Nat.le_refl _
  | cons c t ih =>
    rw [hits, hits]
    refine Nat.add_le_add ?_ (ih (progress_of_behind h c))
    rcases h with rfl | rfl
    · rw [if_neg fun h => absurd h.1 (by decide)]
      exact Nat.zero_le _
    · exact Nat.le_refl _

/-! ### The reader counts right -/

@[simp] theorem doctypes_nil : doctypes [] = 0 := rfl

@[simp] theorem doctypesIn_nil : doctypesIn [] = 0 := rfl

@[simp] theorem doctypesIn_cons (t : Text) (texts : List Text) :
    doctypesIn (t :: texts) = doctypes t + doctypesIn texts := rfl

@[simp] theorem doctypesIn_append (texts texts' : List Text) :
    doctypesIn (texts ++ texts') = doctypesIn texts + doctypesIn texts' := by
  induction texts with
  | nil => exact (Nat.zero_add _).symm
  | cons t texts ih => rw [List.cons_append, doctypesIn_cons, doctypesIn_cons, ih, Nat.add_assoc]

theorem doctypesIn_eq_zero {texts : List Text} (h : ∀ t ∈ texts, doctypes t = 0) : doctypesIn texts = 0 := by
  induction texts with
  | nil => rfl
  | cons t texts ih =>
    rw [doctypesIn_cons, h t List.mem_cons_self, ih fun t' ht' => h t' (List.mem_cons_of_mem t ht')]

theorem doctypes_cons (c : Char) (t : Text) : doctypes (c :: t)
    = (if doctypeWord <+: Text.lowerAscii (c :: t) then 1 else 0) + doctypes t := by
  have hlower : Text.lowerAscii (c :: t) = c.toLower :: t.lowerAscii := rfl
  unfold doctypes
  rw [hlower, List.tails_cons, List.countP_cons, Nat.add_comm]
  simp only [List.isPrefixOf_iff_prefix]

/-- The rest of the word stands in front of a text when its first character does, and what follows. -/
theorem drop_prefix_lowerAscii_cons (hq : q < 9) : doctypeWord.drop q <+: Text.lowerAscii (c :: t) ↔
    doctypeWord[q]? = some c.toLower ∧ doctypeWord.drop (q + 1) <+: t.lowerAscii := by
  have hlower : Text.lowerAscii (c :: t) = c.toLower :: t.lowerAscii := rfl
  have hlength : q < doctypeWord.length := hq
  rw [hlower, List.drop_eq_getElem_cons hlength, List.cons_prefix_cons, List.getElem?_eq_getElem hlength,
    Option.some_inj]

theorem prefix_lowerAscii_cons : doctypeWord <+: Text.lowerAscii (c :: t) ↔
    c = '<' ∧ doctypeWord.drop 1 <+: t.lowerAscii := by
  have hfirst : doctypeWord[0]? = some c.toLower ↔ c = '<' := by
    constructor
    · exact fun h => eq_angle_of_toLower (Option.some.inj h).symm
    · rintro rfl
      decide
  rw [← hfirst]
  exact drop_prefix_lowerAscii_cons (q := 0) (by decide)

/-- What the reader counts behind the beginning of a document type: the rest of it, and what stands in the text. -/
theorem hits_eq (hq : q < 9) (t : Text) : hits q t
    = (if 0 < q ∧ doctypeWord.drop q <+: t.lowerAscii then 1 else 0) + doctypes t := by
  induction t generalizing q with
  | nil =>
    rw [if_neg]
    · rfl
    · rintro ⟨-, hdrop⟩
      have hle := List.drop_eq_nil_iff.1 (List.prefix_nil.1 hdrop)
      exact absurd hq (Nat.not_lt.2 hle)
  | cons c t ih =>
    simp only [hits, doctypes_cons, drop_prefix_lowerAscii_cons hq, prefix_lowerAscii_cons]
    by_cases hc : c = '<'
    · -- a new document type may begin, and no other one goes on
      have hnone : ¬ Completes q '<' := fun h => absurd h.2 (by decide)
      have hover : ¬ (0 < q ∧ doctypeWord[q]? = some '<'.toLower ∧ doctypeWord.drop (q + 1) <+: Text.lowerAscii t) := by
        rintro ⟨hpos, hget, -⟩
        obtain ⟨p, rfl⟩ := Nat.exists_eq_add_one.2 hpos
        exact absurd (List.mem_of_getElem? (l := doctypeWord.tail) hget) (by decide)
      subst hc
      rw [if_neg hnone, progress_angle, ih (by decide), if_neg hover]
      simp
    · rw [if_neg (c := c = '<' ∧ _) fun h => hc h.1, Nat.zero_add]
      by_cases hnext : doctypeWord[q]? = some c.toLower
      · have hpos : 0 < q := by
          refine Nat.pos_of_ne_zero fun h => hc (eq_angle_of_toLower ?_)
          subst h
          exact (Option.some.inj hnext).symm
        have hprogress : progress q c = (q + 1) % 9 := if_pos hnext
        rw [hprogress, ih (Nat.mod_lt _ (by decide))]
        by_cases hlast : q = 8
        · subst hlast
          have hdone : Completes 8 c := ⟨rfl, (Option.some.inj hnext).symm⟩
          rw [if_pos hdone, if_neg fun h => absurd h.1 (by decide), if_pos ⟨hpos, hnext, List.nil_prefix⟩, Nat.zero_add]
        · have hnone : ¬ Completes q c := fun h => hlast h.1
          have hmod : (q + 1) % 9 = q + 1 := Nat.mod_eq_of_lt (by omega)
          rw [hmod, if_neg hnone, Nat.zero_add]
          simp only [hpos, hnext, Nat.zero_lt_succ, true_and]
      · have hprogress : progress q c = 0 := by
          unfold progress
          rw [if_neg hnext, if_neg hc]
        have hnone : ¬ Completes q c := by
          rintro ⟨rfl, he⟩
          exact hnext (by rw [he]; rfl)
        rw [hprogress, if_neg hnone, ih (by decide), if_neg fun h => absurd h.1 (by decide),
          if_neg fun h => hnext h.2.1, Nat.zero_add]

theorem doctypes_eq_hits (t : Text) : doctypes t = hits 0 t := by
  rw [hits_eq (by decide), if_neg fun h => absurd h.1 (by decide), Nat.zero_add]

theorem doctypes_pos_iff : 0 < doctypes t ↔ hasDoctype t = true := by
  induction t with
  | nil => decide
  | cons c t ih =>
    have hcontains : hasDoctype (c :: t) = (doctypeWord.isPrefixOf (Text.lowerAscii (c :: t)) || hasDoctype t) := by
      rw [hasDoctype_eq_contains, hasDoctype_eq_contains]
      rfl
    rw [hcontains, Bool.or_eq_true, ← ih, List.isPrefixOf_iff_prefix, doctypes_cons]
    split
    · next h => exact iff_of_true (by omega) (.inl h)
    · next h => rw [Nat.zero_add, or_iff_right h]

theorem doctypes_eq_zero_iff : doctypes t = 0 ↔ hasDoctype t = false := by
  rw [← Bool.not_eq_true, ← doctypes_pos_iff, Nat.pos_iff_ne_zero, not_not]

/-! ### Where texts meet -/

theorem doctypes_append (x y : Text) : doctypes (x ++ y) = doctypes x + hits (reach 0 x) y := by
  rw [doctypes_eq_hits, doctypes_eq_hits, hits_append]

theorem doctypes_append_of_reach (h : reach 0 x = 0) (y : Text) : doctypes (x ++ y) = doctypes x + doctypes y := by
  rw [doctypes_append, h, doctypes_eq_hits y]

/-- No document type goes on with an angle. -/
theorem doctypes_append_angle (x y : Text) : doctypes (x ++ '<' :: y) = doctypes x + doctypes ('<' :: y) := by
  rw [doctypes_append, hits_angle, doctypes_eq_hits ('<' :: y), hits_angle]

/-- A character that stands in no document type parts a text. -/
theorem doctypes_append_cons (hc : c.toLower ∉ doctypeWord) (x y : Text) :
    doctypes (x ++ c :: y) = doctypes x + doctypes y := by
  rw [doctypes_append, hits_cons_of_not_mem hc, doctypes_eq_hits y]

theorem doctypes_append_of_not_mem (h : '<' ∉ v) (y : Text) : doctypes (v ++ y) = doctypes y := by
  rw [doctypes_append_of_reach (reach_zero_of_not_mem h), doctypes_eq_hits v, hits_zero_of_not_mem h, Nat.zero_add]

theorem doctypes_cons_of_ne (hc : c ≠ '<') (t : Text) : doctypes (c :: t) = doctypes t := by
  rw [doctypes_eq_hits, doctypes_eq_hits, hits_zero_cons_of_ne hc]

theorem doctypes_le_of_isInfix (h : t <:+: x) : doctypes t ≤ doctypes x := by
  obtain ⟨u, v, rfl⟩ := h
  rw [doctypes_eq_hits, doctypes_eq_hits, hits_append, hits_append]
  have hle : hits 0 t ≤ hits (reach 0 u) t := hits_le_of_behind (.inl rfl) t
  omega

theorem doctypes_eq_zero_of_isInfix (h : t <:+: x) (hx : doctypes x = 0) : doctypes t = 0 :=
  Nat.le_zero.1 (hx ▸ doctypes_le_of_isInfix h)

theorem progress_lt (q : Nat) (c : Char) : progress q c < 9 := by
  unfold progress
  split
  · exact Nat.mod_lt _ (by decide)
  · split <;> decide

theorem reach_lt (hq : q < 9) (t : Text) : reach q t < 9 := by
  induction t generalizing q with
  | nil => exact hq
  | cons c t ih => exact ih (progress_lt q c)

theorem take_progress_suffix (q : Nat) (c : Char) :
    doctypeWord.take (progress q c) <:+ doctypeWord.take q ++ [c.toLower] := by
  unfold progress
  split
  · next hnext =>
    obtain ⟨hq, -⟩ := List.getElem?_eq_some_iff.1 hnext
    have hlength : doctypeWord.length = 9 := rfl
    by_cases hlast : q + 1 = 9
    · rw [hlast]
      exact List.nil_suffix
    · rw [Nat.mod_eq_of_lt (by omega), List.take_add_one, hnext]
      exact List.suffix_rfl
  · split
    · next hc =>
      subst hc
      exact List.suffix_append _ _
    · exact List.nil_suffix

/-- What has just been read stands at the end of the text. -/
theorem take_reach_suffix (q : Nat) (t : Text) :
    doctypeWord.take (reach q t) <:+ doctypeWord.take q ++ t.lowerAscii := by
  induction t generalizing q with
  | nil =>
    rw [show Text.lowerAscii [] = [] from rfl, List.append_nil]
    exact List.suffix_rfl
  | cons c t ih =>
    obtain ⟨front, hfront⟩ := take_progress_suffix q c
    have hlower : Text.lowerAscii (c :: t) = [c.toLower] ++ Text.lowerAscii t := rfl
    rw [hlower, ← List.append_assoc, ← hfront, List.append_assoc]
    exact (ih _).trans (List.suffix_append _ _)

/-- Behind a text that does not end with the beginning of a document type, the reader starts all over. -/
theorem reach_eq_zero (h : ¬ OpensDoctype t) : reach 0 t = 0 := by
  refine Nat.eq_zero_of_not_pos fun hpos => h ⟨reach 0 t, reach_lt (by decide) t, hpos, ?_⟩
  exact take_reach_suffix 0 t

/-! ### Completed documents -/

theorem doctypes_ensureDoctype_of_zero (h : doctypes t = 0) : doctypes (ensureDoctype t) = 1 := by
  have hnewline : doctypes (frontDoctype ++ '\n' :: t) = doctypes frontDoctype + doctypes t :=
    doctypes_append_cons (by decide) _ _
  rw [ensureDoctype_of_not (doctypes_eq_zero_iff.1 h), hnewline, h]
  decide

theorem doctypes_ensureDoctype_of_pos (h : 0 < doctypes t) : doctypes (ensureDoctype t) = doctypes t := by
  rw [ensureDoctype_eq_self (doctypes_pos_iff.1 h)]

end SnippetPreview
