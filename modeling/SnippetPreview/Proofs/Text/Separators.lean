import Mathlib.Data.List.TakeWhile
import SnippetPreview.Proofs.Files.Path
import SnippetPreview.Text.Blank

/-!
# Texts taken apart again

* `trim_padded`, `mem_trim`, `trim_isInfix_trim`: blanks at the two ends are all that is trimmed;
* `exists_splitOn_pad`, `exists_splitOn_append`: what is added at an end of a text belongs to the piece there;
* `splitOn_join`, `join_inj`: texts that are joined by a separator are found between the separators;
* `splitOnce_eq_none_iff`: a text is cut at a separator if it has one.
-/

namespace SnippetPreview.Text

/-! ### Blanks -/

theorem trimStart_append {a : Text} (ha : a.all isBlank = true) (t : Text) : trimStart (a ++ t) = trimStart t :=
  List.dropWhile_append_of_pos (List.all_eq_true.1 ha)

theorem trimStart_eq_self {t : Text} (h : t.head?.any isBlank = false) : trimStart t = t := by
  cases t with
  | nil => rfl
  | cons c t => exact List.dropWhile_cons_of_neg (Bool.eq_false_iff.1 h)

theorem trimEnd_eq (t : Text) : trimEnd t = (trimStart t.reverse).reverse := rfl

/-- Blanks at the two ends are all that is trimmed. -/
theorem trim_padded {a b t : Text} (ha : a.all isBlank = true) (hb : b.all isBlank = true)
    (hhead : t.head?.any isBlank = false) (hlast : t.getLast?.any isBlank = false) : trim (a ++ (t ++ b)) = t := by
  have hend : trimEnd (t ++ b) = t := by
    rw [trimEnd_eq, List.reverse_append, trimStart_append (by rwa [List.all_reverse]),
      trimStart_eq_self (by rwa [List.head?_reverse]), List.reverse_reverse]
  unfold trim
  rw [trimStart_append ha]
  cases t with
  | nil =>
    have hnone : trimStart ([] ++ b) = [] := by
      rw [List.nil_append, ← List.append_nil b, trimStart_append hb]
      rfl
    rw [hnone]
    rfl
  | cons c t =>
    rw [trimStart_eq_self (t := c :: t ++ b) hhead]
    exact hend

theorem trimStart_eq_nil_iff {t : Text} : t.trimStart = [] ↔ t.all isBlank = true := by
  rw [trimStart, List.dropWhile_eq_nil_iff, List.all_eq_true]

theorem trimStart_append_of_ne_nil {t : Text} (h : t.trimStart ≠ []) (rest : Text) :
    (t ++ rest).trimStart = t.trimStart ++ rest := by
  refine (List.dropWhile_append ..).trans (if_neg ?_)
  rwa [List.isEmpty_iff]

theorem trim_blank_append {a : Text} (ha : a.all isBlank = true) (t : Text) : trim (a ++ t) = trim t := by
  rw [trim, trim, trimStart_append ha]

theorem trim_append_blank {b : Text} (hb : b.all isBlank = true) (t : Text) : trim (t ++ b) = trim t := by
  by_cases ht : t.trimStart = []
  · rw [trim, trim, trimStart_append (trimStart_eq_nil_iff.1 ht), ht, trimStart_eq_nil_iff.2 hb]
  · rw [trim, trim, trimStart_append_of_ne_nil ht, trimEnd_eq, trimEnd_eq, List.reverse_append,
      trimStart_append (by rwa [List.all_reverse])]

@[simp] theorem trim_trim (t : Text) : t.trim.trim = t.trim := by
  obtain ⟨a, b, ht, ha, hb⟩ := exists_trim t
  calc t.trim.trim = (t.trim ++ b).trim := (trim_append_blank hb _).symm
    _ = (a ++ (t.trim ++ b)).trim := (trim_blank_append ha _).symm
    _ = t.trim := by rw [← ht]

theorem head?_trim {t : Text} {c : Char} (h : t.head? = some c) (hc : isBlank c = false) : t.trim.head? = some c := by
  obtain ⟨a, b, ht, ha, hb⟩ := exists_trim t
  have hnone : ∀ {x y : Text}, x.all isBlank = true → (x ++ y).head? = some c → y.head? = some c := by
    intro x y hx hhead
    cases x with
    | nil => exact hhead
    | cons d x =>
      obtain rfl := Option.some.inj hhead
      rw [List.all_cons, hc] at hx
      exact absurd hx Bool.false_ne_true
  rw [ht] at h
  have htrim := hnone ha h
  cases hempty : t.trim with
  | nil =>
    rw [hempty] at htrim
    have hend := hnone (y := []) hb (by rwa [List.append_nil])
    exact absurd hend nofun
  | cons d u =>
    rw [hempty] at htrim
    exact htrim

theorem isBlank_getLast?_trim (t : Text) : t.trim.getLast?.any isBlank = false := by
  rw [trim, trimEnd, List.getLast?_reverse]
  have hhead := List.head?_dropWhile_not isBlank t.trimStart.reverse
  generalize t.trimStart.reverse.dropWhile isBlank = u at hhead
  cases u with
  | nil => rfl
  | cons c u => exact hhead

theorem isBlank_head?_trim (t : Text) : t.trim.head?.any isBlank = false := by
  cases htrim : t.trim with
  | nil => rfl
  | cons c u =>
    rw [List.head?_cons, Option.any_some]
    refine Bool.eq_false_iff.2 fun hc => ?_
    -- trimming again would make the text shorter
    have hle : (trim (c :: u)).length ≤ u.length := by
      unfold trim trimEnd trimStart
      rw [List.dropWhile_cons_of_pos hc, List.length_reverse]
      refine Nat.le_trans ((List.dropWhile_sublist _).length_le) ?_
      rw [List.length_reverse]
      exact (List.dropWhile_sublist _).length_le
    rw [← htrim, trim_trim, htrim, List.length_cons] at hle
    omega

/-- What stands in front of a character that is no blank is trimmed on its own. -/
theorem trimStart_append_of_head? {w : Text} (hne : w ≠ []) (hw : w.head?.any isBlank = false) (u v : Text) :
    (u ++ (w ++ v)).trimStart = u.trimStart ++ (w ++ v) := by
  have hstart : w.trimStart = w := trimStart_eq_self hw
  by_cases hu : u.trimStart = []
  · rw [trimStart_append (trimStart_eq_nil_iff.1 hu), trimStart_append_of_ne_nil (by rwa [hstart]), hstart, hu,
      List.nil_append]
  · exact trimStart_append_of_ne_nil hu _

/-- Of a part, trimming leaves at least what trimming the part leaves. -/
theorem trim_isInfix_trim {b t : Text} (h : b <:+: t) : b.trim <:+: t.trim := by
  by_cases hne : b.trim = []
  · rw [hne]
    exact List.nil_infix
  obtain ⟨x, y, rfl⟩ := (trim_isInfix b).trans h
  have hend : trimEnd (trimStart x ++ (b.trim ++ y)) = trimStart x ++ (b.trim ++ trimEnd y) := by
    have hback := trimStart_append_of_head? (w := b.trim.reverse) (by rwa [ne_eq, List.reverse_eq_nil_iff])
      (by rw [List.head?_reverse]; exact isBlank_getLast?_trim b) y.reverse (trimStart x).reverse
    rw [trimEnd_eq, trimEnd_eq, List.reverse_append, List.reverse_append, List.append_assoc, hback, List.reverse_append,
      List.reverse_append, List.reverse_reverse, List.reverse_reverse, List.append_assoc]
  have htrim : trim (x ++ b.trim ++ y) = trimStart x ++ (b.trim ++ trimEnd y) := by
    rw [List.append_assoc, ← hend, ← trimStart_append_of_head? hne (isBlank_head?_trim b)]
    rfl
  rw [htrim]
  exact ⟨_, _, List.append_assoc ..⟩

/-- What stands between two characters that are no blanks is not trimmed. -/
theorem mem_trim {a b : Text} {d d' : Char} (ha : d ∈ a) (hd : isBlank d = false) (hb : d' ∈ b) (hd' : isBlank d' = false)
    (c : Char) : c ∈ trim (a ++ c :: b) := by
  have hkeep {t : Text} {d : Char} (hmem : d ∈ t) (hd : isBlank d = false) (u : Text) :
      trimStart (t ++ u) = trimStart t ++ u := by
    refine (List.dropWhile_append ..).trans (if_neg ?_)
    rw [List.isEmpty_iff, List.dropWhile_eq_nil_iff]
    exact fun h => Bool.eq_false_iff.1 hd (h d hmem)
  unfold trim
  rw [hkeep ha hd, trimEnd_eq, List.reverse_append, List.reverse_cons, List.append_assoc,
    hkeep (List.mem_reverse.2 hb) hd', List.mem_reverse]
  simp

/-! ### Separators -/

theorem infix_join {part : Text} {parts : List Text} (h : part ∈ parts) (sep : Text) : part <:+: join sep parts := by
  induction parts with
  | nil => exact absurd h List.not_mem_nil
  | cons first parts ih =>
    rw [join_cons]
    split
    · next hnil =>
      subst hnil
      obtain rfl := List.mem_singleton.1 h
      exact List.infix_rfl
    · rcases List.mem_cons.1 h with rfl | h
      · exact (List.prefix_append _ _).isInfix.trans (List.prefix_append _ _).isInfix
      · exact (ih h).trans (List.suffix_append _ _).isInfix

/-- What is put in front of a text belongs to its first piece. -/
theorem exists_splitOn_pad {sep : Char} {a : Text} (ha : sep ∉ a) (t : Text) :
    ∃ first rest, splitOn sep t = first :: rest ∧ splitOn sep (a ++ t) = (a ++ first) :: rest := by
  induction a with
  | nil =>
    obtain ⟨first, rest, hsplit⟩ := List.exists_cons_of_ne_nil (splitWhere_ne_nil (· == sep) t)
    exact ⟨first, rest, hsplit, hsplit⟩
  | cons c a ih =>
    rw [List.mem_cons, not_or] at ha
    obtain ⟨first, rest, ht, hsplit⟩ := ih ha.2
    refine ⟨first, rest, ht, ?_⟩
    unfold splitOn at hsplit
    have hc : ¬ (c == sep) = true := by simpa using Ne.symm ha.1
    rw [splitOn, List.cons_append, splitWhere, if_neg hc, hsplit]
    rfl

/-- What is put behind a text belongs to its last piece. -/
theorem exists_splitOn_append {sep : Char} {b : Text} (hb : sep ∉ b) (t : Text) :
    ∃ pieces last, splitOn sep t = pieces ++ [last] ∧ splitOn sep (t ++ b) = pieces ++ [last ++ b] := by
  unfold splitOn
  induction t with
  | nil =>
    refine ⟨[], [], rfl, splitWhere_of_forall fun c hc => beq_eq_false_iff_ne.2 ?_⟩
    rintro rfl
    exact hb hc
  | cons c t ih =>
    obtain ⟨pieces, last, ht, hsplit⟩ := ih
    rw [List.cons_append, splitWhere, splitWhere, ht, hsplit]
    split
    · exact ⟨[] :: pieces, last, rfl, rfl⟩
    · cases pieces with
      | nil => exact ⟨[], c :: last, rfl, rfl⟩
      | cons piece pieces => exact ⟨(c :: piece) :: pieces, last, rfl, rfl⟩

/-- Where blanks at its ends do not matter for what is made of a piece, they do not matter for the list. -/
theorem filterMap_splitOn_padded {sep : Char} {α : Type} {f : Text → Option α} {a b : Text} (ha : sep ∉ a) (hb : sep ∉ b)
    (hfront : ∀ s, f (a ++ s) = f s) (hback : ∀ s, f (s ++ b) = f s) (t : Text) :
    (splitOn sep (a ++ (t ++ b))).filterMap f = (splitOn sep t).filterMap f := by
  obtain ⟨first, rest, ht, hsplit⟩ := exists_splitOn_pad ha (t ++ b)
  obtain ⟨pieces, last, ht', hsplit'⟩ := exists_splitOn_append hb t
  have hfirst : (splitOn sep (a ++ (t ++ b))).filterMap f = (splitOn sep (t ++ b)).filterMap f := by
    rw [ht, hsplit]
    simp only [List.filterMap_cons, hfront]
  rw [hfirst, ht', hsplit']
  simp only [List.filterMap_append, List.filterMap_cons, hback]

/-- Texts that are joined by a separator are found between the separators, behind what follows the separators. -/
theorem splitOn_join {sep : Char} {pad t : Text} {ts : List Text} (hpad : sep ∉ pad) (h : ∀ u ∈ t :: ts, sep ∉ u) :
    splitOn sep (join (sep :: pad) (t :: ts)) = t :: ts.map (pad ++ ·) := by
  have hpiece {u : Text} (hu : sep ∉ u) : splitOn sep u = [u] := by
    refine splitWhere_of_forall fun c hc => beq_eq_false_iff_ne.2 ?_
    rintro rfl
    exact hu hc
  have hcut (a b : Text) : splitOn sep (a ++ sep :: b) = splitOn sep a ++ splitOn sep b :=
    splitWhere_append_cons (by exact beq_self_eq_true sep) a b
  have hrest : ∀ (front u : Text) (us : List Text), sep ∉ front → (∀ v ∈ u :: us, sep ∉ v) →
      splitOn sep (front ++ join (sep :: pad) (u :: us)) = (front ++ u) :: us.map (pad ++ ·) := by
    intro front u us
    induction us generalizing front u with
    | nil =>
      intro hfront hu
      rw [join_cons, if_pos rfl, hpiece fun hmem => (List.mem_append.1 hmem).elim hfront (hu u List.mem_cons_self)]
      rfl
    | cons v us ih =>
      intro hfront hu
      have hfirst : sep ∉ front ++ u := fun hmem => (List.mem_append.1 hmem).elim hfront (hu u List.mem_cons_self)
      rw [join_cons, if_neg (List.cons_ne_nil v us), List.append_assoc, ← List.append_assoc front, List.cons_append, hcut,
        hpiece hfirst, ih pad v hpad fun w hw => hu w (List.mem_cons_of_mem u hw)]
      rfl
  exact hrest [] t ts List.not_mem_nil h

/-- Texts without a separator can be told from what they are joined to. -/
theorem join_inj {sep : Char} {pad t u : Text} {ts us : List Text} (hpad : sep ∉ pad) (ht : ∀ v ∈ t :: ts, sep ∉ v)
    (hu : ∀ v ∈ u :: us, sep ∉ v) (h : join (sep :: pad) (t :: ts) = join (sep :: pad) (u :: us)) : t :: ts = u :: us := by
  have hsplit := congrArg (splitOn sep) h
  rw [splitOn_join hpad ht, splitOn_join hpad hu] at hsplit
  obtain ⟨rfl, hrest⟩ := List.cons.inj hsplit
  have hpadded : ∀ v w : Text, pad ++ v = pad ++ w → v = w := fun _ _ => List.append_cancel_left
  rw [(List.map_inj_right hpadded).1 hrest]

/-- A text is cut at a separator if it has one. -/
theorem splitOnce_eq_none_iff {sep t : Text} : splitOnce sep t = none ↔ t.contains sep = false := by
  induction t with
  | nil =>
    rw [splitOnce, contains]
    cases sep <;> simp
  | cons c t ih =>
    rw [splitOnce, contains]
    cases sep.isPrefixOf (c :: t) with
    | true => simp
    | false => simpa using ih

theorem stripLead?_append (lead t : Text) : stripLead? lead (lead ++ t) = some t := by
  unfold stripLead?
  rw [if_pos (List.isPrefixOf_iff_prefix.2 (List.prefix_append lead t)), List.drop_left]

end SnippetPreview.Text
