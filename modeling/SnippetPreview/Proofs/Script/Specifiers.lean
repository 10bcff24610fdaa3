import Mathlib.Data.List.Basic
import SnippetPreview.Proofs.Pattern.First
import SnippetPreview.Proofs.Script.ImportLines
import SnippetPreview.Proofs.Script.Names
import SnippetPreview.Proofs.Text.Separators

/-!
# Reading imported names

* `isWording`: the characters of an entry, which are those of white space and of names;
* `IsTidy`: a text without white space, one space apart. What an entry means is tidy, and what a misread entry is taken
  for is not;
* `Entry.isReadAs`: an entry that is not misread is read as what it means, any other one as something else;
* `destructuring_listing_eq_iff`: the declaration for a list of entries is what they mean exactly when none is misread.
-/

namespace SnippetPreview.Script

open Pattern

/-! ### Characters -/

theorem isBlank_of_isGap {c : Char} (h : isGap c = true) : isBlank c = true := (Bool.and_eq_true_iff.1 h).1

/-- A character of white space or of a name. -/
def isWording (c : Char) : Bool := isGap c || isIdentRest c

section Parts

variable (g : Gap) (s : Space) (n : Name) (t : Text)

theorem isBlank_gap : g.1.all isBlank = true := all_mono (fun _ => isBlank_of_isGap) g.2

theorem isBlank_space : s.1.all isBlank = true := all_mono (fun _ => isBlank_of_isGap) s.2.2

theorem isWording_gap : g.1.all isWording = true :=
  all_mono (fun c hc => by rw [isWording, hc, Bool.true_or]) g.2

theorem isWording_space : s.1.all isWording = true :=
  all_mono (fun c hc => by rw [isWording, hc, Bool.true_or]) s.2.2

theorem isWording_name : n.1.all isWording = true :=
  all_mono (fun c hc => by rw [isWording, hc, Bool.or_true]) n.2.2

theorem exists_space : ∃ c z, s.1 = c :: z ∧ isBlank c = true := by
  obtain ⟨c, z, hs⟩ := List.exists_cons_of_ne_nil s.2.1
  have hall := isBlank_space s
  rw [hs, List.all_cons, Bool.and_eq_true] at hall
  exact ⟨c, z, hs, hall.1⟩

theorem exists_name : ∃ c z, n.1 = c :: z ∧ isBlank c = false := by
  obtain ⟨c, z, hn⟩ := List.exists_cons_of_ne_nil n.2.1
  have hall := n.2.2
  rw [hn, List.all_cons, Bool.and_eq_true] at hall
  exact ⟨c, z, hn, isBlank_eq_false_of_isIdentRest hall.1⟩

theorem isBlank_head?_name : (n.1 ++ t).head?.any isBlank = false := by
  obtain ⟨c, z, hn, hc⟩ := exists_name n
  rw [hn]
  exact hc

theorem isBlank_getLast?_name : (t ++ n.1).getLast?.any isBlank = false := by
  rw [List.getLast?_append, List.getLast?_eq_some_getLast n.2.1]
  exact isBlank_eq_false_of_isIdentRest (List.all_eq_true.1 n.2.2 _ (List.getLast_mem n.2.1))

end Parts

theorem Renaming.isWording_text (r : Renaming) : r.text.all isWording = true := by
  have hword : "as".toList.all isWording = true := by decide
  simp only [text, List.all_append, isWording_space, isWording_name, hword, Bool.and_self]

theorem Binding.isWording_text (b : Binding) : b.text.all isWording = true := by
  unfold text
  rw [List.all_append, isWording_name, Bool.true_and]
  cases b.renaming? with
  | none => rfl
  | some r => exact r.isWording_text

theorem Specifier.isWording_text (s : Specifier) : s.text.all isWording = true := by
  have hword : "type".toList.all isWording = true := by decide
  cases s with
  | absent => rfl
  | value b => exact b.isWording_text
  | type gap b => simp only [text, List.all_append, isWording_space, b.isWording_text, hword, Bool.and_self]

theorem Entry.isWording_text (e : Entry) : e.text.all isWording = true := by
  simp only [text, List.all_append, isWording_gap, e.specifier.isWording_text, Bool.and_self]

/-! ### Entries without the white space around them -/

theorem Specifier.isBlank_head? (s : Specifier) : s.text.head?.any isBlank = false := by
  cases s with
  | absent => rfl
  | value b => exact isBlank_head?_name b.imported _
  | type gap b => rfl

theorem Renaming.isBlank_getLast? (r : Renaming) (t : Text) : (t ++ r.text).getLast?.any isBlank = false := by
  rw [text, ← List.append_assoc, ← List.append_assoc, ← List.append_assoc]
  exact isBlank_getLast?_name r.name _

theorem Binding.isBlank_getLast? (b : Binding) (t : Text) : (t ++ b.text).getLast?.any isBlank = false := by
  unfold text
  cases b.renaming? with
  | none =>
    rw [Option.elim_none, List.append_nil]
    exact isBlank_getLast?_name _ _
  | some r =>
    rw [Option.elim_some, ← List.append_assoc]
    exact r.isBlank_getLast? _

theorem Specifier.isBlank_getLast? (s : Specifier) : s.text.getLast?.any isBlank = false := by
  cases s with
  | absent => rfl
  | value b => exact b.isBlank_getLast? []
  | type gap b =>
    rw [text, ← List.append_assoc]
    exact b.isBlank_getLast? _

theorem Entry.trim_text (e : Entry) : e.text.trim = e.specifier.text :=
  Text.trim_padded (isBlank_gap _) (isBlank_gap _) e.specifier.isBlank_head? e.specifier.isBlank_getLast?

theorem trim_name_append (n : Name) {g : Text} (hg : g.all isBlank = true) : (n.1 ++ g).trim = n.1 :=
  Text.trim_padded (a := []) rfl hg (by simpa using isBlank_head?_name n []) (isBlank_getLast?_name n [])

theorem trim_append_name (n : Name) {g : Text} (hg : g.all isBlank = true) : (g ++ n.1).trim = n.1 := by
  have h := Text.trim_padded (b := []) hg rfl (t := n.1) (by simpa using isBlank_head?_name n [])
    (isBlank_getLast?_name n [])
  rwa [List.append_nil] at h

/-! ### Tidy texts -/

/-- There is no white space in the text, one space apart. -/
def IsTidy (t : Text) : Prop := (t.filter isBlank).Sublist [' ']

theorem IsTidy.countP_le {t : Text} (h : IsTidy t) : t.countP isBlank ≤ 1 := by
  rw [List.countP_eq_length_filter]
  exact h.length_le

theorem IsTidy.eq_space {t : Text} (h : IsTidy t) {c : Char} (hc : c ∈ t) (hblank : isBlank c = true) : c = ' ' :=
  List.mem_singleton.1 (h.subset (List.mem_filter.2 ⟨hc, hblank⟩))

theorem filter_name (n : Name) : n.1.filter isBlank = [] :=
  List.filter_eq_nil_iff.2 fun c hc =>
    Bool.eq_false_iff.1 (isBlank_eq_false_of_isIdentRest (List.all_eq_true.1 n.2.2 c hc))

/-- A specifier that means something is a name, or a name and its new name, and means just that. -/
theorem Specifier.exists_of_binding? {provided : List Text} {s : Specifier} {t : Text} (h : s.binding? provided = some t) :
    ∃ n : Name, s = .value ⟨n, none⟩ ∧ t = n.1 ∨
      ∃ r : Renaming, s = .value ⟨n, some r⟩ ∧ t = n.1 ++ ": ".toList ++ r.name.1 := by
  cases s with
  | absent | type => exact absurd h nofun
  | value b =>
    obtain ⟨n, _ | r⟩ := b
    · change (if provided.contains n.1 then none else some n.1) = some t at h
      split at h
      · exact absurd h nofun
      · exact ⟨n, .inl ⟨rfl, (Option.some.inj h).symm⟩⟩
    · exact ⟨n, .inr ⟨r, rfl, (Option.some.inj h).symm⟩⟩

/-- What a specifier means is tidy. -/
theorem Specifier.isTidy_of_binding? {provided : List Text} {s : Specifier} {t : Text}
    (h : s.binding? provided = some t) : IsTidy t := by
  have hcolon : ": ".toList.filter isBlank = [' '] := by decide
  unfold IsTidy
  obtain ⟨n, ⟨-, rfl⟩ | ⟨r, -, rfl⟩⟩ := s.exists_of_binding? h
  · rw [filter_name]
    exact List.nil_sublist _
  · rw [List.filter_append, List.filter_append, filter_name, filter_name, hcolon]
    exact List.Sublist.refl _

theorem one_le_countP_space (s : Space) : 1 ≤ s.1.countP isBlank := by
  obtain ⟨c, z, hs, hc⟩ := exists_space s
  rw [hs, List.countP_cons_of_pos hc]
  exact Nat.le_add_left 1 _

/-- Two stretches of white space are not tidy. -/
theorem Renaming.not_isTidy_text (r : Renaming) (t : Text) : ¬IsTidy (t ++ r.text) := by
  intro h
  have hcount := h.countP_le
  have hbefore := one_le_countP_space r.before
  have hbehind := one_le_countP_space r.behind
  simp only [text, List.countP_append] at hcount
  omega

/-! ### Reading a specifier -/

section Reading

variable {provided : List Text} {t : Text}

theorem binding?_of_type (h : "type ".toList.isPrefixOf t.trim = true) : binding? provided t = none := by
  unfold binding?
  dsimp only
  rw [h, Bool.or_true, if_pos rfl]

theorem binding?_of_cut {a b : Text} (hne : t.trim ≠ []) (htype : "type ".toList.isPrefixOf t.trim = false)
    (hcut : Text.splitOnce " as " t.trim = some (a, b)) : binding? provided t = some (a.trim ++ ": ".toList ++ b.trim) := by
  unfold binding?
  dsimp only
  rw [List.isEmpty_eq_false_iff.2 hne, htype, Bool.or_false, if_neg Bool.false_ne_true, hcut]

theorem binding?_of_uncut (hne : t.trim ≠ []) (htype : "type ".toList.isPrefixOf t.trim = false)
    (huncut : t.trim.contains " as " = false) :
    binding? provided t = if provided.contains t.trim then none else some t.trim := by
  unfold binding?
  dsimp only
  rw [List.isEmpty_eq_false_iff.2 hne, htype, Bool.or_false, if_neg Bool.false_ne_true, Text.splitOnce_eq_none_iff.2 huncut]

theorem exists_cut (h : t.contains " as " = true) :
    ∃ a b, Text.splitOnce " as " t = some (a, b) ∧ t = a ++ (" as ".toList ++ b) := by
  cases hcut : Text.splitOnce " as " t with
  | none =>
    rw [Text.splitOnce_eq_none_iff.1 hcut] at h
    exact absurd h Bool.false_ne_true
  | some ab => exact ⟨ab.1, ab.2, rfl, Text.eq_append_of_splitOnce hcut⟩

end Reading

/-- The word `as` between spaces starts at the end of the white space or behind it. -/
theorem cut_behind_space (s : Space) {t a b : Text} (h : s.1 ++ t = a ++ (" as ".toList ++ b)) :
    s.1 = a ++ [' '] ∧ t = "as ".toList ++ b ∨ ∃ v, a = s.1 ++ v ∧ t = v ++ (" as ".toList ++ b) := by
  have hsep : " as ".toList ++ b = ' ' :: 'a' :: ("s ".toList ++ b) := rfl
  rcases List.append_eq_append_iff.1 h with ⟨v, hv, ht⟩ | ⟨v, hv, ht⟩
  · exact .inr ⟨v, hv, ht⟩
  · rw [hsep] at ht
    cases v with
    | nil => exact .inr ⟨[], by rw [hv, List.append_nil, List.append_nil], ht.symm⟩
    | cons c v =>
      obtain ⟨rfl, htail⟩ := List.cons.inj ht
      cases v with
      | nil => exact .inl ⟨hv, htail.symm⟩
      | cons d v =>
        obtain ⟨rfl, -⟩ := List.cons.inj htail
        have ha : 'a' ∈ s.1 := hv ▸ by simp
        exact absurd ha (not_mem_of_class (by decide) (isBlank_space s))

/-- A renamed name is cut at the word `as` in front of its new name. -/
theorem Renaming.eq_of_cut (r : Renaming) (n : Name) {a b : Text} (h : n.1 ++ r.text = a ++ (" as ".toList ++ b)) :
    ∃ x y, a = n.1 ++ x ∧ b = y ++ r.name.1 ∧ x.all isBlank = true ∧ y.all isBlank = true := by
  have hspace : ' ' ∉ r.name.1 := not_mem_of_class (by decide) r.name.2.2
  obtain ⟨x, rfl, hrest⟩ := eq_append_of_append_eq n.2.2 (c := ' ') (by decide) h
  rcases cut_behind_space r.before hrest with ⟨hbefore, hword⟩ | ⟨v, -, hword⟩
  · obtain ⟨c, y, hbehind, -⟩ := exists_space r.behind
    have hx := isBlank_space r.before
    have hy := isBlank_space r.behind
    rw [hbefore, List.all_append, Bool.and_eq_true] at hx
    rw [hbehind, List.all_cons, Bool.and_eq_true] at hy
    rw [hbehind] at hword
    have hname : c :: y ++ r.name.1 = ' ' :: b := (List.cons.inj (List.cons.inj hword).2).2
    exact ⟨x, y, rfl, (List.cons.inj hname).2.symm, hx.1, hy.2⟩
  · -- behind `as` there is one stretch of white space, and the new name has none
    obtain ⟨w, rfl, hbehind⟩ := eq_append_of_append_eq (S := isIdentRest) (c := ' ') (by decide) (by decide) hword
    rcases cut_behind_space r.behind hbehind with ⟨-, hname⟩ | ⟨w, -, hname⟩
    · exact absurd (hname ▸ by simp) hspace
    · exact absurd (hname ▸ by simp) hspace

/-- Where the name `as` has a new name, there is white space in front of it. -/
theorem Binding.exists_blank_behind_as (n : Binding) {b : Text} (h : n.text = "as ".toList ++ b) :
    ∃ c ∈ b.trim, isBlank c = true := by
  obtain ⟨w, himported, hrenamed⟩ := eq_append_of_append_eq n.imported.2.2 (c := ' ') (w := "as".toList) (by decide) h
  cases hr : n.renaming? with
  | none =>
    rw [hr] at hrenamed
    exact absurd hrenamed.symm (List.append_ne_nil_of_right_ne_nil _ (List.cons_ne_nil _ _))
  | some r =>
    obtain ⟨c, y, hbefore, hc⟩ := exists_space r.before
    obtain ⟨d, y', hbehind, hd⟩ := exists_space r.behind
    obtain ⟨e, m, hname, he⟩ := exists_name r.name
    rw [hr, Option.elim_some, Renaming.text, hbefore, hbehind, hname] at hrenamed
    cases w with
    | cons f w =>
      -- the white space would be a letter of `as`
      obtain ⟨rfl, -⟩ := List.cons.inj hrenamed
      have hletters : "as".toList.all isIdentRest = true := by decide
      have hmem : c ∈ "as".toList := himported ▸ by simp
      exact absurd hc (Bool.eq_false_iff.1 (isBlank_eq_false_of_isIdentRest (List.all_eq_true.1 hletters c hmem)))
    | nil =>
      obtain ⟨-, rfl⟩ := List.cons.inj hrenamed
      have hmem := Text.mem_trim (a := y ++ "as".toList) (b := y' ++ e :: m) (d := 'a') (by simp) (by decide) (by simp) he d
      rw [List.append_assoc] at hmem
      exact ⟨d, hmem, hd⟩

/-- Where the text of a type is cut at a word `as`, there is white space on one of the two sides. -/
theorem exists_blank_of_cut (gap : Space) (n : Binding) {a b : Text}
    (h : (Specifier.type gap n).text = a ++ (" as ".toList ++ b)) : ∃ c ∈ a.trim ++ b.trim, isBlank c = true := by
  obtain ⟨x, rfl, hrest⟩ := eq_append_of_append_eq (S := isIdentRest) (c := ' ') (by decide) (by decide) h
  rcases cut_behind_space gap hrest with ⟨-, hname⟩ | ⟨v, rfl, hbinding⟩
  · obtain ⟨c, hmem, hc⟩ := n.exists_blank_behind_as hname
    exact ⟨c, List.mem_append_right _ hmem, hc⟩
  · obtain ⟨c, z, hgap, hc⟩ := exists_space gap
    obtain ⟨d, u, hname, hd⟩ := exists_name n.imported
    obtain ⟨w, rfl, -⟩ := eq_append_of_append_eq n.imported.2.2 (c := ' ') (by decide) hbinding
    refine ⟨c, List.mem_append_left _ ?_, hc⟩
    rw [hgap, hname, List.cons_append]
    exact Text.mem_trim (d := 't') (by decide) (by decide) (by simp) hd c

/-- So what a type is misread as is not tidy. -/
theorem not_isTidy_of_cut (gap : Space) (n : Binding) {a b : Text}
    (h : (Specifier.type gap n).text = a ++ (" as ".toList ++ b)) : ¬IsTidy (a.trim ++ ": ".toList ++ b.trim) := by
  intro htidy
  have hpos := List.countP_pos_iff.2 (exists_blank_of_cut gap n h)
  have hcolon : ": ".toList.countP isBlank = 1 := by decide
  have hcount := htidy.countP_le
  simp only [List.countP_append, hcolon] at hcount hpos
  omega

/-- A specifier is read as what it means, or it is misread as something that is not tidy, maybe as nothing. -/
def Specifier.IsReadAs (provided : List Text) (s : Specifier) (reading : Option Text) : Prop :=
  if s.isMisread provided then reading ≠ s.binding? provided ∧ ∀ t, reading = some t → ¬IsTidy t
  else reading = s.binding? provided

section Reading

variable {provided : List Text} {t : Text}

theorem Binding.isReadAs_plain (n : Name) (ht : t.trim = n.1) :
    (Specifier.value ⟨n, none⟩).IsReadAs provided (binding? provided t) := by
  have hspace : ' ' ∉ t.trim := ht ▸ not_mem_of_class (by decide) n.2.2
  have hsep {w u v : Text} (hmem : ' ' ∈ w) : t.trim ≠ u ++ w ++ v := fun h => hspace (by rw [h]; simp [hmem])
  have htype : "type ".toList.isPrefixOf t.trim = false := by
    refine Bool.eq_false_iff.2 fun h => ?_
    obtain ⟨v, hv⟩ := List.isPrefixOf_iff_prefix.1 h
    exact hsep (w := "type ") (u := []) (v := v) (by decide) hv.symm
  have huncut : t.trim.contains " as " = false := by
    refine Bool.eq_false_iff.2 fun h => ?_
    obtain ⟨u, v, huv⟩ := Text.contains_iff.1 h
    exact hsep (by decide) huv
  show binding? provided t = _
  rw [binding?_of_uncut (ht ▸ n.2.1) htype huncut, ht]
  rfl

theorem Binding.isReadAs_renamed (n : Name) (r : Renaming) (ht : t.trim = n.1 ++ r.text) :
    (Specifier.value ⟨n, some r⟩).IsReadAs provided (binding? provided t) := by
  have hne : t.trim ≠ [] := ht ▸ List.append_ne_nil_of_left_ne_nil n.2.1 _
  have htidy : ¬IsTidy t.trim := ht ▸ r.not_isTidy_text n.1
  have hmeans : (Specifier.value ⟨n, some r⟩).binding? provided = some (n.1 ++ ": ".toList ++ r.name.1) := rfl
  have hmisread : (Specifier.value ⟨n, some r⟩).isMisread provided
      = ("type ".toList.isPrefixOf t.trim || !t.trim.contains " as ") := by
    rw [ht]
    rfl
  unfold Specifier.IsReadAs
  rw [hmisread]
  cases htype : "type ".toList.isPrefixOf t.trim with
  | true =>
    rw [binding?_of_type htype, hmeans]
    exact ⟨Option.some_ne_none _ |>.symm, fun u hu => absurd hu.symm (Option.some_ne_none u)⟩
  | false =>
    cases hcut : t.trim.contains " as " with
    | true =>
      obtain ⟨a, b, hab, hparts⟩ := exists_cut hcut
      obtain ⟨x, y, rfl, rfl, hx, hy⟩ := r.eq_of_cut n (ht.symm.trans hparts)
      show binding? provided t = _
      rw [binding?_of_cut hne htype hab, trim_name_append n hx, trim_append_name r.name hy, hmeans]
    | false =>
      have hread : ∀ u, binding? provided t = some u → ¬IsTidy u := by
        intro u hu
        rw [binding?_of_uncut hne htype hcut] at hu
        split at hu
        · exact absurd hu.symm (Option.some_ne_none u)
        · exact Option.some.inj hu ▸ htidy
      exact ⟨fun h => hread _ (h.trans hmeans) (Specifier.isTidy_of_binding? hmeans), hread⟩

theorem Specifier.isReadAs_type (gap : Space) (n : Binding) (ht : t.trim = (type gap n).text) :
    (type gap n).IsReadAs provided (Script.binding? provided t) := by
  have hne : t.trim ≠ [] := ht ▸ List.cons_ne_nil _ _
  have hmeans : (type gap n).binding? provided = none := rfl
  have hmisread : (type gap n).isMisread provided
      = (!"type ".toList.isPrefixOf t.trim && (t.trim.contains " as " || !provided.contains t.trim)) := by
    rw [ht]
    rfl
  unfold Specifier.IsReadAs
  rw [hmisread, hmeans]
  cases htype : "type ".toList.isPrefixOf t.trim with
  | true => exact binding?_of_type htype
  | false =>
    cases hcut : t.trim.contains " as " with
    | true =>
      obtain ⟨a, b, hab, hparts⟩ := exists_cut hcut
      rw [binding?_of_cut hne htype hab]
      exact ⟨Option.some_ne_none _, fun u hu => Option.some.inj hu ▸ not_isTidy_of_cut gap n (ht.symm.trans hparts)⟩
    | false =>
      rw [binding?_of_uncut hne htype hcut]
      cases provided.contains t.trim with
      | true => rfl
      | false =>
        refine ⟨Option.some_ne_none _, fun u hu htidy => ?_⟩
        obtain rfl := Option.some.inj hu
        obtain ⟨c, z, hgap, hc⟩ := exists_space gap
        rw [ht, text, hgap] at htidy htype
        obtain rfl := htidy.eq_space (c := c) (by simp) hc
        exact absurd htype (by simp)

/-- A specifier is read as what it means, unless it is misread. -/
theorem Specifier.isReadAs (s : Specifier) (ht : t.trim = s.text) : s.IsReadAs provided (Script.binding? provided t) := by
  cases s with
  | absent =>
    show Script.binding? provided t = none
    unfold Script.binding?
    rw [ht]
    rfl
  | value b =>
    obtain ⟨n, _ | r⟩ := b
    · exact Binding.isReadAs_plain n (ht.trans (List.append_nil n.1))
    · exact Binding.isReadAs_renamed n r ht
  | type gap b => exact Specifier.isReadAs_type gap b ht

theorem Specifier.binding?_of_trim {s : Specifier} (ht : t.trim = s.text) (h : s.isMisread provided = false) :
    Script.binding? provided t = s.binding? provided := by
  have hread : s.IsReadAs provided (Script.binding? provided t) := s.isReadAs ht
  unfold Specifier.IsReadAs at hread
  rwa [h] at hread

theorem Entry.isReadAs (provided : List Text) (e : Entry) :
    e.specifier.IsReadAs provided (Script.binding? provided e.text) := e.specifier.isReadAs e.trim_text

theorem Entry.binding?_text {e : Entry} (h : e.isMisread provided = false) :
    Script.binding? provided e.text = e.binding? provided := Specifier.binding?_of_trim e.trim_text h

/-- Wherever the specifier has white space it is one space, and no renamed name is called `type`. -/
def Specifier.isSpaced : Specifier → Bool
  | absent => true
  | value b => b.renaming?.all fun r => r.before.1 == [' '] && r.behind.1 == [' '] && b.imported.1 != "type".toList
  | type gap _ => gap.1 == [' ']

theorem Specifier.isMisread_of_isSpaced {s : Specifier} (h : s.isSpaced = true) : s.isMisread provided = false := by
  cases s with
  | absent => rfl
  | value b =>
    obtain ⟨n, _ | r⟩ := b
    · rfl
    · have hspaced : ((r.before.1 == [' '] && r.behind.1 == [' ']) && n.1 != "type".toList) = true := h
      rw [Bool.and_eq_true, Bool.and_eq_true, beq_iff_eq, beq_iff_eq, bne_iff_ne] at hspaced
      obtain ⟨⟨hbefore, hbehind⟩, hne⟩ := hspaced
      have htext : (Binding.mk n (some r)).text = n.1 ++ ' ' :: ("as ".toList ++ r.name.1) := by
        simp [Binding.text, Renaming.text, hbefore, hbehind]
      have hcut : (Binding.mk n (some r)).text.contains " as " = true :=
        Text.contains_iff.2 ⟨n.1, r.name.1, by rw [htext]; simp⟩
      have htype : "type ".toList.isPrefixOf (Binding.mk n (some r)).text = false := by
        refine Bool.eq_false_iff.2 fun hprefix => hne ?_
        obtain ⟨z, hz⟩ := List.isPrefixOf_iff_prefix.1 hprefix
        have hword : "type".toList ++ ' ' :: z = n.1 ++ ' ' :: ("as ".toList ++ r.name.1) := hz.trans htext
        exact (eq_of_append_eq (S := isIdentRest) (by decide) n.2.2 (by decide) (by decide) hword).1.symm
      rw [isMisread, hcut, htype]
      rfl
  | type gap b =>
    have hgap : gap.1 = [' '] := beq_iff_eq.1 h
    have hprefix : "type ".toList.isPrefixOf (type gap b).text = true :=
      List.isPrefixOf_iff_prefix.2 ⟨b.text, by simp [text, hgap]⟩
    rw [isMisread, hprefix]
    rfl

/-- With one space between their parts and no name `type`, names are not misread. -/
theorem any_isMisread_of_isSpaced {entries : List Entry} (h : entries.all (fun e => e.specifier.isSpaced) = true) :
    entries.any (Entry.isMisread provided) = false :=
  List.any_eq_false.2 fun e he =>
    Bool.eq_false_iff.1 (Specifier.isMisread_of_isSpaced (List.all_eq_true.1 h e he))

theorem Entry.ne_of_isMisread {e : Entry} (h : e.isMisread provided = true) :
    Script.binding? provided e.text ≠ e.binding? provided ∧ ∀ t, Script.binding? provided e.text = some t → ¬IsTidy t := by
  have hread := e.isReadAs provided
  unfold Specifier.IsReadAs at hread
  rwa [show e.specifier.isMisread provided = true from h] at hread

end Reading

/-! ### Declarations -/

theorem destructuring_eq (global : Text) (provided : List Text) (specs : Text) :
    destructuring global provided specs = declaration global ((Text.splitOn ',' specs).filterMap (binding? provided)) := by
  unfold destructuring
  cases (Text.splitOn ',' specs).filterMap (binding? provided) <;> rfl

theorem destructuring_listing (global : Text) (provided : List Text) (entries : List Entry) :
    destructuring global provided (listing entries)
      = declaration global (entries.filterMap fun e => binding? provided e.text) := by
  rw [destructuring_eq]
  cases entries with
  | nil => rfl
  | cons e entries =>
    have hcomma : ∀ t ∈ (e :: entries).map Entry.text, ',' ∉ t := by
      intro t ht
      obtain ⟨e', -, rfl⟩ := List.mem_map.1 ht
      exact not_mem_of_class (by decide) e'.isWording_text
    have hpieces : Text.splitOn ',' (listing (e :: entries)) = (e :: entries).map Entry.text := by
      refine (Text.splitOn_join List.not_mem_nil hcomma).trans ?_
      simp
    rw [hpieces, List.filterMap_map]
    rfl

/-- The characters between the braces of a declaration. -/
def isDeclaring (c : Char) : Bool := isWording c || c == ':'

theorem isDeclaring_of_isWording {t : Text} (h : t.all isWording = true) : t.all isDeclaring = true :=
  all_mono (fun c hc => by rw [isDeclaring, hc, Bool.true_or]) h

/-- What a specifier becomes has no other characters than the specifier, a colon and a space. -/
theorem mem_of_binding? {provided : List Text} {spec b : Text} (h : binding? provided spec = some b) {c : Char}
    (hc : c ∈ b) : c ∈ spec ∨ c ∈ ": ".toList := by
  unfold binding? at h
  dsimp only at h
  split at h
  · exact absurd h nofun
  · split at h
    · next imported name hsplit =>
      obtain rfl := Option.some.inj h
      have hparts := Text.eq_append_of_splitOnce hsplit
      have hspec : c ∈ spec.trim → c ∈ spec := fun hmem => spec.trim_isInfix.subset hmem
      rw [hparts] at hspec
      simp only [List.mem_append] at hc hspec
      rcases hc with (hc | hc) | hc
      · exact .inl (hspec (.inl (imported.trim_isInfix.subset hc)))
      · exact .inr hc
      · exact .inl (hspec (.inr (.inr (name.trim_isInfix.subset hc))))
    · split at h
      · exact absurd h nofun
      · obtain rfl := Option.some.inj h
        exact .inl (spec.trim_isInfix.subset hc)

theorem Entry.isDeclaring_reading {provided : List Text} {e : Entry} {t : Text}
    (h : Script.binding? provided e.text = some t) : t.all isDeclaring = true := by
  refine List.all_eq_true.2 fun c hc => ?_
  rcases mem_of_binding? h hc with hmem | hmem
  · exact List.all_eq_true.1 (isDeclaring_of_isWording e.isWording_text) c hmem
  · exact List.all_eq_true.1 (by decide : (": ".toList).all isDeclaring = true) c hmem

theorem Entry.isDeclaring_meaning {provided : List Text} {e : Entry} {t : Text} (h : e.binding? provided = some t) :
    t.all isDeclaring = true := by
  obtain ⟨n, ⟨-, rfl⟩ | ⟨r, -, rfl⟩⟩ := e.specifier.exists_of_binding? h
  · exact isDeclaring_of_isWording (isWording_name n)
  · rw [List.all_append, List.all_append, isDeclaring_of_isWording (isWording_name n),
      isDeclaring_of_isWording (isWording_name r.name)]
    decide

theorem declaration_inj {global : Text} {ts us : List Text} (ht : ∀ t ∈ ts, ',' ∉ t) (hu : ∀ u ∈ us, ',' ∉ u)
    (h : declaration global ts = declaration global us) : ts = us := by
  have hne (t : Text) (ts : List Text) : declaration global (t :: ts) ≠ [] := List.cons_ne_nil _ _
  cases ts with
  | nil =>
    cases us with
    | nil => rfl
    | cons u us => exact absurd h.symm (hne u us)
  | cons t ts =>
    cases us with
    | nil => exact absurd h (hne t ts)
    | cons u us =>
      unfold declaration at h
      simp only [List.append_assoc] at h
      have hjoin : Text.join [',', ' '] (t :: ts) = Text.join [',', ' '] (u :: us) :=
        List.append_cancel_right (List.append_cancel_left h)
      exact Text.join_inj (by decide) ht hu hjoin

theorem filterMap_sublist {α β : Type} {f g : α → Option β} {parts : List α}
    (h : ∀ a ∈ parts, ∀ b, f a = some b → g a = some b) : (parts.filterMap f).Sublist (parts.filterMap g) := by
  have hkept : parts.filterMap f = (parts.filter fun a => (f a).isSome).filterMap g := by
    rw [List.filterMap_filter]
    refine List.filterMap_congr fun a ha => ?_
    cases hf : f a with
    | none => rfl
    | some b => exact (h a ha b hf).symm
  rw [hkept]
  exact List.filter_sublist.filterMap g

/-- Two lists of results are the same only if they are so one by one, if there are no other results in the first one. -/
theorem eq_of_filterMap_eq {α β : Type} {f g : α → Option β} {parts : List α}
    (h : ∀ a ∈ parts, ∀ b, f a = some b → g a = some b) (heq : parts.filterMap f = parts.filterMap g) :
    ∀ a ∈ parts, f a = g a := by
  induction parts with
  | nil => exact List.forall_mem_nil _
  | cons a parts ih =>
    have hparts : ∀ a' ∈ parts, ∀ b, f a' = some b → g a' = some b := fun a' ha' => h a' (List.mem_cons_of_mem a ha')
    refine List.forall_mem_cons.2 ?_
    cases hf : f a with
    | none =>
      rw [List.filterMap_cons_none hf] at heq
      cases hg : g a with
      | none =>
        rw [List.filterMap_cons_none hg] at heq
        exact ⟨rfl, ih hparts heq⟩
      | some b =>
        -- one result more on this side
        have hle := (filterMap_sublist hparts).length_le
        rw [List.filterMap_cons_some hg] at heq
        rw [heq, List.length_cons] at hle
        exact absurd hle (Nat.not_succ_le_self _)
    | some b =>
      have hg := h a List.mem_cons_self b hf
      rw [List.filterMap_cons_some hf, List.filterMap_cons_some hg] at heq
      exact ⟨hg.symm, ih hparts (List.cons.inj heq).2⟩

/-- The declaration for a list of entries is what they mean exactly when none is misread. -/
theorem destructuring_listing_eq_iff (global : Text) (provided : List Text) (entries : List Entry) :
    destructuring global provided (listing entries) = declaration global (entries.filterMap (Entry.binding? provided)) ↔
      entries.any (Entry.isMisread provided) = false := by
  rw [destructuring_listing, List.any_eq_false]
  constructor
  · intro heq
    have hcomma {t : Text} (ht : t.all isDeclaring = true) : ',' ∉ t := not_mem_of_class (by decide) ht
    have hlists : entries.filterMap (fun e => Script.binding? provided e.text)
        = entries.filterMap (Entry.binding? provided) := by
      refine declaration_inj (fun t ht => ?_) (fun t ht => ?_) heq
      · obtain ⟨e, -, he⟩ := List.mem_filterMap.1 ht
        exact hcomma (e.isDeclaring_reading he)
      · obtain ⟨e, -, he⟩ := List.mem_filterMap.1 ht
        exact hcomma (e.isDeclaring_meaning he)
    -- all readings are tidy, so none of them is that of an entry that is misread
    have hright : ∀ e ∈ entries, ∀ t, Script.binding? provided e.text = some t → e.binding? provided = some t := by
      intro e he t ht
      obtain ⟨e', -, he'⟩ := List.mem_filterMap.1 (hlists ▸ List.mem_filterMap.2 ⟨e, he, ht⟩)
      have htidy := Specifier.isTidy_of_binding? he'
      cases hmisread : e.isMisread provided with
      | true => exact absurd htidy ((Entry.ne_of_isMisread hmisread).2 t ht)
      | false => exact (Entry.binding?_text hmisread).symm.trans ht
    exact fun e he hmisread => (Entry.ne_of_isMisread hmisread).1 (eq_of_filterMap_eq hright hlists e he)
  · exact fun hnone => congrArg (declaration global)
      (List.filterMap_congr fun e he => Entry.binding?_text (Bool.eq_false_iff.2 (hnone e he)))

end SnippetPreview.Script
