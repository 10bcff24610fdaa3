import SnippetPreview.Markup.Sections
import SnippetPreview.Proofs.Document.Reader
import SnippetPreview.Proofs.Pattern.Stretches

/-!
# Elements of a source

* `element`: an element without attributes;
* `Lacks`: texts without a tag, up to case. `Lacks.line`, `Lacks.element`: so is a text put together of parts that are;
* `first_templateElement`: a template element ends at the last closing tag;
* `first_scriptElement`, `first_styleElement`: a script or style element ends at the first closing tag.
-/

namespace SnippetPreview

open Pattern

/-! ### Tags that are not there -/

/-- The tag is nowhere in the text, up to case. -/
def Lacks (tag t : Text) : Prop := ¬ tag <:+: t.map foldCase

theorem lacks_iff {tag t : Text} : Lacks tag t ↔ Text.contains (t.map foldCase) tag = false := by
  rw [Lacks, ← Bool.not_eq_true, Text.contains_iff]
  exact not_congr ⟨fun ⟨u, v, h⟩ => ⟨u, v, h.symm⟩, fun ⟨u, v, h⟩ => ⟨u, v, h.symm⟩⟩

instance (tag t : Text) : Decidable (Lacks tag t) := decidable_of_iff _ lacks_iff.symm

/-- A tag starts with the only angle bracket that it has. -/
def IsTag (tag : Text) : Prop := tag.head? = some '<' ∧ '<' ∉ tag.tail

instance (tag : Text) : Decidable (IsTag tag) := inferInstanceAs (Decidable (_ ∧ _))

variable {tag : Text}

theorem IsTag.eq (h : IsTag tag) : ∃ w, tag = '<' :: w ∧ '<' ∉ w := by
  obtain ⟨hhead, htail⟩ := h
  obtain ⟨w, rfl⟩ := List.head?_eq_some_iff.1 hhead
  exact ⟨w, rfl, htail⟩

/-- A tag that starts in front of an angle bracket ends there. -/
theorem IsTag.prefix_append (h : IsTag tag) {x y : Text} (hx : x ≠ []) (hpre : tag <+: x ++ '<' :: y) : tag <+: x := by
  obtain ⟨w, rfl, hw⟩ := h.eq
  rcases prefix_append_cases hpre with hpre | ⟨v, hv, hvy⟩
  · exact hpre
  · obtain ⟨c, x, rfl⟩ := List.exists_cons_of_ne_nil hx
    obtain ⟨rfl, rfl⟩ := List.cons.inj hv
    cases v with
    | nil =>
      exact ⟨[], (List.append_nil _).trans (congrArg ('<' :: ·) (List.append_nil x))⟩
    | cons d v =>
      obtain ⟨rfl, -⟩ := List.cons_prefix_cons.1 hvy
      exact absurd (List.mem_append_right x List.mem_cons_self) hw

theorem Lacks.tail {c : Char} {t : Text} (h : Lacks tag (c :: t)) : Lacks tag t := fun hinside =>
  h (hinside.trans (List.suffix_cons _ _).isInfix)

theorem lacks_nil (h : tag ≠ []) : Lacks tag [] := fun hinside => h (List.infix_nil.1 hinside)

/-- A text that goes on with an angle bracket lacks a tag when both parts do. -/
theorem Lacks.seam {x y : Text} (hx : Lacks tag x) (htag : IsTag tag) (hy : Lacks tag ('<' :: y)) :
    Lacks tag (x ++ '<' :: y) := by
  induction x with
  | nil => exact hy
  | cons c x ih =>
    intro hinside
    rw [List.cons_append, List.map_cons, List.infix_cons_iff] at hinside
    rcases hinside with hpre | hinside
    · rw [← List.map_cons, ← List.cons_append, List.map_append] at hpre
      exact hx (htag.prefix_append (List.cons_ne_nil _ _) hpre).isInfix
    · exact ih hx.tail hinside

/-- So does one of two lines. -/
theorem Lacks.line {x y : Text} (hx : Lacks tag x) (htag : '\n' ∉ tag) (hy : Lacks tag y) : Lacks tag (x ++ '\n' :: y) := by
  have hfold : (x ++ '\n' :: y).map foldCase = x.map foldCase ++ '\n' :: y.map foldCase := List.map_append
  rw [Lacks, hfold, infix_append_cons htag, not_or]
  exact ⟨hx, hy⟩

/-- In a text that lacks a tag, none is read in front of an angle bracket. -/
theorem Lacks.not_prefix {x u z : Text} (hx : Lacks tag x) (htag : IsTag tag) (hxuz : x = u ++ z) (hz : z ≠ []) (y : Text) :
    ¬ tag <+: (z ++ '<' :: y).map foldCase := by
  intro hpre
  rw [List.map_append] at hpre
  have hinside := (htag.prefix_append (by simpa using hz) hpre).isInfix
  rw [hxuz, Lacks, List.map_append] at hx
  exact hx (hinside.trans (List.suffix_append _ _).isInfix)

/-- No tag starts in the text, whatever follows it. -/
def Clear (tag x : Text) : Prop := ∀ z ∈ x.tails, z ≠ [] → ¬ z.map foldCase <+: tag ∧ ¬ tag <+: z.map foldCase

instance (tag x : Text) : Decidable (Clear tag x) := inferInstanceAs (Decidable (∀ z ∈ x.tails, _))

theorem Lacks.behind {x y : Text} (hy : Lacks tag y) (hx : Clear tag x) : Lacks tag (x ++ y) := by
  induction x with
  | nil => exact hy
  | cons c x ih =>
    have htail : Clear tag x := fun z hz => hx z (List.mem_cons_of_mem _ hz)
    intro hinside
    rw [List.cons_append, List.map_cons, List.infix_cons_iff] at hinside
    rcases hinside with hpre | hinside
    · rw [← List.map_cons, ← List.cons_append, List.map_append] at hpre
      obtain ⟨hshort, hlong⟩ := hx (c :: x) List.mem_cons_self (List.cons_ne_nil c x)
      rcases prefix_append_cases hpre with hpre | ⟨v, hv, -⟩
      · exact hlong hpre
      · exact hshort ⟨v, hv.symm⟩
    · exact ih htail hinside

/-- The element with this name and content, without attributes. -/
def element (name content : Text) : Text := '<' :: name ++ ['>'] ++ content ++ ('<' :: '/' :: name ++ ['>'])

/-- An element lacks a tag when its content does, and its own tags are others. -/
theorem Lacks.element {name content : Text} (hcontent : Lacks tag content) (htag : IsTag tag)
    (hopen : Clear tag ('<' :: name ++ ['>'])) (hclose : Lacks tag ('<' :: '/' :: name ++ ['>'])) :
    Lacks tag (element name content) := by
  rw [SnippetPreview.element, List.append_assoc]
  exact (hcontent.seam htag hclose).behind hopen

/-! ### Tags that are not read -/

theorem readings_anyCase_eq_nil {k : Cursor} (htag : tag.map foldCase = tag) (h : ¬ tag <+: k.after.map foldCase) :
    (anyCase tag).readings k = [] := by
  refine readings_eq_nil_iff.2 ?_
  intro u y hk hr
  rw [reads_anyCase_iff, htag] at hr
  rw [hk, List.map_append, hr] at h
  exact h (List.prefix_append _ _)

/-- In a text that lacks a tag, a pattern that starts with the tag is not read in front of an angle bracket. -/
theorem Lacks.silent {x y : Text} (hx : Lacks tag x) (htag : IsTag tag) (hfold : tag.map foldCase = tag) (q : Pattern)
    (k : Cursor) : ∀ u z, x = u ++ z → z ≠ [] → (seq (anyCase tag) q).readings (k.behind u (z ++ '<' :: y)) = [] := by
  intro u z hxuz hz
  exact readings_seq_eq_nil (readings_anyCase_eq_nil hfold (hx.not_prefix htag hxuz hz y)) q

namespace Markup

variable {k : Cursor}

theorem Span.text_stretch {d : Cursor} {v y : Text} (hd : d.after = v ++ y) : Span.text ⟨d, d.behind v y⟩ = v := by
  have h := Span.text_behind d [] v y y
  rwa [List.nil_append, ← hd, Cursor.behind_nil] at h

/-- The closing tag is read where it stands. -/
theorem first_closingTag {w y : Text} (hk : k.after = w ++ y) : First (chain [anyCase w]) k (.nothing (k.behind w y)) :=
  (first_anyCase hk rfl).last

/-- A template element ends at the last closing tag. -/
theorem first_templateElement {content y : Text} (hk : k.after = element "template" content ++ y)
    (hy : Lacks "</template>" ("/template>" ++ y)) :
    ∃ r, First templateElement k r ∧ r.stop = k.behind (element "template" content) y ∧
      (Match.ofReading k r).groupText 1 = content := by
  let d := k.behind "<template" ('>' :: (content ++ ("</template>" ++ y)))
  let e := d.behind ['>'] (content ++ ("</template>" ++ y))
  have hk : k.after = "<template" ++ ('>' :: (content ++ ("</template>" ++ y))) := by
    rw [hk, element, List.append_assoc, List.append_assoc]
    rfl
  have hopen : First (anyCase "<template") k (.nothing d) := first_anyCase hk rfl
  have hbare : First (optional (chain [one isBlank, many (charNotOf ">")])) d (.nothing d) :=
    first_optional (readings_eq_nil_of_starts rfl rfl (by decide))
  have hangle : First (text ">") d (.nothing e) := first_text rfl
  have hclose := first_closingTag (k := e.behind content ("</template>" ++ y)) (w := "</template>") (y := y) rfl
  have hlong : ∀ u z, "</template>" ++ y = u ++ z → u ≠ [] →
      (chain [anyCase "</template>"]).readings (e.behind (content ++ u) z) = [] := by
    intro u z huz hu
    refine readings_seq_eq_nil (readings_anyCase_eq_nil (by decide) ?_) _
    obtain ⟨c, u, rfl⟩ := List.exists_cons_of_ne_nil hu
    have hrest : "/template>" ++ y = u ++ z := (List.cons.inj huz).2
    rw [hrest, Lacks, List.map_append] at hy
    exact fun hpre => hy (hpre.isInfix.trans (List.suffix_append _ _).isInfix)
  have hgroup := first_seq_many (k := e) 1 rfl (all_anyChar content) hlong hclose
  refine ⟨_, hopen.andThen (hbare.andThen (hangle.andThen hgroup)), ?_, Span.text_stretch (d := e) rfl⟩
  simp only [d, e, Reading.nothing, Cursor.behind_behind, List.append_assoc]
  rfl

/-- What stands between the opening tag and the first closing one is read as the content. -/
theorem first_content (i : Nat) {close content y : Text} (hclose : IsTag close) (hfold : close.map foldCase = close)
    (hk : k.after = '>' :: (content ++ (close ++ y))) (hcontent : Lacks close content) :
    let e := k.behind ['>'] (content ++ (close ++ y))
    First (chain [">", group i (fewest anyChar), anyCase close]) k
      ⟨k.behind ('>' :: (content ++ close)) y, [(2 * i, e), (2 * i + 1, e.behind content (close ++ y))]⟩ := by
  intro e
  obtain ⟨w, rfl, -⟩ := hclose.eq
  have hangle : First (text ">") k (.nothing e) := first_text hk
  have hlast := first_closingTag (k := e.behind content ('<' :: w ++ y)) (w := '<' :: w) (y := y) rfl
  have hshort := hcontent.silent (y := w ++ y) hclose hfold empty e
  have hgroup := first_seq_fewest (k := e) i rfl (all_anyChar content) hshort hlast
  have hstop : (e.behind content ('<' :: w ++ y)).behind ('<' :: w) y = k.behind ('>' :: (content ++ '<' :: w)) y := by
    rw [Cursor.behind_behind, Cursor.behind_behind]
    rfl
  rw [← hstop]
  exact hangle.andThen hgroup

/-- A script element ends at the first closing tag. -/
theorem first_scriptElement {content y : Text} (hk : k.after = element "script" content ++ y)
    (hcontent : Lacks "</script>" content) :
    ∃ r, First scriptElement k r ∧ r.stop = k.behind (element "script" content) y ∧
      (Match.ofReading k r).groupText 1 = [] ∧ (Match.ofReading k r).groupText 2 = content := by
  let d := k.behind "<script" ('>' :: (content ++ ("</script>" ++ y)))
  have hk : k.after = "<script" ++ ('>' :: (content ++ ("</script>" ++ y))) := by
    rw [hk, element, List.append_assoc, List.append_assoc]
    rfl
  have hopen : First (anyCase "<script") k (.nothing d) := first_anyCase hk rfl
  have hattributes : First (group 1 (many (charNotOf ">"))) d ⟨d, [(2, d), (3, d)]⟩ :=
    first_group 1 (first_many (v := []) rfl rfl rfl)
  have hcontent := first_content 2 (k := d) (by decide) (by decide) rfl hcontent
  refine ⟨_, hopen.andThen (hattributes.seq hcontent), ?_, ?_, ?_⟩
  · simp only [d, Reading.andThen, Cursor.behind_behind]
    rfl
  · exact Span.text_stretch (d := d) (v := []) rfl
  · exact Span.text_stretch (d := d.behind ['>'] (content ++ ("</script>" ++ y))) rfl

/-- A style element ends at the first closing tag. -/
theorem first_styleElement {content y : Text} (hk : k.after = element "style" content ++ y)
    (hcontent : Lacks "</style>" content) :
    ∃ r, First styleElement k r ∧ r.stop = k.behind (element "style" content) y ∧
      (Match.ofReading k r).groupText 1 = content := by
  let d := k.behind "<style" ('>' :: (content ++ ("</style>" ++ y)))
  have hk : k.after = "<style" ++ ('>' :: (content ++ ("</style>" ++ y))) := by
    rw [hk, element, List.append_assoc, List.append_assoc]
    rfl
  have hopen : First (anyCase "<style") k (.nothing d) := first_anyCase hk rfl
  have hattributes : First (many (charNotOf ">")) d (.nothing d) := first_many (v := []) rfl rfl rfl
  have hcontent := first_content 1 (k := d) (by decide) (by decide) rfl hcontent
  refine ⟨_, hopen.andThen (hattributes.andThen hcontent), ?_, ?_⟩
  · simp only [d, Cursor.behind_behind]
    rfl
  · exact Span.text_stretch (d := d.behind ['>'] (content ++ ("</style>" ++ y))) rfl

end Markup

end SnippetPreview
