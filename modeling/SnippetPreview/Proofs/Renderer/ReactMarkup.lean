import SnippetPreview.Proofs.Renderer.Doctypes
import SnippetPreview.Proofs.Renderer.ReactImports
import SnippetPreview.Proofs.Renderer.ReactPage

/-!
# Markup in React snippets

* `FinishesTag`: a text with a whole tag, from its angle up to the next one, which closes it;
* `hasMarkup_iff`: such tags are what the adapter looks for. `opensTag_of_hasScriptMarkup`: the classifier asks for the
  beginning of a tag only;
* `isSettled`: whether a tag that has begun is one no longer depends on what follows;
* `finishesTag_replaceAll`: replacing leaves the tags alone where it misses them;
* `render_isCompiled_iff`: a snippet is compiled iff it finishes a tag, so the two notions agree on a source that looks like
  markup iff one of its tags has no further angle inside.
-/

namespace SnippetPreview.React

open Pattern Script

/-! ### Tags -/

/-- A character of a tag's name, behind its first letter. -/
def isNameRest (c : Char) : Bool := isWord c || c == '.' || c == '-'

def isAngleFree (t : Text) : Bool := t.all (charNotOf "<>")

/-- What follows the name that the text begins with. -/
def behindName? : Text → Option Text
  | [] => none
  | c :: w => if c.isAlpha then some (w.dropWhile isNameRest) else none

/-- The text stands between the angles of a tag: the name of an element, maybe with attributes, a closing name, or the
nothing of a fragment. -/
def isTagInside : Text → Bool
  | [] => true
  | '/' :: w => w.isEmpty || (behindName? w).any (·.all isBlank)
  | c :: w => (behindName? (c :: w)).any fun rest => rest.isEmpty || rest == ['/'] || rest.head?.any isBlank

/-- A tag with no other angle inside. -/
def FinishesTag (t : Text) : Prop :=
  ∃ x w y, t = x ++ '<' :: (w ++ '>' :: y) ∧ isAngleFree w = true ∧ isTagInside w = true

/-- An angle with a letter behind it. -/
def OpensTag (t : Text) : Prop := ∃ x c y, t = x ++ '<' :: c :: y ∧ c.isAlpha = true

theorem dropWhile_append_of_stop {S : Char → Bool} {v rest : Text} (hv : v.all S = true)
    (hrest : rest.head?.any S = false) : (v ++ rest).dropWhile S = rest := by
  rw [List.dropWhile_append_of_pos fun c hc => List.all_eq_true.1 hv c hc]
  cases rest with
  | nil => rfl
  | cons c rest => exact List.dropWhile_cons_of_neg (Bool.eq_false_iff.1 hrest)

theorem isNameRest_of_isBlank {c : Char} (h : isBlank c = true) : isNameRest c = false := by
  have hrest := isIdentRest_of_isBlank h
  have hne : ∀ d, isBlank d = false → (c == d) = false := fun d hd =>
    beq_eq_false_iff_ne.2 fun e => Bool.false_ne_true (hd.symm.trans (e ▸ h))
  unfold isIdentRest at hrest
  unfold isNameRest
  rw [hne '.' (by decide), hne '-' (by decide)]
  simp_all

theorem behindName?_append {c : Char} {v rest : Text} (hc : c.isAlpha = true) (hv : v.all isNameRest = true)
    (hrest : rest.head?.any isNameRest = false) : behindName? (c :: v ++ rest) = some rest := by
  rw [List.cons_append, behindName?, if_pos hc, dropWhile_append_of_stop hv hrest]

theorem exists_name_of_behindName? {w rest : Text} (h : behindName? w = some rest) :
    ∃ c v, w = c :: v ++ rest ∧ c.isAlpha = true ∧ v.all isNameRest = true ∧ rest.head?.any isNameRest = false := by
  cases w with
  | nil => exact absurd h nofun
  | cons c w =>
    rw [behindName?] at h
    split at h
    · next hc =>
      obtain rfl := Option.some.inj h
      refine ⟨c, w.takeWhile isNameRest, ?_, hc, List.all_takeWhile, ?_⟩
      · rw [List.cons_append, List.takeWhile_append_dropWhile]
      · have hstop := List.head?_dropWhile_not isNameRest w
        cases hd : (w.dropWhile isNameRest).head? with
        | none => rfl
        | some d =>
          rw [hd] at hstop
          exact hstop
    · exact absurd h nofun

/-! ### What the adapter looks for -/

/-- The pattern for the name of an element. -/
def elementName : Pattern := chain [one Char.isAlpha, many isNameRest]

theorem reads_elementName_iff {b : Option Char} {u y : Text} :
    Reads elementName b u y ↔ ∃ c v, u = c :: v ∧ c.isAlpha = true ∧ v.all isNameRest = true := by
  constructor
  · intro h
    obtain ⟨u, v, rfl, hletter, h⟩ := reads_seq_iff.1 h
    obtain ⟨c, rfl, hc⟩ := reads_one_iff.1 hletter
    exact ⟨c, v, rfl, hc, reads_run_iff.1 (reads_last_iff.1 h)⟩
  · rintro ⟨c, v, rfl, hc, hv⟩
    exact .seq (u := [c]) (.one _ _ hc) (reads_last_iff.2 (reads_run_iff.2 hv))

theorem isAngleFree_cons (c : Char) (t : Text) : isAngleFree (c :: t) = (charNotOf "<>" c && isAngleFree t) :=
  List.all_cons

theorem isAngleFree_append {t t' : Text} : isAngleFree (t ++ t') = (isAngleFree t && isAngleFree t') := List.all_append

theorem isAngleFree_name {c : Char} {v : Text} (hc : c.isAlpha = true) (hv : v.all isNameRest = true) :
    isAngleFree (c :: v) = true := by
  have hletter : charNotOf "<>" c = true := by
    by_cases h : c = '<' ∨ c = '>'
    · rcases h with rfl | rfl <;> exact absurd hc (by decide)
    · simpa [charNotOf, not_or] using h
  refine List.all_cons.trans (Bool.and_eq_true_iff.2 ⟨hletter, all_mono (fun d hd => ?_) hv⟩)
  by_cases h : d = '<' ∨ d = '>'
  · rcases h with rfl | rfl <;> exact absurd hd (by decide)
  · simpa [charNotOf, not_or] using h

/-- Attributes, as far as they have no angle. -/
def attributePart : Pattern := Pattern.optional (chain [one isBlank, fewest (charNotOf "<>")])

theorem reads_attributePart_iff {b : Option Char} {u y : Text} :
    Reads attributePart b u y ↔ u = [] ∨ ∃ c v, u = c :: v ∧ isBlank c = true ∧ isAngleFree v = true := by
  constructor
  · intro h
    rcases reads_alt_iff.1 h with h | h
    · obtain ⟨u, v, rfl, hblank, h⟩ := reads_seq_iff.1 h
      obtain ⟨c, rfl, hc⟩ := reads_one_iff.1 hblank
      exact .inr ⟨c, v, rfl, hc, reads_run_iff.1 (reads_last_iff.1 h)⟩
    · exact .inl (reads_empty_iff.1 h)
  · rintro (rfl | ⟨c, v, rfl, hc, hv⟩)
    · exact .altRight _ (.empty _ _)
    · exact .altLeft _ (.seq (u := [c]) (.one _ _ hc) (reads_last_iff.2 (reads_run_iff.2 hv)))

theorem reads_sign_iff {sign : String} {b : Option Char} {u y : Text} :
    Reads (Pattern.optional sign) b u y ↔ u = sign.toList ∨ u = [] :=
  reads_alt_iff.trans (or_congr reads_text_iff reads_empty_iff)

/-- The tag of an element, opening or closing itself. -/
theorem reads_elementTag_iff {b : Option Char} {u y : Text} :
    Reads (chain ["<", elementName, attributePart, Pattern.optional "/", ">"]) b u y ↔
      ∃ c v rest, u = '<' :: (c :: v ++ rest ++ ['>']) ∧ c.isAlpha = true ∧ v.all isNameRest = true ∧
        (rest = [] ∨ rest = ['/'] ∨ ∃ d z, rest = d :: z ∧ isBlank d = true ∧ isAngleFree z = true) := by
  constructor
  · intro h
    obtain ⟨u, rfl, hrest⟩ := reads_text_seq_iff.1 h
    obtain ⟨name, u, rfl, hname, h⟩ := reads_seq_iff.1 hrest
    obtain ⟨a, u, rfl, ha, h⟩ := reads_seq_iff.1 h
    obtain ⟨s, e, rfl, hs, h⟩ := reads_seq_iff.1 h
    obtain ⟨c, v, rfl, hc, hv⟩ := reads_elementName_iff.1 hname
    obtain rfl := reads_text_iff.1 (reads_last_iff.1 h)
    refine ⟨c, v, a ++ s, by simp, hc, hv, ?_⟩
    rcases reads_attributePart_iff.1 ha with rfl | ⟨d, z, rfl, hd, hz⟩
    · exact (reads_sign_iff.1 hs).elim (fun h => .inr (.inl h)) .inl
    · refine .inr (.inr ⟨d, z ++ s, rfl, hd, ?_⟩)
      rw [isAngleFree_append, hz]
      rcases reads_sign_iff.1 hs with rfl | rfl <;> rfl
  · rintro ⟨c, v, rest, rfl, hc, hv, hrest⟩
    have hname : ∀ b y, Reads elementName b (c :: v) y := fun b y => reads_elementName_iff.2 ⟨c, v, rfl, hc, hv⟩
    have hparts : ∃ a s, rest = a ++ s ∧ (∀ b y, Reads attributePart b a y) ∧
        ∀ b y, Reads (Pattern.optional "/") b s y := by
      rcases hrest with rfl | rfl | ⟨d, z, rfl, hd, hz⟩
      · exact ⟨[], [], rfl, fun _ _ => reads_attributePart_iff.2 (.inl rfl), fun _ _ => reads_sign_iff.2 (.inr rfl)⟩
      · exact ⟨[], ['/'], rfl, fun _ _ => reads_attributePart_iff.2 (.inl rfl), fun _ _ => reads_sign_iff.2 (.inl rfl)⟩
      · exact ⟨d :: z, [], (List.append_nil _).symm, fun _ _ => reads_attributePart_iff.2 (.inr ⟨d, z, rfl, hd, hz⟩),
          fun _ _ => reads_sign_iff.2 (.inr rfl)⟩
    obtain ⟨a, s, rfl, ha, hs⟩ := hparts
    have hall : '<' :: (c :: v ++ (a ++ s) ++ ['>']) = "<".toList ++ (c :: v ++ (a ++ (s ++ ['>']))) := by simp
    refine reads_text_seq_iff.2 ⟨_, hall, .seq (hname _ _) (.seq (ha _ _) (.seq (hs _ _) ?_))⟩
    exact reads_last_iff.2 (reads_text_iff.2 rfl)

theorem reads_closingTag_iff {b : Option Char} {u y : Text} :
    Reads (chain ["</", elementName, many isBlank, ">"]) b u y ↔
      ∃ c v rest, u = '<' :: ('/' :: (c :: v ++ rest) ++ ['>']) ∧ c.isAlpha = true ∧ v.all isNameRest = true ∧
        rest.all isBlank = true := by
  constructor
  · intro h
    obtain ⟨u, rfl, hrest⟩ := reads_text_seq_iff.1 h
    obtain ⟨name, u, rfl, hname, h⟩ := reads_seq_iff.1 hrest
    obtain ⟨a, e, rfl, ha, h⟩ := reads_seq_iff.1 h
    obtain ⟨c, v, rfl, hc, hv⟩ := reads_elementName_iff.1 hname
    obtain rfl := reads_text_iff.1 (reads_last_iff.1 h)
    exact ⟨c, v, a, by simp, hc, hv, reads_run_iff.1 ha⟩
  · rintro ⟨c, v, rest, rfl, hc, hv, hrest⟩
    have hall : '<' :: ('/' :: (c :: v ++ rest) ++ ['>']) = "</".toList ++ (c :: v ++ (rest ++ ['>'])) := by simp
    refine reads_text_seq_iff.2 ⟨_, hall, .seq (reads_elementName_iff.2 ⟨c, v, rfl, hc, hv⟩) ?_⟩
    exact .seq (reads_run_iff.2 hrest) (reads_last_iff.2 (reads_text_iff.2 rfl))

theorem isTagInside_slash (w : Text) :
    isTagInside ('/' :: w) = (w.isEmpty || (behindName? w).any (·.all isBlank)) := rfl

theorem isTagInside_letter {c : Char} (hc : c.isAlpha = true) (w : Text) : isTagInside (c :: w)
    = (behindName? (c :: w)).any fun rest => rest.isEmpty || rest == ['/'] || rest.head?.any isBlank := by
  rw [isTagInside]
  rintro rfl
  exact absurd hc (by decide)

theorem isTagInside_element {c : Char} {v rest : Text} (hc : c.isAlpha = true) (hv : v.all isNameRest = true)
    (hrest : rest.head?.any isNameRest = false) :
    isTagInside (c :: v ++ rest) = (rest.isEmpty || rest == ['/'] || rest.head?.any isBlank) := by
  have hname := behindName?_append hc hv hrest
  rw [List.cons_append] at hname ⊢
  rw [isTagInside_letter hc, hname, Option.any_some]

theorem isTagInside_closing {c : Char} {v rest : Text} (hc : c.isAlpha = true) (hv : v.all isNameRest = true)
    (hrest : rest.head?.any isNameRest = false) : isTagInside ('/' :: (c :: v ++ rest)) = rest.all isBlank := by
  rw [isTagInside_slash, behindName?_append hc hv hrest]
  rfl

theorem isNameRest_head?_of_blank {rest : Text} (h : rest.all isBlank = true) : rest.head?.any isNameRest = false := by
  cases rest with
  | nil => rfl
  | cons c rest => exact isNameRest_of_isBlank (List.all_eq_true.1 h c List.mem_cons_self)

theorem isAngleFree_of_blank {t : Text} (h : t.all isBlank = true) : isAngleFree t = true := by
  refine all_mono (fun c hc => ?_) h
  by_cases hangle : c = '<' ∨ c = '>'
  · rcases hangle with rfl | rfl <;> exact absurd hc (by decide)
  · simpa [charNotOf, not_or] using hangle

/-- What may follow the name of an element. -/
def IsElementRest (rest : Text) : Prop :=
  rest = [] ∨ rest = ['/'] ∨ ∃ d z, rest = d :: z ∧ isBlank d = true ∧ isAngleFree z = true

theorem isTag_element {c : Char} {v rest : Text} (hc : c.isAlpha = true) (hv : v.all isNameRest = true)
    (hrest : IsElementRest rest) : isAngleFree (c :: v ++ rest) = true ∧ isTagInside (c :: v ++ rest) = true := by
  constructor
  · rw [isAngleFree_append, isAngleFree_name hc hv]
    rcases hrest with rfl | rfl | ⟨d, z, rfl, hd, hz⟩
    · rfl
    · rfl
    · have hblank : isAngleFree [d] = true := isAngleFree_of_blank (by simp [hd])
      rw [← List.singleton_append, isAngleFree_append, hblank, hz]
      rfl
  · rcases hrest with rfl | rfl | ⟨d, z, rfl, hd, -⟩
    · exact isTagInside_element hc hv rfl
    · exact isTagInside_element hc hv (by decide)
    · have hstop : (d :: z).head?.any isNameRest = false := isNameRest_of_isBlank hd
      rw [isTagInside_element hc hv hstop]
      simp [hd]

theorem isTag_closing {c : Char} {v rest : Text} (hc : c.isAlpha = true) (hv : v.all isNameRest = true)
    (hrest : rest.all isBlank = true) :
    isAngleFree ('/' :: (c :: v ++ rest)) = true ∧ isTagInside ('/' :: (c :: v ++ rest)) = true := by
  constructor
  · have hslash : isAngleFree ['/'] = true := by decide
    rw [← List.singleton_append, isAngleFree_append, isAngleFree_append, hslash, isAngleFree_name hc hv,
      isAngleFree_of_blank hrest]
    rfl
  · rw [isTagInside_closing hc hv (isNameRest_head?_of_blank hrest), hrest]

/-- Between the angles of a tag stand an element, a closing name, or the nothing of a fragment. -/
theorem tag_cases {w : Text} (hfree : isAngleFree w = true) (hinside : isTagInside w = true) :
    (∃ c v rest, w = c :: v ++ rest ∧ c.isAlpha = true ∧ v.all isNameRest = true ∧ IsElementRest rest) ∨
      (∃ c v rest, w = '/' :: (c :: v ++ rest) ∧ c.isAlpha = true ∧ v.all isNameRest = true ∧ rest.all isBlank = true) ∨
      w = [] ∨ w = ['/'] := by
  cases w with
  | nil => exact .inr (.inr (.inl rfl))
  | cons c w =>
    by_cases hslash : c = '/'
    · subst hslash
      rw [isTagInside_slash, Bool.or_eq_true, List.isEmpty_iff] at hinside
      rcases hinside with rfl | hinside
      · exact .inr (.inr (.inr rfl))
      · obtain ⟨rest, hname, hblank⟩ := (Option.any_eq_true _ _).1 hinside
        obtain ⟨d, v, rfl, hd, hv, -⟩ := exists_name_of_behindName? hname
        exact .inr (.inl ⟨d, v, rest, rfl, hd, hv, hblank⟩)
    · rw [isTagInside.eq_3 _ _ hslash] at hinside
      obtain ⟨rest, hname, hrest⟩ := (Option.any_eq_true _ _).1 hinside
      obtain ⟨d, v, hw, hd, hv, -⟩ := exists_name_of_behindName? hname
      rw [hw, isAngleFree_append, Bool.and_eq_true] at hfree
      refine .inl ⟨d, v, rest, hw, hd, hv, ?_⟩
      rw [Bool.or_eq_true, Bool.or_eq_true, List.isEmpty_iff, beq_iff_eq] at hrest
      rcases hrest with (rfl | rfl) | hblank
      · exact .inl rfl
      · exact .inr (.inl rfl)
      · cases rest with
        | nil => exact .inl rfl
        | cons e z =>
          rw [isAngleFree_cons e, Bool.and_eq_true] at hfree
          exact .inr (.inr ⟨e, z, rfl, hblank, hfree.2.2⟩)

theorem reads_markupTag_iff {b : Option Char} {u y : Text} : Reads markupTag b u y ↔
    ∃ w, u = '<' :: (w ++ ['>']) ∧ isAngleFree w = true ∧ isTagInside w = true := by
  have halt : Reads markupTag b u y ↔
      Reads (chain ["<", elementName, attributePart, Pattern.optional "/", ">"]) b u y ∨
        Reads (chain ["</", elementName, many isBlank, ">"]) b u y ∨ Reads "<>" b u y ∨ Reads "</>" b u y :=
    reads_alt_iff.trans (or_congr .rfl (reads_alt_iff.trans (or_congr .rfl reads_alt_iff)))
  rw [halt, reads_elementTag_iff, reads_closingTag_iff, reads_text_iff, reads_text_iff]
  constructor
  · rintro (⟨c, v, rest, rfl, hc, hv, hrest⟩ | ⟨c, v, rest, rfl, hc, hv, hrest⟩ | rfl | rfl)
    · exact ⟨c :: v ++ rest, rfl, isTag_element hc hv hrest⟩
    · exact ⟨'/' :: (c :: v ++ rest), rfl, isTag_closing hc hv hrest⟩
    · exact ⟨[], rfl, rfl, rfl⟩
    · exact ⟨['/'], rfl, rfl, rfl⟩
  · rintro ⟨w, rfl, hfree, hinside⟩
    rcases tag_cases hfree hinside with ⟨c, v, rest, rfl, hc, hv, hrest⟩ | ⟨c, v, rest, rfl, hc, hv, hrest⟩ | rfl | rfl
    · exact .inl ⟨c, v, rest, rfl, hc, hv, hrest⟩
    · exact .inr (.inl ⟨c, v, rest, rfl, hc, hv, hrest⟩)
    · exact .inr (.inr (.inl rfl))
    · exact .inr (.inr (.inr rfl))

/-- The adapter looks for whole tags. -/
theorem hasMarkup_iff {t : Text} : hasMarkup t = true ↔ FinishesTag t := by
  simp only [hasMarkup, isMatch_iff, reads_markupTag_iff]
  constructor
  · rintro ⟨x, u, y, rfl, w, rfl, hfree, hinside⟩
    exact ⟨x, w, y, by simp, hfree, hinside⟩
  · rintro ⟨x, w, y, rfl, hfree, hinside⟩
    exact ⟨x, '<' :: (w ++ ['>']), y, by simp, w, rfl, hfree, hinside⟩

/-! ### Tags that have begun -/

/-- What stands behind the last angle, if this one opens. -/
def openTag? (t : Text) : Option Text :=
  t.foldl (fun begun c => if c = '<' then some [] else if c = '>' then none else begun.map (· ++ [c])) none

/-- Whether this is the inside of a tag no longer depends on what follows. -/
def isSettled : Text → Bool
  | [] => false
  | '/' :: w => (behindName? w).elim (!w.isEmpty) (!·.all isBlank)
  | c :: w => (behindName? (c :: w)).all fun rest => !rest.isEmpty && rest != ['/']

theorem foldl_openTag {z : Text} (hz : isAngleFree z = true) (begun : Option Text) :
    z.foldl (fun begun c => if c = '<' then some [] else if c = '>' then none else begun.map (· ++ [c])) begun
      = begun.map (· ++ z) := by
  induction z generalizing begun with
  | nil => cases begun <;> simp
  | cons c z ih =>
    rw [isAngleFree_cons, Bool.and_eq_true] at hz
    have hc : c ≠ '<' ∧ c ≠ '>' := by simpa [charNotOf, not_or] using hz.1
    rw [List.foldl_cons, if_neg hc.1, if_neg hc.2, ih hz.2, Option.map_map]
    congr 1
    funext w
    simp

theorem openTag?_append (x : Text) {z : Text} (hz : isAngleFree z = true) : openTag? (x ++ '<' :: z) = some z := by
  rw [openTag?, List.foldl_append, List.foldl_cons, if_pos rfl, foldl_openTag hz]
  rfl

/-- A name that has ended stays as it is, and what does not begin with a letter does not do so later. -/
theorem behindName?_append_of_ne_nil {w : Text} (hw : w ≠ []) (hname : behindName? w ≠ some []) (z : Text) :
    behindName? (w ++ z) = (behindName? w).map (· ++ z) := by
  cases h : behindName? w with
  | none =>
    cases w with
    | nil => exact absurd rfl hw
    | cons c w =>
      rw [behindName?] at h
      split at h
      · exact absurd h nofun
      · next hc => rw [List.cons_append, behindName?, if_neg hc]; rfl
  | some rest =>
    obtain ⟨c, v, rfl, hc, hv, hstop⟩ := exists_name_of_behindName? h
    have hrest : (rest ++ z).head?.any isNameRest = false := by
      cases rest with
      | nil => exact absurd h hname
      | cons d rest => exact hstop
    rw [List.append_assoc, behindName?_append hc hv hrest]
    rfl

theorem isTagInside_append_of_isSettled {w : Text} (h : isSettled w = true) (z : Text) :
    isTagInside (w ++ z) = isTagInside w := by
  cases w with
  | nil => exact absurd h Bool.false_ne_true
  | cons c w =>
    by_cases hslash : c = '/'
    · subst hslash
      have hsettled : (behindName? w).elim (!w.isEmpty) (!·.all isBlank) = true := h
      have hne : w ≠ [] := by
        rintro rfl
        exact absurd hsettled nofun
      have hname : behindName? w ≠ some [] := by
        intro hnil
        rw [hnil] at hsettled
        exact absurd hsettled nofun
      rw [List.cons_append, isTagInside_slash, isTagInside_slash, behindName?_append_of_ne_nil hne hname]
      have hempty : (w ++ z).isEmpty = w.isEmpty := by
        rw [Bool.eq_iff_iff, List.isEmpty_iff, List.isEmpty_iff, List.append_eq_nil_iff]
        exact ⟨And.left, fun h => absurd h hne⟩
      rw [hempty]
      cases hrest : behindName? w with
      | none => rfl
      | some rest =>
        rw [hrest, Option.elim_some, Bool.not_eq_true'] at hsettled
        rw [Option.map_some, Option.any_some, Option.any_some, List.all_append, hsettled, Bool.false_and]
    · rw [isSettled.eq_3 _ _ hslash] at h
      have hname : behindName? (c :: w) ≠ some [] := by
        intro hnil
        rw [hnil] at h
        exact absurd h nofun
      have happend := behindName?_append_of_ne_nil (List.cons_ne_nil c w) hname z
      rw [List.cons_append] at happend ⊢
      rw [isTagInside.eq_3 _ _ hslash, isTagInside.eq_3 _ _ hslash, happend]
      cases hrest : behindName? (c :: w) with
      | none => rfl
      | some rest =>
        rw [hrest, Option.all_some, Bool.and_eq_true, Bool.not_eq_true', bne_iff_ne] at h
        rw [Option.map_some, Option.any_some, Option.any_some]
        cases rest with
        | nil => exact absurd h.1 nofun
        | cons d rest =>
          have hsign : (d :: rest ++ z == ['/']) = (d :: rest == ['/']) := by
            rw [beq_eq_false_iff_ne.2 h.2, beq_eq_false_iff_ne]
            intro heq
            obtain ⟨rfl, htail⟩ := List.cons.inj heq
            exact h.2 (congrArg _ (List.append_eq_nil_iff.1 htail).1)
          rw [hsign]
          rfl

/-! ### Tags in texts that change -/

theorem FinishesTag.append_left {t : Text} (h : FinishesTag t) (x : Text) : FinishesTag (x ++ t) := by
  obtain ⟨x', w, y, rfl, hw⟩ := h
  exact ⟨x ++ x', w, y, (List.append_assoc ..).symm, hw⟩

theorem FinishesTag.append_right {t : Text} (h : FinishesTag t) (y : Text) : FinishesTag (t ++ y) := by
  obtain ⟨x, w, y', rfl, hw⟩ := h
  exact ⟨x, w, y' ++ y, by simp, hw⟩

/-- A text without angles in front of an angle ends there or before. -/
theorem eq_append_of_angle {u y w z : Text} {c : Char} (hu : isAngleFree u = true) (hc : charNotOf "<>" c = false)
    (h : u ++ y = w ++ c :: z) : ∃ w', w = u ++ w' ∧ y = w' ++ c :: z := eq_append_of_append_eq hu hc h

/-- Behind a settled front, texts without angles can take each other's place. -/
theorem FinishesTag.swap {x u v y : Text} (h : FinishesTag (x ++ (u ++ y))) (hx : (openTag? x).all isSettled = true)
    (hu : isAngleFree u = true) (hv : isAngleFree v = true) : FinishesTag (x ++ (v ++ y)) := by
  obtain ⟨x', w, y', ht, hfree, hinside⟩ := h
  rcases List.append_eq_append_iff.1 ht with ⟨z, rfl, hz⟩ | ⟨z, rfl, hz⟩
  · -- the tag opens behind the front
    obtain ⟨z', -, rfl⟩ := eq_append_of_angle hu (by decide) hz
    exact (FinishesTag.append_left ⟨z', w, y', rfl, hfree, hinside⟩ v).append_left x
  · cases z with
    | nil =>
      obtain ⟨z', -, rfl⟩ := eq_append_of_angle (w := []) (c := '<') hu (by decide) hz.symm
      exact (FinishesTag.append_left ⟨z', w, y', rfl, hfree, hinside⟩ v).append_left _
    | cons c z =>
      rw [List.cons_append] at hz
      obtain ⟨rfl, hbehind⟩ := List.cons.inj hz
      by_cases hopen : isAngleFree z = true
      · -- it is open where the front ends
        obtain ⟨w', rfl, hw'⟩ := eq_append_of_angle hopen (by decide) hbehind.symm
        obtain ⟨w', rfl, rfl⟩ := eq_append_of_angle hu (by decide) hw'
        have hsettled : isSettled z = true := by
          rw [openTag?_append x' hopen] at hx
          exact hx
        rw [isAngleFree_append, isAngleFree_append, hu, Bool.true_and] at hfree
        refine ⟨x', z ++ (v ++ w'), y', by simp, ?_, ?_⟩
        · rw [isAngleFree_append, isAngleFree_append, hv, Bool.true_and, hfree]
        · rwa [isTagInside_append_of_isSettled hsettled] at hinside ⊢
      · -- it is closed in the front
        rcases List.append_eq_append_iff.1 hbehind with ⟨w', rfl, hw'⟩ | ⟨w', rfl, -⟩
        · cases w' with
          | nil =>
            rw [List.append_nil] at hopen
            exact absurd hfree hopen
          | cons d w' =>
            obtain ⟨rfl, -⟩ := List.cons.inj hw'
            exact FinishesTag.append_right ⟨x', w, w', rfl, hfree, hinside⟩ (v ++ y)
        · rw [isAngleFree_append, Bool.and_eq_true] at hfree
          exact absurd hfree.1 hopen

/-- A match gives way to its image in front of no tag that is still open, and neither has an angle. -/
def missesTags (f : Match → Text) (t : Text) (m : Match) : Bool :=
  (openTag? (Span.text ⟨.start t, m.span.start⟩)).all isSettled && isAngleFree m.text && isAngleFree (f m)

/-- Where all replaced matches miss the tags, a text finishes a tag iff it does so with them replaced. -/
theorem finishesTag_replaceAll {p : Pattern} (hp : p.consumes = true) {f : Match → Text} {t : Text}
    (h : ∀ m ∈ p.finds t, f m = m.text ∨ missesTags f t m = true) :
    FinishesTag (p.replaceAll f t) ↔ FinishesTag t := by
  -- the two sides agree whatever follows, as what is kept may be the beginning of a tag
  have hrun := replaceAll_invariant hp (f := f) (t := t)
    (motive := fun x out => ∀ y, FinishesTag (out ++ y) ↔ FinishesTag (x ++ y))
    (fun _ => .rfl)
    (fun x c y out _ ih rest => by simpa using ih (c :: rest))
    (fun m hm x u y out hcuts ih rest => by
      rcases h m hm with hkept | hmisses
      · rw [hkept, hcuts.text, List.append_assoc, List.append_assoc]
        exact ih (u ++ rest)
      · rw [missesTags, hcuts.front, hcuts.text, Bool.and_eq_true, Bool.and_eq_true] at hmisses
        obtain ⟨⟨hx, hu⟩, himage⟩ := hmisses
        rw [List.append_assoc, List.append_assoc, ih]
        exact ⟨fun h => h.swap hx himage hu, fun h => h.swap hx hu himage⟩)
  simpa using hrun []

/-! ### Module syntax -/

/-- All imports of the packages miss the tags. -/
def importsMissTags (packages : List Text) (global : Text) (provided : List Text) (code : Text) : Bool :=
  let named := namedImport.replaceAll (namedImage packages global provided) code
  ((namedImport.finds code).all fun m =>
      !isWithin packages (m.groupText 2) || missesTags (namedImage packages global provided) code m)
    && (anyImport.finds named).all fun m =>
      !isWithin packages (m.groupText 1) || missesTags (otherImage packages) named m

/-- All exports miss the tags. -/
def exportsMissTags (code : Text) : Bool :=
  let plain := exportDefault.replaceAll (fun _ => []) code
  (exportDefault.finds code).all (missesTags (fun _ => []) code)
    && (exportedDeclaration.finds plain).all (missesTags declarationImage plain)

/-- All imports and exports that are dropped miss the tags. -/
def moduleSyntaxMissesTags (source : Text) : Bool :=
  importsMissTags ["react-dom"] "ReactDOM" [] source
    && importsMissTags ["react"] "React" hooks (globalizeImports ["react-dom"] "ReactDOM" [] source)
    && exportsMissTags (globalized source)

theorem finishesTag_globalizeImports {packages provided : List Text} {global code : Text}
    (h : importsMissTags packages global provided code = true) :
    FinishesTag (globalizeImports packages global provided code) ↔ FinishesTag code := by
  rw [importsMissTags, Bool.and_eq_true, List.all_eq_true, List.all_eq_true] at h
  obtain ⟨hnamed, hother⟩ := h
  have hfirst : FinishesTag (namedImport.replaceAll (namedImage packages global provided) code) ↔ FinishesTag code := by
    refine finishesTag_replaceAll rfl fun m hm => ?_
    by_cases hwithin : isWithin packages (m.groupText 2) = true
    · have hmisses := hnamed m hm
      rw [hwithin] at hmisses
      exact .inr hmisses
    · exact .inl (if_neg hwithin)
  refine .trans (finishesTag_replaceAll (f := otherImage packages) rfl fun m hm => ?_) hfirst
  by_cases hwithin : isWithin packages (m.groupText 1) = true
  · have hmisses := hother m hm
    rw [hwithin] at hmisses
    exact .inr hmisses
  · exact .inl (if_neg hwithin)

theorem finishesTag_dropExports {code : Text} (h : exportsMissTags code = true) :
    FinishesTag (dropExports code) ↔ FinishesTag code := by
  rw [exportsMissTags, Bool.and_eq_true, List.all_eq_true, List.all_eq_true] at h
  exact (finishesTag_replaceAll rfl fun m hm => .inr (h.2 m hm)).trans
    (finishesTag_replaceAll rfl fun m hm => .inr (h.1 m hm))

/-- A snippet finishes a tag iff its code does so without its module syntax. -/
theorem finishesTag_dropModuleSyntax {source : Text} (h : moduleSyntaxMissesTags source = true) :
    FinishesTag (dropModuleSyntax source) ↔ FinishesTag source := by
  rw [moduleSyntaxMissesTags, Bool.and_eq_true, Bool.and_eq_true] at h
  exact (finishesTag_dropExports h.2).trans
    ((finishesTag_globalizeImports h.1.2).trans (finishesTag_globalizeImports h.1.1))

/-! ### The classifier and the adapter -/

/-- A pattern that ends with an angle and a letter reads the beginning of a tag. -/
theorem opensTag_of_isMatch (ps : List Pattern) {holds : Char → Bool} {t : Text} {rest : List Pattern}
    (hletter : ∀ c, holds c = true → c.isAlpha = true)
    (h : (chain (ps ++ (("<" : Pattern) :: one holds :: rest))).isMatch t = true) : OpensTag t := by
  obtain ⟨x, u, y, rfl, hreads⟩ := isMatch_iff.1 h
  obtain ⟨u₁, u₂, rfl, -, hreads⟩ := reads_chain_append_iff.1 hreads
  obtain ⟨u₂, rfl, hrest⟩ := reads_text_seq_iff.1 hreads
  obtain ⟨u₃, u₄, rfl, hone, -⟩ := reads_seq_iff.1 hrest
  obtain ⟨c, rfl, hc⟩ := reads_one_iff.1 hone
  exact ⟨x ++ u₁, c, u₄ ++ y, by simp, hletter c hc⟩

/-- The classifier asks for the beginning of a tag. -/
theorem opensTag_of_hasScriptMarkup {source : Text} (h : hasScriptMarkup source = true) : OpensTag source := by
  rw [hasScriptMarkup, Bool.or_eq_true, Bool.or_eq_true] at h
  rcases h with (h | h) | h
  · have hupper (c : Char) (hc : c.isUpper = true) : (c.isUpper || c.isLower) = true := by rw [hc, Bool.true_or]
    exact opensTag_of_isMatch [] hupper h
  · exact opensTag_of_isMatch ["=>", many isBlank, Pattern.optional "(", many isBlank] (fun _ => id) h
  · exact opensTag_of_isMatch ["function", many1 isBlank, one isIdentStart, many isIdentRest, many isBlank, "(",
      many (charNotOf ")"), ")", many isBlank, "\x7b", fewest anyChar, wordEdge, "return", many isBlank,
      Pattern.optional "(", many isBlank] (fun _ => id) h

/-- The document loads the compiler and has a script that is marked for it. -/
def IsCompiled (l : Letters) (document : Text) : Prop :=
  (ScriptElement.src Kind.babelScript).read ∈ scriptsIn l document ∧
    ∃ content, ⟨ScriptElement.compiledAttributes, content⟩ ∈ scriptsIn l document

theorem IsPage.isCompiled_iff {code document : Text} (h : IsPage code document) (l : Letters) :
    IsCompiled l document ↔ FinishesTag code := by
  rw [← hasMarkup_iff, IsCompiled, h.scripts, runtimes, codeElement]
  cases hmarkup : hasMarkup code with
  | true => exact iff_of_true ⟨by simp, _, List.mem_append_right _ List.mem_cons_self⟩ rfl
  | false =>
    refine iff_of_false (fun hcompiled => ?_) Bool.false_ne_true
    have hattributes : (ScriptElement.src Kind.babelScript).attributes
        ∈ [(ScriptElement.src Kind.reactScript).attributes, (ScriptElement.src Kind.reactDomScript).attributes, []] :=
      List.mem_map_of_mem (f := ScriptRead.attributes) hcompiled.1
    exact absurd hattributes (by decide +kernel)

/-- **Compiled iff a tag is finished.** A source that is no document is compiled iff its code finishes a tag, and that is iff
the source itself does so, as long as the imports and exports that are dropped miss its tags. The classifier asks for the
beginning of a tag only. So a source that looks like markup is compiled unless each tag that it opens has another angle
in front of the one that closes it, or none behind. -/
theorem render_isCompiled_iff {source : Text} (h : isHtmlDocument source = false) (l : Letters) :
    (IsCompiled l (render source) ↔ FinishesTag (dropModuleSyntax source)) ∧
      (moduleSyntaxMissesTags source = true → (IsCompiled l (render source) ↔ FinishesTag source)) ∧
      (hasScriptMarkup source = true → OpensTag source) := by
  have hcode := (render_isPage h).isCompiled_iff l
  exact ⟨hcode, fun hmisses => hcode.trans (finishesTag_dropModuleSyntax hmisses), opensTag_of_hasScriptMarkup⟩

instance (t : Text) : Decidable (FinishesTag t) := decidable_of_iff _ hasMarkup_iff

/-- A component behind an import, and one with a comparison in its only tag. -/
theorem render_isCompiled_iff_comparison :
    let plain : Text := "import { useState } from 'react';\nconst App = () => <b>Hi</b>;"
    let compares : Text := "const App = () => <Panel wide=\x7ba < b\x7d />;"
    isHtmlDocument plain = false ∧ moduleSyntaxMissesTags plain = true ∧ IsCompiled .ascii (render plain) ∧
      isHtmlDocument compares = false ∧ moduleSyntaxMissesTags compares = true ∧ hasScriptMarkup compares = true ∧
      OpensTag compares ∧ ¬ IsCompiled .ascii (render compares) := by
  intro plain compares
  have hplain : isHtmlDocument plain = false := by decide +kernel
  have hmisses : moduleSyntaxMissesTags plain = true := by decide +kernel
  have hcompares : isHtmlDocument compares = false := by decide +kernel
  have hmissed : moduleSyntaxMissesTags compares = true := by decide +kernel
  have hmarkup : hasScriptMarkup compares = true := by decide +kernel
  obtain ⟨-, hcompiled, -⟩ := render_isCompiled_iff hplain .ascii
  obtain ⟨-, huncompiled, hopens⟩ := render_isCompiled_iff hcompares .ascii
  refine ⟨hplain, hmisses, (hcompiled hmisses).2 (by decide +kernel), hcompares, hmissed, hmarkup, hopens hmarkup, ?_⟩
  exact fun h => absurd ((huncompiled hmissed).1 h) (by decide +kernel)

end SnippetPreview.React
