import SnippetPreview.Proofs.Document.Scripts
import SnippetPreview.Proofs.Document.Seams

/-!
# Scripts on both sides of a cut

Which scripts a reader finds in a document that is put together from two parts depends on where the first part ends.

* `leavesOpen`: the text ends inside a script element, or inside an opening tag of one;
* `scriptsIn_append_of_closed`: behind any other text, a reader starts afresh;
* `scriptsIn_append_of_open`: behind such a text, all up to the next closing tag belongs to the element that is left open;
* `exists_infix_of_mem_scriptsIn`: a script that is found stands in the text with its opening tag;
* `HeadPlace.scriptsIn_around`: at each place, a script that is put in is found first behind the cut.
-/

namespace SnippetPreview

section Cutting

variable {fold : Char → Char} {word t : Text} {cut : Text × Text}

/-- A cut at a word is one of the text. -/
theorem exists_cut_of_cutAt? (h : cutAt? fold word t = some cut) :
    ∃ u, t = cut.1 ++ (u ++ cut.2) ∧ u.map fold = word := by
  induction t generalizing cut with
  | nil => exact absurd h nofun
  | cons c t ih =>
    rw [cutAt?] at h
    split at h
    · next hprefix =>
      obtain rfl := Option.some.inj h
      obtain ⟨v, hv⟩ := List.isPrefixOf_iff_prefix.1 hprefix
      refine ⟨(c :: t).take word.length, (List.take_append_drop _ _).symm, ?_⟩
      rw [List.map_take, ← hv, List.take_left]
    · obtain ⟨cut', hcut', rfl⟩ := Option.map_eq_some_iff.1 h
      obtain ⟨u, ht, hu⟩ := ih hcut'
      exact ⟨u, congrArg (c :: ·) ht, hu⟩

/-- The first occurrence of a word stays the first, whatever follows. -/
theorem cutAt?_append_of_some (h : cutAt? fold word t = some cut) (s : Text) :
    cutAt? fold word (t ++ s) = some (cut.1, cut.2 ++ s) := by
  induction t generalizing cut with
  | nil => exact absurd h nofun
  | cons c t ih =>
    have hlength : word.length ≤ (c :: t).length := by
      obtain ⟨u, ht, hu⟩ := exists_cut_of_cutAt? h
      rw [ht, ← hu]
      simp only [List.length_append, List.length_map]
      omega
    have hmap : (c :: (t ++ s)).map fold = (c :: t).map fold ++ s.map fold := by
      rw [← List.cons_append, List.map_append]
    rw [cutAt?] at h
    split at h
    · next hprefix =>
      obtain rfl := Option.some.inj h
      have hlonger : word.isPrefixOf ((c :: (t ++ s)).map fold) = true := by
        rw [List.isPrefixOf_iff_prefix] at hprefix ⊢
        exact hmap ▸ hprefix.trans (List.prefix_append _ _)
      rw [List.cons_append, cutAt?, if_pos hlonger, ← List.cons_append, List.drop_append_of_le_length hlength]
    · next hprefix =>
      obtain ⟨cut', hcut', rfl⟩ := Option.map_eq_some_iff.1 h
      have hlonger : ¬ word <+: (c :: (t ++ s)).map fold := by
        intro hword
        rw [List.isPrefixOf_iff_prefix] at hprefix
        have hfits : word.length ≤ ((c :: t).map fold).length := by rwa [List.length_map]
        exact hprefix (List.prefix_of_prefix_length_le hword (hmap ▸ List.prefix_append _ _) hfits)
      rw [List.cons_append, cutAt?_cons_of_not hlonger, ih hcut']
      rfl

theorem not_infix_of_cutAt? (h : cutAt? fold word t = none) (hword : word ≠ []) : ¬ word <:+: t.map fold := by
  induction t with
  | nil => exact fun hinfix => hword (List.infix_nil.1 hinfix)
  | cons c t ih =>
    rw [cutAt?] at h
    split at h
    · exact absurd h (Option.some_ne_none _)
    · next hprefix =>
      rw [List.isPrefixOf_iff_prefix] at hprefix
      intro hinfix
      rcases List.infix_cons_iff.1 hinfix with hstart | hrest
      · exact hprefix hstart
      · exact ih (Option.map_eq_none_iff.1 h) hrest

end Cutting

/-! ### Texts that leave a script open -/

/-- The text ends inside a script element, or inside an opening tag of one. -/
def leavesOpen (l : Letters) (t : Text) : Bool :=
  match _hopen : cutAt? l.fold openingTag t with
  | none => false
  | some (_, opened) =>
    match _hangle : cutAt? id ">" opened with
    | none => true
    | some (_, inside) =>
      match _hclose : cutAt? l.fold closingTag inside with
      | none => true
      | some (_, rest) => leavesOpen l rest
termination_by t.length
decreasing_by
  have hopened := length_lt_of_cutAt? _hopen (by decide)
  have hinside := length_lt_of_cutAt? _hangle (by decide)
  have hrest := length_lt_of_cutAt? _hclose (by decide)
  dsimp only at hopened hinside hrest
  omega

section Reading

variable {l : Letters} {x y : Text}

theorem nextScript?_of_cuts {t before opened attributes inside content rest : Text}
    (hopen : cutAt? l.fold openingTag t = some (before, opened)) (hangle : cutAt? id ">" opened = some (attributes, inside))
    (hclose : cutAt? l.fold closingTag inside = some (content, rest)) :
    nextScript? l t = some (⟨attributes, content⟩, rest) := by
  unfold nextScript?
  rw [hopen]
  show (cutAt? id ">" _ >>= _) = _
  rw [hangle]
  show some (_, _) = _
  rw [hclose]

theorem leavesOpen_of_scriptless (h : Scriptless l x) : leavesOpen l x = false := by
  rw [leavesOpen]
  split
  · rfl
  · next hopen =>
    obtain ⟨u, rfl, hu⟩ := exists_cut_of_cutAt? hopen
    refine absurd ?_ h
    rw [List.map_append, List.map_append, hu]
    exact List.infix_append' _ _ _

theorem IsPassed.cons {c : Char} (hc : partsTags c = true) : IsPassed l [c] :=
  ⟨(scriptless_append_cons hc (x := [])).2 ⟨scriptless_nil l, scriptless_nil l⟩, hc⟩

/-- Behind a text that leaves no script open, a reader starts afresh. -/
theorem scriptsIn_append_of_closed (hx : leavesOpen l x = false) (hy : y.head?.any partsTags = true) :
    scriptsIn l (x ++ y) = scriptsIn l x ++ scriptsIn l y := by
  revert hx
  fun_induction leavesOpen l x with
  | case1 x hopen =>
    intro _
    cases y with
    | nil => exact absurd hy nofun
    | cons c y =>
      have hnone : scriptsIn l x = [] := scriptsIn_of_none (by unfold nextScript?; rw [hopen]; rfl)
      have hfirst : scriptsIn l (c :: y) = scriptsIn l y := (IsPassed.cons hy).scriptsIn_append y
      have hpassed : IsPassed l (x ++ [c]) := by
        refine ⟨(scriptless_append_cons hy).2 ⟨not_infix_of_cutAt? hopen (by decide), scriptless_nil l⟩, ?_⟩
        rw [List.getLast?_concat]
        exact hy
      rw [hnone, List.nil_append, List.append_cons, hpassed.scriptsIn_append, hfirst]
  | case2 => exact fun h => absurd h nofun
  | case3 => exact fun h => absurd h nofun
  | case4 x before opened hopen attributes inside hangle content rest hclose ih =>
    intro hrest
    have hread := nextScript?_of_cuts hopen hangle hclose
    have hread' := nextScript?_of_cuts (cutAt?_append_of_some hopen y) (cutAt?_append_of_some hangle y)
      (cutAt?_append_of_some hclose y)
    rw [scriptsIn_of_some hread, scriptsIn_of_some hread', ih hrest, List.cons_append]

/-- A text that becomes part of an element that is left open in front of it. -/
structure IsSwallowed (l : Letters) (w : Text) : Prop where
  /-- It goes on with no closing tag. -/
  first : ∃ c v, w = c :: v ∧ l.fold c ∉ closingTag
  /-- An angle opens in it before one closes. -/
  angle : ∃ v v', w = v ++ '>' :: v' ∧ '>' ∉ v ∧ '<' ∈ v
  unclosed : ¬ closingTag <:+: w.map l.fold

/-- Behind a text that leaves a script open, all up to the next closing tag belongs to this script. -/
theorem scriptsIn_append_of_open (hx : leavesOpen l x = true) {w : Text} (hw : IsSwallowed l w) (y : Text) :
    ∃ front e, scriptsIn l (x ++ (w ++ (closingTag ++ y))) = front ++ e :: scriptsIn l y ∧
      (∀ s ∈ front, s ∈ scriptsIn l x) ∧ ('<' ∈ e.attributes ∨ e.content ≠ []) := by
  revert hx
  fun_induction leavesOpen l x with
  | case1 => exact fun h => absurd h nofun
  | case2 x before opened hopen hangle =>
    intro _
    obtain ⟨v, v', rfl, hv, hopening⟩ := hw.angle
    have hopened : '>' ∉ opened := by
      have hnone := not_infix_of_cutAt? hangle (by decide)
      rw [List.map_id] at hnone
      exact fun hmem => hnone ((List.singleton_infix_iff _ _).2 hmem)
    have hcut : cutAt? id ">" (opened ++ ((v ++ '>' :: v') ++ (closingTag ++ y)))
        = some (opened ++ v, v' ++ (closingTag ++ y)) := by
      have hnone : '>' ∉ opened ++ v := fun hmem => (List.mem_append.1 hmem).elim hopened hv
      have hassoc : opened ++ ((v ++ '>' :: v') ++ (closingTag ++ y))
          = opened ++ v ++ '>' :: (v' ++ (closingTag ++ y)) := by
        simp only [List.append_assoc, List.cons_append]
      rw [hassoc, cutAt?_angle hnone]
    have hclose : cutAt? l.fold closingTag (v' ++ (closingTag ++ y)) = some (v', y) := by
      refine cutAt?_append closingTag_eq (by decide) (map_fold_closingTag l) fun h => hw.unclosed ?_
      rw [List.map_append, List.map_cons]
      exact List.infix_append_of_infix_right (List.infix_cons h)
    have hread := nextScript?_of_cuts (cutAt?_append_of_some hopen _) hcut hclose
    exact ⟨[], ⟨opened ++ v, v'⟩, scriptsIn_of_some hread, List.forall_mem_nil _, .inl (List.mem_append_right _ hopening)⟩
  | case3 x before opened hopen attributes inside hangle hclose =>
    intro _
    have hcut : cutAt? l.fold closingTag (inside ++ (w ++ (closingTag ++ y))) = some (inside ++ w, y) := by
      obtain ⟨c, v, rfl, hc⟩ := hw.first
      rw [← List.append_assoc]
      refine cutAt?_append closingTag_eq (by decide) (map_fold_closingTag l) fun h => ?_
      rw [List.map_append, List.map_cons, infix_append_cons hc] at h
      rcases h with h | h
      · exact not_infix_of_cutAt? hclose (by decide) h
      · exact hw.unclosed (List.infix_cons h)
    have hread := nextScript?_of_cuts (cutAt?_append_of_some hopen _) (cutAt?_append_of_some hangle _) hcut
    refine ⟨[], ⟨attributes, inside ++ w⟩, scriptsIn_of_some hread, List.forall_mem_nil _, .inr ?_⟩
    obtain ⟨c, v, rfl, -⟩ := hw.first
    exact List.append_ne_nil_of_right_ne_nil _ (List.cons_ne_nil _ _)
  | case4 x before opened hopen attributes inside hangle content rest hclose ih =>
    intro hrest
    obtain ⟨front, e, hfront, hmem, he⟩ := ih hrest
    have hread := nextScript?_of_cuts hopen hangle hclose
    have hread' := nextScript?_of_cuts (cutAt?_append_of_some hopen (w ++ (closingTag ++ y)))
      (cutAt?_append_of_some hangle _) (cutAt?_append_of_some hclose _)
    refine ⟨⟨attributes, content⟩ :: front, e, ?_, fun s hs => ?_, he⟩
    · rw [scriptsIn_of_some hread', hfront]
      rfl
    · rw [scriptsIn_of_some hread]
      rcases List.mem_cons.1 hs with rfl | hs
      · exact List.mem_cons_self
      · exact List.mem_cons_of_mem _ (hmem s hs)

/-! ### Where a script stands -/

/-- The next script stands in the text with its opening tag, and the rest is read of what follows. -/
theorem exists_cut_of_nextScript? {t : Text} {s : ScriptRead} {rest : Text} (h : nextScript? l t = some (s, rest)) :
    ∃ before u behind, t = before ++ (u ++ (s.attributes ++ '>' :: behind)) ∧ u.map l.fold = openingTag ∧
      rest <:+ behind := by
  unfold nextScript? at h
  obtain ⟨⟨before, opened⟩, hopen, h⟩ := Option.bind_eq_some_iff.1 h
  obtain ⟨⟨attributes, inside⟩, hangle, h⟩ := Option.bind_eq_some_iff.1 h
  obtain ⟨rfl, rfl⟩ := Prod.mk.inj (Option.some.inj h)
  obtain ⟨u, ht, hu⟩ := exists_cut_of_cutAt? hopen
  obtain ⟨v, hopened, hv⟩ := exists_cut_of_cutAt? hangle
  rw [List.map_id] at hv
  subst hv
  refine ⟨before, u, inside, ht.trans (congrArg (fun r => before ++ (u ++ r)) hopened), hu, ?_⟩
  cases hclose : cutAt? l.fold closingTag inside with
  | none => exact List.nil_suffix
  | some cut =>
    obtain ⟨w, hw, -⟩ := exists_cut_of_cutAt? hclose
    exact ⟨cut.1 ++ w, by rw [List.append_assoc, ← hw]⟩

/-- A script that is found stands in the text with its opening tag. -/
theorem exists_infix_of_mem_scriptsIn {t : Text} {s : ScriptRead} (hs : s ∈ scriptsIn l t) :
    ∃ u, u.map l.fold = openingTag ∧ u ++ s.attributes <:+: t := by
  revert hs
  fun_induction scriptsIn l t with
  | case1 => exact fun hs => absurd hs List.not_mem_nil
  | case2 t s' rest hnext ih =>
    intro hs
    obtain ⟨before, u, behind, rfl, hu, hrest⟩ := exists_cut_of_nextScript? hnext
    rcases List.mem_cons.1 hs with rfl | hs
    · refine ⟨u, hu, before, '>' :: behind, ?_⟩
      simp only [List.append_assoc]
    · obtain ⟨u', hu', hinfix⟩ := ih hs
      refine ⟨u', hu', hinfix.trans (hrest.isInfix.trans ?_)⟩
      refine List.infix_append_of_infix_right (List.infix_append_of_infix_right (List.infix_append_of_infix_right ?_))
      exact (List.suffix_cons _ _).isInfix

/-! ### A script that is put in -/

/-- The addresses of the runtimes cannot leave their attributes. -/
theorem Kind.isSafe_scripts {k : Kind} {url : Text} (hurl : url ∈ k.scripts) : (ScriptElement.src url).IsSafe := by
  have hall : Kind.all.all (fun k => k.scripts.all fun url => decide (ScriptElement.src url).IsSafe) = true := by
    decide +kernel
  exact of_decide_eq_true (List.all_eq_true.1 (List.all_eq_true.1 hall k (Kind.mem_all k)) url hurl)

namespace HeadPlace

/-- An element at an address up to its closing tag, with what is put in front of it. -/
def opening (url : Text) (place : HeadPlace) : Text :=
  place.lead ++ (openingTag ++ ((ScriptElement.src url).attributes ++ ['>']))

theorem around_src (url : Text) (place : HeadPlace) (y : Text) : place.around (ScriptElement.src url).render ++ y
    = place.opening url ++ (closingTag ++ ('>' :: (place.trail ++ y))) := by
  have hcontent : (ScriptElement.src url).content = [] := rfl
  unfold around opening
  rw [ScriptElement.render_eq, hcontent]
  simp only [List.append_assoc, List.cons_append, List.nil_append]

theorem scriptsIn_lead (place : HeadPlace) (y : Text) : scriptsIn l (place.lead ++ y) = scriptsIn l y := by
  have hindent : IsPassed l "  " := .literal rfl (by decide)
  have hnext : IsPassed l "\n  " := .literal rfl (by decide)
  have hopen : IsPassed l "\n<head>\n  " := .literal rfl (by decide)
  cases place with
  | headEnd => exact hindent.scriptsIn_append y
  | headStart => exact hnext.scriptsIn_append y
  | newHead => exact hopen.scriptsIn_append y
  | front => rfl

theorem scriptsIn_trail (place : HeadPlace) (y : Text) : scriptsIn l ('>' :: (place.trail ++ y)) = scriptsIn l y := by
  have hpassed : IsPassed l ('>' :: place.trail) := by cases place <;> cases l <;> decide
  exact hpassed.scriptsIn_append y

/-- At each place, the script is found first behind the cut. -/
theorem scriptsIn_around {url : Text} (hurl : (ScriptElement.src url).IsSafe) (place : HeadPlace) (y : Text) :
    scriptsIn l (place.around (ScriptElement.src url).render ++ y)
      = (ScriptElement.src url).read :: scriptsIn l y := by
  have hcontent : ¬ closingTag <:+: ([] : Text).map l.fold := (ScriptElement.src url).not_infix_content l
  have helement := scriptsIn_element hurl.not_mem_attributes hcontent ('>' :: (place.trail ++ y))
  rw [around_src, opening, List.append_assoc, scriptsIn_lead, List.append_assoc, List.append_assoc,
    List.singleton_append]
  exact helement.trans (congrArg _ (place.scriptsIn_trail y))

theorem not_infix_opening {k : Kind} {url : Text} (hurl : url ∈ k.scripts) (place : HeadPlace) :
    ¬ closingTag <:+: (place.opening url).map l.fold := by
  have hall : Kind.all.all (fun k => k.scripts.all fun url => [headEnd, headStart, newHead, front].all fun place =>
      [Letters.ascii, .folded].all fun l => !Text.contains ((place.opening url).map l.fold) closingTag) = true := by
    decide +kernel
  have hplace : place ∈ [headEnd, headStart, newHead, front] := by cases place <;> decide
  have hl : l ∈ [Letters.ascii, .folded] := by cases l <;> decide
  have hnone := List.all_eq_true.1 (List.all_eq_true.1 (List.all_eq_true.1 (List.all_eq_true.1 hall k (Kind.mem_all k))
    url hurl) place hplace) l hl
  rw [Bool.not_eq_true', ← Bool.not_eq_true, Text.contains_iff] at hnone
  exact fun ⟨u, v, h⟩ => hnone ⟨u, v, h.symm⟩

/-- Behind a text that leaves a script open, the element becomes part of this script. -/
theorem isSwallowed_opening {k : Kind} {url : Text} (hurl : url ∈ k.scripts) {place : HeadPlace} (hplace : place ≠ front) :
    IsSwallowed l (place.opening url) := by
  have hsafe := (Kind.isSafe_scripts hurl).not_mem_attributes
  have hindent : l.fold ' ' ∉ closingTag := by cases l <;> decide
  have hline : l.fold '\n' ∉ closingTag := by cases l <;> decide
  have hangle {lead : Text} (hlead : '>' ∉ lead) :
      '>' ∉ lead ++ (openingTag ++ (ScriptElement.src url).attributes) ∧
        '<' ∈ lead ++ (openingTag ++ (ScriptElement.src url).attributes) := by
    have hopening : '>' ∉ openingTag := by decide
    simp only [List.mem_append, not_or]
    exact ⟨⟨hlead, hopening, hsafe⟩, .inr (.inl (by decide))⟩
  have hplain {lead : Text} : lead ++ (openingTag ++ ((ScriptElement.src url).attributes ++ ['>']))
      = (lead ++ (openingTag ++ (ScriptElement.src url).attributes)) ++ '>' :: [] := by
    simp only [List.append_assoc]
  cases place with
  | headEnd => exact ⟨⟨_, _, rfl, hindent⟩, ⟨_, _, hplain, hangle (by decide)⟩, not_infix_opening hurl _⟩
  | headStart => exact ⟨⟨_, _, rfl, hline⟩, ⟨_, _, hplain, hangle (by decide)⟩, not_infix_opening hurl _⟩
  | newHead => exact ⟨⟨_, _, rfl, hline⟩, ⟨"\n<head".toList, _, rfl, by decide, by decide⟩, not_infix_opening hurl _⟩
  | front => exact absurd rfl hplace

end HeadPlace

theorem IsHeadCut.before_eq_nil {html : Text} {cut : HeadCut} (h : IsHeadCut html cut) (hplace : cut.place = .front) :
    cut.before = [] := by
  cases h with
  | front => rfl
  | headEnd | headStart | newHead => exact absurd hplace nofun

/-- A script that is put in where no script is left open is found between those in front of the cut and those behind it. -/
theorem scriptsIn_injectHeadScript {html url : Text} (hurl : (ScriptElement.src url).IsSafe)
    (hclosed : leavesOpen l (headCut html).before = false) :
    scriptsIn l (injectHeadScript html url)
      = scriptsIn l (headCut html).before ++ (ScriptElement.src url).read :: scriptsIn l (headCut html).behind := by
  have hcut := isHeadCut_headCut html
  rw [injectHeadScript_eq, ← (headCut html).place.scriptsIn_around hurl]
  by_cases hplace : (headCut html).place = .front
  · rw [hcut.before_eq_nil hplace, scriptsIn_nil]
    rfl
  · refine scriptsIn_append_of_closed hclosed ?_
    revert hplace
    cases (headCut html).place with
    | headEnd | headStart | newHead => exact fun _ => rfl
    | front => exact fun h => absurd rfl h

/-- Where a script is left open, no such script is found, unless the document has it already. -/
theorem read_not_mem_injectHeadScript {html url : Text} {k : Kind} (hurl : url ∈ k.scripts)
    (hopen : leavesOpen l (headCut html).before = true)
    (hbefore : (ScriptElement.src url).read ∉ scriptsIn l (headCut html).before)
    (hbehind : (ScriptElement.src url).read ∉ scriptsIn l (headCut html).behind) :
    (ScriptElement.src url).read ∉ scriptsIn l (injectHeadScript html url) := by
  have hplace : (headCut html).place ≠ .front := by
    intro hfront
    rw [(isHeadCut_headCut html).before_eq_nil hfront, leavesOpen_of_scriptless (scriptless_nil l)] at hopen
    exact Bool.false_ne_true hopen
  obtain ⟨front, e, hread, hfront, he⟩ := scriptsIn_append_of_open hopen (HeadPlace.isSwallowed_opening hurl hplace)
    ('>' :: ((headCut html).place.trail ++ (headCut html).behind))
  rw [injectHeadScript_eq, HeadPlace.around_src]
  rw [hread, HeadPlace.scriptsIn_trail, List.mem_append, List.mem_cons, not_or, not_or]
  refine ⟨fun hmem => hbefore (hfront _ hmem), ?_, hbehind⟩
  rintro rfl
  rcases he with hangle | hcontent
  · have hsafe := (Kind.isSafe_scripts hurl).2.1
    have hquotes : '<' ∉ " src=\"".toList ∧ '<' ∉ "\"".toList := by decide
    have hmem : '<' ∈ " src=\"".toList ++ url ++ "\"".toList := hangle
    simp only [List.mem_append, hquotes.1, hquotes.2, hsafe, or_self] at hmem
  · exact hcontent rfl

end Reading

end SnippetPreview
