import SnippetPreview.Framework.Kind
import SnippetPreview.Proofs.Document.Rewriting

/-!
# Scripts in documents

Where a script is put into a document, and what this leaves alone.

* `Seam`: a place in a document in front of a tag or behind one;
* `LacksHead`: there is no tag that a script would be put next to, so it is put in front of the whole document;
* `headCut`: where a document is cut to put a script in, with `IsHeadCut` for the four ways this can come out;
* `exists_seam`: otherwise it is put at a seam. So its element is in the document (`render_infix_injectHeadScript`);
* `doctypes_injectHeadScript`: either way the document keeps all its document types, and gets none;
* `Kind.doctypes_scripts`: the runtimes bring none either;
* `IsFront`, `Seam.isPrefix`: what a document starts with, if this is a document type, lies in front of every seam.
-/

namespace SnippetPreview

open Pattern

/-- No tag is there that a script would be put next to. -/
def LacksHead (html : Text) : Prop := ∀ p ∈ [headClose, openTag "head", openTag "html"], p.isMatch html = false

instance (html : Text) : Decidable (LacksHead html) := inferInstanceAs (Decidable (∀ p ∈ _, _))

/-- The texts meet in front of a tag or behind one, which is no document type. -/
structure Seam (x y : Text) : Prop where
  /-- No document type goes across. -/
  parts : doctypes (x ++ y) = doctypes x + doctypes y
  /-- The tag. -/
  tag : ∃ x' c y', x ++ y = x' ++ '<' :: c :: y' ∧ x' <+: x ∧ c ≠ '!'

variable {x y u : Text}

/-! ### Tags -/

theorem exists_tag_of_reads {c : Char} {w : Text} {p : Pattern} {b : Option Char} (hc : foldCase c ≠ '!')
    (h : Reads (.seq (anyCase ('<' :: c :: w)) p) b u y) : ∃ d v, u = '<' :: d :: v ∧ d ≠ '!' := by
  obtain ⟨v, z, rfl, hv, -⟩ := reads_seq_iff.1 h
  rw [reads_anyCase_iff, List.map_cons, List.map_cons] at hv
  obtain ⟨a, v, rfl, ha, htail⟩ := List.map_eq_cons_iff.1 hv
  obtain ⟨d, v, rfl, hd, -⟩ := List.map_eq_cons_iff.1 htail
  have hangle : foldCase a = '<' := ha.trans (by decide)
  obtain rfl := eq_angle_of_toLower (toLower_eq_of_foldCase hangle (by decide) (by decide))
  refine ⟨d, v ++ z, rfl, ?_⟩
  rintro rfl
  exact hc (hd.symm.trans (by decide))

/-- An opening tag ends with its closing angle. -/
theorem lastOf_openTag {name : Text} {b : Option Char} (h : Reads (openTag name) b u y) : lastOf b u = some '>' := by
  obtain ⟨v, w, rfl, -, hw⟩ := reads_seq_iff.1 h
  obtain ⟨v', w', rfl, -, hw'⟩ := reads_seq_iff.1 hw
  obtain rfl := reads_text_iff.1 (reads_last_iff.1 hw')
  rw [lastOf_append, lastOf_append]
  rfl

theorem seam_before (hu : ∃ d v, u = '<' :: d :: v ∧ d ≠ '!') : Seam x (u ++ y) := by
  obtain ⟨d, v, rfl, hd⟩ := hu
  exact ⟨doctypes_append_angle x _, x, d, v ++ y, rfl, List.prefix_rfl, hd⟩

theorem seam_behind (hu : ∃ d v, u = '<' :: d :: v ∧ d ≠ '!') (hend : lastOf (lastOf none x) u = some '>') :
    Seam (x ++ u) y := by
  obtain ⟨d, v, rfl, hd⟩ := hu
  have hreach : reach 0 (x ++ '<' :: d :: v) = 0 := reach_eq_zero_of_lastOf (by rw [lastOf_append, hend]; rfl)
  refine ⟨doctypes_append_of_reach hreach y, x, d, v ++ y, ?_, ?_, hd⟩
  · rw [List.append_assoc]
    rfl
  · exact List.prefix_append x _

/-! ### Where a script is put -/

theorem insulates_src {url : Text} (h : doctypes url = 0) : Insulates (ScriptElement.src url).render := by
  have hopen : Insulates "<script src=\"" := .literal rfl (by decide)
  have hclose : Insulates "\"></script>" := .literal rfl (by decide)
  exact hopen.framed h hclose

theorem isMatch_eq_false_iff {p : Pattern} {t : Text} : p.isMatch t = false ↔ p.find? t = none := by
  rw [isMatch, Option.isSome_eq_false_iff, Option.isNone_iff_eq_none]

/-- The places for a script, in the order in which they are tried. -/
inductive HeadPlace where
  /-- In front of the closing tag of the head. -/
  | headEnd
  /-- Behind the opening tag of the head. -/
  | headStart
  /-- In a head of its own, behind the opening tag of the document. -/
  | newHead
  /-- In front of all. -/
  | front
deriving DecidableEq, Repr

/-- What is put in front of an element. -/
def HeadPlace.lead : HeadPlace → Text
  | headEnd => "  "
  | headStart => "\n  "
  | newHead => "\n<head>\n  "
  | front => []

/-- What is put behind it. -/
def HeadPlace.trail : HeadPlace → Text
  | headEnd | front => "\n"
  | headStart => []
  | newHead => "\n</head>"

/-- What is put at the place for an element. -/
def HeadPlace.around (element : Text) (place : HeadPlace) : Text := place.lead ++ element ++ place.trail

/-- A document cut where a script is put. -/
structure HeadCut where
  place : HeadPlace
  before : Text
  behind : Text
deriving DecidableEq, Repr

/-- The cut of a document. -/
def headCut (html : Text) : HeadCut :=
  match headClose.find? html with
  | some m => ⟨.headEnd, textBefore html m.span.start, m.span.start.after⟩
  | none =>
    match (openTag "head").find? html with
    | some m => ⟨.headStart, textBefore html m.span.stop, m.span.stop.after⟩
    | none =>
      match (openTag "html").find? html with
      | some m => ⟨.newHead, textBefore html m.span.stop, m.span.stop.after⟩
      | none => ⟨.front, [], html⟩

/-- What makes a cut the one of a document. -/
inductive IsHeadCut : Text → HeadCut → Prop where
  | headEnd {x u y : Text} (h : Reads headClose (lastOf none x) u y) : IsHeadCut (x ++ (u ++ y)) ⟨.headEnd, x, u ++ y⟩
  | headStart {x u y : Text} (h : Reads (openTag "head") (lastOf none x) u y) :
      IsHeadCut (x ++ (u ++ y)) ⟨.headStart, x ++ u, y⟩
  | newHead {x u y : Text} (h : Reads (openTag "html") (lastOf none x) u y)
      (hclose : headClose.isMatch (x ++ (u ++ y)) = false) (hopen : (openTag "head").isMatch (x ++ (u ++ y)) = false) :
      IsHeadCut (x ++ (u ++ y)) ⟨.newHead, x ++ u, y⟩
  | front {html : Text} (h : LacksHead html) : IsHeadCut html ⟨.front, [], html⟩

theorem isHeadCut_headCut (html : Text) : IsHeadCut html (headCut html) := by
  unfold headCut
  split
  · next m hm =>
    obtain ⟨x, u, y, rfl, hstart, -, hreads⟩ := exists_cut_of_find? hm
    rw [List.append_assoc] at hstart ⊢
    rw [hstart, textBefore_behind, Cursor.after_behind]
    exact .headEnd hreads
  · next hclose =>
    split
    · next m hm =>
      obtain ⟨x, u, y, rfl, -, hstop, hreads⟩ := exists_cut_of_find? hm
      rw [hstop, textBefore_behind, Cursor.after_behind, List.append_assoc]
      exact .headStart hreads
    · next hopen =>
      split
      · next m hm =>
        obtain ⟨x, u, y, rfl, -, hstop, hreads⟩ := exists_cut_of_find? hm
        rw [hstop, textBefore_behind, Cursor.after_behind]
        rw [List.append_assoc] at hclose hopen ⊢
        exact .newHead hreads (isMatch_eq_false_iff.2 hclose) (isMatch_eq_false_iff.2 hopen)
      · next hroot =>
        refine .front ?_
        simp only [LacksHead, List.forall_mem_cons, isMatch_eq_false_iff]
        exact ⟨hclose, hopen, hroot, List.forall_mem_nil _⟩

/-- A script is put where the document is cut. -/
theorem injectHeadScript_eq (html url : Text) : injectHeadScript html url
    = (headCut html).before ++ ((headCut html).place.around (ScriptElement.src url).render ++ (headCut html).behind) := by
  unfold injectHeadScript headCut
  generalize headClose.find? html = closing, (openTag "head").find? html = opening, (openTag "html").find? html = root
  cases closing with
  | some m =>
    dsimp only [HeadPlace.around, HeadPlace.lead, HeadPlace.trail]
    simp only [List.append_assoc]
  | none =>
    cases opening with
    | some m =>
      dsimp only [HeadPlace.around, HeadPlace.lead, HeadPlace.trail]
      simp only [List.append_assoc, List.nil_append]
    | none =>
      cases root with
      | some m =>
        dsimp only [HeadPlace.around, HeadPlace.lead, HeadPlace.trail]
        simp only [List.append_assoc]
      | none =>
        dsimp only [HeadPlace.around, HeadPlace.lead, HeadPlace.trail]
        simp only [List.append_assoc, List.nil_append]

namespace IsHeadCut

variable {html : Text} {cut : HeadCut}

theorem append_eq (h : IsHeadCut html cut) : html = cut.before ++ cut.behind := by
  cases h with
  | headEnd | front => rfl
  | headStart | newHead => exact (List.append_assoc _ _ _).symm

/-- A script goes in front of all only if there is no tag to put it next to. -/
theorem lacksHead_iff (h : IsHeadCut html cut) : LacksHead html ↔ cut.place = .front := by
  have hnot {p : Pattern} {x u y : Text} (hp : p ∈ [headClose, openTag "head", openTag "html"])
      (hu : Reads p (lastOf none x) u y) : ¬ LacksHead (x ++ (u ++ y)) := by
    rw [← List.append_assoc]
    exact fun hlacks => Bool.false_ne_true ((hlacks p hp).symm.trans (isMatch_iff.2 ⟨x, u, y, rfl, hu⟩))
  cases h with
  | headEnd hu => exact iff_of_false (hnot (by simp) hu) nofun
  | headStart hu => exact iff_of_false (hnot (by simp) hu) nofun
  | newHead hu => exact iff_of_false (hnot (by simp) hu) nofun
  | front hlacks => exact iff_of_true hlacks rfl

/-- In front of a script there is nothing, or the document is cut at a seam. -/
theorem seam (h : IsHeadCut html cut) (hplace : cut.place ≠ .front) : Seam cut.before cut.behind := by
  have hslash : foldCase '/' ≠ '!' := by decide
  have hletter : foldCase 'h' ≠ '!' := by decide
  cases h with
  | headEnd hu => exact seam_before (exists_tag_of_reads hslash hu)
  | headStart hu | newHead hu _ _ => exact seam_behind (exists_tag_of_reads hletter hu) (lastOf_openTag hu)
  | front => exact absurd rfl hplace

end IsHeadCut

theorem HeadPlace.infix_around (element : Text) (place : HeadPlace) : element <:+: place.around element :=
  List.infix_append _ _ _

theorem HeadPlace.insulates_around {element : Text} (h : Insulates element) (place : HeadPlace) :
    Insulates (place.around element) := by
  have hindent : Insulates "  " := by decide
  have hline : Insulates "\n" := by decide
  have hnext : Insulates "\n  " := by decide
  have hopen : Insulates "\n<head>\n  " := by decide
  have hclose : Insulates "\n</head>" := by decide
  cases place with
  | headEnd => exact (hindent.append h).append hline
  | headStart =>
    show Insulates (_ ++ element ++ [])
    rw [List.append_nil]
    exact hnext.append h
  | newHead => exact (hopen.append h).append hclose
  | front => exact h.append hline

theorem injectHeadScript_of_lacksHead {html : Text} (h : LacksHead html) (url : Text) :
    injectHeadScript html url = (ScriptElement.src url).render ++ '\n' :: html := by
  have hcut := isHeadCut_headCut html
  have hfront := hcut.lacksHead_iff.1 h
  rw [injectHeadScript_eq]
  revert hfront hcut
  generalize headCut html = cut
  rintro (_ | _ | _ | _) hfront
  case front => exact List.append_assoc _ _ _
  all_goals exact absurd hfront nofun

/-- A script is put at a seam, with blanks or a head around it. -/
theorem exists_seam {html : Text} (h : ¬ LacksHead html) (url : Text) : ∃ x added y, html = x ++ y ∧
    injectHeadScript html url = x ++ (added ++ y) ∧ (ScriptElement.src url).render <:+: added ∧
    (doctypes url = 0 → Insulates added) ∧ Seam x y := by
  have hcut := isHeadCut_headCut html
  exact ⟨_, _, _, hcut.append_eq, injectHeadScript_eq html url, HeadPlace.infix_around _ _,
    fun hurl => HeadPlace.insulates_around (insulates_src hurl) _, hcut.seam fun hfront => h (hcut.lacksHead_iff.2 hfront)⟩

/-- The document has the element of the script. -/
theorem render_infix_injectHeadScript (html url : Text) :
    (ScriptElement.src url).render <:+: injectHeadScript html url := by
  by_cases h : LacksHead html
  · rw [injectHeadScript_of_lacksHead h]
    exact List.infix_append_left
  · obtain ⟨x, added, y, -, hout, htag, -⟩ := exists_seam h url
    rw [hout]
    exact htag.trans (List.infix_append_of_infix_right List.infix_append_left)

/-- Putting a script into a document takes no document type away, and brings none. -/
theorem doctypes_injectHeadScript {url : Text} (hurl : doctypes url = 0) (html : Text) :
    doctypes (injectHeadScript html url) = doctypes html := by
  by_cases h : LacksHead html
  · have hline : Insulates "\n" := by decide
    rw [injectHeadScript_of_lacksHead h, (insulates_src hurl).doctypes_front]
    exact hline.doctypes_front html
  · obtain ⟨x, added, y, rfl, hout, -, hadded, hseam⟩ := exists_seam h url
    rw [hout, (hadded hurl).doctypes_append, hseam.parts]

/-- So it has one only if it had one before. -/
theorem hasDoctype_injectHeadScript {url : Text} (hurl : doctypes url = 0) (html : Text) :
    hasDoctype (injectHeadScript html url) = hasDoctype html := by
  rw [Bool.eq_iff_iff, ← doctypes_pos_iff, ← doctypes_pos_iff, doctypes_injectHeadScript hurl]

/-- The addresses of the runtimes have no document type. -/
theorem Kind.doctypes_scripts (k : Kind) : ∀ url ∈ k.scripts, doctypes url = 0 := by
  have hreact : doctypes reactScript = 0 := doctypes_literal rfl (by decide)
  have hreactDom : doctypes reactDomScript = 0 := doctypes_literal rfl (by decide)
  have hbabel : doctypes babelScript = 0 := doctypes_literal rfl (by decide)
  have hvue : doctypes vueScript = 0 := doctypes_literal rfl (by decide)
  have hangular : doctypes angularScript = 0 := doctypes_literal rfl (by decide)
  have halpine : doctypes alpineScript = 0 := doctypes_literal rfl (by decide)
  unfold scripts
  cases k with
  | html | svelte | vanilla => exact List.forall_mem_nil _
  | react =>
    rw [List.forall_mem_cons, List.forall_mem_cons, List.forall_mem_singleton]
    exact ⟨hreact, hreactDom, hbabel⟩
  | vue => exact List.forall_mem_singleton.2 hvue
  | angular => exact List.forall_mem_singleton.2 hangular
  | alpine => exact List.forall_mem_singleton.2 halpine

/-! ### The front of a document -/

/-- The text is what a document starts with: a document type, perhaps behind blanks, and what follows up to a tag. -/
def IsFront (front : Text) : Prop :=
  ∃ blanks word rest, front = blanks ++ (word ++ rest) ∧ blanks.all isBlank = true ∧
    Text.lowerAscii word = doctypeWord ∧ '<' ∉ rest

/-- The one angle of a front opens its document type. -/
theorem IsFront.exists_angle {front : Text} (h : IsFront front) :
    ∃ blanks rest, front = blanks ++ '<' :: '!' :: rest ∧ '<' ∉ blanks ∧ '<' ∉ rest := by
  obtain ⟨blanks, word, rest, rfl, hblanks, hword, hrest⟩ := h
  obtain ⟨a, word, rfl, ha, htail⟩ := List.map_eq_cons_iff.1 hword
  obtain ⟨b, word, rfl, hb, hname⟩ := List.map_eq_cons_iff.1 htail
  obtain rfl := eq_angle_of_toLower ha
  obtain rfl : b = '!' := Classical.byContradiction fun hne => toLower_ne hne (by decide) hb
  refine ⟨blanks, word ++ rest, rfl, not_mem_of_all_isBlank hblanks, ?_⟩
  rw [List.mem_append, not_or]
  refine ⟨fun hmem => ?_, hrest⟩
  have hlower : '<'.toLower ∈ word.map Char.toLower := List.mem_map_of_mem hmem
  rw [hname] at hlower
  exact absurd hlower (by decide)

theorem IsFront.hasDoctype {front : Text} (h : IsFront front) : hasDoctype front = true := by
  obtain ⟨blanks, word, rest, rfl, -, hword, -⟩ := h
  rw [hasDoctype_eq_contains, Text.contains_iff]
  refine ⟨Text.lowerAscii blanks, Text.lowerAscii rest, ?_⟩
  have hlower : Text.lowerAscii (blanks ++ (word ++ rest))
      = Text.lowerAscii blanks ++ (Text.lowerAscii word ++ Text.lowerAscii rest) := by
    simp only [Text.lowerAscii, List.map_append]
  rw [hlower, hword, List.append_assoc]
  rfl

/-- No document with a script in front of it has a front. -/
theorem IsFront.not_isPrefix_src {front url t : Text} (h : IsFront front) :
    ¬ front <+: (ScriptElement.src url).render ++ t := by
  obtain ⟨blanks, rest, rfl, hblanks, -⟩ := h.exists_angle
  intro hprefix
  have hscript : (ScriptElement.src url).render
      = '<' :: 's' :: ("cript src=\"".toList ++ url ++ "\"></script>".toList) := rfl
  rw [hscript, List.cons_append, List.cons_append] at hprefix
  cases blanks with
  | nil => exact absurd (List.cons_prefix_cons.1 (List.cons_prefix_cons.1 hprefix).2).1 (by decide)
  | cons c blanks =>
    obtain rfl := (List.cons_prefix_cons.1 hprefix).1
    exact hblanks List.mem_cons_self

/-- A front lies in front of every seam. -/
theorem Seam.isPrefix {front : Text} (hseam : Seam x y) (hfront : IsFront front) (h : front <+: x ++ y) :
    front <+: x := by
  obtain ⟨x', c, y', hxy, hx, hc⟩ := hseam.tag
  obtain ⟨blanks, rest, rfl, hblanks, hrest⟩ := hfront.exists_angle
  obtain ⟨z, hz⟩ := h
  rw [hxy] at hz
  refine List.IsPrefix.trans ?_ hx
  rcases List.append_eq_append_iff.1 hz with ⟨w, hw, -⟩ | ⟨w, hw, hcut⟩
  · exact ⟨w, hw.symm⟩
  · cases w with
    | nil => exact ⟨[], by rw [hw, List.append_nil, List.append_nil]⟩
    | cons b w =>
      -- the seam would lie within the front, and its tag would be the document type
      obtain ⟨rfl, htail⟩ := List.cons_eq_cons.1 hcut
      have hangle : '<' ∉ '!' :: rest := by
        rw [List.mem_cons, not_or]
        exact ⟨by decide, hrest⟩
      obtain ⟨-, -, rfl⟩ := (List.append_cons_inj_of_notMem hblanks hangle).1 hw
      exact absurd (List.cons_eq_cons.1 htail).1 hc

end SnippetPreview
