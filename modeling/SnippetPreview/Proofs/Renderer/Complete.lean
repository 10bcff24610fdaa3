import SnippetPreview.Proofs.Document.Tags
import SnippetPreview.Proofs.Renderer.FirstDoctype

/-!
# Complete documents

Whether a source is a complete document, the classifier asks with one test, and some renderers with one of their own.

* `Addition`, `IsCompletion`: a document that has been given at most a document type in front and one runtime;
* `IsCompletion.tagsNamed_le`: such a document has no more bodies than before, and at most one more head;
* `render_completes`: this is all that happens to a complete document that passes the test of its renderer;
* `not_isCompletion_render`: a document that fails this test is put into the body of another one, although the classifier
  takes it for complete.
-/

namespace SnippetPreview

/-- What a complete document of a kind can be given besides a document type: nothing, or one of the runtimes of the kind,
in a head of its own only if there is no tag of a head. -/
inductive Addition (k : Kind) (source : Text) : Text → Prop where
  | nothing : Addition k source []
  | runtime {url : Text} {place : HeadPlace} (hurl : url ∈ k.scripts) (hplace : place = .newHead → ¬ HasHeadTag source) :
      Addition k source (place.around (ScriptElement.src url).render)

/-- The document is the source with at most two insertions: a line with a document type in front, and a runtime. -/
def IsCompletion (k : Kind) (source document : Text) : Prop :=
  ∃ front x added y, source = x ++ y ∧ document = front ++ (x ++ (added ++ y)) ∧
    (front = [] ∨ front = frontDoctype ++ ['\n']) ∧ Addition k source added

variable {k : Kind} {source document : Text}

/-! ### Tags of a completed document -/

/-- The heads that a document can be given. -/
def headsToAdd (source : Text) : Nat := if HasHeadTag source then 0 else 1

theorem HeadPlace.heads_le {place : HeadPlace} (hplace : place = .newHead → ¬ HasHeadTag source) :
    place.heads ≤ headsToAdd source := by
  cases place with
  | newHead => exact Nat.le_of_eq (if_neg (hplace rfl)).symm
  | headEnd | headStart | front => exact Nat.zero_le _

theorem Addition.tagsNamed_le {added : Text} (h : Addition k source added) (x y : Text) :
    tagsNamed "body" (x ++ (added ++ y)) ≤ tagsNamed "body" (x ++ y) ∧
      tagsNamed "head" (x ++ (added ++ y)) ≤ tagsNamed "head" (x ++ y) + headsToAdd source := by
  cases h with
  | nothing => exact ⟨Nat.le_refl _, Nat.le_add_right _ _⟩
  | @runtime url place hurl hplace =>
    obtain ⟨hpartsBody, hpartsHead, hbody, hhead⟩ := place.tagsNamed_around hurl
    have hheads := HeadPlace.heads_le hplace
    have hbody' := tagsNamed_insert_le hpartsBody x y
    have hhead' := tagsNamed_insert_le hpartsHead x y
    omega

/-- A line with a document type brings no tags. -/
theorem tagsNamed_frontDoctype {front : Text} (h : front = [] ∨ front = frontDoctype ++ ['\n']) (t : Text) :
    tagsNamed "body" (front ++ t) ≤ tagsNamed "body" t ∧ tagsNamed "head" (front ++ t) ≤ tagsNamed "head" t := by
  rcases h with rfl | rfl
  · exact ⟨Nat.le_refl _, Nat.le_refl _⟩
  · have hline : ["body".toList, "head".toList].all (fun name => partsTagsNamed name (frontDoctype ++ ['\n'])
        && tagsNamed name (frontDoctype ++ ['\n']) == 0) = true := by
      decide +kernel
    have hbrings {name : Text} (hname : name ∈ ["body".toList, "head".toList]) :
        tagsNamed name (frontDoctype ++ ['\n'] ++ t) ≤ tagsNamed name t := by
      have hfacts := List.all_eq_true.1 hline name hname
      rw [Bool.and_eq_true, beq_iff_eq] at hfacts
      have hle := tagsNamed_insert_le hfacts.1 [] t
      rwa [hfacts.2] at hle
    exact ⟨hbrings (by decide), hbrings (by decide)⟩

/-- A completed document has no more bodies than before. It has one more head at most, and only if it had no tag of one. -/
theorem IsCompletion.tagsNamed_le (h : IsCompletion k source document) :
    tagsNamed "body" document ≤ tagsNamed "body" source ∧
      tagsNamed "head" document ≤ tagsNamed "head" source + headsToAdd source := by
  obtain ⟨front, x, added, y, hsource, rfl, hfront, hadded⟩ := h
  obtain ⟨hbody, hhead⟩ := hadded.tagsNamed_le x y
  obtain ⟨hbody', hhead'⟩ := tagsNamed_frontDoctype hfront (x ++ (added ++ y))
  rw [← hsource] at hbody hhead
  omega

/-! ### Rendering -/

theorem isCompletion_addedRuntime (source : Text) (k : Kind) :
    ∃ x added y, source = x ++ y ∧ Addition k source added ∧
      (addedRuntime? source k).elim source (injectHeadScript source) = x ++ (added ++ y) := by
  cases hruntime : addedRuntime? source k with
  | none => exact ⟨source, [], [], (List.append_nil _).symm, .nothing, (List.append_nil _).symm⟩
  | some url =>
    have hcut := isHeadCut_headCut source
    exact ⟨_, _, _, hcut.append_eq, .runtime (mem_scripts_of_addedRuntime? hruntime) hcut.not_hasHeadTag,
      injectHeadScript_eq source url⟩

/-- **Complete documents are completed at most.** A complete document that passes the test of its renderer is rendered as
itself with at most two insertions: a line with a document type in front, and a runtime of its kind, in a head of its own
only if there is no tag of a head. So it has no more bodies than before, and one more head at most. -/
theorem render_completes {v : Verdict} (hdoc : isHtmlDocument source = true) (hown : v.kind.ownTest source = true) :
    IsCompletion v.kind source (render source v) ∧
      tagsNamed "body" (render source v) ≤ tagsNamed "body" source ∧
      tagsNamed "head" (render source v) ≤ tagsNamed "head" source + headsToAdd source := by
  have hcompletion : IsCompletion v.kind source (render source v) := by
    obtain ⟨x, added, y, hsource, hadded, hout⟩ := isCompletion_addedRuntime source v.kind
    rw [render_of_ownTest hdoc hown, hout]
    cases h : hasDoctype (x ++ (added ++ y)) with
    | true =>
      rw [ensureDoctype_eq_self h]
      exact ⟨[], x, added, y, hsource, rfl, .inl rfl, hadded⟩
    | false =>
      rw [ensureDoctype_of_not h]
      exact ⟨frontDoctype ++ ['\n'], x, added, y, hsource, by simp, .inr rfl, hadded⟩
  exact ⟨hcompletion, hcompletion.tagsNamed_le⟩

/-- A document without a tag of a head is given one for the runtime. -/
theorem render_completes_vue :
    isHtmlDocument "<html><body>Hi</body></html>" = true ∧
      Kind.ownTest "<html><body>Hi</body></html>" .vue = true ∧
      IsCompletion .vue "<html><body>Hi</body></html>" (render "<html><body>Hi</body></html>" (Verdict.ofKind .vue)) ∧
      tagsNamed "head" (render "<html><body>Hi</body></html>" (Verdict.ofKind .vue)) ≤ 1 := by
  have hdoc : isHtmlDocument "<html><body>Hi</body></html>" = true := by decide +kernel
  have hown : Kind.ownTest "<html><body>Hi</body></html>" .vue = true := rfl
  have hheads : tagsNamed "head" "<html><body>Hi</body></html>" + headsToAdd "<html><body>Hi</body></html>" = 1 := by
    decide +kernel
  obtain ⟨hcompletion, -, hhead⟩ := render_completes (v := Verdict.ofKind .vue) hdoc hown
  exact ⟨hdoc, hown, hcompletion, hheads ▸ hhead⟩

/-! ### Documents that fail the test of their renderer -/

/-- A source that fails the test of its renderer is put into a document of its own. -/
theorem exists_finish_of_not_ownTest {v : Verdict} (hown : v.kind.ownTest source = false) :
    ∃ s : Shell, render source v = s.finish := by
  suffices h : ∃ s : Shell, (Registry.builtin.rendererFor v.kind).render source v = s.finish by
    obtain ⟨s, hs⟩ := h
    refine ⟨s, ?_⟩
    show ensureDoctype _ = _
    rw [hs, ensureDoctype_eq_self (hasDoctype_of_isPrefix s.frontDoctype_prefix_finish)]
  cases hkind : v.kind with
  | html | react | vue | angular =>
    rw [hkind] at hown
    exact absurd hown nofun
  | alpine =>
    rw [hkind] at hown
    exact ⟨_, if_neg (Bool.eq_false_iff.1 hown)⟩
  | svelte | vanilla =>
    rw [hkind] at hown
    change Plain.documentPart.isMatch source = false at hown
    show ∃ s : Shell, Plain.render source = s.finish
    unfold Plain.render
    rw [if_neg (Bool.eq_false_iff.1 hown)]
    dsimp only
    split
    · exact ⟨_, rfl⟩
    · split <;> exact ⟨_, rfl⟩

/-- So it is not just completed, if it has no body. -/
theorem not_isCompletion_of_not_ownTest {v : Verdict} (hown : v.kind.ownTest source = false)
    (hbody : tagsNamed "body" source = 0) : ¬ IsCompletion v.kind source (render source v) := by
  intro hcompletion
  obtain ⟨s, hs⟩ := exists_finish_of_not_ownTest hown
  have hle := hcompletion.tagsNamed_le.1
  have hpos := s.tagsNamed_finish_pos
  rw [hs] at hle
  omega

/-- **Some complete documents are put into another one.** So is a document without a document type for Alpine, even if it
loads the runtime, and an empty root element for Svelte and for plain snippets. The tests of these renderers are narrower
than the one of the classifier. And a tag of a head that closes itself is none to put a runtime next to. -/
theorem not_isCompletion_render :
    let page : Text := "<html><script src=\"alpine.js\"></script><p x-data></p></html>"
    let root : Text := "<html/>"
    isHtmlDocument page = true ∧ ¬ IsCompletion .alpine page (render page (Verdict.ofKind .alpine)) ∧
      isHtmlDocument root = true ∧ ¬ IsCompletion .svelte root (render root (Verdict.ofKind .svelte)) ∧
      ¬ IsCompletion .vanilla root (render root (Verdict.ofKind .vanilla)) ∧
      isHtmlDocument "<html><head/></html>" = true ∧
      render "<html><head/></html>" (Verdict.ofKind .vue)
        = "<!DOCTYPE html>\n<html>\n<head>\n  <script src=\"https://unpkg.com/vue@3/dist/vue.global.js\"></script>\n"
          ++ "</head><head/></html>" := by
  intro page root
  have hpage : isHtmlDocument page = true := by decide +kernel
  have hroot : isHtmlDocument root = true := by decide +kernel
  have hclosed : isHtmlDocument "<html><head/></html>" = true := by decide +kernel
  have halpine : ¬ IsCompletion .alpine page (render page (Verdict.ofKind .alpine)) :=
    not_isCompletion_of_not_ownTest (v := Verdict.ofKind .alpine) (by decide +kernel) (by decide +kernel)
  have hsvelte : ¬ IsCompletion .svelte root (render root (Verdict.ofKind .svelte)) :=
    not_isCompletion_of_not_ownTest (v := Verdict.ofKind .svelte) (by decide +kernel) (by decide +kernel)
  have hvanilla : ¬ IsCompletion .vanilla root (render root (Verdict.ofKind .vanilla)) :=
    not_isCompletion_of_not_ownTest (v := Verdict.ofKind .vanilla) (by decide +kernel) (by decide +kernel)
  have hruntime : addedRuntime? "<html><head/></html>" .vue = some Kind.vueScript := by decide +kernel
  have hcut : headCut "<html><head/></html>" = ⟨.newHead, "<html>", "<head/></html>"⟩ := by decide +kernel
  have hvue : render "<html><head/></html>" (Verdict.ofKind .vue)
      = "<!DOCTYPE html>\n<html>\n<head>\n  <script src=\"https://unpkg.com/vue@3/dist/vue.global.js\"></script>\n"
        ++ "</head><head/></html>" := by
    have hinject := injectHeadScript_eq "<html><head/></html>" Kind.vueScript
    have hnone : hasDoctype "<html><head/></html>" = false := by decide +kernel
    rw [hcut] at hinject
    rw [render_of_addedRuntime (v := Verdict.ofKind .vue) hclosed rfl hruntime hnone, hinject]
    decide +kernel
  exact ⟨hpage, halpine, hroot, hsvelte, hvanilla, hclosed, hvue⟩

end SnippetPreview
