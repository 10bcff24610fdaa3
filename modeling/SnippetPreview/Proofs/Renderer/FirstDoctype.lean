import SnippetPreview.Proofs.Renderer.Projection

/-!
# Documents that start with a document type

* `addedRuntime?`: the runtime that a document is given, if it does not load it;
* `Kind.ownTest`, `render_of_ownTest`: otherwise a complete document is left alone, when it passes the test of its renderer;
* `render_of_hasDoctype`: so is every document with a document type;
* `render_keeps_front`: such a document keeps all its document types, and what it starts with unless the runtime is put
  in front of it.
-/

namespace SnippetPreview

open Pattern

/-- The address of the runtime that a complete document of a kind is given, none when it loads the runtime. -/
def addedRuntime? (source : Text) : Kind → Option Text
  | .vue => if Vue.runtimeScript.isMatch source then none else some Kind.vueScript
  | .angular =>
    if source.contains "@angular/" || Angular.runtimeScript.isMatch source then none else some Kind.angularScript
  | .html | .react | .svelte | .alpine | .vanilla => none

variable {source : Text}

/-- The runtime is one of those that the kind loads. -/
theorem mem_scripts_of_addedRuntime? {k : Kind} {url : Text} (h : addedRuntime? source k = some url) :
    url ∈ k.scripts := by
  unfold addedRuntime? at h
  split at h
  · split at h
    · exact absurd h nofun
    · exact List.mem_singleton.2 (Option.some.inj h).symm
  · split at h
    · exact absurd h nofun
    · exact List.mem_singleton.2 (Option.some.inj h).symm
  all_goals exact absurd h nofun

theorem doctypes_addedRuntime? {k : Kind} {url : Text} (h : addedRuntime? source k = some url) : doctypes url = 0 :=
  Kind.doctypes_scripts k url (mem_scripts_of_addedRuntime? h)

/-- What the renderer of a kind asks of a complete document before it leaves it alone. -/
def Kind.ownTest (source : Text) : Kind → Bool
  | .alpine => hasDoctype source
  | .svelte | .vanilla => Plain.documentPart.isMatch source
  | .html | .react | .vue | .angular => true

/-- A complete document that passes the test of its renderer is at most given a runtime. -/
theorem rendererFor_of_ownTest {v : Verdict} (hdoc : isHtmlDocument source = true) (hown : v.kind.ownTest source = true) :
    (Registry.builtin.rendererFor v.kind).render source v
      = (addedRuntime? source v.kind).elim source (injectHeadScript source) := by
  cases hkind : v.kind with
  | html => rfl
  | react => exact if_pos hdoc
  | vue =>
    show Vue.render source = _
    unfold Vue.render addedRuntime?
    rw [if_pos hdoc]
    split <;> rfl
  | angular =>
    show Angular.render source = _
    unfold Angular.render addedRuntime?
    rw [if_pos hdoc]
    split <;> rfl
  | alpine | svelte | vanilla =>
    rw [hkind] at hown
    exact if_pos hown

theorem Kind.ownTest_of_hasDoctype (h : hasDoctype source = true) (k : Kind) : k.ownTest source = true := by
  cases k with
  | alpine => exact h
  | svelte | vanilla => exact Plain.documentPart_of_hasDoctype h
  | html | react | vue | angular => rfl

/-- With a document type in front if need be, and at most a runtime in its head, the document is rendered. -/
theorem render_of_ownTest {v : Verdict} (hdoc : isHtmlDocument source = true) (hown : v.kind.ownTest source = true) :
    render source v = ensureDoctype ((addedRuntime? source v.kind).elim source (injectHeadScript source)) :=
  congrArg ensureDoctype (rendererFor_of_ownTest hdoc hown)

theorem hasDoctype_addedRuntime (source : Text) (k : Kind) :
    hasDoctype ((addedRuntime? source k).elim source (injectHeadScript source)) = hasDoctype source := by
  cases hruntime : addedRuntime? source k with
  | none => rfl
  | some url => exact hasDoctype_injectHeadScript (doctypes_addedRuntime? hruntime) source

/-- A document without a document type is given one in front, wherever it is given a runtime. -/
theorem render_of_addedRuntime {v : Verdict} {url : Text} (hdoc : isHtmlDocument source = true)
    (hown : v.kind.ownTest source = true) (hruntime : addedRuntime? source v.kind = some url)
    (hnone : hasDoctype source = false) :
    render source v = frontDoctype ++ '\n' :: injectHeadScript source url := by
  have hstill := (hasDoctype_addedRuntime source v.kind).trans hnone
  rw [hruntime] at hstill
  rw [render_of_ownTest hdoc hown, hruntime]
  exact ensureDoctype_of_not hstill

/-- A document with a document type is at most given a runtime. -/
theorem render_of_hasDoctype (h : hasDoctype source = true) (v : Verdict) :
    render source v = (addedRuntime? source v.kind).elim source (injectHeadScript source) := by
  rw [render_of_ownTest (isHtmlDocument_of_hasDoctype h) (Kind.ownTest_of_hasDoctype h _)]
  exact ensureDoctype_eq_self ((hasDoctype_addedRuntime source v.kind).trans h)

/-- **The first document type stays first.** A document that starts with a document type keeps all its document types
and gets none. It starts as before unless it is given a runtime and has no tag to put it next to. The runtime then
stands in front of the document type. -/
theorem render_keeps_front {front : Text} (v : Verdict) (hfront : IsFront front) (hsource : front <+: source) :
    doctypes (render source v) = doctypes source ∧
      (front <+: render source v ↔ ¬ (LacksHead source ∧ (addedRuntime? source v.kind).isSome = true)) ∧
      (∀ url, addedRuntime? source v.kind = some url → LacksHead source →
        render source v = (ScriptElement.src url).render ++ '\n' :: source) := by
  have hdoc : hasDoctype source = true := hasDoctype_of_isInfix hfront.hasDoctype hsource.isInfix
  rw [render_of_hasDoctype hdoc]
  cases hruntime : addedRuntime? source v.kind with
  | none => exact ⟨rfl, iff_of_true hsource fun h => Bool.false_ne_true h.2, fun _ h => absurd h nofun⟩
  | some url =>
    have hurl := doctypes_addedRuntime? hruntime
    refine ⟨doctypes_injectHeadScript hurl source, ?_, fun url' hurl' hhead => ?_⟩
    · by_cases hhead : LacksHead source
      · rw [Option.elim_some, injectHeadScript_of_lacksHead hhead]
        exact iff_of_false hfront.not_isPrefix_src fun h => h ⟨hhead, rfl⟩
      · obtain ⟨x, added, y, rfl, hout, -, -, hseam⟩ := exists_seam hhead url
        rw [Option.elim_some, hout]
        refine iff_of_true ((hseam.isPrefix hfront hsource).trans (List.prefix_append _ _)) fun h => hhead h.1
    · obtain rfl := Option.some.inj hurl'
      exact injectHeadScript_of_lacksHead hhead url

/-- A document with a root element, and one without any tag of a head. -/
theorem render_keeps_front_vue :
    IsFront "<!doctype html>" ∧
      doctypes (render "<!doctype html><html><p>x</p></html>" (Verdict.ofKind .vue)) = 1 ∧
      "<!doctype html>".toList <+: render "<!doctype html><html><p>x</p></html>" (Verdict.ofKind .vue) ∧
      ¬ "<!doctype html>".toList <+: render "<!doctype html><p>x</p>" (Verdict.ofKind .vue) := by
  have hfront : IsFront "<!doctype html>" := ⟨[], "<!doctype", " html>", by decide⟩
  have hsource : "<!doctype html>".toList <+: "<!doctype html><html><p>x</p></html>".toList := by decide
  have hbare : "<!doctype html>".toList <+: "<!doctype html><p>x</p>".toList := by decide
  obtain ⟨hcount, hkeeps, -⟩ := render_keeps_front (Verdict.ofKind .vue) hfront hsource
  have hroot : ¬ LacksHead "<!doctype html><html><p>x</p></html>" := by decide +kernel
  have hlacks : LacksHead "<!doctype html><p>x</p>" := by decide +kernel
  have hruntime : (addedRuntime? "<!doctype html><p>x</p>" .vue).isSome = true := by decide +kernel
  refine ⟨hfront, ?_, hkeeps.2 fun h => hroot h.1, fun h => ?_⟩
  · rw [hcount]
    decide +kernel
  · exact (render_keeps_front (Verdict.ofKind .vue) hfront hbare).2.1.1 h ⟨hlacks, hruntime⟩

end SnippetPreview
