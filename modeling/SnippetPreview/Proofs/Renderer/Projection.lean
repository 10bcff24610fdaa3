import SnippetPreview.Proofs.Document.Seams
import SnippetPreview.Renderer.Registry

/-!
# Rendering a rendered document

* `Renderer.Settles`: the completed output of a renderer is left alone when it comes in again, and has its document type
  at its start when the source brings none;
* `Renderer.settles_of_passes`: renderers that leave every document with a document type alone settle;
* `Vue.loads_render`, `Angular.loads_render`: each way through these two renderers ends in a document that loads their
  runtime, which is what they look for in complete documents;
* `render_projection`: with the built-in renderers, rendering is a projection.
-/

namespace SnippetPreview

/-! ### Renderers that settle -/

/-- What a renderer puts out, completed, is final. -/
structure Renderer.Settles (r : Renderer) : Prop where
  /-- The completed output is left alone. -/
  fixes : ∀ source verdict, r.render (ensureDoctype (r.render source verdict)) verdict
    = ensureDoctype (r.render source verdict)
  /-- A document type that the source does not have stands at the start. -/
  fronts : ∀ source verdict, hasDoctype source = false →
    hasDoctype (r.render source verdict) = false ∨ frontDoctype <+: r.render source verdict

theorem Renderer.settles_of_passes {r : Renderer} (passes : ∀ t v, hasDoctype t = true → r.render t v = t)
    (fronts : ∀ t v, hasDoctype t = false → r.render t v = t ∨ frontDoctype <+: r.render t v) : r.Settles where
  fixes t v := passes _ v (hasDoctype_ensureDoctype _)
  fronts t v h := by
    rcases fronts t v h with e | e
    · left
      rw [e, h]
    · exact .inr e

/-- Documents with a document type count as complete. -/
theorem isHtmlDocument_of_hasDoctype {t : Text} (h : hasDoctype t = true) : isHtmlDocument t = true := by
  show (Pattern.alt doctype _).isMatch t = true
  rw [isMatch_alt, Bool.or_eq_true]
  exact .inl h

theorem Complete.settles : Complete.renderer.Settles :=
  Renderer.settles_of_passes (fun _ _ _ => rfl) fun _ _ _ => .inl rfl

theorem Plain.documentPart_of_hasDoctype {t : Text} (h : hasDoctype t = true) : Plain.documentPart.isMatch t = true := by
  show (Pattern.alt doctype _).isMatch t = true
  rw [isMatch_alt, Bool.or_eq_true]
  exact .inl h

theorem Plain.render_of_hasDoctype {t : Text} (h : hasDoctype t = true) : Plain.render t = t :=
  if_pos (Plain.documentPart_of_hasDoctype h)

theorem Plain.settles : Plain.renderer.Settles := by
  refine Renderer.settles_of_passes (fun t _ h => Plain.render_of_hasDoctype h) fun t _ _ => ?_
  show Plain.render t = t ∨ frontDoctype <+: Plain.render t
  unfold Plain.render
  split
  · exact .inl rfl
  · right
    dsimp only
    split
    · exact Shell.frontDoctype_prefix_finish _
    · split <;> exact Shell.frontDoctype_prefix_finish _

theorem React.settles : React.renderer.Settles := by
  refine Renderer.settles_of_passes (fun t _ h => if_pos (isHtmlDocument_of_hasDoctype h)) fun t _ _ => ?_
  show React.render t = t ∨ frontDoctype <+: React.render t
  unfold React.render
  split
  · exact .inl rfl
  · exact .inr (Shell.frontDoctype_prefix_finish _)

theorem Alpine.settles : Alpine.renderer.Settles := by
  refine Renderer.settles_of_passes (fun t v h => if_pos h) fun t v h => ?_
  show Alpine.render t v = t ∨ frontDoctype <+: Alpine.render t v
  unfold Alpine.render
  split
  · exact .inl rfl
  · exact .inr (Shell.frontDoctype_prefix_finish _)

/-! ### Renderers that add a runtime -/

/-- A document that holds the element for the runtime of Vue is seen to load it. -/
theorem Vue.runtimeScript_isMatch {t : Text} (h : (ScriptElement.src Kind.vueScript).render <:+: t) :
    Vue.runtimeScript.isMatch t = true :=
  isMatch_of_isInfix rfl rfl (by decide +kernel) h

/-- A document that holds the element for the runtime of AngularJS is seen to load it. -/
theorem Angular.runtimeScript_isMatch {t : Text} (h : (ScriptElement.src Kind.angularScript).render <:+: t) :
    Angular.runtimeScript.isMatch t = true :=
  isMatch_of_isInfix rfl rfl (by decide +kernel) h

/-- Each way through the renderer ends in a document that loads the runtime. -/
theorem Vue.loads_render (t : Text) : Vue.runtimeScript.isMatch (Vue.render t) = true := by
  have hshell : .src Kind.vueScript ∈ Vue.shell.headScripts := List.mem_singleton_self _
  unfold Vue.render
  split
  · split
    · assumption
    · exact Vue.runtimeScript_isMatch (render_infix_injectHeadScript t _)
  · split
    · refine Vue.runtimeScript_isMatch (Shell.render_infix_finish ?_)
      simpa using hshell
    · refine Vue.runtimeScript_isMatch (Shell.render_infix_finish ?_)
      simpa using hshell

theorem Vue.settles : Vue.renderer.Settles where
  fixes t _ := by
    show Vue.render (ensureDoctype (Vue.render t)) = ensureDoctype (Vue.render t)
    have hdoc := isHtmlDocument_of_hasDoctype (hasDoctype_ensureDoctype (Vue.render t))
    have hload : Vue.runtimeScript.isMatch (ensureDoctype (Vue.render t)) = true :=
      isMatch_of_isInfix rfl rfl (Vue.loads_render t) (suffix_ensureDoctype _).isInfix
    rw [Vue.render, if_pos hdoc, if_pos hload]
  fronts t _ h := by
    show hasDoctype (Vue.render t) = false ∨ frontDoctype <+: Vue.render t
    unfold Vue.render
    split
    · left
      split
      · exact h
      · rw [hasDoctype_injectHeadScript (Kind.doctypes_scripts .vue _ (List.mem_singleton_self _)), h]
    · right
      split
      · exact Shell.frontDoctype_prefix_finish _
      · exact Shell.frontDoctype_prefix_finish _

/-- What the renderer for Angular takes for a document that needs no runtime. -/
def Angular.Loads (t : Text) : Prop := (t.contains "@angular/" || Angular.runtimeScript.isMatch t) = true

theorem Angular.Loads.of_isInfix {t t' : Text} (h : Loads t) (ht : t <:+: t') : Loads t' := by
  rw [Loads, Bool.or_eq_true] at h ⊢
  rcases h with h | h
  · exact .inl (Text.contains_of_isInfix h ht)
  · exact .inr (isMatch_of_isInfix rfl rfl h ht)

theorem Angular.loads_of_isInfix {t : Text} (h : (ScriptElement.src Kind.angularScript).render <:+: t) : Loads t := by
  rw [Loads, Bool.or_eq_true]
  exact .inr (Angular.runtimeScript_isMatch h)

theorem Angular.headScripts_controllerShell (template : Text) (statements : List Text) :
    .src Kind.angularScript ∈ (controllerShell template statements).headScripts := List.mem_singleton_self _

/-- Each way through the renderer ends in a document that needs no runtime. -/
theorem Angular.loads_render (t : Text) : Loads (Angular.render t) := by
  unfold Angular.render
  split
  · split
    · assumption
    · exact loads_of_isInfix (render_infix_injectHeadScript t _)
  · split
    · refine loads_of_isInfix (Shell.render_infix_finish ?_)
      rw [Shell.headScripts_style]
      exact headScripts_controllerShell _ _
    · split
      · unfold Angular.renderPlain
        split
        · exact loads_of_isInfix (Shell.render_infix_finish (List.mem_singleton_self _))
        · exact loads_of_isInfix (Shell.render_infix_finish (List.mem_singleton_self _))
      · exact loads_of_isInfix (Shell.render_infix_finish (headScripts_controllerShell _ _))

theorem Angular.settles : Angular.renderer.Settles where
  fixes t _ := by
    show Angular.render (ensureDoctype (Angular.render t)) = ensureDoctype (Angular.render t)
    have hdoc := isHtmlDocument_of_hasDoctype (hasDoctype_ensureDoctype (Angular.render t))
    have hload : Loads (ensureDoctype (Angular.render t)) :=
      (Angular.loads_render t).of_isInfix (suffix_ensureDoctype _).isInfix
    rw [Angular.render, if_pos hdoc]
    exact if_pos hload
  fronts t _ h := by
    show hasDoctype (Angular.render t) = false ∨ frontDoctype <+: Angular.render t
    unfold Angular.render
    split
    · left
      split
      · exact h
      · rw [hasDoctype_injectHeadScript (Kind.doctypes_scripts .angular _ (List.mem_singleton_self _)), h]
    · right
      split
      · exact Shell.frontDoctype_prefix_finish _
      · split
        · unfold Angular.renderPlain
          split <;> exact Shell.frontDoctype_prefix_finish _
        · exact Shell.frontDoctype_prefix_finish _

/-! ### The built-in renderers -/

theorem Registry.settles_rendererFor_builtin (k : Kind) : (Registry.builtin.rendererFor k).Settles := by
  cases k with
  | html => exact Complete.settles
  | react => exact React.settles
  | vue => exact Vue.settles
  | angular => exact Angular.settles
  | svelte => exact Plain.settles
  | alpine => exact Alpine.settles
  | vanilla => exact Plain.settles

/-- **Rendering is a projection.** A rendered document is rendered to itself. It has a document type, at its start when
the source has none. -/
theorem render_projection (source : Text) (verdict : Verdict) :
    render (render source verdict) verdict = render source verdict ∧
      Text.contains (render source verdict).lowerAscii "<!doctype" = true ∧
      (Text.contains source.lowerAscii "<!doctype" = false → "<!DOCTYPE html>".toList <+: render source verdict) := by
  have hs := Registry.settles_rendererFor_builtin verdict.kind
  refine ⟨?_, ?_, fun h => ?_⟩
  · show ensureDoctype _ = _
    rw [show (Registry.builtin.rendererFor verdict.kind).render (render source verdict) verdict = _ from
      hs.fixes source verdict]
    exact ensureDoctype_eq_self (hasDoctype_ensureDoctype _)
  · rw [← hasDoctype_eq_contains]
    exact hasDoctype_ensureDoctype _
  · rw [← hasDoctype_eq_contains] at h
    show frontDoctype <+: ensureDoctype _
    rcases hs.fronts source verdict h with h | h
    · rw [ensureDoctype_of_not h]
      exact List.prefix_append _ _
    · rw [ensureDoctype_eq_self (hasDoctype_of_isPrefix h)]
      exact h

/-- A snippet of Vue without a document type. -/
theorem render_projection_loose :
    Text.contains (Text.lowerAscii "const n = ref(0);") "<!doctype" = false ∧
      "<!DOCTYPE html>".toList <+: render "const n = ref(0);" (Verdict.ofKind .vue) :=
  ⟨by decide, (render_projection _ _).2.2 (by decide)⟩

end SnippetPreview
