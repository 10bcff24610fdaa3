import SnippetPreview.Document.Head
import SnippetPreview.Renderer.Alpine
import SnippetPreview.Renderer.Angular
import SnippetPreview.Renderer.Plain
import SnippetPreview.Renderer.React
import SnippetPreview.Renderer.Vue

/-!
# Choosing a renderer

* `Registry`: which renderer is responsible for which kind, and a fallback for the rest;
* `Registry.put`, `Registry.register`: a renderer takes over one kind, or every kind that it claims;
* `Registry.render`: the document of a snippet, always with a document type;
* `render`, `preview`: the same with the built-in renderers, for a given verdict and for the classifier's.
-/

namespace SnippetPreview

/-- The renderers in charge. -/
structure Registry where
  /-- The renderer of a kind, if it has one. -/
  get? : Kind → Option Renderer
  /-- The renderer of all other kinds. -/
  fallback : Renderer

namespace Registry

/-- No kind has a renderer of its own. -/
def empty : Registry := ⟨fun _ => none, Plain.renderer⟩

/-- The renderer takes over one kind. -/
def put (r : Registry) (k : Kind) (a : Renderer) : Registry :=
  { r with get? := fun k' => if k' = k then some a else r.get? k' }

/-- The renderer takes over every kind that it claims, one after the other. -/
def register (r : Registry) (a : Renderer) : Registry := a.kinds.foldl (fun r k => r.put k a) r

/-- The renderers that are there from the start. -/
def builtinRenderers : List Renderer :=
  [Complete.renderer, React.renderer, Vue.renderer, Angular.renderer, Alpine.renderer, Plain.renderer]

def builtin : Registry := builtinRenderers.foldl register empty

/-- The kinds that have a renderer, in the order in which signals are tried. -/
def kinds (r : Registry) : List Kind := Kind.all.filter fun k => (r.get? k).isSome

def rendererFor (r : Registry) (k : Kind) : Renderer := (r.get? k).getD r.fallback

/-- The document of a source, with a document type in front when the renderer leaves it out. -/
def render (r : Registry) (source : Text) (verdict : Verdict) : Text :=
  ensureDoctype ((r.rendererFor verdict.kind).render source verdict)

/-- A summary for developers. -/
def describe (r : Registry) : Text :=
  "AdapterRegistry \x7b kinds: [" ++ Text.join ", " (r.kinds.map Kind.title) ++ "], fallback: \"" ++ r.fallback.name
    ++ "\" \x7d"

theorem get?_builtin (k : Kind) : (builtin.get? k).isSome := by cases k <;> rfl

end Registry

/-- The document of a source under a verdict. -/
def render (source : Text) (verdict : Verdict) : Text := Registry.builtin.render source verdict

/-- A snippet that has been classified and rendered. -/
structure Preview where
  verdict : Verdict
  document : Text
deriving DecidableEq, Repr

def preview (source : Text) : Preview :=
  let verdict := classify source
  ⟨verdict, render source verdict⟩

end SnippetPreview
