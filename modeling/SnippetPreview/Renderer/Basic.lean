import SnippetPreview.Framework.Verdict

/-!
# Renderers

* `Renderer`: turns snippets of certain kinds into complete documents. There is no failure: what a snippet lacks is
  replaced by defaults.
-/

namespace SnippetPreview

/-- Turns a snippet into a complete document. -/
structure Renderer where
  name : Text
  /-- The kinds that it renders. -/
  kinds : List Kind
  /-- The document for a source and the verdict on it. -/
  render : Text → Verdict → Text

end SnippetPreview
