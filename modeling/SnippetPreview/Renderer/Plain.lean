import SnippetPreview.Document.Shell
import SnippetPreview.Markup.Sections
import SnippetPreview.Renderer.Basic

/-!
# Plain snippets and complete documents

* `Plain.render`, `Plain.renderer`: markup becomes the body of a document, code its script. Svelte snippets are rendered
  so too, as there is no runtime to load for them;
* `Complete.renderer`: complete documents stay as they are.
-/

namespace SnippetPreview

open Pattern

namespace Plain

/-- A document type, a root element or a body. -/
def documentPart : Pattern :=
  let tagEnd := one fun c => isBlank c || c == '>'
  oneOf [anyCase "<!doctype", chain [anyCase "<html", tagEnd], chain [anyCase "<body", tagEnd]]

def render (source : Text) : Text :=
  if documentPart.isMatch source then source
  else
    let shell := Shell.titled "Preview"
    let code := source.trim
    if code.isEmpty then shell.finish
    else if Markup.hasTag code then (shell.withBody code).finish
    else (shell.bodyScript (.inline code)).finish

/-- Renders plain snippets and those of Svelte. -/
def renderer : Renderer := ⟨"vanilla", [.vanilla, .svelte], fun source _ => render source⟩

end Plain

/-- Leaves complete documents as they are. -/
def Complete.renderer : Renderer := ⟨"html", [.html], fun source _ => source⟩

end SnippetPreview
