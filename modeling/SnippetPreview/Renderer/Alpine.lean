import SnippetPreview.Document.Head
import SnippetPreview.Document.Shell
import SnippetPreview.Renderer.Basic

/-!
# Alpine snippets

* `Alpine.render`, `Alpine.renderer`: the snippet as the body of a document that loads Alpine. Its own script elements for
  Alpine are taken out, as a second copy would initialise twice. A document with a type stays as it is.
-/

namespace SnippetPreview.Alpine

open Pattern

/-- An empty script element that loads a build of Alpine, with the blanks behind it. -/
def runtimeScript : Pattern :=
  chain [anyCase "<script", many (charNotOf ">"), wordEdge, anyCase "src", many isBlank, "=", many isBlank,
    one (charOf "\"'"), many (charNotOf "\"'"), anyCase "alpine", many (charNotOf "\"'"), one (charOf "\"'"),
    many (charNotOf ">"), ">", many isBlank, anyCase "</script>", many isBlank]

/-- The addresses to load: those of the verdict, or the usual one. -/
def addresses (verdict : Verdict) : List Text :=
  if verdict.scripts.isEmpty then [Kind.alpineScript] else verdict.scripts

def render (source : Text) (verdict : Verdict) : Text :=
  if hasDoctype source then source
  else
    let markup := runtimeScript.replaceAll (fun _ => []) source
    let shell := (addresses verdict).foldl (fun s url => s.headScript (.deferred url)) (Shell.titled "Alpine Preview")
    (shell.withBody markup.trim).finish

def renderer : Renderer := ⟨"alpine", [.alpine], render⟩

end SnippetPreview.Alpine
