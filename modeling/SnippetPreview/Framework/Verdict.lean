import SnippetPreview.Framework.Kind

/-!
# Verdicts

* `Verdict`: what the classifier says about a snippet;
* `Verdict.ofKind`: the verdict for a known kind.
-/

namespace SnippetPreview

/-- The classifier's answer for one snippet. -/
structure Verdict where
  kind : Kind
  /-- The browser has to compile the snippet before it runs. -/
  needsCompilation : Bool
  /-- The addresses of the runtimes, in load order. -/
  scripts : List Text
deriving DecidableEq, Repr

def Verdict.ofKind (k : Kind) : Verdict := ⟨k, k.needsCompilation, k.scripts⟩

@[simp] theorem Verdict.kind_ofKind (k : Kind) : (Verdict.ofKind k).kind = k := rfl

end SnippetPreview
