import SnippetPreview.Pattern.Search

/-!
# Script elements

* `ScriptElement`: the ways to put a script into a document;
* `escapeScript`: code that cannot close its own element;
* `ScriptElement.render`: the element as markup.
-/

namespace SnippetPreview

open Pattern

inductive ScriptElement where
  /-- Loads and runs the script at an address. -/
  | src (url : Text)
  /-- Loads the script at an address and runs it when the document is complete. -/
  | deferred (url : Text)
  /-- Runs this code. -/
  | inline (code : Text)
  /-- Compiles this code in the browser, then runs it. -/
  | compiled (code : Text)
deriving DecidableEq, Repr

def scriptClose : Pattern := anyCase "</script"

/-- The code with a backslash in each closing tag of its own kind. -/
def escapeScript (code : Text) : Text := scriptClose.replaceAll (fun _ => "<\\/script") code

def ScriptElement.render : ScriptElement → Text
  | src url => "<script src=\"" ++ url ++ "\"></script>"
  | deferred url => "<script defer src=\"" ++ url ++ "\"></script>"
  | inline code => "<script>\n" ++ escapeScript code ++ "\n</script>"
  | compiled code =>
    "<script type=\"text/babel\" data-presets=\"env,react\">\n" ++ escapeScript code ++ "\n</script>"

end SnippetPreview
