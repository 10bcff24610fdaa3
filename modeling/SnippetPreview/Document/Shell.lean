import SnippetPreview.Document.Script
import SnippetPreview.Text.Blank

/-!
# Complete documents

* `Shell`: the parts of a document, collected step by step;
* `Shell.finish`: the document, with the scripts of its head before its body and those of its body behind the markup.
-/

namespace SnippetPreview

/-- The style that every document starts from. -/
def baseStyle : Text := "* \x7b
  box-sizing: border-box;
  margin: 0;
  padding: 0;
\x7d

body \x7b
  font-family: system-ui, -apple-system, \"Segoe UI\", Roboto, sans-serif;
  line-height: 1.5;
  color: #1f2937;
  background: #ffffff;
  padding: 1rem;
\x7d

button \x7b
  font: inherit;
  cursor: pointer;
  padding: 0.5rem 1rem;
  margin: 0.25rem;
  border: 1px solid #d1d5db;
  border-radius: 0.375rem;
  background: #f9fafb;
\x7d

input, select, textarea \x7b
  font: inherit;
  padding: 0.375rem 0.5rem;
  border: 1px solid #d1d5db;
  border-radius: 0.375rem;
\x7d"

/-- The parts of a document. -/
structure Shell where
  title : Text
  headScripts : List ScriptElement := []
  styles : List Text := []
  bodyAttributes : Text := []
  body : Text := []
  bodyScripts : List ScriptElement := []
deriving DecidableEq, Repr

namespace Shell

def titled (title : Text) : Shell := { title }

def headScript (s : Shell) (e : ScriptElement) : Shell := { s with headScripts := s.headScripts ++ [e] }

def load (s : Shell) (urls : List Text) : Shell := { s with headScripts := s.headScripts ++ urls.map .src }

/-- Adds a style behind the base style; a blank one is left out. -/
def style (s : Shell) (css : Text) : Shell :=
  if css.trim.isEmpty then s else { s with styles := s.styles ++ [css.trim] }

def withBodyAttributes (s : Shell) (attributes : Text) : Shell := { s with bodyAttributes := attributes }

def withBody (s : Shell) (markup : Text) : Shell := { s with body := markup }

/-- Adds a script behind the markup of the body. -/
def bodyScript (s : Shell) (e : ScriptElement) : Shell := { s with bodyScripts := s.bodyScripts ++ [e] }

def scriptLines (e : ScriptElement) : Text := "  " ++ e.render ++ "\n"

def styleLines (css : Text) : Text := "  <style>\n" ++ css ++ "\n  </style>\n"

/-- All up to the end of the head. -/
def head (s : Shell) : Text :=
  "<!DOCTYPE html>\n<html lang=\"en\">\n<head>\n  <meta charset=\"UTF-8\">\n"
    ++ "  <meta name=\"viewport\" content=\"width=device-width, initial-scale=1.0\">\n"
    ++ "  <title>" ++ s.title ++ "</title>\n" ++ s.headScripts.flatMap scriptLines ++ styleLines baseStyle
    ++ s.styles.flatMap styleLines ++ "</head>\n"

def bodyTag (s : Shell) : Text :=
  if s.bodyAttributes.isEmpty then "<body>" else "<body " ++ s.bodyAttributes ++ ">"

/-- The markup of the body, on lines of its own when there is any. -/
def bodyLines (s : Shell) : Text := if s.body.isEmpty then [] else "  " ++ s.body ++ "\n"

def tail (s : Shell) : Text :=
  s.bodyTag ++ "\n" ++ s.bodyLines ++ s.bodyScripts.flatMap scriptLines ++ "</body>\n</html>\n"

def finish (s : Shell) : Text := s.head ++ s.tail

end Shell

end SnippetPreview
