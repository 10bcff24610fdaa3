import SnippetPreview.Document.Script

/-!
# Completing a document

* `hasDoctype`, `ensureDoctype`: the document type and its addition;
* `injectHeadScript`: a document with one more script in its head, which is made when it is missing.
-/

namespace SnippetPreview

open Pattern

def doctype : Pattern := anyCase "<!doctype"

def hasDoctype (html : Text) : Bool := doctype.isMatch html

/-- The document with a document type in front when it has none. -/
def ensureDoctype (html : Text) : Text := if hasDoctype html then html else "<!DOCTYPE html>\n" ++ html

/-- The closing tag of the head. -/
def headClose : Pattern := chain [anyCase "</head", many isBlank, ">"]

def openTag (name : Text) : Pattern :=
  chain [anyCase ('<' :: name), optional (chain [one isBlank, many (charNotOf ">")]), ">"]

/-- The document up to a place. -/
def textBefore (html : Text) (k : Cursor) : Text := Span.text ⟨.start html, k⟩

/-- Adds a script element: at the end of the head, else behind its opening tag, else in a new head behind the opening tag
of the document, else in front of all. -/
def injectHeadScript (html url : Text) : Text :=
  let tag := (ScriptElement.src url).render
  match headClose.find? html with
  | some m => textBefore html m.span.start ++ "  " ++ tag ++ "\n" ++ m.span.start.after
  | none =>
    match (openTag "head").find? html with
    | some m => textBefore html m.span.stop ++ "\n  " ++ tag ++ m.span.stop.after
    | none =>
      match (openTag "html").find? html with
      | some m => textBefore html m.span.stop ++ "\n<head>\n  " ++ tag ++ "\n</head>" ++ m.span.stop.after
      | none => tag ++ "\n" ++ html

end SnippetPreview
