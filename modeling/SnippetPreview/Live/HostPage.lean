import SnippetPreview.Framework.Kind

/-!
# The host page

* `Sandbox`: what a preview may do in its frame;
* `escapeHtml`: a text that is neither markup nor ends an attribute;
* `hostPage`: the page around a preview. It names the snippet and its kind, and shows the document in a frame.
-/

namespace SnippetPreview

/-- What a preview may do besides running scripts of its own origin. -/
structure Sandbox where
  allowForms : Bool
  allowPopups : Bool
deriving DecidableEq, Repr

namespace Sandbox

/-- The permissions that a frame is given. -/
def tokens (s : Sandbox) : List Text :=
  let forms : List Text := if s.allowForms then ["allow-forms"] else []
  let popups : List Text := if s.allowPopups then ["allow-popups"] else []
  "allow-scripts".toList :: "allow-same-origin".toList :: forms ++ popups

def permissions (s : Sandbox) : Text := Text.join " " s.tokens

end Sandbox

def Text.replaceChar (t : Text) (c : Char) (new : Text) : Text := t.flatMap fun d => if d = c then new else [d]

/-- The text inside markup or an attribute. Ampersands come first: later entities bring new ones. -/
def escapeHtml (t : Text) : Text :=
  let t := t.replaceChar '&' "&amp;"
  let t := t.replaceChar '<' "&lt;"
  let t := t.replaceChar '>' "&gt;"
  let t := t.replaceChar '"' "&quot;"
  t.replaceChar '\'' "&#x27;"

namespace HostPage

def head : Text := "<!DOCTYPE html>
<html lang=\"en\">
<head>
  <meta charset=\"utf-8\">
  <meta name=\"viewport\" content=\"width=device-width, initial-scale=1\">
  <title>livepane: "

def style : Text := "</title>
  <style>
    html, body \x7b height: 100%; margin: 0; \x7d
    body \x7b display: flex; flex-direction: column; font-family: system-ui, sans-serif; \x7d
    header \x7b display: flex; gap: 1rem; align-items: center; padding: 0.5rem 1rem; "
  ++ "border-bottom: 1px solid #e5e7eb; font-size: 0.875rem; \x7d\n"
  ++ "    #kind \x7b padding: 0.125rem 0.5rem; border-radius: 999px; background: #eef2ff; color: #3730a3; \x7d
    iframe \x7b flex: 1; width: 100%; border: 0; \x7d
  </style>
</head>
<body>
  <header>
    <strong>"

def heading : Text := "</strong>
    <span id=\"kind\">"

def frame : Text := "</span>
  </header>
  <iframe id=\"preview\" title=\"Preview\" sandbox=\""

def tail : Text := "\" src=\"/__preview\"></iframe>
  <script src=\"/__hmr.js\"></script>
</body>
</html>"

end HostPage

/-- The page around the preview of the snippet at `entry`. -/
def hostPage (entry : Text) (kind : Kind) (sandbox : Sandbox) : Text :=
  HostPage.head ++ escapeHtml entry ++ HostPage.style ++ escapeHtml entry ++ HostPage.heading ++ kind.name
    ++ HostPage.frame ++ sandbox.permissions ++ HostPage.tail

end SnippetPreview
