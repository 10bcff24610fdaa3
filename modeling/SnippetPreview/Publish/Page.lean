import SnippetPreview.Framework.Wire

/-!
# The index page

* `PublishedPreview`: a stored preview as the manifest lists it;
* `escapeMarkup`: a text that is neither markup nor ends an attribute;
* `indexPage`: the page that links all previews.
-/

namespace SnippetPreview

/-- A stored preview. -/
structure PublishedPreview where
  slug : Text
  /-- The path of the snippet from the source directory. -/
  source : Text
  kind : Kind
  needsCompilation : Bool
  /-- The path of the document in the storage. -/
  path : Text
  /-- The address of the document. -/
  url : Text
deriving DecidableEq, Repr

/-- The entry of the manifest. -/
def PublishedPreview.toJson (p : PublishedPreview) : Json :=
  .object [("slug", p.slug), ("source", p.source), ("kind", p.kind.toJson),
    ("needs_browser_compilation", p.needsCompilation), ("path", p.path), ("url", p.url)]

/-- The characters that can start or end markup, as entities. -/
def escapeMarkupChar (c : Char) : Text :=
  if c = '<' then "&lt;"
  else if c = '>' then "&gt;"
  else if c = '&' then "&amp;"
  else if c = '"' then "&quot;"
  else if c = '\'' then "&#x27;"
  else if c = '/' then "&#x2f;"
  else [c]

def escapeMarkup (t : Text) : Text := t.flatMap escapeMarkupChar

namespace IndexPage

def head (title baseUrl : Text) : Text :=
  "<!DOCTYPE html>\n<html lang=\"en\">\n<head>\n  <meta charset=\"utf-8\">\n"
    ++ "  <meta name=\"viewport\" content=\"width=device-width, initial-scale=1\">\n"
    ++ "  <title>" ++ escapeMarkup title ++ "</title>\n"
    ++ "  <link rel=\"stylesheet\" href=\"" ++ escapeMarkup baseUrl ++ "assets/index.css\">\n"
    ++ "</head>\n<body>\n  <div class=\"page\">\n    "

def heading (title : Text) (count : Nat) : Text :=
  "\n<header class=\"page-header\">\n  <h1>" ++ escapeMarkup title ++ "</h1>\n  <p>" ++ Text.ofNat count ++ " preview"
    ++ (if count = 1 then [] else ['s']) ++ "</p>\n</header>\n\n"

def card (p : PublishedPreview) : Text :=
  let kind := escapeMarkup p.kind.name
  "\n  <li class=\"preview-card\">\n    <a href=\"" ++ escapeMarkup p.url ++ "\">" ++ escapeMarkup p.slug
    ++ "</a>\n    <span class=\"preview-source\">" ++ escapeMarkup p.source
    ++ "</span>\n    <span class=\"kind kind-" ++ kind ++ "\">" ++ kind ++ "</span>\n  </li>\n"

/-- The entries, or a note that there are none. -/
def listing (previews : List PublishedPreview) : Text :=
  if previews.isEmpty then "\n<p class=\"empty\">No snippets found.</p>\n"
  else "\n<ul class=\"preview-list\">\n" ++ previews.flatMap card ++ "\n</ul>\n"

def tail : Text := "\n\n  </div>\n</body>\n</html>"

end IndexPage

/-- The page that links the previews. -/
def indexPage (title baseUrl : Text) (previews : List PublishedPreview) : Text :=
  IndexPage.head title baseUrl ++ IndexPage.heading title previews.length ++ IndexPage.listing previews ++ IndexPage.tail

end SnippetPreview
