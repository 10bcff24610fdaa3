import SnippetPreview.Pattern.Search

/-!
# Sections of a source

* `template?`, `styleBody?`, `scriptBody?`: the contents of the sections of a single-file component;
* `decoratorTemplate?`, `decoratorStyles`: the texts that a component decorator carries;
* `hasTag`: whether there is any tag.

A template reaches to the last closing tag, as templates nest; scripts and styles end at the first one.
-/

namespace SnippetPreview.Markup

open Pattern

def templateElement : Pattern :=
  chain [anyCase "<template", optional (chain [one isBlank, many (charNotOf ">")]), ">", group 1 (many anyChar),
    anyCase "</template>"]

/-- A script element, group 1 its attributes and group 2 its content. -/
def scriptElement : Pattern :=
  chain [anyCase "<script", group 1 (many (charNotOf ">")), ">", group 2 (fewest anyChar), anyCase "</script>"]

def styleElement : Pattern :=
  chain [anyCase "<style", many (charNotOf ">"), ">", group 1 (fewest anyChar), anyCase "</style>"]

def template? (source : Text) : Option Text :=
  (templateElement.find? source).map fun m => (m.groupText 1).trim

/-- The content of the first script element without a source address. -/
def scriptBody? (source : Text) : Option Text :=
  ((scriptElement.finds source).find? fun m => !(m.groupText 1).contains "src=").map fun m => (m.groupText 2).trim

def styleBody? (source : Text) : Option Text :=
  (styleElement.find? source).map fun m => (m.groupText 1).trim

/-- A quoted text in quotes of one kind, as group `i`. -/
def inQuotes (quote : Text) (i : Nat) (content : Char → Bool) : Pattern :=
  chain [text quote, group i (many content), text quote]

/-- The `template` member of a decorator with its text in quotes; the group says which quotes. -/
def templateMember : Pattern :=
  chain [wordEdge, "template", many isBlank, ":", many isBlank,
    oneOf [inQuotes "`" 1 (charNotOf "`"), inQuotes "'" 2 (charNotOf "'\n"), inQuotes "\"" 3 (charNotOf "\"\n")]]

/-- The template text of a decorator. -/
def decoratorTemplate? (source : Text) : Option Text := do
  let m ← templateMember.find? source
  let found ← m.group? 1 <|> m.group? 2 <|> m.group? 3
  return found.text.trim

/-- The `styles` member of a decorator, group 1 its first text. -/
def stylesMember : Pattern :=
  chain [wordEdge, "styles", many isBlank, ":", many isBlank, "[", many isBlank, inQuotes "`" 1 (charNotOf "`")]

/-- The first text of the styles of a decorator, empty when there is none. -/
def decoratorStyles (source : Text) : Text := (stylesMember.find? source).elim [] fun m => m.groupText 1

/-- An opening or closing tag up to the end of its name. -/
def tagStart : Pattern :=
  chain ["<", optional "/", one Char.isAlpha, many fun c => isWord c || c == '-',
    one fun c => isBlank c || c == '/' || c == '>']

def hasTag (source : Text) : Bool := tagStart.isMatch source

end SnippetPreview.Markup
