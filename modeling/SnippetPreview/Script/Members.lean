import SnippetPreview.Pattern.Search
import SnippetPreview.Script.Brackets
import SnippetPreview.Script.Mask

/-!
# Members of a class

* `classBody?`: the text between the braces of a class;
* `Field`, `Field.ofBody`: the fields of a class body that have an initial value on one line;
* `Method`, `Method.ofBody`: its methods without parameters.

Members are looked for in the masked body, so nothing inside a method or a string is taken for one; their values and
bodies are cut out of the body itself.
-/

namespace SnippetPreview.Script

open Pattern

/-! ## Classes -/

/-- A class with its name up to its opening brace. -/
def classHead : Pattern :=
  chain ["class", many1 isBlank, one isIdentStart, many isIdentRest, many (charNotOf "\x7b"), "\x7b"]

def exportedClass : Pattern :=
  chain ["export", many1 isBlank, optional (chain ["default", many1 isBlank]), classHead]

def anyClass : Pattern := chain [wordEdge, classHead]

/-- The text between the braces of the first exported class, or of the first class when none is exported. -/
def classBody? (source : Text) : Option Text := do
  let head ← exportedClass.find? source <|> anyClass.find? source
  let openPos := head.span.stop.offset - 1
  let close ← matchingBrace? source openPos
  return source.slice (openPos + 1) close

/-! ## Fields -/

structure Field where
  name : Text
  value : Text
deriving DecidableEq, Repr

/-- Where a member may start: a line start, or behind a semicolon or a closing brace. -/
def memberStart : Pattern := chain [oneOf [lineStart, one (charOf ";\x7d")], many isLineBlank]

def modifiers (words : List Pattern) : Pattern := star (chain [oneOf words, many1 isBlank])

/-- A field with a value up to the end of its line or the next semicolon: group 1 is its name, group 2 the value. -/
def fieldPattern : Pattern :=
  chain [memberStart,
    star (chain ["@", many1 isWord, "(", many (charNotOf ")"), ")", many isBlank]),
    modifiers ["public", "private", "protected", "readonly", "static"],
    group 1 (chain [one isIdentStart, many isIdentRest]),
    optional (one (charOf "?!")),
    many isBlank,
    optional (chain [":", many (charNotOf "=;\n")]),
    "=",
    many isBlank,
    group 2 (many (charNotOf ";\n"))]

/-- A value that is complete in itself: neither empty nor an arrow function, quotes closed and brackets balanced. -/
def isCompleteValue (value : Text) : Bool :=
  !value.isEmpty && !value.contains "=>" && quotesClosed value && isBalanced value

/-- The field that a match in the masked body stands for. -/
def Field.ofMatch? (body : Text) (m : Match) : Option Field := do
  let name ← m.group? 1
  let value ← m.group? 2
  let value := (body.slice value.start.offset value.stop.offset).trim
  if isCompleteValue value then some ⟨name.text, value⟩ else none

/-- The fields of a class body that have a value, in order. -/
def Field.ofBody (body : Text) : List Field := (fieldPattern.finds (mask body)).filterMap (Field.ofMatch? body)

/-! ## Methods -/

structure Method where
  name : Text
  /-- The text between its braces. -/
  body : Text
  isAsync : Bool
deriving DecidableEq, Repr

/-- A method without parameters up to its opening brace: group 1 is there for an asynchronous one, group 2 is its name. -/
def methodPattern : Pattern :=
  chain [memberStart,
    modifiers ["public", "private", "protected", "static"],
    optional (group 1 (chain ["async", many1 isBlank])),
    group 2 (chain [one isIdentStart, many isIdentRest]),
    many isBlank, "(", many isBlank, ")", many isBlank,
    optional (chain [":", many isBlank, fewest1 (charNotOf "\x7b;\n")]),
    many isBlank, "\x7b"]

/-- Names that look like methods and are none. -/
def nonMethods : List Text := ["constructor", "if", "for", "while", "switch", "catch"]

/-- The method that a match in the masked body stands for. -/
def Method.ofMatch? (body : Text) (m : Match) : Option Method := do
  let name ← m.group? 2
  if nonMethods.contains name.text then none
  else
    let openPos := m.span.stop.offset - 1
    let close ← matchingBrace? body openPos
    return ⟨name.text, body.slice (openPos + 1) close, (m.group? 1).isSome⟩

/-- The methods of a class body that take no parameters, in order. -/
def Method.ofBody (body : Text) : List Method := (methodPattern.finds (mask body)).filterMap (Method.ofMatch? body)

end SnippetPreview.Script
