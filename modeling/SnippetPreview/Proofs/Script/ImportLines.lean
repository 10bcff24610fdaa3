import SnippetPreview.Script.Imports

/-!
# Code in lines, with its imports

* `Specifier`, `Entry`: an imported name between the braces of an import, with the white space around it;
* `Clause`, `ImportLine`: an import that fills a line;
* `SourceLine`: a line of code, which is an import or does not start like one;
* `declaration`, `SourceLine.globalized`: what becomes of a line when the imports of certain packages are turned into reads.

White space, names and modules carry their conditions, so every value of these types is the line that it prints.
-/

namespace SnippetPreview.Script

/-! ### Parts of an import -/

/-- White space within a line. -/
def isGap (c : Char) : Bool := isBlank c && c != '\n'

/-- A stretch of white space within a line, maybe none. -/
abbrev Gap := {t : Text // t.all isGap = true}

/-- A stretch of white space within a line. -/
abbrev Space := {t : Text // t ≠ [] ∧ t.all isGap = true}

/-- Spaces and tabulators, maybe none. -/
abbrev LineBlanks := {t : Text // t.all isLineBlank = true}

/-- Word characters and `$`, at least one. -/
abbrev Name := {t : Text // t ≠ [] ∧ t.all isIdentRest = true}

/-- A new name, with the white space around `as`. -/
structure Renaming where
  before : Space
  behind : Space
  name : Name

def Renaming.text (r : Renaming) : Text := r.before.1 ++ ("as".toList ++ (r.behind.1 ++ r.name.1))

/-- A name of the module, maybe with a new name for it. -/
structure Binding where
  imported : Name
  renaming? : Option Renaming

def Binding.text (b : Binding) : Text := b.imported.1 ++ b.renaming?.elim [] Renaming.text

/-- What stands between two commas. -/
inductive Specifier where
  /-- Nothing, as behind a last comma. -/
  | absent
  | value (b : Binding)
  /-- A name that is only a type, with the white space behind `type`. -/
  | type (gap : Space) (b : Binding)

def Specifier.text : Specifier → Text
  | absent => []
  | value b => b.text
  | type gap b => "type".toList ++ (gap.1 ++ b.text)

structure Entry where
  lead : Gap
  specifier : Specifier
  trail : Gap

def Entry.text (e : Entry) : Text := e.lead.1 ++ (e.specifier.text ++ e.trail.1)

/-- A default import in front of a list of names. -/
structure DefaultImport where
  name : Name
  before : Gap
  behind : Gap

def DefaultImport.text (d : DefaultImport) : Text := d.name.1 ++ (d.before.1 ++ ',' :: d.behind.1)

/-- What an import binds. -/
inductive Clause where
  /-- A default import, a namespace, both, or a single type. -/
  | names (t : Text) (h : t.all (charNotOf "\x7b;\n'\"") = true)
  /-- A list of types. -/
  | types (gap : Gap) (inner : Text) (h : inner.all (charNotOf ";\n'\"") = true)
  /-- A list of names, maybe behind a default import. -/
  | named (default? : Option DefaultImport) (entries : List Entry)

/-- The text between the braces. -/
def listing (entries : List Entry) : Text := Text.join [','] (entries.map Entry.text)

def Clause.text : Clause → Text
  | names t _ => t
  | types gap inner _ => ("type".toList ++ gap.1) ++ '\x7b' :: (inner ++ ['\x7d'])
  | named default? entries => default?.elim [] DefaultImport.text ++ '\x7b' :: (listing entries ++ ['\x7d'])

/-- What an import binds, with the word `from` behind it. -/
structure Origin where
  clause : Clause
  before : Gap
  behind : Gap

def Origin.text (o : Origin) : Text := o.clause.text ++ (o.before.1 ++ ("from".toList ++ o.behind.1))

/-- The end of a line behind the module: blanks, maybe a semicolon with blanks behind it, maybe a carriage return. -/
structure LineEnd where
  blanks : LineBlanks
  semicolon? : Option LineBlanks
  returns : Bool

def lineBreak (returns : Bool) : Text := if returns then ['\r', '\n'] else ['\n']

def LineEnd.text (e : LineEnd) : Text :=
  e.blanks.1 ++ (e.semicolon?.elim [] (fun b => ';' :: b.1) ++ lineBreak e.returns)

/-- The end of a line without its line break. -/
def LineEnd.unbroken (e : LineEnd) : Text := e.blanks.1 ++ e.semicolon?.elim [] fun b => ';' :: b.1

/-- Nothing of the rest, which stands directly behind, could belong to the end of the line. -/
def LineEnd.stopsAt (e : LineEnd) (rest : Text) : Bool :=
  rest.head?.all fun c => charNotOf " \t\r\n" c && (e.semicolon?.isSome || c != ';')

/-- An import that fills a line, either for what it binds or for its effects only. -/
structure ImportLine where
  indent : LineBlanks
  gap : Space
  origin? : Option Origin
  quote : {c : Char // charOf "'\"" c = true}
  module : {t : Text // t ≠ [] ∧ t.all (charNotOf "\n'\"") = true}
  ending : LineEnd

namespace ImportLine

variable (l : ImportLine)

/-- What stands in front of the module. -/
def front : Text := l.indent.1 ++ ("import".toList ++ (l.gap.1 ++ l.origin?.elim [] Origin.text))

/-- The module in its quotes, up to the end of the line. -/
def back : Text := l.quote.1 :: (l.module.1 ++ l.quote.1 :: l.ending.text)

def text : Text := l.front ++ l.back

/-- The module in its quotes, with another end behind it. -/
def backTo (ending : Text) : Text := l.quote.1 :: (l.module.1 ++ l.quote.1 :: ending)

def textTo (ending : Text) : Text := l.front ++ l.backTo ending

/-- The import without its line break. -/
def unbroken : Text := l.textTo l.ending.unbroken

/-- The entries between the braces, if names are imported. -/
def entries : List Entry :=
  match l.origin? with
  | some ⟨.named _ entries, _, _⟩ => entries
  | _ => []

end ImportLine

/-! ### Lines -/

/-- The line starts with the word `import` and white space. -/
def opensImport (t : Text) : Bool :=
  (Text.stripLead? "import" (t.dropWhile isLineBlank)).any fun rest => rest.head?.any isBlank

/-- A line of code. -/
inductive SourceLine where
  | plain (t : Text) (line : '\n' ∉ t) (h : opensImport (t ++ ['\n']) = false)
  | imports (l : ImportLine)

def SourceLine.text : SourceLine → Text
  | plain t _ _ => t ++ ['\n']
  | imports l => l.text

/-! ### Reads from a global -/

/-- The binding that an entry becomes: none for a type and for a provided name that keeps its name. -/
def Specifier.binding? (provided : List Text) : Specifier → Option Text
  | absent | type _ _ => none
  | value b =>
    match b.renaming? with
    | none => if provided.contains b.imported.1 then none else some b.imported.1
    | some r => some (b.imported.1 ++ ": ".toList ++ r.name.1)

def Entry.binding? (provided : List Text) (e : Entry) : Option Text := e.specifier.binding? provided

/-- A declaration that reads the bindings from the global, nothing when there are none. -/
def declaration (global : Text) : List Text → Text
  | [] => []
  | bindings => "const \x7b " ++ Text.join ", " bindings ++ " \x7d = " ++ global ++ ";\n"

/-- The line, or what takes its place when it imports one of the packages. -/
def SourceLine.globalized (packages : List Text) (global : Text) (provided : List Text) : SourceLine → Text
  | plain t _ _ => t ++ ['\n']
  | imports l =>
    if isWithin packages l.module.1 then declaration global (l.entries.filterMap (Entry.binding? provided)) else l.text

/-! ### Specifiers that are misread -/

/-- A renamed name is misread when its text starts like a type or has no `as` between two spaces. A type is misread when
there is no space behind `type`, unless the whole text is provided. -/
def Specifier.isMisread (provided : List Text) : Specifier → Bool
  | absent => false
  | value b => b.renaming?.isSome && ("type ".toList.isPrefixOf b.text || !b.text.contains " as ")
  | type gap b =>
    let t := (type gap b).text
    !"type ".toList.isPrefixOf t && (t.contains " as " || !provided.contains t)

def Entry.isMisread (provided : List Text) (e : Entry) : Bool := e.specifier.isMisread provided

/-- The line imports names of one of the packages, and one of them is misread. -/
def SourceLine.isMisread (packages provided : List Text) : SourceLine → Bool
  | plain _ _ _ => false
  | imports l => isWithin packages l.module.1 && l.entries.any (Entry.isMisread provided)

end SnippetPreview.Script
