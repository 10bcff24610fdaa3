import SnippetPreview.Pattern.Search

/-!
# Imports as reads from a global

* `globalizeImports`: imports of certain packages become reads from a browser global, or vanish;
* `destructuring`: the declaration that a list of imported names becomes.

Only named imports leave something behind. Default, namespace and bare imports of the packages vanish, imports of other
modules stay.
-/

namespace SnippetPreview.Script

open Pattern

/-- Behind the module name of an import: a semicolon, blanks and the end of the line. -/
def importEnd : Pattern :=
  chain [many isLineBlank, optional ";", many isLineBlank, optional "\r", optional "\n"]

def moduleName (i : Nat) : Pattern :=
  chain [one (charOf "'\""), group i (many1 (charNotOf "'\"")), one (charOf "'\"")]

/-- An import of names in braces: group 1 is the list of names, group 2 the module. -/
def namedImport : Pattern :=
  chain [lineStart, many isLineBlank, "import", many1 isBlank,
    optional (chain [many1 isIdentRest, many isBlank, ",", many isBlank]),
    "\x7b", group 1 (many (charNotOf "\x7d")), "\x7d", many isBlank, "from", many isBlank, moduleName 2, importEnd]

def anyImport : Pattern :=
  chain [lineStart, many isLineBlank, "import", many1 isBlank,
    optional (chain [fewest (charNotOf ";\n'\""), many isBlank, "from", many isBlank]),
    moduleName 1, importEnd]

/-- The module is one of the packages or lies below one. -/
def isWithin (packages : List Text) (module : Text) : Bool :=
  packages.any fun p => module == p || (p ++ ['/']).isPrefixOf module

/-- The binding that an imported name becomes, none when it is provided or is only a type. -/
def binding? (provided : List Text) (spec : Text) : Option Text :=
  let spec := spec.trim
  if spec.isEmpty || List.isPrefixOf "type ".toList spec then none
  else
    match Text.splitOnce " as " spec with
    | some (imported, name) => some (imported.trim ++ ": " ++ name.trim)
    | none => if provided.contains spec then none else some spec

/-- A declaration that reads the imported names from the global, nothing when no name is left. -/
def destructuring (global : Text) (provided : List Text) (specs : Text) : Text :=
  match (Text.splitOn ',' specs).filterMap (binding? provided) with
  | [] => []
  | bindings => "const \x7b " ++ Text.join ", " bindings ++ " \x7d = " ++ global ++ ";\n"

/-- The code with the imports of the packages turned into reads from `global`. Names in `provided` exist already. -/
def globalizeImports (packages : List Text) (global : Text) (provided : List Text) (code : Text) : Text :=
  let code := namedImport.replaceAll (fun m =>
    if isWithin packages (m.groupText 2) then destructuring global provided (m.groupText 1) else m.text) code
  anyImport.replaceAll (fun m => if isWithin packages (m.groupText 1) then [] else m.text) code

end SnippetPreview.Script
