import SnippetPreview.Text.Basic

/-!
# Paths

* `Path.Part`, `Path.parts`: what a path says, part by part. Repeated slashes, a slash at the end and dots inside do not
  count;
* `Path.join`, `Path.parentText?`, `Path.fileName?`, `Path.extension?`: paths as file programs see them;
* `Path.sameAs`, `Path.below`: two spellings of the same path, and a path inside another;
* `Path.Step`, `Path.steps`: the way that the system goes along a path, where a slash or a dot at the end asks for a
  directory.
-/

namespace SnippetPreview.Path

/-- A part of a path. -/
inductive Part where
  /-- The slash in front. -/
  | root
  /-- The dot in front. -/
  | here
  /-- Two dots. -/
  | up
  | name (t : Text)
deriving DecidableEq, Repr

/-- What stands between slashes, where something does. -/
def pieces (path : Text) : List Text := (Text.splitOn '/' path).filter fun p => !p.isEmpty

def isAbsolute (path : Text) : Bool := path.head? == some '/'

/-- A piece that is not a dot. -/
def Part.ofPiece? (piece : Text) : Option Part :=
  if piece = ['.'] then none else if piece = ['.', '.'] then some .up else some (.name piece)

/-- The parts of a path. A dot counts only in front. -/
def parts (path : Text) : List Part :=
  (if isAbsolute path then [.root] else if (pieces path).head? = some ['.'] then [.here] else [])
    ++ (pieces path).filterMap Part.ofPiece?

/-- The same path, spelled perhaps in another way. -/
def sameAs (p q : Text) : Bool := parts p == parts q

/-- The path is `dir` or leads below it. -/
def below (path dir : Text) : Bool := (parts dir).isPrefixOf (parts path)

/-- `path` seen from `base`: an absolute path stays, any other follows the base behind a slash. -/
def join (base path : Text) : Text :=
  if isAbsolute path || base.isEmpty then path
  else if base.getLast? = some '/' then base ++ path
  else base ++ '/' :: path

/-- The slash or the dot in front, when it is a part of the path. -/
def lead (path : Text) : Text :=
  match parts path with
  | .root :: _ => ['/']
  | .here :: _ => ['.']
  | _ => []

/-- A piece that is no part: nothing, or a dot. -/
def isFiller (piece : Text) : Bool := piece.isEmpty || piece == ['.']

/-- The pieces up to the last one that is a part. -/
def trimFillers (pieces : List Text) : List Text := (pieces.reverse.dropWhile isFiller).reverse

/-- The text of a path up to its last part, with no slash at the end. -/
def parentText? (path : Text) : Option Text :=
  let front := lead path
  match trimFillers (Text.splitOn '/' (path.drop front.length)) with
  | [] => if front = ['.'] then some [] else none
  | pieces => some (front ++ Text.join ['/'] (trimFillers pieces.dropLast))

/-- The directory of a path; the working directory when the path is a lone name. -/
def directoryOf (path : Text) : Text :=
  match parentText? path with
  | none | some [] => ['.']
  | some parent => parent

def fileName? (ps : List Part) : Option Text :=
  match ps.getLast? with
  | some (.name t) => some t
  | _ => none

/-- The stem of a file name and what stands behind its last dot. A dot in front does not start an extension. -/
def splitName (name : Text) : Text × Option Text :=
  let extension := (name.reverse.takeWhile (· != '.')).reverse
  let stem := name.take (name.length - extension.length - 1)
  if extension.length = name.length || stem.isEmpty then (name, none) else (stem, some extension)

def extension? (name : Text) : Option Text := (splitName name).2

def stem (name : Text) : Text := (splitName name).1

/-! ## The way along a path -/

/-- A step along a path. -/
inductive Step where
  /-- Stays, in a directory. -/
  | stay
  /-- Goes to the directory around. -/
  | up
  /-- Goes to the entry of this name. -/
  | down (name : Text)
deriving DecidableEq, Repr

def Step.ofPiece (piece : Text) : Step :=
  if piece = ['.'] then .stay else if piece = ['.', '.'] then .up else .down piece

def Part.step : Part → Step
  | .root | .here => .stay
  | .up => .up
  | .name t => .down t

/-- The steps along a path. A slash at the end stays in a directory. -/
def steps (path : Text) : List Step :=
  (pieces path).map Step.ofPiece ++ (if path.getLast? = some '/' then [.stay] else [])

def absolute (names : List Text) : Text := '/' :: Text.join ['/'] names

end SnippetPreview.Path
