import SnippetPreview.Files.Tree

/-!
# File events

* `FileEvent`, `FileEvent.Kind`: what the system reports;
* `WatchEvent`: what the program acts on;
* `Scope`, `Scope.contains`: the files and directories that are watched;
* `coalesce`: what a burst of events amounts to, which is its last relevant one;
* `locate`, `Scope.ofPaths`: where a path is watched. A directory stands for all below it, any other path for exactly that
  file, which need not exist, inside a directory that does.
-/

namespace SnippetPreview

/-- What happens to a file. -/
inductive FileEvent.Kind where
  | any
  | other
  | access
  | create
  | modify
  | remove
deriving DecidableEq, Repr

/-- A report of the system. A renaming names two paths. -/
structure FileEvent where
  kind : FileEvent.Kind
  paths : List Text
deriving DecidableEq, Repr

/-- An event that the program acts on. -/
inductive WatchEvent where
  | changed (path : Text)
  | removed (path : Text)
deriving DecidableEq, Repr

def WatchEvent.path : WatchEvent → Text
  | changed p | removed p => p

/-- What an event of this kind means for a path. -/
def FileEvent.Kind.on (kind : FileEvent.Kind) (path : Text) : Option WatchEvent :=
  match kind with
  | create | modify => some (.changed path)
  | remove => some (.removed path)
  | any | other | access => none

/-- What is watched. -/
structure Scope where
  files : List Text
  /-- Directories, with all that is below them. -/
  directories : List Text
deriving DecidableEq, Repr

def Scope.contains (s : Scope) (path : Text) : Bool := s.files.any (Path.sameAs path) || s.directories.any (Path.below path)

/-- The paths of a report, the last one first, each with what happened to it. -/
def FileEvent.backwards (e : FileEvent) : List (FileEvent.Kind × Text) := e.paths.reverse.map (e.kind, ·)

/-- What a burst amounts to: the reports are gone through from the last one, and watched paths are looked at until one
means something. -/
def coalesce (s : Scope) (burst : List FileEvent) : Option WatchEvent :=
  ((burst.reverse.flatMap FileEvent.backwards).filter (s.contains ·.2)).findSome? fun (kind, path) => kind.on path

/-! ## What is watched for a path -/

/-- Why a path is not watched. -/
inductive WatchError where
  /-- The path ends in no name. -/
  | notAFile (path : Text)
  | refused (cause : Refusal)
deriving DecidableEq, Repr

def WatchError.message : WatchError → Text
  | notAFile path => "not a file path: " ++ path
  | refused cause => cause.message

/-- The absolute path of a place that exists. -/
def canonical (n : Node) (path : Text) : Except WatchError Text :=
  match n.canonical path with
  | .ok place => .ok (Path.absolute place)
  | .error e => .error (.refused e)

/-- A file to watch, and the directory that it is watched through. -/
structure WatchedFile where
  directory : Text
  file : Text
deriving DecidableEq, Repr

/-- The file that a path names, found through its directory. -/
def locate (n : Node) (path : Text) : Except WatchError WatchedFile :=
  match Path.fileName? (Path.parts path) with
  | none => .error (.notAFile path)
  | some name => do
    let directory ← canonical n (Path.directoryOf path)
    return ⟨directory, Path.join directory name⟩

/-- The scope with one more path. -/
def Scope.add (n : Node) (s : Scope) (path : Text) : Except WatchError Scope :=
  if n.isDirectory path then do
    return { s with directories := s.directories ++ [← canonical n path] }
  else do
    return { s with files := s.files ++ [(← locate n path).file] }

def Scope.ofPaths (n : Node) (paths : List Text) : Except WatchError Scope := paths.foldlM (Scope.add n) ⟨[], []⟩

/-- The later of two bursts decides, unless nothing in it is relevant. -/
theorem coalesce_append (s : Scope) (a b : List FileEvent) :
    coalesce s (a ++ b) = (coalesce s b).or (coalesce s a) := by
  simp [coalesce, List.findSome?_append]

end SnippetPreview
