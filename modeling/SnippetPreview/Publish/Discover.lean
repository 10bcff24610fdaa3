import SnippetPreview.Files.Tree
import SnippetPreview.Publish.Slug

/-!
# Finding snippets

* `filesBelow`: the files of a directory in path order, without hidden entries, dependency folders and the output
  directory;
* `isSnippetName`: the files that are snippets, by their extension;
* `discover`: the snippets below a source directory, each with a slug of its own.
-/

namespace SnippetPreview

def snippetExtensions : List Text := ["html", "htm", "js", "jsx", "ts", "tsx", "vue", "svelte"]

/-- Directories that hold no snippets. -/
def skippedDirectories : List Text := ["node_modules", "target"]

/-- The extension of the name is one of a snippet, in small or capital letters. -/
def isSnippetName (name : Text) : Bool :=
  (Path.extension? name).any fun e => snippetExtensions.contains e.lowerAscii

def isHidden (name : Text) : Bool := name.head? == some '.'

mutual

/-- The files below a directory with their names from there, in path order. `excluded` is the directory to leave out, and
`place` says where in it the search is. -/
def filesBelow (excluded : List Text → Bool) (place : List Text) : Node → List (List Text × Content)
  | .file _ => []
  | .directory es =>
    ((filesByEntry excluded place es).mergeSort fun a b => !decide (b.1 < a.1)).flatMap (·.2)

/-- The files of each entry that is not left out. -/
def filesByEntry (excluded : List Text → Bool) (place : List Text) :
    List (Text × Node) → List (Text × List (List Text × Content))
  | [] => []
  | (name, n) :: rest =>
    let here := place ++ [name]
    let found :=
      if isHidden name then []
      else
        match n with
        | .file c => [(here, c)]
        | .directory es =>
          if skippedDirectories.contains name || excluded here then []
          else filesBelow excluded here (.directory es)
    (name, found) :: filesByEntry excluded place rest

end

structure Snippet where
  /-- The path from the source directory. -/
  path : Text
  slug : Text
  source : Text
deriving DecidableEq, Repr

/-- Why there are no snippets. -/
inductive DiscoveryError where
  /-- The source directory is none. -/
  | noDirectory (path : Text)
  /-- A snippet cannot be read. -/
  | unreadable (path : Text) (cause : Refusal)
deriving DecidableEq, Repr

def DiscoveryError.message : DiscoveryError → Text
  | noDirectory path => "Source directory not found: " ++ path
  | unreadable path cause => path ++ ": " ++ cause.message

def slashPath (names : List Text) : Text := Text.join ['/'] names

/-- The path without the extension of its last name. -/
def withoutExtension (names : List Text) : Text :=
  slashPath (names.dropLast ++ (names.getLast?.map Path.stem).toList)

/-- The path is short enough for the system. Files that are not are overlooked. -/
def isWithinReach (path : Text) : Bool := Text.byteSize path ≤ maxPathBytes

/-- The texts of the files, or the first that is none. -/
def readSources (source : Text) : List (List Text × Content) → Except DiscoveryError (List (List Text × Text))
  | [] => .ok []
  | (names, .text t) :: rest => (readSources source rest).map ((names, t) :: ·)
  | (names, .binary _) :: _ => .error (.unreadable (Path.join source (slashPath names)) .notText)

/-- The snippets for sources in path order, each with a slug that no earlier one has. -/
def withSlugs (taken : List Text) : List (List Text × Text) → List Snippet
  | [] => []
  | (names, source) :: rest =>
    let s := freeSlug taken (slug (withoutExtension names))
    ⟨slashPath names, s, source⟩ :: withSlugs (s :: taken) rest

/-- The snippets below the directory `source`, without those below `output`. -/
def discover (n : Node) (source output : Text) : Except DiscoveryError (List Snippet) := do
  match n.resolve source, n.find source with
  | .ok place, .ok (.directory es) =>
    let out := (n.canonical output).toOption
    let excluded (names : List Text) : Bool := out == some (place ++ names)
    let found := (filesBelow excluded [] (.directory es)).filter fun (names, _) =>
      names.getLast?.any isSnippetName && isWithinReach (Path.join source (slashPath names))
    return withSlugs [] (← readSources source found)
  | _, _ => throw (.noDirectory source)

end SnippetPreview
