import SnippetPreview.Publish.Discover
import SnippetPreview.Publish.Page
import SnippetPreview.Publish.Storage
import SnippetPreview.Publish.Stylesheet
import SnippetPreview.Renderer.Registry

/-!
# Publishing

* `PublishConfig`: what is published where;
* `publishFound`: stores the previews of snippets, then the manifest, the index page and its style. The previews are stored
  in any order; the rest follows when all of them are stored;
* `publish`: finds the snippets and publishes them;
* `publishToDirectory`: the same with the output directory as the storage.
-/

namespace SnippetPreview

/-- What is published, and where. -/
structure PublishConfig where
  source : Text
  output : Text
  baseUrl : Text
  title : Text
  minify : Bool
deriving DecidableEq, Repr

/-- The usual directories, at the root of a site. -/
def PublishConfig.standard : PublishConfig := ⟨"snippets", "dist", "/", "Previews", true⟩

/-- Why nothing, or not all, is published. -/
inductive PublishError where
  | discovery (cause : DiscoveryError)
  | storage (cause : StorageError)
deriving DecidableEq, Repr

def PublishError.message : PublishError → Text
  | discovery e => "Failed to read snippets: " ++ e.message
  | storage e => e.message

def Snippet.document (s : Snippet) : Text := (preview s.source).document

/-- The path that the document of a snippet is stored under. -/
def Snippet.objectPath (s : Snippet) : Text := "previews/" ++ s.slug ++ "/index.html"

section

variable {σ : Type} (storage : Storage σ)

def Snippet.published (s : Snippet) : PublishedPreview :=
  let v := classify s.source
  ⟨s.slug, s.path, v.kind, v.needsCompilation, s.objectPath, storage.publicUrl s.objectPath⟩

def Snippet.store (s : Snippet) : ExceptT StorageError (StateM σ) Unit := storage.put s.objectPath (.text s.document)

def manifest (c : PublishConfig) (previews : List PublishedPreview) : Text :=
  Json.pretty (.object [("title", c.title), ("base_url", c.baseUrl),
    ("previews", .array (previews.map PublishedPreview.toJson))])

/-- Stores the previews of `tasks` in this order and, when all are stored, the pages that list `snippets`. -/
def publishFound (c : PublishConfig) (tasks snippets : List Snippet) :
    ExceptT StorageError (StateM σ) (List PublishedPreview) := do
  tasks.forM (Snippet.store storage)
  let previews := snippets.map (Snippet.published storage)
  storage.put "manifest.json" (.text (manifest c previews))
  storage.put "index.html" (.text (indexPage c.title c.baseUrl previews))
  storage.put "assets/index.css" (.text (stylesheet c.minify))
  return previews

/-- Finds the snippets in a tree and publishes them, the previews in the order that `schedule` gives. -/
def publishScheduled (schedule : List Snippet → List Snippet) (n : Node) (c : PublishConfig) :
    ExceptT PublishError (StateM σ) (List PublishedPreview) :=
  match discover n c.source c.output with
  | .error e => throw (.discovery e)
  | .ok snippets => ExceptT.mk do
    match ← (publishFound storage c (schedule snippets) snippets).run with
    | .ok previews => return .ok previews
    | .error e => return .error (.storage e)

/-- Finds the snippets in a tree and publishes them in path order. -/
def publish (n : Node) (c : PublishConfig) : ExceptT PublishError (StateM σ) (List PublishedPreview) :=
  publishScheduled storage id n c

end

/-- The output directory as a storage. -/
def PublishConfig.directory (c : PublishConfig) : Directory := ⟨c.output, c.baseUrl⟩

/-- Publishes from and into the same tree. -/
def publishToDirectory (c : PublishConfig) : ExceptT PublishError (StateM Node) (List PublishedPreview) := do
  publish c.directory.storage (← get) c

end SnippetPreview
