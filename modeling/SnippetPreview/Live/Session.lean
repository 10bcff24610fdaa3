import SnippetPreview.Live.HostPage
import SnippetPreview.Live.Hub
import SnippetPreview.Live.Message
import SnippetPreview.Renderer.Registry
import SnippetPreview.Server.Address
import SnippetPreview.Watch.Event

/-!
# A live preview

* `Session`: a snippet, its current preview and the pages that show it;
* `Session.start`: begins a session. The address is checked first, then the snippet is read, then watched, then the address
  is taken;
* `Session.handle`: a change that renders differently is told to every page; a snippet that cannot be read, or is gone, keeps
  its last preview;
* `Session.connect`: a page begins to listen.
-/

namespace SnippetPreview

/-- Why there is no live preview. -/
inductive StartError where
  | invalidAddress (address : Text)
  | unreadable (path : Text) (cause : Refusal)
  | unwatched (cause : WatchError)
  | unbound (address : Text) (cause : Refusal)
deriving DecidableEq, Repr

def StartError.message : StartError → Text
  | invalidAddress address => "Invalid listen address: " ++ address
  | unreadable path cause => "Failed to read " ++ path ++ ": " ++ cause.message
  | unwatched cause => "File watch error: " ++ cause.message
  | unbound address cause => "Failed to bind to " ++ address ++ ": " ++ cause.message

/-- What a live preview is asked to show, and where. -/
structure PreviewConfig where
  /-- The path of the snippet. -/
  entry : Text
  port : Nat
  host : Text
  /-- A browser is opened at the start. -/
  opens : Bool
  /-- How long a burst of changes goes on after its last change, in milliseconds. -/
  quietPeriod : Nat
  sandbox : Sandbox
deriving DecidableEq, Repr

def PreviewConfig.address (c : PreviewConfig) : Text := c.host ++ ':' :: Text.ofNat c.port

/-- A snippet that is shown live. -/
structure Session where
  /-- The path of the snippet. -/
  entry : Text
  sandbox : Sandbox
  current : Preview
  pages : Hub PageMessage

namespace Session

/-- Reads, classifies and renders the snippet at a path. -/
def load (n : Node) (path : Text) : Except StartError Preview :=
  match n.readText path with
  | .ok source => .ok (preview source)
  | .error e => .error (.unreadable path e)

/-- Begins a session in a tree, when its address is free, together with what it watches. -/
def start (n : Node) (c : PreviewConfig) (addressIsFree : Bool) : Except StartError (Session × Scope) := do
  if !isListenAddress c.address then throw (.invalidAddress c.address)
  let current ← load n c.entry
  let scope ← match Scope.ofPaths n [c.entry] with
    | .ok scope => pure scope
    | .error e => throw (.unwatched e)
  if !addressIsFree then throw (.unbound c.address .addressInUse)
  return (⟨c.entry, c.sandbox, current, Hub.new⟩, scope)

def update (p : Preview) : PageMessage := .updatePreview p.verdict.kind p.document

/-- Shows a preview on all pages, unless they show it already. -/
def refresh (s : Session) (p : Preview) : Session :=
  if p = s.current then s else { s with current := p, pages := s.pages.send (update p) }

/-- Acts on an event, with the files as they are then. -/
def handle (n : Node) (s : Session) : WatchEvent → Session
  | .changed path =>
    match load n path with
    | .ok p => s.refresh p
    | .error _ => s
  | .removed _ => s

/-- A page begins to listen, and is told so. -/
def connect (s : Session) : PageMessage × Session := (.connected, { s with pages := s.pages.subscribe })

def hostPage (s : Session) : Text := SnippetPreview.hostPage s.entry s.current.verdict.kind s.sandbox

/-- The directory of the snippet, from which a preview may load further files. -/
def assetDirectory (s : Session) : Text := Path.directoryOf s.entry

end Session

end SnippetPreview
