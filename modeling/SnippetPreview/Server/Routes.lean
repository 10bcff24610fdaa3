import SnippetPreview.Live.ClientScript
import SnippetPreview.Live.Session
import SnippetPreview.Server.MediaType.Parameters
import SnippetPreview.Server.StaticFiles

/-!
# The pages of a live preview

* `SnippetRequest`: a snippet that a client sends, to be classified or rendered;
* `Route`, `Route.ofPath?`: what the server knows by name;
* `Session.answer?`: the response of the known routes;
* `Session.answer`: the same when there is nothing else;
* `Session.serve`: the same with the files next to the snippet for all other paths.
-/

namespace SnippetPreview

open Json (Reader)

/-- A snippet with the kind that it is to be taken for, if not the classifier's. -/
structure SnippetRequest where
  source : Text
  kind : Option Kind
deriving DecidableEq, Repr

namespace SnippetRequest

/-- The fields that have been read so far. -/
structure Partial where
  source : Option Text
  kind : Option (Option Kind)

def field? (name : Text) : Option (Partial → Reader Partial) :=
  if name = "code" then some fun s => return { s with source := ← Reader.once s.source Reader.string }
  else if name = "kind" then some fun s => return { s with kind := ← Reader.once s.kind (Reader.nullable Kind.reader) }
  else none

/-- Reads a request: an object of which only the code is required, or an array of the code and perhaps the kind. -/
def reader : Reader SnippetRequest := do
  let c ← Reader.peek
  if c = '[' then do
    Reader.next
    let source ← Reader.positional true Reader.string
    match ← Reader.item? false (Reader.nullable Kind.reader) with
    | none => return ⟨source, none⟩
    | some kind => do
      Reader.expect ']'
      return ⟨source, kind⟩
  else if c = '\x7b' then do
    Reader.next
    let s ← Reader.fields field? ⟨none, none⟩
    return ⟨← Reader.required s.source, s.kind.join⟩
  else Reader.mismatch

def verdict (r : SnippetRequest) : Verdict :=
  match r.kind with
  | some k => Verdict.ofKind k
  | none => classify r.source

end SnippetRequest

/-- What the server knows by name. -/
inductive Route where
  /-- The page around the preview. -/
  | host
  /-- The preview itself. -/
  | preview
  /-- The socket of open pages. -/
  | socket
  /-- The script of the page. -/
  | script
  /-- Classifies a snippet. -/
  | classify
  /-- Renders a snippet. -/
  | render
deriving DecidableEq, Repr

namespace Route

def socketPath : Text := "/__hmr"

/-- The route of a path, which is taken literally. -/
def ofPath? (path : Text) : Option Route :=
  if path = "/" then some host
  else if path = "/__preview" then some preview
  else if path = socketPath then some socket
  else if path = "/__hmr.js" then some script
  else if path = "/api/classify" then some classify
  else if path = "/api/render" then some render
  else none

end Route

def markupResponse (t : Text) : Response := Response.page "text/html; charset=utf-8" (.text t)

def jsonResponse (j : Json) : Response := Response.page "application/json" (.text j.compact)

def maxBody : Nat := 2097152

/-- The response to a snippet in the body of a request. -/
def answerSnippet (r : Request) (answer : SnippetRequest → Json) : Response :=
  if !r.contentType.any MediaType.isJson then Response.unsupportedMediaType
  else if maxBody < Text.byteSize r.body then Response.bodyTooLong
  else
    match SnippetRequest.reader.run r.body with
    | .ok s => jsonResponse (answer s)
    | .error .malformed => Response.badRequest
    | .error .shape => Response.unprocessable

/-- A document for those who read it. -/
def answerRead (r : Request) (document : Response) : Response :=
  if r.method.isRead then document.forMethod r.method else Response.methodNotAllowed

/-- A call for those who post it. Pages from elsewhere may ask whether they are allowed to, and are. -/
def answerCall (r : Request) (answer : SnippetRequest → Json) : Response :=
  match r.method with
  | .options => Response.empty 200
  | .post => answerSnippet r answer
  | _ => Response.methodNotAllowed

namespace Session

/-- The response of a route. The socket takes no plain requests. -/
def answerRoute (s : Session) (r : Request) : Route → Response
  | .host => answerRead r (markupResponse s.hostPage)
  | .preview => answerRead r (markupResponse s.current.document)
  | .script => answerRead r (Response.page "application/javascript" (.text (clientScript Route.socketPath)))
  | .socket => if r.method = .get then Response.badRequest else Response.methodNotAllowed
  | .classify => answerCall r fun q => (SnippetPreview.classify q.source).toJson
  | .render => answerCall r fun q =>
    .object [("verdict", q.verdict.toJson), ("html", SnippetPreview.render q.source q.verdict)]

def answer? (s : Session) (r : Request) : Option Response := (Route.ofPath? r.path).map (s.answerRoute r)

/-- The response of a known route, when there is nothing else. Pages from elsewhere may ask about any path. -/
def answer (s : Session) (r : Request) : Response :=
  (s.answer? r).getD (if r.method = .options then Response.empty 200 else Response.notFound)

/-- The response of a known route, or else the file next to the snippet. -/
def serve (n : Node) (s : Session) (r : Request) : Response :=
  (s.answer? r).getD (StaticFiles.answer n s.assetDirectory r)

end Session

end SnippetPreview
