import SnippetPreview.Files.Tree
import SnippetPreview.Server.Target

/-!
# Requests and responses

* `Request`, `Request.Method`, `Response`: what a client asks, and what it gets;
* `WrittenRequest`: a request as a client writes it;
* `WrittenRequest.read?`: what it asks, when its method and its target are well formed;
* `WrittenRequest.receive`: the same for a request that comes over a connection, or the response to a malformed one;
* `Response.page`, `Response.empty`: responses with and without a body;
* `Response.onlyHead`: the response to a request for the head alone.
-/

namespace SnippetPreview

/-- What a client wants to do. Names are capital; any other name is a method of its own. -/
inductive Request.Method where
  | get
  | head
  | post
  | options
  | other (name : Text)
deriving DecidableEq, Repr

def Request.Method.ofName (name : Text) : Method :=
  if name = "GET" then get
  else if name = "HEAD" then head
  else if name = "POST" then post
  else if name = "OPTIONS" then options
  else other name

/-- The method asks for a document, or for the head of one. -/
def Request.Method.isRead : Method → Bool
  | get | head => true
  | _ => false

structure Request where
  method : Request.Method
  /-- The path that is asked for, empty when only the server is named. -/
  path : Text
  contentType : Option Text
  body : Text
deriving DecidableEq, Repr

structure Response where
  status : Nat
  contentType : Option Text
  body : Content
deriving DecidableEq, Repr

namespace Response

def empty (status : Nat) : Response := ⟨status, none, .text []⟩

/-- All is well, and this is the document. -/
def page (contentType : Text) (body : Content) : Response := ⟨200, some contentType, body⟩

/-- The document is elsewhere. -/
def redirected : Response := empty 307

def badRequest : Response := empty 400

def notFound : Response := empty 404

def methodNotAllowed : Response := empty 405

/-- The body is longer than a server takes. -/
def bodyTooLong : Response := empty 413

/-- The target is longer than a server takes. -/
def targetTooLong : Response := empty 414

/-- The body is of the wrong type. -/
def unsupportedMediaType : Response := empty 415

/-- The body does not say what it should. -/
def unprocessable : Response := empty 422

def serverError : Response := empty 500

def onlyHead (r : Response) : Response := { r with body := .text [] }

def forMethod (r : Response) : Request.Method → Response
  | .head => r.onlyHead
  | _ => r

end Response

/-! ## Requests as they are written -/

/-- A request as a client writes it. -/
structure WrittenRequest where
  method : Text
  target : Text
  contentType : Option Text
  body : Text
deriving DecidableEq, Repr

namespace WrittenRequest

def isMethodChar (c : Char) : Bool := c.isAlphanum || "!#$%&'*+-.^_|~\x60".toList.elem c

def isMethod (t : Text) : Bool := !t.isEmpty && t.all isMethodChar

def maxTarget : Nat := 65534

/-- What a request asks for, when its method and its target are well formed. -/
def read? (w : WrittenRequest) : Option Request :=
  if isMethod w.method then
    (targetPath? w.target).map fun path => ⟨Request.Method.ofName w.method, path, w.contentType, w.body⟩
  else none

/-- A character that separates the parts of a request from each other. -/
def isSeparator (c : Char) : Bool := c.toNat ≤ 0x20 || c.toNat = 0x7F

/-- A character that cannot stand in a field. -/
def isControl (c : Char) : Bool := c != '\t' && (c.toNat < 0x20 || c.toNat = 0x7F)

def isFieldBlank (c : Char) : Bool := c == ' ' || c == '\t'

def fieldValue (t : Text) : Text := ((t.dropWhile isFieldBlank).reverse.dropWhile isFieldBlank).reverse

/-- The lines of a request can be told apart from each other. -/
def isLegible (w : WrittenRequest) : Bool :=
  isMethod w.method && !w.target.isEmpty && !w.target.any isSeparator && !(w.contentType.any (·.any isControl))

/-- A request that comes over a connection. -/
def receive (w : WrittenRequest) : Except Response Request :=
  if !w.isLegible then .error Response.badRequest
  else if maxTarget < Text.byteSize w.target then .error Response.targetTooLong
  else
    match read? { w with contentType := w.contentType.map fieldValue } with
    | some r => .ok r
    | none => .error Response.badRequest

/-- The response to a request that comes over a connection. -/
def respond (w : WrittenRequest) (answer : Request → Response) : Response :=
  match w.receive with
  | .ok r => answer r
  | .error malformed => malformed

end WrittenRequest

end SnippetPreview
