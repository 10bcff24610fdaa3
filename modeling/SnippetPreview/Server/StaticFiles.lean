import SnippetPreview.Json.Lexical
import SnippetPreview.Server.Http
import SnippetPreview.Server.MediaType.Extension

/-!
# Files behind a server

* `percentDecode?`: the text that a path with percent signs stands for;
* `StaticFiles.locate?`: the file that a request asks for. No request leads out of the directory;
* `StaticFiles.answer`: the file, or the page of its directory.
-/

namespace SnippetPreview

/-- The byte that two hexadecimal digits write. -/
def hexByte? (a b : UInt8) : Option UInt8 := do
  let a ← Json.hexValue? (Char.ofNat a.toNat)
  let b ← Json.hexValue? (Char.ofNat b.toNat)
  return UInt8.ofNat (16 * a + b)

/-- Bytes with each escape replaced by the byte that it stands for. -/
def unescapeBytes : List UInt8 → List UInt8
  | 0x25 :: a :: b :: rest =>
    match hexByte? a b with
    | some byte => byte :: unescapeBytes rest
    | none => 0x25 :: unescapeBytes (a :: b :: rest)
  | byte :: rest => byte :: unescapeBytes rest
  | [] => []

def percentDecode? (t : Text) : Option Text :=
  let bytes := unescapeBytes (String.ofList t).toUTF8.data.toList
  (String.fromUTF8? ⟨bytes.toArray⟩).map String.toList

namespace StaticFiles

/-- The path of the file below `base` that is asked for. -/
def locate? (base path : Text) : Option Text := do
  let wanted ← percentDecode? (path.dropWhile (· == '/'))
  (Path.parts wanted).foldlM (fun place part =>
    match part with
    | .name t => some (Path.join place t)
    | .here => some place
    | .root | .up => none) base

def asksForDirectory (path : Text) : Bool := path.getLast? == some '/'

def nameOf (path : Text) : Text := (Path.fileName? (Path.parts path)).getD []

/-- What is at a path. Its head says no more than that something is there, be it a directory. -/
def content (n : Node) (path : Text) : Request.Method → Except Refusal Content
  | .head => (n.find path).map fun _ => .text []
  | _ => n.read path

/-- A file as a response. -/
def file (n : Node) (path : Text) (method : Request.Method) : Response :=
  match content n path method with
  | .ok body => Response.page (MediaType.ofName (nameOf path)) body
  | .error .notFound | .error .notDirectory | .error .zeroByte => Response.notFound
  | .error _ => Response.serverError

/-- The way from a directory to the same path with a slash, which only exists where a path is given. -/
def slashed (path : Text) : Response := if path.isEmpty then Response.serverError else Response.redirected

/-- The file that a path asks for. A directory stands for its index page, when the path ends with a slash. -/
def find (n : Node) (base path : Text) (method : Request.Method) : Response :=
  match locate? base path with
  | none => Response.notFound
  | some place =>
    if !n.isDirectory place then file n place method
    else if asksForDirectory path then file n (Path.join place "index.html") method
    else slashed path

def answer (n : Node) (base : Text) (r : Request) : Response :=
  if r.method.isRead then find n base r.path r.method else Response.methodNotAllowed

end StaticFiles

end SnippetPreview
