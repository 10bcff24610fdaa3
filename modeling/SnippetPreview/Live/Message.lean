import SnippetPreview.Framework.Wire

/-!
# Messages to open pages

* `PageMessage`: what the server tells an open page;
* `PageMessage.toJson`: the written form, an object whose member `type` says which message it is;
* `PageMessage.parse?`: reads a message. The members may stand in any order and among others, but none of those that
  count may be repeated. An array of the type and the fields in order is accepted, too.
-/

namespace SnippetPreview

/-- What the server tells an open page. -/
inductive PageMessage where
  /-- The whole page is to be loaded anew. -/
  | reload
  /-- The frame shows a new document. -/
  | updatePreview (kind : Kind) (document : Text)
  /-- The connection stands. -/
  | connected
deriving DecidableEq, Repr

/-- A kind in JSON: its name, or an object with nothing under the name. -/
def Kind.ofJson? : Json → Option Kind
  | .string t => ofName? t
  | .object [(name, .null)] => ofName? name
  | .object [(name, .object [])] => ofName? name
  | _ => none

/-- The value of the only member of this name. -/
def Json.only? (name : Text) (members : List (Text × Json)) : Option Json :=
  match members.filter (·.1 == name) with
  | [(_, j)] => some j
  | _ => none

namespace PageMessage

def members : PageMessage → List (Text × Json)
  | reload => [("type", "reload")]
  | updatePreview kind document => [("type", "update_preview"), ("kind", kind.toJson), ("html", document)]
  | connected => [("type", "connected")]

/-- An object that starts with the type. -/
def toJson (m : PageMessage) : Json := .object m.members

/-- The message that updates the preview, when both fields are as they should be. -/
def ofFields? (kind document : Json) : Option PageMessage :=
  match Kind.ofJson? kind, document with
  | some k, .string d => some (updatePreview k d)
  | _, _ => none

/-- The message that an object holds. -/
def ofMembers? (members : List (Text × Json)) : Option PageMessage :=
  match Json.only? "type" members with
  | some (.string tag) =>
    if tag = "reload" then some reload
    else if tag = "connected" then some connected
    else if tag = "update_preview" then do
      ofFields? (← Json.only? "kind" members) (← Json.only? "html" members)
    else none
  | _ => none

def ofItems? : List Json → Option PageMessage
  | [.string tag] => if tag = "reload" then some reload else if tag = "connected" then some connected else none
  | [.string tag, kind, document] => if tag = "update_preview" then ofFields? kind document else none
  | _ => none

/-- The message that a value holds. -/
def ofJson? : Json → Option PageMessage
  | .object members => ofMembers? members
  | .array items => ofItems? items
  | _ => none

def parse? (t : Text) : Option PageMessage := (Json.parse? t).bind ofJson?

end PageMessage

end SnippetPreview
