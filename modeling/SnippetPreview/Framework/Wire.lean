import SnippetPreview.Framework.Verdict
import SnippetPreview.Json.Decode

/-!
# Verdicts as JSON

* `Verdict.toJson`: the written form, an object of three members;
* `Kind.reader`, `Verdict.reader`: readers for it. A kind is also accepted as an object whose only member is its name with
  `null`, a verdict also as an array of its fields in order.
-/

namespace SnippetPreview

open Json (Reader)

def Kind.toJson (k : Kind) : Json := k.name

/-- Reads the name of a kind behind blanks. -/
def Kind.nameReader : Reader Kind := do
  match Kind.ofName? (← Reader.string) with
  | some k => return k
  | none => Reader.fail .shape

/-- Reads a kind: its name, or an object with `null` under the name. An object with anything else in front is malformed. -/
def Kind.reader : Reader Kind := do
  let c ← Reader.peek
  if c = '"' then nameReader
  else if c = '\x7b' then do
    Reader.next
    if (← Reader.peek) ≠ '"' then Reader.fail .malformed
    let k ← nameReader
    Reader.expect ':'
    Reader.null
    Reader.expect '\x7d'
    return k
  else Reader.fail .malformed

namespace Verdict

def members (v : Verdict) : List (Text × Json) :=
  [("kind", v.kind.toJson), ("needs_browser_compilation", v.needsCompilation),
    ("cdn_script_urls", .array (v.scripts.map .string))]

def toJson (v : Verdict) : Json := .object v.members

/-- The fields of a verdict that have been read so far. -/
structure Partial where
  kind : Option Kind
  needsCompilation : Option Bool
  scripts : Option (List Text)

/-- The readers of the members by name. -/
def field? (name : Text) : Option (Partial → Reader Partial) :=
  if name = "kind" then some fun s => return { s with kind := ← Reader.once s.kind Kind.reader }
  else if name = "needs_browser_compilation" then
    some fun s => return { s with needsCompilation := ← Reader.once s.needsCompilation Reader.bool }
  else if name = "cdn_script_urls" then
    some fun s => return { s with scripts := ← Reader.once s.scripts (Reader.array Reader.string) }
  else none

def reader : Reader Verdict := do
  let c ← Reader.peek
  if c = '[' then do
    Reader.next
    let kind ← Reader.positional true Kind.reader
    let needsCompilation ← Reader.positional false Reader.bool
    let scripts ← Reader.positional false (Reader.array Reader.string)
    Reader.expect ']'
    return ⟨kind, needsCompilation, scripts⟩
  else if c = '\x7b' then do
    Reader.next
    let s ← Reader.fields field? ⟨none, none, none⟩
    return ⟨← Reader.required s.kind, ← Reader.required s.needsCompilation, ← Reader.required s.scripts⟩
  else Reader.mismatch

end Verdict

end SnippetPreview
