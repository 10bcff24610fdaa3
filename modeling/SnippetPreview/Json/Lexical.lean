import SnippetPreview.Json.Basic

/-!
# Blanks and strings of JSON

* `Json.skipSpace`: the text behind its leading blanks;
* `Json.string?`: reads a string behind its opening quote, resolving escapes; half a surrogate pair is refused;
* `Json.skipString?`: passes over a string, surrogates in any order included.
-/

namespace SnippetPreview.Json

def isSpace (c : Char) : Bool := c == ' ' || c == '\n' || c == '\t' || c == '\r'

def skipSpace (t : Text) : Text := t.dropWhile isSpace

/-! ## Strings -/

def hexValue? (c : Char) : Option Nat :=
  if c.isDigit then some (c.toNat - '0'.toNat)
  else if 'a' ≤ c && c ≤ 'f' then some (c.toNat - 'a'.toNat + 10)
  else if 'A' ≤ c && c ≤ 'F' then some (c.toNat - 'A'.toNat + 10)
  else none

/-- The number that the next four hexadecimal digits write. -/
def hex4? : Text → Option (Nat × Text)
  | a :: b :: c :: d :: rest => do
    let a ← hexValue? a
    let b ← hexValue? b
    let c ← hexValue? c
    let d ← hexValue? d
    return (a * 4096 + b * 256 + c * 16 + d, rest)
  | _ => none

def simpleEscape? (c : Char) : Option Char :=
  if c = '"' then some '"'
  else if c = '\\' then some '\\'
  else if c = '/' then some '/'
  else if c = 'b' then some '\x08'
  else if c = 'f' then some '\x0c'
  else if c = 'n' then some '\n'
  else if c = 'r' then some '\r'
  else if c = 't' then some '\t'
  else none

/-- The low half of a surrogate pair, with its backslash and letter. -/
def lowSurrogate? : Text → Option (Nat × Text)
  | '\\' :: 'u' :: rest => do
    let (low, rest) ← hex4? rest
    if 0xDC00 ≤ low ∧ low ≤ 0xDFFF then some (low - 0xDC00, rest) else none
  | _ => none

/-- The character that the code behind `\u` names, together with a second code for a high surrogate. -/
def unicodeEscape? (t : Text) : Option (Char × Text) := do
  let (code, rest) ← hex4? t
  if 0xDC00 ≤ code ∧ code ≤ 0xDFFF then none
  else if 0xD800 ≤ code ∧ code ≤ 0xDBFF then
    let (low, rest) ← lowSurrogate? rest
    return (Char.ofNat (0x10000 + (code - 0xD800) * 0x400 + low), rest)
  else return (Char.ofNat code, rest)

/-- The character that an escape behind its backslash names. -/
def escape? : Text → Option (Char × Text)
  | 'u' :: rest => unicodeEscape? rest
  | c :: rest => (simpleEscape? c).map (·, rest)
  | [] => none

/-- A string behind its opening quote, with at most `n` characters. -/
def stringWithin? : Nat → Text → Option (Text × Text)
  | 0, _ => none
  | _ + 1, [] => none
  | n + 1, c :: rest =>
    if c = '"' then some ([], rest)
    else if c = '\\' then do
      let (d, rest) ← escape? rest
      let (t, rest) ← stringWithin? n rest
      return (d :: t, rest)
    else if c.toNat < 0x20 then none
    else do
      let (t, rest) ← stringWithin? n rest
      return (c :: t, rest)

/-- Reads a string behind its opening quote. -/
def string? (t : Text) : Option (Text × Text) := stringWithin? (t.length + 1) t

/-- What follows an escape behind its backslash, whatever character it names. -/
def skipEscape? : Text → Option Text
  | 'u' :: rest => (hex4? rest).map (·.2)
  | c :: rest => (simpleEscape? c).map fun _ => rest
  | [] => none

/-- What follows a string of at most `n` characters. -/
def skipStringWithin? : Nat → Text → Option Text
  | 0, _ => none
  | _ + 1, [] => none
  | n + 1, c :: rest =>
    if c = '"' then some rest
    else if c = '\\' then (skipEscape? rest).bind (skipStringWithin? n)
    else if c.toNat < 0x20 then none
    else skipStringWithin? n rest

/-- Passes over a string behind its opening quote. -/
def skipString? (t : Text) : Option Text := skipStringWithin? (t.length + 1) t

end SnippetPreview.Json
