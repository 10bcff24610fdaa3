import SnippetPreview.Toml.Basic
import SnippetPreview.Toml.Lexical

/-!
# Reading TOML

* `Toml.keys?`: a dotted key;
* `Toml.value?`: reads one value from the start of a text;
* `Toml.parse?`: the table that a whole file writes. Containers may be nested 79 deep, and keys may have as many parts.
-/

namespace SnippetPreview.Toml

/-! ## Keys -/

/-- A character of keys without quotes. -/
def isKeyChar (c : Char) : Bool := c.isAlphanum || c == '_' || c == '-'

def key? : Text → Option (Text × Text)
  | '"' :: rest => lineString? '"' true rest
  | '\'' :: rest => lineString? '\'' false rest
  | t =>
    match t.span isKeyChar with
    | ([], _) => none
    | found => some found

/-- The deepest nesting of containers, and the most parts of a key. -/
def maxDepth : Nat := 79

/-- At most `n` parts of a key with dots between them. -/
def keysWithin? : Nat → Text → Option (List Text × Text)
  | 0, _ => none
  | n + 1, t => do
    let (key, t) ← key? (skipSpace t)
    match skipSpace t with
    | '.' :: rest => do
      let (keys, rest) ← keysWithin? n rest
      return (key :: keys, rest)
    | rest => return ([key], rest)

/-- A dotted key, with the blanks around it. -/
def keys? (t : Text) : Option (List Text × Text) := keysWithin? maxDepth t

/-! ## Values -/

def number? (t : Text) : Option (Toml × Text) :=
  match date? t with
  | some rest => some (date, rest)
  | none =>
    match isFloat? t with
    | some rest => some (float, rest)
    | none => (integer? t).map fun (n, rest) => (integer n, rest)

/-- A value without further values inside. -/
def scalar? (t : Text) : Option (Toml × Text) :=
  match t with
  | [] => none
  | c :: _ =>
    if c = '"' ∨ c = '\'' then (string? t).map fun (s, rest) => (string s, rest)
    else if c = 't' then (Text.stripLead? "true" t).map (bool true, ·)
    else if c = 'f' then (Text.stripLead? "false" t).map (bool false, ·)
    else number? t

mutual

/-- One value with at most `depth` containers around its innermost value. Two units of fuel for each character suffice. -/
def valueWithin? (fuel depth : Nat) (t : Text) : Option (Toml × Text) :=
  match fuel with
  | 0 => none
  | fuel + 1 =>
    match t with
    | '[' :: rest =>
      if depth = 0 then none
      else (itemsWithin? fuel (depth - 1) true rest).map fun (items, rest) => (array items, rest)
    | '\x7b' :: rest =>
      if depth = 0 then none
      else (membersWithin? fuel (depth - 1) true [] rest).map fun (ms, rest) => (table .inline ms, rest)
    | t => scalar? t

/-- The items up to the closing bracket. They may stand on several lines, and a comma may follow the last one. -/
def itemsWithin? (fuel depth : Nat) (isFirst : Bool) (t : Text) : Option (List Toml × Text) :=
  match fuel with
  | 0 => none
  | fuel + 1 => do
    match ← skipLines? t with
    | ']' :: rest => return ([], rest)
    | t =>
      if isFirst || t.head? == some ',' then do
        match ← skipLines? (if isFirst then t else t.drop 1) with
        | ']' :: rest => return ([], rest)
        | t => do
          let (item, rest) ← valueWithin? fuel depth t
          let (items, rest) ← itemsWithin? fuel depth false rest
          return (item :: items, rest)
      else none

/-- The members up to the closing brace, on one line. `ms` are those in front. -/
def membersWithin? (fuel depth : Nat) (isFirst : Bool) (ms : Members) (t : Text) : Option (Members × Text) :=
  match fuel with
  | 0 => none
  | fuel + 1 =>
    match skipSpace t with
    | '\x7d' :: rest => some (ms, rest)
    | t =>
      if isFirst || t.head? == some ',' then do
        let (keys, rest) ← keys? (if isFirst then t else t.drop 1)
        let (value, rest) ← valueWithin? fuel depth (skipSpace (← Text.stripLead? ['='] rest))
        match assign keys value .header ms with
        | some (table _ ms) => membersWithin? fuel depth false ms rest
        | _ => none
      else none

end

/-- Reads one value from the start of a text. -/
def value? (t : Text) : Option (Toml × Text) := valueWithin? (2 * t.length + 2) maxDepth t

/-! ## Files -/

/-- What has been read of a file. -/
structure Progress where
  /-- The members of the table of the whole file. -/
  members : Members
  /-- The table that lines belong to, by the keys of its header. -/
  current : List Text

/-- The progress with the table of the whole file replaced. -/
def Progress.withRoot? (p : Progress) : Option Toml → Option Progress
  | some (table _ ms) => some { p with members := ms }
  | _ => none

def header? (p : Progress) (t : Text) : Option (Progress × Text) :=
  match t with
  | '[' :: rest => do
    let (keys, rest) ← keys? rest
    let rest ← lineEnd? (← Text.stripLead? "]]" rest)
    return (← { p with current := keys }.withRoot? (openItem keys .header p.members), rest)
  | t => do
    let (keys, rest) ← keys? t
    let rest ← lineEnd? (← Text.stripLead? "]" rest)
    return (← { p with current := keys }.withRoot? (openTable keys .header p.members), rest)

def setting? (p : Progress) (t : Text) : Option (Progress × Text) := do
  let (keys, rest) ← keys? t
  let (value, rest) ← value? (skipSpace (← Text.stripLead? ['='] rest))
  let rest ← lineEnd? rest
  return (← p.withRoot? (edit false (assign keys value) p.current .header p.members), rest)

def line? (p : Progress) (t : Text) : Option (Progress × Text) :=
  match t with
  | '[' :: rest => header? p rest
  | c :: rest =>
    if c = '#' ∨ c = '\n' ∨ c = '\r' then (lineEnd? (c :: rest)).map (p, ·) else setting? p (c :: rest)
  | [] => some (p, [])

/-- At most `n` lines. -/
def linesWithin? : Nat → Progress → Text → Option Progress
  | 0, _, _ => none
  | n + 1, p, t =>
    match skipSpace t with
    | [] => some p
    | t => do
      let (p, rest) ← line? p t
      linesWithin? n p rest

/-- The table that a whole file writes. A byte order mark in front does not count. -/
def parse? (t : Text) : Option Toml := do
  let t := (Text.stripLead? ['\ufeff'] t).getD t
  let p ← linesWithin? (t.length + 1) ⟨[], []⟩ t
  return table .header p.members

end SnippetPreview.Toml
