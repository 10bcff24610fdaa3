import SnippetPreview.Json.Numeral

/-!
# Reading JSON values

* `Json.value`: reads one value from the start of a text;
* `Json.parse?`: the value that a whole text writes. Containers may be nested 127 deep, and numbers whose double
  would be infinite are refused.
-/

namespace SnippetPreview.Json

/-- The deepest nesting of containers, counted with the innermost value. -/
def maxDepth : Nat := 128

/-- What follows a word at the start of the text. -/
def word? (word : Text) (t : Text) : Option Text := Text.stripLead? word t

mutual

/-- One value with at most `depth - 1` open containers. Two units of fuel for each character suffice, one for the
value and one for its container. -/
def valueWithin? (fuel depth : Nat) (t : Text) : Option (Json × Text) :=
  match fuel with
  | 0 => none
  | fuel + 1 =>
    match skipSpace t with
    | [] => none
    | c :: rest =>
      if c = 'n' then (word? "ull" rest).map (null, ·)
      else if c = 't' then (word? "rue" rest).map (bool true, ·)
      else if c = 'f' then (word? "alse" rest).map (bool false, ·)
      else if c = '"' then (string? rest).map fun (s, rest) => (string s, rest)
      else if c = '[' then
        if depth ≤ 1 then none
        else (itemsWithin? fuel (depth - 1) true rest).map fun (items, rest) => (array items, rest)
      else if c = '\x7b' then
        if depth ≤ 1 then none
        else (membersWithin? fuel (depth - 1) true rest).map fun (members, rest) => (object members, rest)
      else do
        let (n, rest) ← numeral? (c :: rest)
        if n.overflows then none else some (n.toJson, rest)

def itemsWithin? (fuel depth : Nat) (isFirst : Bool) (t : Text) : Option (List Json × Text) :=
  match fuel with
  | 0 => none
  | fuel + 1 =>
    match skipSpace t with
    | [] => none
    | c :: rest =>
      if c = ']' then some ([], rest)
      else if isFirst || c == ',' then do
        let (item, rest) ← valueWithin? fuel depth (if isFirst then c :: rest else rest)
        let (items, rest) ← itemsWithin? fuel depth false rest
        return (item :: items, rest)
      else none

def membersWithin? (fuel depth : Nat) (isFirst : Bool) (t : Text) : Option (List (Text × Json) × Text) :=
  match fuel with
  | 0 => none
  | fuel + 1 =>
    match skipSpace t with
    | [] => none
    | c :: rest =>
      if c = '\x7d' then some ([], rest)
      else if isFirst || c == ',' then
        match skipSpace (if isFirst then c :: rest else rest) with
        | '"' :: rest => do
          let (name, rest) ← string? rest
          match skipSpace rest with
          | ':' :: rest => do
            let (item, rest) ← valueWithin? fuel depth rest
            let (members, rest) ← membersWithin? fuel depth false rest
            return ((name, item) :: members, rest)
          | _ => none
        | _ => none
      else none

end

/-- The value that a whole text writes, blanks around it allowed. -/
def parse? (t : Text) : Option Json := do
  let (j, rest) ← valueWithin? (2 * t.length + 2) maxDepth t
  if (skipSpace rest).isEmpty then some j else none

end SnippetPreview.Json
