import SnippetPreview.Json.Parser

/-!
# Reading JSON into records

* `Json.Fault`: why a text is refused. It is no JSON, or it is JSON of another shape; the first fault in reading order
  counts;
* `Json.Reader`: reads a value of a type from the start of a text;
* `Json.Reader.fields`, `Json.Reader.positional`: the two written forms of a record, an object whose unknown members are
  passed over and an array of all fields in order;
* `Json.Reader.run`: reads a whole text.
-/

namespace SnippetPreview.Json

/-! ## Passing over values -/

mutual

/-- What follows one value, whatever it is. Two units of fuel for each character suffice. -/
def skipWithin? (fuel : Nat) (t : Text) : Option Text :=
  match fuel with
  | 0 => none
  | fuel + 1 =>
    match skipSpace t with
    | [] => none
    | c :: rest =>
      if c = 'n' then word? "ull" rest
      else if c = 't' then word? "rue" rest
      else if c = 'f' then word? "alse" rest
      else if c = '"' then skipString? rest
      else if c = '[' then skipItemsWithin? fuel true rest
      else if c = '\x7b' then skipMembersWithin? fuel true rest
      else (numeral? (c :: rest)).map (·.2)

/-- What follows the items and the closing bracket. -/
def skipItemsWithin? (fuel : Nat) (isFirst : Bool) (t : Text) : Option Text :=
  match fuel with
  | 0 => none
  | fuel + 1 =>
    match skipSpace t with
    | [] => none
    | c :: rest =>
      if c = ']' then some rest
      else if isFirst || c == ',' then
        (skipWithin? fuel (if isFirst then c :: rest else rest)).bind (skipItemsWithin? fuel false)
      else none

/-- What follows the members and the closing brace. -/
def skipMembersWithin? (fuel : Nat) (isFirst : Bool) (t : Text) : Option Text :=
  match fuel with
  | 0 => none
  | fuel + 1 =>
    match skipSpace t with
    | [] => none
    | c :: rest =>
      if c = '\x7d' then some rest
      else if isFirst || c == ',' then
        match skipSpace (if isFirst then c :: rest else rest) with
        | '"' :: rest => do
          match skipSpace (← skipString? rest) with
          | ':' :: rest => (skipWithin? fuel rest).bind (skipMembersWithin? fuel false)
          | _ => none
        | _ => none
      else none

end

/-- What follows one value, whatever it is. -/
def skip? (t : Text) : Option Text := skipWithin? (2 * t.length + 2) t

/-! ## Readers -/

/-- Why a text is refused. -/
inductive Fault where
  /-- The text is no JSON. -/
  | malformed
  /-- A value has another shape than the one asked for. -/
  | shape
deriving DecidableEq, Repr

/-- Reads a value from the start of a text and leaves the rest. -/
abbrev Reader (α : Type) := StateT Text (Except Fault) α

namespace Reader

def fail {α : Type} (f : Fault) : Reader α := fun _ => .error f

/-- A step that is malformed where it has no result. -/
def ofOption {α : Type} (step : Text → Option (α × Text)) : Reader α := fun t =>
  match step t with
  | some found => .ok found
  | none => .error .malformed

/-- The next character that is no blank; it is not read yet. -/
def peek : Reader Char := ofOption fun t =>
  match skipSpace t with
  | [] => none
  | c :: rest => some (c, c :: rest)

def next : Reader Unit := modify List.tail

/-- Reads this character behind blanks; any other is malformed. -/
def expect (c : Char) : Reader Unit := do
  if (← peek) = c then next else fail .malformed

/-- Refuses a value of another type than the one asked for. A scalar is read first, as it may be malformed. -/
def mismatch {α : Type} : Reader α := do
  let c ← peek
  if c = '[' ∨ c = '\x7b' then fail .shape
  else if c = '"' then do
    next
    let _ ← ofOption string?
    fail .shape
  else do
    let _ ← ofOption (valueWithin? 1 maxDepth)
    fail .shape

def string : Reader Text := do
  if (← peek) = '"' then do
    next
    ofOption string?
  else mismatch

def word (rest : Text) : Reader Unit := ofOption fun t => (word? rest t).map ((), ·)

def bool : Reader Bool := do
  let c ← peek
  if c = 't' then do next; word "rue"; return true
  else if c = 'f' then do next; word "alse"; return false
  else mismatch

def null : Reader Unit := do
  if (← peek) = 'n' then do next; word "ull" else mismatch

/-- Reads `null` or a value. -/
def nullable {α : Type} (r : Reader α) : Reader (Option α) := do
  if (← peek) = 'n' then do next; word "ull"; return none
  else return some (← r)

/-- Reads the next item of an array, or its closing bracket. -/
def item? {α : Type} (isFirst : Bool) (r : Reader α) : Reader (Option α) := do
  let c ← peek
  if c = ']' then do next; return none
  else if isFirst then return some (← r)
  else if c = ',' then do
    next
    if (← peek) = ']' then fail .malformed else return some (← r)
  else fail .malformed

/-- At most `n` items up to the closing bracket. -/
def itemsWithin {α : Type} (r : Reader α) : Nat → Bool → Reader (List α)
  | 0, _ => fail .malformed
  | n + 1, isFirst => do
    match ← item? isFirst r with
    | none => return []
    | some a => return a :: (← itemsWithin r n false)

def array {α : Type} (r : Reader α) : Reader (List α) := do
  if (← peek) = '[' then do
    next
    itemsWithin r ((← get).length + 1) true
  else mismatch

/-- Reads the name of the next member up to its colon, or the closing brace. -/
def name? (isFirst : Bool) : Reader (Option Text) := do
  let c ← peek
  if c = '\x7d' then do next; return none
  else do
    if isFirst then pure () else expect ','
    expect '"'
    let name ← ofOption string?
    return some name

/-- At most `n` members up to the closing brace. The reader of a field starts behind the name. -/
def membersWithin {σ : Type} (field? : Text → Option (σ → Reader σ)) : Nat → Bool → σ → Reader σ
  | 0, _, _ => fail .malformed
  | n + 1, isFirst, s => do
    match ← name? isFirst with
    | none => return s
    | some name => do
      match field? name with
      | some read => do
        membersWithin field? n false (← read s)
      | none => do
        expect ':'
        ofOption fun t => (skip? t).map ((), ·)
        membersWithin field? n false s

/-- Reads a record behind the opening brace, member by member. A member whose name is no field is passed over. -/
def fields {σ : Type} (field? : Text → Option (σ → Reader σ)) (s : σ) : Reader σ := do
  membersWithin field? ((← get).length + 1) true s

/-- Reads the value of a member behind its name. The member must not have been read before. -/
def once {α : Type} (known : Option α) (r : Reader α) : Reader (Option α) :=
  if known.isSome then fail .shape
  else do
    expect ':'
    return some (← r)

/-- A field without which the record has another shape. -/
def required {α : Type} : Option α → Reader α
  | some a => pure a
  | none => fail .shape

/-- Reads the next field of a record that is written as an array. -/
def positional {α : Type} (isFirst : Bool) (r : Reader α) : Reader α := do
  required (← item? isFirst r)

/-- Reads a whole text, blanks behind the value allowed. -/
def run {α : Type} (r : Reader α) (t : Text) : Except Fault α := do
  let (a, rest) ← StateT.run r t
  if (skipSpace rest).isEmpty then return a else throw .malformed

end Reader

end SnippetPreview.Json
