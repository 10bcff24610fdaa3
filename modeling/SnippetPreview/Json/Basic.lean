import SnippetPreview.Text.Basic

/-!
# JSON values and their written forms

* `Json`: a value, the members of an object in written order and possibly with repeated names;
* `Json.quoted`: a text as a JSON string;
* `Json.compact`: a value on one line without blanks;
* `Json.pretty`: a value on several lines, two spaces deeper at each level.
-/

namespace SnippetPreview

/-- A JSON value. A number with a fraction or an exponent is `mantissa * 10 ^ exponent`. -/
inductive Json where
  | null
  | bool (value : Bool)
  | integer (value : Int)
  | decimal (mantissa exponent : Int)
  | string (value : Text)
  | array (items : List Json)
  | object (members : List (Text × Json))
deriving Repr, Inhabited

namespace Json

/-- A truth value. -/
instance : Coe Bool Json := ⟨bool⟩

/-- A text. -/
instance : Coe Text Json := ⟨string⟩

/-- A text given as a literal. -/
instance : Coe String Json := ⟨fun s => string s.toList⟩

def ofNat (n : Nat) : Json := integer n

/-- A value, or `null` for none. -/
def ofOption {α : Type} (f : α → Json) : Option α → Json
  | none => null
  | some a => f a

/-! ## Strings -/

/-- The hexadecimal digit of a number below 16, in small letters. -/
def hexDigit (n : Nat) : Char := (Nat.toDigits 16 n).headD '0'

/-- A character inside a JSON string. The quote, the backslash and the control characters are escaped, five of the latter
by a letter. -/
def escapeChar (c : Char) : Text :=
  if c = '"' then ['\\', '"']
  else if c = '\\' then ['\\', '\\']
  else if c = '\n' then ['\\', 'n']
  else if c = '\r' then ['\\', 'r']
  else if c = '\t' then ['\\', 't']
  else if c = '\x08' then ['\\', 'b']
  else if c = '\x0c' then ['\\', 'f']
  else if c.toNat < 0x20 then ['\\', 'u', '0', '0', hexDigit (c.toNat / 16), hexDigit (c.toNat % 16)]
  else [c]

def quoted (t : Text) : Text := '"' :: t.flatMap escapeChar ++ ['"']

/-! ## Numbers -/

def writeInt : Int → Text
  | .ofNat n => Text.ofNat n
  | .negSucc n => '-' :: Text.ofNat (n + 1)

/-! ## One line -/

mutual

/-- The value on one line without blanks. -/
def compact : Json → Text
  | null => "null"
  | bool true => "true"
  | bool false => "false"
  | integer n => writeInt n
  | decimal m e => writeInt m ++ 'e' :: writeInt e
  | string t => quoted t
  | array items => '[' :: compactItems true items ++ [']']
  | object members => '\x7b' :: compactMembers true members ++ ['\x7d']

/-- Items with a comma before each but the first. -/
def compactItems (isFirst : Bool) : List Json → Text
  | [] => []
  | j :: rest => (if isFirst then [] else [',']) ++ compact j ++ compactItems false rest

/-- Members with a comma before each but the first. -/
def compactMembers (isFirst : Bool) : List (Text × Json) → Text
  | [] => []
  | (name, j) :: rest =>
    (if isFirst then [] else [',']) ++ quoted name ++ ':' :: compact j ++ compactMembers false rest

end

/-! ## Several lines -/

/-- A line feed and the indentation of a level. -/
def newline (level : Nat) : Text := '\n' :: List.replicate (2 * level) ' '

mutual

/-- The value on several lines, itself standing at the given level. Empty containers stay on one line. -/
def prettyAt (level : Nat) : Json → Text
  | null => "null"
  | bool true => "true"
  | bool false => "false"
  | integer n => writeInt n
  | decimal m e => writeInt m ++ 'e' :: writeInt e
  | string t => quoted t
  | array [] => "[]"
  | array (j :: rest) => '[' :: prettyItems (level + 1) true (j :: rest) ++ newline level ++ [']']
  | object [] => ['\x7b', '\x7d']
  | object (m :: rest) => '\x7b' :: prettyMembers (level + 1) true (m :: rest) ++ newline level ++ ['\x7d']

/-- Items on lines of their own with a comma before each but the first. -/
def prettyItems (level : Nat) (isFirst : Bool) : List Json → Text
  | [] => []
  | j :: rest => (if isFirst then [] else [',']) ++ newline level ++ prettyAt level j ++ prettyItems level false rest

/-- Members on lines of their own with a comma before each but the first. -/
def prettyMembers (level : Nat) (isFirst : Bool) : List (Text × Json) → Text
  | [] => []
  | (name, j) :: rest =>
    (if isFirst then [] else [',']) ++ newline level ++ quoted name ++ ':' :: ' ' :: prettyAt level j
      ++ prettyMembers level false rest

end

/-- The value on several lines. -/
def pretty (j : Json) : Text := j.prettyAt 0

/-! ## Looking into values -/

/-- The first member of this name. -/
def member? (name : Text) : Json → Option Json
  | object members => members.lookup name
  | _ => none

end Json

end SnippetPreview
