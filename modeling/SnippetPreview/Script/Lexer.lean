import SnippetPreview.Text.Basic

/-!
# Strings, comments and braces of script code

* `Mode`, `Mode.next`: what a character belongs to, and how that changes from one character to the next;
* `scan`: the braces that stand in code, the contents of the string literals, and the mode at the end;
* `matchingBrace?`: the brace that closes the one at an offset;
* `Mode.next_eq_self_of_plain`: inside strings and comments, only quotes, backslashes, line feeds, `*` and `/` matter.

Offsets count bytes. Single and double quotes never span lines; a backslash makes the next character part of its string.
-/

namespace SnippetPreview.Script

/-- What the next character belongs to. -/
inductive Mode where
  | code
  /-- A string literal in these quotes. -/
  | quoted (quote : Char)
  /-- The character behind a backslash in a string literal. -/
  | escaped (quote : Char)
  | lineComment
  /-- The star that opens a block comment, behind its slash. -/
  | blockOpening
  | blockComment
  /-- The slash that closes a block comment, behind its star. -/
  | blockClosing
deriving DecidableEq, Repr

namespace Mode

/-- The mode behind the character `c`, when `ahead` follows it. -/
def next (c : Char) (ahead : Option Char) : Mode → Mode
  | code =>
    if c = '\'' ∨ c = '"' ∨ c = '`' then quoted c
    else if c = '/' ∧ ahead = some '/' then lineComment
    else if c = '/' ∧ ahead = some '*' then blockOpening
    else code
  | quoted q =>
    if c = '\\' then escaped q
    else if c = q ∨ c = '\n' ∧ q ≠ '`' then code
    else quoted q
  | escaped q => quoted q
  | lineComment => if c = '\n' then code else lineComment
  | blockOpening => blockComment
  | blockComment => if c = '*' ∧ ahead = some '/' then blockClosing else blockComment
  | blockClosing => code

/-- The character belongs to a string literal, its closing quote included. -/
def isString : Mode → Bool
  | quoted _ | escaped _ => true
  | _ => false

/-- A character that can change the mode of a string or comment. -/
def isSpecial (c : Char) : Bool := c ∈ ['\'', '"', '`', '\\', '\n', '*', '/']

/-- Inside a string or a comment, no other character changes the mode. -/
theorem next_eq_self_of_plain {c : Char} (hc : isSpecial c = false) (ahead : Option Char) (q : Char)
    (hq : isSpecial q = true) :
    (quoted q).next c ahead = quoted q ∧ lineComment.next c ahead = lineComment ∧
      blockComment.next c ahead = blockComment := by
  have ne : ∀ d, isSpecial d = true → c ≠ d := fun d hd e => by simp [e, hd] at hc
  simp [next, ne '\\' (by decide), ne '\n' (by decide), ne '*' (by decide), ne q hq]

end Mode

/-! ## Scanning -/

structure Brace where
  pos : Nat
  isOpen : Bool
deriving DecidableEq, Repr

structure Scan where
  /-- The braces that stand in code, in order. -/
  braces : List Brace
  /-- The contents of the string literals as byte ranges, quotes excluded, in order. -/
  strings : List (Nat × Nat)
  /-- The mode at the end. -/
  final : Mode
deriving DecidableEq, Repr

/-- The pass from the byte offset `pos` on. The string literal that is open, if any, has its content from `opened` on. -/
def scanFrom (mode : Mode) (opened pos : Nat) : Text → Scan
  | [] => ⟨[], if mode.isString then [(opened, pos)] else [], mode⟩
  | c :: rest =>
    let after := mode.next c rest.head?
    let found := scanFrom after (if mode = .code then pos + c.utf8Size else opened) (pos + c.utf8Size) rest
    { found with
      braces :=
        if mode = .code ∧ (c = '\x7b' ∨ c = '\x7d') then ⟨pos, c = '\x7b'⟩ :: found.braces else found.braces
      strings := if mode.isString ∧ after = .code then (opened, pos) :: found.strings else found.strings }

def scan (t : Text) : Scan := scanFrom .code 0 0 t

def quotesClosed (t : Text) : Bool := !(scan t).final.isString

/-! ## Matching braces -/

/-- The closing brace that brings `depth` open braces to none; a surplus closing brace gives up. -/
def closing? (depth : Nat) : List Brace → Option Nat
  | [] => none
  | b :: rest =>
    if b.isOpen then closing? (depth + 1) rest
    else
      match depth with
      | 0 => none
      | 1 => some b.pos
      | d + 2 => closing? (d + 1) rest

def charAt? (t : Text) (offset : Nat) : Option Char :=
  match t with
  | [] => none
  | c :: rest => if offset = 0 then some c else if offset < c.utf8Size then none else charAt? rest (offset - c.utf8Size)

/-- The offset of the brace that closes the one at `openPos`. Braces in strings and comments do not count. -/
def matchingBrace? (t : Text) (openPos : Nat) : Option Nat :=
  if charAt? t openPos = some '\x7b' then closing? 0 ((scan t).braces.filter (openPos ≤ ·.pos)) else none

end SnippetPreview.Script
