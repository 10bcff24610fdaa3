import SnippetPreview.Text.Basic

/-!
# Balanced brackets

* `isBalanced`: every bracket of a text closes the last open one of its kind, quotes or not;
* `Nested`: the texts of brackets that nest properly, as a grammar.
-/

namespace SnippetPreview.Script

def closer? (c : Char) : Option Char :=
  if c = '(' then some ')' else if c = '[' then some ']' else if c = '\x7b' then some '\x7d' else none

def isCloser (c : Char) : Bool := c == ')' || c == ']' || c == '\x7d'

def isBracket (c : Char) : Bool := (closer? c).isSome || isCloser c

/-- The brackets of the text close the pending ones, `pending` being the closing brackets awaited, innermost first. -/
def closes (pending : List Char) : Text → Bool
  | [] => pending.isEmpty
  | c :: rest =>
    match closer? c with
    | some d => closes (d :: pending) rest
    | none =>
      if isCloser c then
        match pending with
        | d :: outer => c == d && closes outer rest
        | [] => false
      else closes pending rest

def isBalanced (t : Text) : Bool := closes [] t

/-- Properly nested brackets: none, or a pair around nested brackets followed by nested brackets. -/
inductive Nested : Text → Prop where
  | nil : Nested []
  | pair {c d : Char} {inner outer : Text} (h : closer? c = some d) :
      Nested inner → Nested outer → Nested (c :: inner ++ d :: outer)

end SnippetPreview.Script
