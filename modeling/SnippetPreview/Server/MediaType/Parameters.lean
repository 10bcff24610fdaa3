import SnippetPreview.Text.Basic

/-!
# Media types with parameters

* `MediaType.Place`, `MediaType.Place.next?`: the parameters of a media type, read one character after the other;
* `MediaType.names?`: the two names of a media type whose parameters are well formed;
* `MediaType.isJson`: the type of a body that holds JSON, parameters allowed.
-/

namespace SnippetPreview.MediaType

/-- The characters of names and of values without quotes. -/
def isToken (c : Char) : Bool := c.isAlphanum || "!#$%&'*+-.^_|~\x60".toList.elem c

/-- The characters inside quotes. -/
def isQuotable (c : Char) : Bool := 0x20 ≤ c.toNat && c.toNat < 0x7F

/-- A place among parameters, by what stands in front of it. -/
inductive Place where
  /-- A semicolon and blanks. -/
  | semicolon
  /-- A part of a name. -/
  | name
  /-- An equals sign. -/
  | equals
  /-- A part of a value without quotes. -/
  | value
  /-- The quote in front of a value. -/
  | opened
  /-- That quote and a part of the value. -/
  | quoted
  /-- A value in quotes, and blanks. -/
  | closed
deriving DecidableEq, Repr

namespace Place

/-- The place behind a character that may stand here. A value in quotes holds at least one character, whatever it is. -/
def next? : Place → Char → Option Place
  | semicolon, c => if c = ' ' then some semicolon else if isToken c then some name else none
  | name, c => if c = '=' then some equals else if isToken c then some name else none
  | equals, c => if c = '"' then some opened else if isToken c then some value else none
  | value, c => if c = ';' then some semicolon else if isToken c then some value else none
  | opened, c => if isQuotable c then some quoted else none
  | quoted, c => if c = '"' then some closed else if isQuotable c then some quoted else none
  | closed, c => if c = ';' then some semicolon else if c = ' ' then some closed else none

/-- Parameters may end here. The last value may be missing. -/
def mayEnd : Place → Bool
  | semicolon | equals | value | closed => true
  | name | opened | quoted => false

end Place

/-- What follows a semicolon is a list of parameters. -/
def areParameters (t : Text) : Bool := (t.foldlM Place.next? Place.semicolon).any Place.mayEnd

/-- The names of a media type, in small letters. -/
def names? (t : Text) : Option (Text × Text) :=
  let (top, t) := t.span isToken
  match t with
  | '/' :: t =>
    let (sub, t) := t.span isToken
    let isWhole := match t with
      | [] => true
      | c :: t => c = ';' && areParameters t
    if !top.isEmpty && !sub.isEmpty && isWhole then some (Text.lowerAscii top, Text.lowerAscii sub) else none
  | _ => none

/-- The parts of the second name in front of and behind its last plus sign. A plus sign in front is none. -/
def suffixed (name : Text) : Text × Option Text :=
  let suffix := (name.reverse.takeWhile (· != '+')).reverse
  if name.length ≤ suffix.length + 1 then (name, none)
  else (name.take (name.length - suffix.length - 1), some suffix)

/-- The type says that the body is JSON. -/
def isJson (t : Text) : Bool :=
  match names? t with
  | some (top, sub) =>
    let (base, suffix) := suffixed sub
    top == "application" && (base == "json" || suffix == some "json".toList)
  | none => false

/-- A name is in the way of the end until a value follows. -/
theorem not_areParameters_of_tokens {t : Text} (ht : t ≠ []) (h : ∀ c ∈ t, isToken c = true) :
    areParameters t = false := by
  have no_equals : isToken '=' = false := by decide
  have no_blank : isToken ' ' = false := by decide
  have stays : ∀ u : Text, (∀ c ∈ u, isToken c = true) → u.foldlM Place.next? Place.name = some Place.name := by
    intro u hu
    induction u with
    | nil => rfl
    | cons c r ih =>
      have hc := hu c (by simp)
      have : c ≠ '=' := by rintro rfl; simp [no_equals] at hc
      simp [List.foldlM_cons, Place.next?, this, hc, ih fun d hd => hu d (by simp [hd])]
  cases t with
  | nil => exact absurd rfl ht
  | cons c r =>
    have hc := h c (by simp)
    have : c ≠ ' ' := by rintro rfl; simp [no_blank] at hc
    simp [areParameters, List.foldlM_cons, Place.next?, this, hc, stays r fun d hd => h d (by simp [hd]), Place.mayEnd]

end SnippetPreview.MediaType
