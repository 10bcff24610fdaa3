import SnippetPreview.Json.Numeral

/-!
# Strings, numbers and dates of TOML

* `Toml.skipSpace`, `Toml.newline?`, `Toml.lineEnd?`, `Toml.skipLines?`: blanks, line ends and comments;
* `Toml.string?`: a string in one of the four styles;
* `Toml.isFloat?`, `Toml.integer?`, `Toml.date?`: numbers and dates. A float is not too large, an integer has 64 bits, a date
  is one of the calendar.
-/

namespace SnippetPreview.Toml

/-! ## Blanks -/

def isSpace (c : Char) : Bool := c == ' ' || c == '\t'

def skipSpace (t : Text) : Text := t.dropWhile isSpace

/-- A character of comments and strings: no control character but the tabulator. -/
def isPlain (c : Char) : Bool := c == '\t' || (0x20 ≤ c.toNat && c.toNat != 0x7F)

def newline? : Text → Option Text
  | '\n' :: rest => some rest
  | '\r' :: '\n' :: rest => some rest
  | _ => none

def skipComment : Text → Text
  | '#' :: rest => rest.dropWhile isPlain
  | t => t

/-- What follows the end of a line, or of the text. Blanks and a comment may stand in front. -/
def lineEnd? (t : Text) : Option Text :=
  match skipComment (skipSpace t) with
  | [] => some []
  | t => newline? t

/-- What follows blanks, comments and line ends; at most `n` lines of them. -/
def skipLinesWithin? : Nat → Text → Option Text
  | 0, _ => none
  | n + 1, t =>
    match skipSpace t with
    | '#' :: rest => (newline? (rest.dropWhile isPlain)).bind (skipLinesWithin? n)
    | '\n' :: rest => skipLinesWithin? n rest
    | '\r' :: rest => (newline? ('\r' :: rest)).bind (skipLinesWithin? n)
    | t => some t

/-- What follows blanks, comments and line ends. A comment has a line end. -/
def skipLines? (t : Text) : Option Text := skipLinesWithin? (t.length + 1) t

/-! ## Strings -/

/-- The character of a code that is no surrogate. -/
def charOfCode? (n : Nat) : Option Char := if n.isValidChar then some (Char.ofNat n) else none

def hexDigits? : Nat → Nat → Text → Option (Nat × Text)
  | 0, value, t => some (value, t)
  | _ + 1, _, [] => none
  | n + 1, value, c :: rest => do hexDigits? n (16 * value + (← Json.hexValue? c)) rest

def escape? : Text → Option (Char × Text)
  | 'b' :: rest => some ('\x08', rest)
  | 't' :: rest => some ('\t', rest)
  | 'n' :: rest => some ('\n', rest)
  | 'f' :: rest => some ('\x0c', rest)
  | 'r' :: rest => some ('\r', rest)
  | '"' :: rest => some ('"', rest)
  | '\\' :: rest => some ('\\', rest)
  | 'u' :: rest => do
    let (n, rest) ← hexDigits? 4 0 rest
    return (← charOfCode? n, rest)
  | 'U' :: rest => do
    let (n, rest) ← hexDigits? 8 0 rest
    return (← charOfCode? n, rest)
  | _ => none

/-- A string on one line behind its opening quote, with at most `n` characters. Backslashes are escapes when `escapes`. -/
def lineStringWithin? (quote : Char) (escapes : Bool) : Nat → Text → Option (Text × Text)
  | 0, _ => none
  | _ + 1, [] => none
  | n + 1, c :: rest =>
    if c = quote then some ([], rest)
    else if escapes && c == '\\' then do
      let (d, rest) ← escape? rest
      let (t, rest) ← lineStringWithin? quote escapes n rest
      return (d :: t, rest)
    else if isPlain c then do
      let (t, rest) ← lineStringWithin? quote escapes n rest
      return (c :: t, rest)
    else none

/-- A string on one line behind its opening quote. -/
def lineString? (quote : Char) (escapes : Bool) (t : Text) : Option (Text × Text) :=
  lineStringWithin? quote escapes (t.length + 1) t

/-- The text behind its leading blanks and line ends. -/
def skipBreaks : Text → Text
  | '\r' :: '\n' :: rest => skipBreaks rest
  | c :: rest => if isSpace c || c == '\n' then skipBreaks rest else c :: rest
  | [] => []

/-- What follows a backslash at the end of a line: all blanks and line ends, one line end at least. -/
def lineContinuation? (t : Text) : Option Text := (newline? (skipSpace t)).map skipBreaks

/-- A string on several lines behind its opening quotes, with at most `n` characters. Up to two quotes may stand together,
also at the end; line ends become line feeds. -/
def linesStringWithin? (quote : Char) (escapes : Bool) : Nat → Text → Option (Text × Text)
  | 0, _ => none
  | _ + 1, [] => none
  | n + 1, c :: rest =>
    if c = quote then
      let run := (c :: rest).takeWhile (· == quote)
      let after := (c :: rest).dropWhile (· == quote)
      if run.length < 3 then do
        let (t, rest) ← linesStringWithin? quote escapes n after
        return (run ++ t, rest)
      else
        let inside := min 2 (run.length - 3)
        some (run.take inside, run.drop (inside + 3) ++ after)
    else if escapes && c == '\\' then
      match lineContinuation? rest with
      | some rest => linesStringWithin? quote escapes n rest
      | none => do
        let (d, rest) ← escape? rest
        let (t, rest) ← linesStringWithin? quote escapes n rest
        return (d :: t, rest)
    else
      match newline? (c :: rest) with
      | some rest => do
        let (t, rest) ← linesStringWithin? quote escapes n rest
        return ('\n' :: t, rest)
      | none =>
        if isPlain c then do
          let (t, rest) ← linesStringWithin? quote escapes n rest
          return (c :: t, rest)
        else none

/-- A string on several lines behind its opening quotes. A line end just behind them does not count. -/
def linesString? (quote : Char) (escapes : Bool) (t : Text) : Option (Text × Text) :=
  linesStringWithin? quote escapes (t.length + 1) ((newline? t).getD t)

/-- A string in one of the four styles. -/
def string? : Text → Option (Text × Text)
  | '"' :: '"' :: '"' :: rest => linesString? '"' true rest
  | '\'' :: '\'' :: '\'' :: rest => linesString? '\'' false rest
  | '"' :: rest => lineString? '"' true rest
  | '\'' :: rest => lineString? '\'' false rest
  | _ => none

/-! ## Numbers -/

/-- Digits of a kind, the first of them read already. Single underscores may stand between them. -/
def moreDigits (isDigit : Char → Bool) : Text → Text × Text
  | '_' :: c :: rest =>
    if isDigit c then
      let (ds, rest) := moreDigits isDigit rest
      (c :: ds, rest)
    else ([], '_' :: c :: rest)
  | c :: rest =>
    if isDigit c then
      let (ds, rest) := moreDigits isDigit rest
      (c :: ds, rest)
    else ([], c :: rest)
  | [] => ([], [])

def digits1? (isDigit : Char → Bool) : Text → Option (Text × Text)
  | c :: rest =>
    if isDigit c then
      let (ds, rest) := moreDigits isDigit rest
      some (c :: ds, rest)
    else none
  | [] => none

/-- The sign, if there is one: whether it is a minus. -/
def sign : Text → Bool × Text
  | '-' :: rest => (true, rest)
  | '+' :: rest => (false, rest)
  | t => (false, t)

/-- Decimal digits that do not start with a zero, or a lone zero. -/
def decimal? : Text → Option (Text × Text)
  | '0' :: rest => some (['0'], rest)
  | t => digits1? Char.isDigit t

def valueIn (base : Nat) (ds : Text) : Nat := ds.foldl (fun n c => base * n + (Json.hexValue? c).getD 0) 0

def inRange (n : Int) : Bool := Int64.minValue.toInt ≤ n && n ≤ Int64.maxValue.toInt

def isDigitOf (base : Nat) (c : Char) : Bool := (Json.hexValue? c).any (· < base)

/-- An integer in another base than ten, behind the letter of the base. -/
def basedInteger? (base : Nat) (t : Text) : Option (Int × Text) := do
  let (ds, rest) ← digits1? (isDigitOf base) t
  let n : Int := valueIn base ds
  if inRange n then some (n, rest) else none

def integer? : Text → Option (Int × Text)
  | '0' :: 'x' :: rest => basedInteger? 16 rest
  | '0' :: 'o' :: rest => basedInteger? 8 rest
  | '0' :: 'b' :: rest => basedInteger? 2 rest
  | t => do
    let (isNegative, t) := sign t
    let (ds, rest) ← decimal? t
    let n : Int := valueIn 10 ds
    let n := if isNegative then -n else n
    if inRange n then some (n, rest) else none

/-- The exponent of a float: its value. -/
def exponent? : Text → Option (Int × Text)
  | c :: rest =>
    if c = 'e' ∨ c = 'E' then do
      let (isNegative, rest) := sign rest
      let (ds, rest) ← digits1? Char.isDigit rest
      let n : Int := valueIn 10 ds
      return (if isNegative then -n else n, rest)
    else none
  | [] => none

/-- The digits behind the point of a float. -/
def fraction? : Text → Option (Text × Text)
  | '.' :: rest => digits1? Char.isDigit rest
  | _ => none

/-- What follows a number with a fraction, an exponent or both. A positive one must not be too large. -/
def decimalFloat? (t : Text) : Option Text := do
  let (isNegative, t) := sign t
  let (whole, t) ← decimal? t
  let (fraction, t, hasFraction) := match fraction? t with
    | some (ds, rest) => (ds, rest, true)
    | none => ([], t, false)
  let (exponent, t, hasExponent) := match exponent? t with
    | some (n, rest) => (n, rest, true)
    | none => (0, t, false)
  if !hasFraction && !hasExponent then none
  else
    let n : Json.Numeral := ⟨isNegative, whole, fraction, some exponent⟩
    if !isNegative && n.tooLarge then none else some t

/-- What follows infinity, or what is no number. -/
def specialFloat? (t : Text) : Option Text :=
  let (_, t) := sign t
  (Text.stripLead? "inf" t).or (Text.stripLead? "nan" t)

def isFloat? (t : Text) : Option Text := (decimalFloat? t).or (specialFloat? t)

/-! ## Dates -/

/-- The number that the next `n` decimal digits write. -/
def fixedDigits? (n : Nat) (t : Text) : Option (Nat × Text) :=
  let ds := t.take n
  if ds.length = n && ds.all Char.isDigit then some (valueIn 10 ds, t.drop n) else none

/-- A number of two digits from `low` to `high`. -/
def twoDigits? (low high : Nat) (t : Text) : Option (Nat × Text) :=
  (fixedDigits? 2 t).filter fun (n, _) => low ≤ n && n ≤ high

def isLeap (year : Nat) : Bool := year % 4 == 0 && (year % 100 != 0 || year % 400 == 0)

def daysIn (year month : Nat) : Nat :=
  if month = 2 then (if isLeap year then 29 else 28)
  else if month = 4 ∨ month = 6 ∨ month = 9 ∨ month = 11 then 30
  else 31

def day? (t : Text) : Option Text := do
  let (year, t) ← fixedDigits? 4 t
  let (month, t) ← twoDigits? 1 12 (← Text.stripLead? ['-'] t)
  let (day, t) ← twoDigits? 1 31 (← Text.stripLead? ['-'] t)
  if day ≤ daysIn year month then some t else none

/-- What follows parts of a second, if there are some. -/
def skipSecondParts : Text → Text
  | '.' :: c :: rest => if c.isDigit then rest.dropWhile Char.isDigit else '.' :: c :: rest
  | t => t

def time? (t : Text) : Option Text := do
  let (_, t) ← twoDigits? 0 23 t
  let (_, t) ← twoDigits? 0 59 (← Text.stripLead? [':'] t)
  let (_, t) ← twoDigits? 0 60 (← Text.stripLead? [':'] t)
  return skipSecondParts t

/-- What follows a distance to universal time, if there is one. -/
def skipOffset (t : Text) : Text :=
  match t with
  | 'Z' :: rest | 'z' :: rest => rest
  | c :: rest =>
    if c = '+' ∨ c = '-' then
      (do
        let (_, t) ← twoDigits? 0 23 rest
        let (_, t) ← twoDigits? 0 59 (← Text.stripLead? [':'] t)
        return t : Option Text).getD t
    else t
  | [] => []

/-- What follows the time behind a day, if there is one. -/
def skipTime (t : Text) : Text :=
  match t with
  | c :: rest => if c = 'T' ∨ c = 't' ∨ c = ' ' then ((time? rest).map skipOffset).getD t else t
  | [] => []

/-- What follows a day, a time or both. -/
def date? (t : Text) : Option Text := ((day? t).map skipTime).or (time? t)

end SnippetPreview.Toml
