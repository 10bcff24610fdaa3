import SnippetPreview.Json.Double
import SnippetPreview.Json.Lexical

/-!
# Numbers of JSON

* `Json.Numeral`, `Json.numeral?`: a number as it is written;
* `Json.Numeral.tooLarge`: numbers that no double comes near to;
* `Json.Numeral.overflows`: numbers that are refused, because the double that reading makes of them is infinite. It is
  the product of two doubles, so near the largest double this is decided otherwise than by `tooLarge`.
-/

namespace SnippetPreview.Json

def digitValue (c : Char) : Nat := c.toNat - '0'.toNat

def digitsValue (ds : Text) : Nat := ds.foldl (fun n c => 10 * n + digitValue c) 0

/-- A number as it is written: the sign, the digits in front of and behind the point, and the exponent. -/
structure Numeral where
  isNegative : Bool
  whole : Text
  fraction : Text
  exponent : Option Int

namespace Numeral

def digits (n : Numeral) : Text := n.whole ++ n.fraction

/-- The power of ten that all digits count. -/
def scale (n : Numeral) : Int := n.exponent.getD 0 - n.fraction.length

/-- There is neither a point nor an exponent. -/
def isWhole (n : Numeral) : Bool := n.fraction.isEmpty && n.exponent.isNone

end Numeral

def digits1? (t : Text) : Option (Text × Text) :=
  match t.span Char.isDigit with
  | ([], _) => none
  | found => some found

/-- The whole part: a lone zero, or digits that start with none. -/
def wholePart? (t : Text) : Option (Text × Text) := do
  let (ds, rest) ← digits1? t
  if ds.head? = some '0' ∧ ds.length ≠ 1 then none else some (ds, rest)

def fraction? : Text → Option (Text × Text)
  | '.' :: rest => digits1? rest
  | t => some ([], t)

def exponent? : Text → Option (Option Int × Text)
  | c :: rest =>
    if c = 'e' ∨ c = 'E' then do
      let (isNegative, rest) := match rest with
        | '-' :: rest => (true, rest)
        | '+' :: rest => (false, rest)
        | rest => (false, rest)
      let (ds, rest) ← digits1? rest
      let n : Int := digitsValue ds
      return (some (if isNegative then -n else n), rest)
    else some (none, c :: rest)
  | [] => some (none, [])

def numeral? (t : Text) : Option (Numeral × Text) := do
  let (isNegative, t) := match t with
    | '-' :: rest => (true, rest)
    | t => (false, t)
  let (whole, t) ← wholePart? t
  let (fraction, t) ← fraction? t
  let (exponent, t) ← exponent? t
  return (⟨isNegative, whole, fraction, exponent⟩, t)

namespace Numeral

/-- A number that no double comes near to. Only about 309 digits before the point can matter, so the power is not
computed for others. -/
def tooLarge (n : Numeral) : Bool :=
  let ds := n.digits.dropWhile (· == '0')
  let size : Int := ds.length + n.scale
  if ds.isEmpty || size ≤ 308 then false
  else if 310 ≤ size then true
  else if 0 ≤ n.scale then Double.limit ≤ digitsValue ds * Nat.pow 10 n.scale.toNat
  else Double.limit * Nat.pow 10 (-n.scale).toNat ≤ digitsValue ds

/-- The number `n` continued by the digits up to the first one that takes it past 64 bits, and the digits from there on. -/
def leading (n : Nat) : Text → Nat × Text
  | [] => (n, [])
  | c :: rest =>
    let m := 10 * n + digitValue c
    if m < UInt64.size then leading m rest else (n, c :: rest)

/-- The double of a number is that of its leading digits times that of a power of ten. Digits of the whole part that do
not fit count as powers of ten, those of the fraction not at all. The number is refused when the product is infinite. -/
def overflows (n : Numeral) : Bool :=
  let (m, left) := leading 0 n.whole
  let (m, unread) := leading m n.fraction
  let e : Int := n.exponent.getD 0 + left.length + unread.length - n.fraction.length
  if m = 0 || e < 0 then false
  else 308 < e || Double.limit ≤ Double.nearest m * Double.nearest (Nat.pow 10 e.toNat)

/-- The value that a numeral writes. -/
def toJson (n : Numeral) : Json :=
  let m : Int := digitsValue n.digits
  let m := if n.isNegative then -m else m
  if n.isWhole then integer m else decimal m n.scale

theorem leading_suffix (n : Nat) (ds : Text) : (leading n ds).2 <:+ ds := by
  induction ds generalizing n with
  | nil => exact List.suffix_refl _
  | cons c rest ih =>
    simp only [leading]
    split
    · exact (ih _).trans (List.suffix_cons c rest)
    · exact List.suffix_refl _

end Numeral

end SnippetPreview.Json
