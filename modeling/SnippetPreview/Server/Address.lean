import SnippetPreview.Json.Lexical

/-!
# Listen addresses

* `isListenAddress`: a text is an address to listen on, such as `127.0.0.1:80` or `[::1]:80`: an IPv4 address, or an IPv6
  address in brackets, and a port. Names of hosts are none.
-/

namespace SnippetPreview

namespace Address

def char? (c : Char) (t : Text) : Option Text := Text.stripLead? [c] t

def digit? (base : Nat) (c : Char) : Option Nat := (Json.hexValue? c).filter (· < base)

/-- The digits at the start of a text, in a base, with what follows them. -/
def digits (base : Nat) (t : Text) : List Nat × Text :=
  let (ds, rest) := t.span fun c => (digit? base c).isSome
  (ds.filterMap (digit? base), rest)

/-- What follows a number up to `bound`. -/
def number? (base bound : Nat) (t : Text) : Option Text :=
  let (ds, rest) := digits base t
  if ds.isEmpty || bound < ds.foldl (fun n d => base * n + d) 0 then none else some rest

def octet? (t : Text) : Option Text :=
  let (ds, rest) := digits 10 t
  if ds.head? = some 0 ∧ ds.length ≠ 1 then none
  else if ds.length ≤ 3 then (number? 10 255 t).map fun _ => rest
  else none

def ipv4? (t : Text) : Option Text := do
  let t ← octet? t
  let t ← octet? (← char? '.' t)
  let t ← octet? (← char? '.' t)
  octet? (← char? '.' t)

def group? (t : Text) : Option Text :=
  let (ds, rest) := digits 16 t
  if 1 ≤ ds.length ∧ ds.length ≤ 4 then some rest else none

/-- Groups that have been read. -/
structure Groups where
  count : Nat
  /-- The last two of them are an IPv4 address. -/
  endsInIpv4 : Bool
  rest : Text

/-- Reads at most `n` groups with colons between them. An IPv4 address counts for two and ends the groups. -/
def groups (isFirst : Bool) (n : Nat) (t : Text) : Groups :=
  match n with
  | 0 => ⟨0, false, t⟩
  | n + 1 =>
    match if isFirst then some t else char? ':' t with
    | none => ⟨0, false, t⟩
    | some start =>
      match if 1 ≤ n then ipv4? start else none with
      | some rest => ⟨2, true, rest⟩
      | none =>
        match group? start with
        | none => ⟨0, false, t⟩
        | some rest =>
          let more := groups false n rest
          { more with count := more.count + 1 }

/-- What follows an IPv6 address: eight groups, or fewer with two colons for the missing ones. -/
def ipv6? (t : Text) : Option Text :=
  let front := groups true 8 t
  if front.count = 8 then some front.rest
  else if front.endsInIpv4 then none
  else do
    let t ← char? ':' (← char? ':' front.rest)
    return (groups true (7 - front.count) t).rest

/-- What follows the number of a network interface, when there is one. -/
def scope? (t : Text) : Option Text :=
  match char? '%' t with
  | none => some t
  | some rest => number? 10 (UInt32.size - 1) rest

/-- What follows the part in front of the port. -/
def host? (t : Text) : Option Text :=
  match ipv4? t with
  | some rest => some rest
  | none => do char? ']' (← scope? (← ipv6? (← char? '[' t)))

end Address

def isListenAddress (t : Text) : Bool :=
  match (do Address.number? 10 (UInt16.size - 1) (← Address.char? ':' (← Address.host? t))) with
  | some rest => rest.isEmpty
  | none => false

end SnippetPreview
