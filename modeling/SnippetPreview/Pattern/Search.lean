import SnippetPreview.Pattern.Sweep

/-!
# Searching a text for a pattern

* `Pattern.finds`: all matches from left to right, each search going on behind the last match;
* `Pattern.find?`: the leftmost match, the best reading at the first place where the pattern can be read;
* `Pattern.isMatch`: whether there is one;
* `Pattern.replaceAll`, `Pattern.replaceFirst`: the text with its matches replaced;
* `Pattern.find?_eq`: the leftmost match is the first reading at the first place that has one.

The patterns of this library read at least one character, so no match is empty.
-/

namespace SnippetPreview

/-- A pattern found in a text: the stretch it covers and the places it has marked, first one first. -/
structure Match where
  span : Span
  marks : List (Nat × Cursor)
deriving Repr

namespace Match

def text (m : Match) : Text := m.span.text

/-- The last place marked with a number. -/
def lastMark? (m : Match) (slot : Nat) : Option Cursor := m.marks.reverse.lookup slot

/-- The stretch that group `i` has read, if it took part. -/
def group? (m : Match) (i : Nat) : Option Span := do
  let start ← m.lastMark? (2 * i)
  let stop ← m.lastMark? (2 * i + 1)
  return ⟨start, stop⟩

def groupText (m : Match) (i : Nat) : Text := (m.group? i).elim [] Span.text

/-- The match of a reading at the place `k`. -/
def ofReading (k : Cursor) (r : Reading) : Match := ⟨⟨k, r.stop⟩, r.marks⟩

/-- The matches among the best readings of each place, from the byte offset `free` on. -/
def pick (free : Nat) : List (Cursor × Option Reading) → List Match
  | [] => []
  | (k, best) :: rows =>
    match best with
    | none => pick free rows
    | some r => if k.offset < free then pick free rows else ofReading k r :: pick r.stop.offset rows

end Match

namespace Pattern

def finds (p : Pattern) (t : Text) : List Match := Match.pick 0 (p.sweep (.start t))

def find? (p : Pattern) (t : Text) : Option Match := (p.finds t).head?

/-- The pattern can be read somewhere in the text. -/
def isMatch (p : Pattern) (t : Text) : Bool := (p.find? t).isSome

def replaceFrom (k : Cursor) (f : Match → Text) : List Match → Text
  | [] => k.after
  | m :: ms => Span.text ⟨k, m.span.start⟩ ++ f m ++ replaceFrom m.span.stop f ms

/-- The text with every match replaced by its image under `f`. -/
def replaceAll (p : Pattern) (f : Match → Text) (t : Text) : Text := replaceFrom (.start t) f (p.finds t)

/-- The text with its first match replaced by `new`. -/
def replaceFirst (p : Pattern) (new : Text) (t : Text) : Text :=
  replaceFrom (.start t) (fun _ => new) (p.find? t).toList

theorem pick_zero_head? (rows : List (Cursor × Option Reading)) :
    (Match.pick 0 rows).head? = rows.findSome? fun (k, best) => best.map (Match.ofReading k) := by
  induction rows with
  | nil => rfl
  | cons row rows ih =>
    obtain ⟨k, best⟩ := row
    cases best <;> simp [Match.pick, ih]

/-- The leftmost match is the first reading at the first place that has one. -/
theorem find?_eq (p : Pattern) (t : Text) :
    p.find? t = (Cursor.start t).places.findSome? fun k => (p.readings k).head?.map (Match.ofReading k) := by
  simp only [find?, finds, pick_zero_head?, sweep_eq, List.findSome?_map, Function.comp_def]

end Pattern

end SnippetPreview
