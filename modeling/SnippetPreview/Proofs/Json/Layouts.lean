import SnippetPreview.Json.Lexical

/-!
# How objects are laid out

* `spellItems`, `spellMembers`: the items of an array and the members of an object, with blanks between them;
* `Layout`: the blanks of an object, and how the values of its members are written;
* `Layout.compact`, `Layout.pretty`: the layouts on one line and on several;
* `Layout.object_compact`, `Layout.object_pretty`: they write objects as `Json.compact` and `Json.pretty` do.
-/

namespace SnippetPreview.Json

/-- The text of items that are written already, with a comma before each but the first, and blanks behind it. -/
def spellItems (gap : Text) (isFirst : Bool) : List Text → Text
  | [] => []
  | item :: rest => (if isFirst then [] else [',']) ++ (gap ++ (item ++ spellItems gap false rest))

/-- The text of members that are written already, with a comma before each but the first, and blanks behind it. -/
def spellMembers (gap : Text) (isFirst : Bool) : List (Text × Text) → Text
  | [] => []
  | (name, value) :: rest =>
    (if isFirst then [] else [',']) ++ (gap ++ (quoted name ++ ':' :: (value ++ spellMembers gap false rest)))

theorem compactItems_eq (isFirst : Bool) (items : List Json) :
    compactItems isFirst items = spellItems [] isFirst (items.map compact) := by
  induction items generalizing isFirst with
  | nil => rw [compactItems, List.map_nil, spellItems]
  | cons item items ih => rw [compactItems, ih, List.map_cons, spellItems, List.append_assoc, List.nil_append]

theorem prettyItems_eq (level : Nat) (isFirst : Bool) (items : List Json) :
    prettyItems level isFirst items = spellItems (newline level) isFirst (items.map (prettyAt level)) := by
  induction items generalizing isFirst with
  | nil => rw [prettyItems, List.map_nil, spellItems]
  | cons item items ih =>
    rw [prettyItems, ih, List.map_cons, spellItems, List.append_assoc, List.append_assoc]

theorem compactMembers_eq (isFirst : Bool) (members : List (Text × Json)) :
    compactMembers isFirst members = spellMembers [] isFirst (members.map fun m => (m.1, compact m.2)) := by
  induction members generalizing isFirst with
  | nil => rw [compactMembers, List.map_nil, spellMembers]
  | cons m members ih =>
    rw [compactMembers, ih, List.map_cons, spellMembers, List.nil_append, List.append_assoc, List.append_assoc,
      List.cons_append]

theorem prettyMembers_eq (level : Nat) (isFirst : Bool) (members : List (Text × Json)) :
    prettyMembers level isFirst members
      = spellMembers (newline level) isFirst (members.map fun m => (m.1, ' ' :: prettyAt level m.2)) := by
  induction members generalizing isFirst with
  | nil => rw [prettyMembers, List.map_nil, spellMembers]
  | cons m members ih =>
    rw [prettyMembers, ih, List.map_cons, spellMembers]
    simp only [List.append_assoc, List.cons_append]

/-- The text is an array of these items, with whatever blanks between them. -/
def IsArray (items : List Text) (t : Text) : Prop :=
  ∃ gap close : Text, gap.all isSpace = true ∧ close.all isSpace = true ∧
    t = '[' :: (spellItems gap true items ++ (close ++ [']']))

/-- How an object is laid out. -/
structure Layout where
  /-- The blanks in front of a member. -/
  gap : Text
  /-- The blanks in front of a value. -/
  space : Text
  /-- The blanks in front of the closing brace. -/
  close : Text
  /-- The value of a member. -/
  value : Json → Text
  blank_gap : gap.all isSpace = true
  blank_space : space.all isSpace = true
  blank_close : close.all isSpace = true
  value_string : ∀ t, value (.string t) = quoted t
  value_bool : ∀ b : Bool, value b = if b then "true".toList else "false"
  isArray_value : ∀ ts : List Text, IsArray (ts.map quoted) (value (.array (ts.map .string)))

namespace Layout

/-- The members with their values as they are written. -/
def members (l : Layout) (ms : List (Text × Json)) : List (Text × Text) := ms.map fun m => (m.1, l.space ++ l.value m.2)

def object (l : Layout) (ms : List (Text × Json)) : Text :=
  '\x7b' :: (spellMembers l.gap true (l.members ms) ++ (l.close ++ ['\x7d']))

theorem isSpace_newline (level : Nat) : (newline level).all isSpace = true := by
  refine List.all_eq_true.2 (List.forall_mem_cons.2 ⟨rfl, ?_⟩)
  intro c hc
  rw [List.eq_of_mem_replicate hc]
  rfl

/-- Texts in an array are written like any others. -/
theorem map_strings {write : Json → Text} (h : ∀ t, write (.string t) = quoted t) (ts : List Text) :
    (ts.map Json.string).map write = ts.map quoted := by
  rw [List.map_map]
  exact List.map_congr_left fun t _ => h t

theorem compact_string (t : Text) : Json.compact (.string t) = quoted t := by rw [Json.compact]

theorem prettyAt_string (level : Nat) (t : Text) : prettyAt level (.string t) = quoted t := by rw [prettyAt]

/-- All on one line, without blanks. -/
def compact : Layout where
  gap := []
  space := []
  close := []
  value := Json.compact
  blank_gap := rfl
  blank_space := rfl
  blank_close := rfl
  value_string := compact_string
  value_bool b := by cases b <;> rw [Json.compact] <;> rfl
  isArray_value ts := by
    refine ⟨[], [], rfl, rfl, ?_⟩
    rw [Json.compact, compactItems_eq, map_strings compact_string]
    rfl

/-- The members on lines of their own. -/
def pretty : Layout where
  gap := newline 1
  space := [' ']
  close := newline 0
  value := prettyAt 1
  blank_gap := isSpace_newline 1
  blank_space := rfl
  blank_close := isSpace_newline 0
  value_string := prettyAt_string 1
  value_bool b := by cases b <;> rw [prettyAt] <;> rfl
  isArray_value ts := by
    cases ts with
    | nil => exact ⟨[], [], rfl, rfl, by rw [List.map_nil, prettyAt]; rfl⟩
    | cons t ts =>
      refine ⟨newline 2, newline 1, isSpace_newline 2, isSpace_newline 1, ?_⟩
      rw [List.map_cons, prettyAt, prettyItems_eq, ← List.map_cons, map_strings (prettyAt_string 2), List.append_assoc]
      rfl

theorem object_compact (ms : List (Text × Json)) : compact.object ms = (Json.object ms).compact := by
  rw [Json.compact, compactMembers_eq]
  rfl

theorem object_pretty {ms : List (Text × Json)} (h : ms ≠ []) : pretty.object ms = (Json.object ms).pretty := by
  obtain ⟨m, ms, rfl⟩ := List.exists_cons_of_ne_nil h
  rw [Json.pretty, prettyAt, prettyMembers_eq, List.append_assoc]
  rfl

end Layout

end SnippetPreview.Json
