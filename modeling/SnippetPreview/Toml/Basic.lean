import SnippetPreview.Text.Basic

/-!
# TOML values and tables

* `Toml`: a value of a configuration file. Of numbers with a fraction and of dates only their type is kept;
* `Toml.Origin`: how a table has come about, which decides what may still be added to it;
* `Toml.edit`: changes a table inside a table;
* `Toml.assign`, `Toml.openTable`, `Toml.openItem`: what a line of a file does to the table of the whole file: `key = value`,
  `[table]` and `[[item]]`. No line may say again what an earlier one has said.
-/

namespace SnippetPreview

/-- How a table has come about. -/
inductive Toml.Origin where
  /-- Written between braces. It is complete. -/
  | inline
  /-- Has a header of its own, or is an item. -/
  | header
  /-- Occurs in the header of a table inside it. It may still get a header of its own. -/
  | path
  /-- Occurs in a dotted key. It may be extended by further dotted keys. -/
  | dotted
deriving DecidableEq, Repr

/-- A value. The members of a table stand in the order in which they were first mentioned. -/
inductive Toml where
  | string (t : Text)
  | integer (n : Int)
  | float
  | bool (b : Bool)
  | date
  | array (items : List Toml)
  | table (origin : Toml.Origin) (members : List (Text × Toml))
  /-- Tables that were each opened by a header. -/
  | tables (items : List Toml)
deriving Repr

namespace Toml

abbrev Members := List (Text × Toml)

def setMember (key : Text) (value : Toml) : Members → Members
  | [] => [(key, value)]
  | (other, v) :: rest => if other = key then (key, value) :: rest else (other, v) :: setMember key value rest

/-- A table that keys may lead into. Dotted keys lead into tables without a header only. -/
def Origin.admits (o : Origin) (byDots : Bool) : Bool :=
  match o with
  | inline => false
  | header => !byDots
  | path | dotted => true

/-- Changes the table that the keys lead to. Missing tables are added on the way; of several items the last one counts. -/
def edit (byDots : Bool) (change : Origin → Members → Option Toml) (keys : List Text) (o : Origin) (ms : Members) :
    Option Toml :=
  match keys with
  | [] => change o ms
  | key :: rest => do
    let inner ← match ms.lookup key with
      | none => edit byDots change rest (if byDots then .dotted else .path) []
      | some (table o ms) => if o.admits byDots then edit byDots change rest o ms else none
      | some (tables items) =>
        match items.getLast? with
        | some (table o ms) => do
          let last ← edit byDots change rest o ms
          pure (tables (items.dropLast ++ [last]))
        | _ => none
      | some _ => none
    return table o (setMember key inner ms)

/-- The keys in front of the last one, and the last one. -/
def splitLast? (keys : List Text) : Option (List Text × Text) := keys.getLast?.map fun key => (keys.dropLast, key)

/-- Adds a member at a dotted key. Keys with dots end in a table that was made by dots. -/
def assign (keys : List Text) (value : Toml) (o : Origin) (ms : Members) : Option Toml := do
  let (front, key) ← splitLast? keys
  edit true (fun o ms =>
    if (o = .dotted) = (front = []) ∨ (ms.lookup key).isSome then none else some (table o (ms ++ [(key, value)])))
    front o ms

def openTable (keys : List Text) (o : Origin) (ms : Members) : Option Toml := do
  let (front, key) ← splitLast? keys
  edit false (fun o ms =>
    match ms.lookup key with
    | none => some (table o (ms ++ [(key, table .header [])]))
    | some (table .path inner) => some (table o (setMember key (table .header inner) ms))
    | some _ => none)
    front o ms

/-- Opens a further item of the tables of a header. -/
def openItem (keys : List Text) (o : Origin) (ms : Members) : Option Toml := do
  let (front, key) ← splitLast? keys
  edit false (fun o ms =>
    match ms.lookup key with
    | none => some (table o (ms ++ [(key, tables [table .header []])]))
    | some (tables items) => some (table o (setMember key (tables (items ++ [table .header []])) ms))
    | some _ => none)
    front o ms

def member? (key : Text) : Toml → Option Toml
  | table _ ms => ms.lookup key
  | _ => none

theorem lookup_setMember (key : Text) (value : Toml) (ms : Members) :
    (setMember key value ms).lookup key = some value := by
  induction ms with
  | nil => simp [setMember]
  | cons m rest ih =>
    obtain ⟨other, v⟩ := m
    by_cases h : other = key
    · simp [setMember, h]
    · have : (key == other) = false := by simpa using fun e => h e.symm
      simp [setMember, h, List.lookup_cons, this, ih]

end Toml

end SnippetPreview
