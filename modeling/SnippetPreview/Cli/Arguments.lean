import SnippetPreview.Text.Basic

/-!
# Arguments of a command line

* `Switch`: an option that a command knows, with the values that it takes;
* `Argument`: what one or two words of a command line mean;
* `Argument.ofWords`: reads words one after the other. Long options stand as `--name value` or `--name=value`, short ones as
  `-n value`, `-nvalue` or `-n=value`, and short options without a value may be put together. All words behind `--` are
  operands;
* `Given`, `Given.ofArguments?`: the options and operands of a command. No option stands twice.
-/

namespace SnippetPreview

structure Switch where
  long : Text
  short : Option Char
  /-- The values that the option takes; none when it stands for itself. -/
  takes : Option (Text → Bool)

/-- The meaning of words of a command line. -/
inductive Argument where
  /-- An option with its value, which is empty when it takes none. -/
  | option (long value : Text)
  | operand (t : Text)
  /-- An option that is unknown, or has no value or a wrong one. -/
  | misuse
deriving DecidableEq, Repr

namespace Argument

def valued (s : Switch) (value : Text) : Argument :=
  if s.takes.any (· value) then option s.long value else misuse

/-- The options of a word, and the option whose value is the next word. -/
structure WordReading where
  found : List Argument
  pending : Option Switch

/-- Reads a word behind its two hyphens. -/
def ofLong (known : List Switch) (t : Text) : WordReading :=
  let (name, value) := match Text.splitOnce "=" t with
    | some (name, value) => (name, some value)
    | none => (t, none)
  match known.find? (·.long == name), value with
  | none, _ => ⟨[misuse], none⟩
  | some s, some v => ⟨[valued s v], none⟩
  | some s, none => if s.takes.isSome then ⟨[], some s⟩ else ⟨[option s.long []], none⟩

/-- Reads a word behind its single hyphen, letter by letter. -/
def ofShort (known : List Switch) : Text → WordReading
  | [] => ⟨[], none⟩
  | c :: rest =>
    match known.find? (·.short == some c) with
    | none => ⟨[misuse], none⟩
    | some s =>
      if s.takes.isNone then
        let more := ofShort known rest
        { more with found := option s.long [] :: more.found }
      else if rest.isEmpty then ⟨[], some s⟩
      else ⟨[valued s ((Text.stripLead? "=" rest).getD rest)], none⟩

/-- The options of a word that starts with a hyphen. A lone hyphen is no option. -/
def ofWord? (known : List Switch) (word : Text) : Option WordReading :=
  match word with
  | '-' :: '-' :: name => some (ofLong known name)
  | '-' :: c :: rest => some (ofShort known (c :: rest))
  | _ => none

/-- A word that can be the value of the option in front. -/
def isValueWord (word : Text) : Bool := word.head? != some '-' || word == ['-']

/-- Reads words. When `upToOperand` is set, the first operand and all that follows is left. -/
def ofWords (known : List Switch) (upToOperand : Bool) : List Text → List Argument × List Text
  | [] => ([], [])
  | word :: rest =>
    if word = "--" then (rest.map operand, [])
    else
      match ofWord? known word with
      | none =>
        if upToOperand then ([], word :: rest)
        else
          let (found, left) := ofWords known upToOperand rest
          (operand word :: found, left)
      | some ⟨found, none⟩ =>
        let (more, left) := ofWords known upToOperand rest
        (found ++ more, left)
      | some ⟨found, some s⟩ =>
        match rest with
        | [] => (found ++ [misuse], [])
        | value :: rest =>
          if isValueWord value then
            let (more, left) := ofWords known upToOperand rest
            (found ++ valued s value :: more, left)
          else (found ++ [misuse], [])

end Argument

/-- The options and operands of a command. -/
structure Given where
  options : List (Text × Text)
  operands : List Text
deriving DecidableEq, Repr

namespace Given

def none : Given := ⟨[], []⟩

def has (g : Given) (long : Text) : Bool := (g.options.lookup long).isSome

def value? (g : Given) (long : Text) : Option Text := g.options.lookup long

/-- One more argument, if it may stand behind those in front. -/
def add? (g : Given) : Argument → Option Given
  | .option long value => if g.has long then Option.none else some { g with options := g.options ++ [(long, value)] }
  | .operand t => some { g with operands := g.operands ++ [t] }
  | .misuse => Option.none

/-- The arguments of a command. -/
def ofArguments? (as : List Argument) : Option Given := as.foldlM add? none

end Given

end SnippetPreview
