import SnippetPreview.Cli.Arguments
import SnippetPreview.Framework.Kind

/-!
# Commands

* `Command`: what the program can be asked to do;
* `Invocation`: a command together with the options that stand in front of it;
* `Demand.ofWords?`: reads a whole command line. The answer is nothing when it is misused.
-/

namespace SnippetPreview

/-- What the program does. -/
inductive Command where
  /-- Writes a configuration and sample snippets. -/
  | init (overwrites : Bool)
  /-- Tells the kind of a snippet. -/
  | detect (file : Option Text) (asJson listsAll : Bool)
  /-- Renders a snippet. -/
  | render (file output : Option Text) (kind : Option Kind)
  /-- Previews a snippet live. -/
  | dev (entry : Option Text) (port : Option Nat) (opens : Bool)
  /-- Publishes all snippets. -/
  | publish (source output : Option Text) (minifies : Bool)
  /-- Serves what has been published. -/
  | serve (port : Nat) (directory : Option Text) (opens : Bool)
deriving DecidableEq, Repr

/-- A command with its surroundings. -/
structure Invocation where
  /-- The path of the configuration file. -/
  config : Text
  verbose : Bool
  command : Command
deriving DecidableEq, Repr

/-- What a command line asks for. -/
inductive Demand where
  /-- The version of the program. -/
  | version
  | run (i : Invocation)
deriving DecidableEq, Repr

/-! ## Values of options -/

def isPathValue (t : Text) : Bool := !t.isEmpty

/-- The number of a port, in decimal digits. A sign may stand in front, also a minus in front of zero. -/
def port? (t : Text) : Option Nat :=
  let (isNegative, ds) := match t with
    | '+' :: ds => (false, ds)
    | '-' :: ds => (true, ds)
    | ds => (false, ds)
  let n := ds.foldl (fun n c => 10 * n + (c.toNat - '0'.toNat)) 0
  let most := if isNegative then 0 else UInt16.size - 1
  if !ds.isEmpty && ds.all Char.isDigit && n ≤ most then some n else none

/-- The kind that is meant by a text. -/
def kindValue? (t : Text) : Option Kind := (Kind.ofAlias t).toOption

namespace Switch

def flag (long : Text) (short : Option Char) : Switch := ⟨long, short, none⟩

def path (long : Text) (short : Option Char) : Switch := ⟨long, short, some isPathValue⟩

def port : Switch := ⟨"port", some 'p', some fun t => (port? t).isSome⟩

def kind : Switch := ⟨"kind", some 'k', some fun t => (kindValue? t).isSome⟩

end Switch

namespace Command

/-- The options of a command, and whether it takes a path as its operand. -/
structure Form where
  switches : List Switch
  takesPath : Bool
  /-- The command that has been given. -/
  build : Given → Command

/-- A missing option keeps something on. -/
def keeps (g : Given) (long : Text) : Bool := !g.has long

/-- The form of the command of this name. -/
def form? (name : Text) : Option Form :=
  if name = "init" then some ⟨[.flag "yes" (some 'y')], false, fun g => init (g.has "yes")⟩
  else if name = "detect" then
    some ⟨[.flag "json" none, .flag "all" none], true, fun g => detect g.operands.head? (g.has "json") (g.has "all")⟩
  else if name = "render" then
    some ⟨[.path "output" (some 'o'), .kind], true, fun g =>
      render g.operands.head? (g.value? "output") ((g.value? "kind").bind kindValue?)⟩
  else if name = "dev" then
    some ⟨[.port, .flag "no-open" none], true, fun g =>
      dev g.operands.head? ((g.value? "port").bind port?) (keeps g "no-open")⟩
  else if name = "publish" then
    some ⟨[.path "source" (some 's'), .path "output" (some 'o'), .flag "no-minify" none], false, fun g =>
      publish (g.value? "source") (g.value? "output") (keeps g "no-minify")⟩
  else if name = "serve" then
    some ⟨[.port, .path "dir" (some 'd'), .flag "no-open" none], false, fun g =>
      serve (((g.value? "port").bind port?).getD 4000) (g.value? "dir") (keeps g "no-open")⟩
  else none

/-- The operands fit the form: at most one path. -/
def Form.accepts (f : Form) (operands : List Text) : Bool :=
  operands.isEmpty || (f.takesPath && operands.length == 1 && operands.all isPathValue)

/-- The command of this name with the words behind it. -/
def ofWords? (name : Text) (words : List Text) : Option Command := do
  let f ← form? name
  let g ← Given.ofArguments? (Argument.ofWords f.switches false words).1
  if f.accepts g.operands then some (f.build g) else none

end Command

namespace Demand

/-- The options in front of a command. -/
def switches : List Switch := [.path "config" (some 'c'), .flag "verbose" (some 'v'), .flag "version" (some 'V')]

def usualConfig : Text := "livepane.toml"

/-- The arguments up to the one that asks for the version, if any does. -/
def beforeVersion? (as : List Argument) : Option (List Argument) :=
  match as.span (· != .option "version" []) with
  | (_, []) => none
  | (front, _ :: _) => some front

/-- Reads a command line. Asking for the version comes before all that stands behind it. -/
def ofWords? (words : List Text) : Option Demand := do
  let (front, rest) := Argument.ofWords switches true words
  match beforeVersion? front with
  | some front => do
    let g ← Given.ofArguments? front
    if g.operands.isEmpty then some version else none
  | none => do
    let g ← Given.ofArguments? front
    match rest with
    | name :: words =>
      if g.operands.isEmpty then
        return run ⟨(g.value? "config").getD usualConfig, g.has "verbose", ← Command.ofWords? name words⟩
      else none
    | [] => none

end Demand

end SnippetPreview
