import SnippetPreview.Files.Path

/-!
# Trees of files

* `Content`, `Node`: what a file holds, and files and directories;
* `Node.at?`: the node at a list of names;
* `Node.resolve`, `Node.canonical`: the place that a path leads to, or what stops the way. The system takes no path that is
  too long, whereas a path that is made canonical is taken step by step, however long it is;
* `Node.read`, `Node.readText`, `Node.isDirectory`, `Node.isFile`: questions about a path;
* `Disk`: actions that change a tree, and may fail after part of the change;
* `Disk.makeDirectories`, `Disk.write`: the two changes that this program makes.

The tree is that of the working directory, which is also where absolute paths start.
-/

namespace SnippetPreview

/-- What a file holds: a text in UTF-8, or bytes that are none. -/
inductive Content where
  | text (t : Text)
  | binary (bytes : List UInt8)
deriving DecidableEq, Repr

/-- A text is written as such. -/
instance : Coe Text Content := ⟨.text⟩

/-- A file, or a directory with the names of its entries. -/
inductive Node where
  | file (content : Content)
  | directory (entries : List (Text × Node))
deriving Repr

/-- Why the system refuses a path. -/
inductive Refusal where
  | notFound
  | alreadyExists
  | notDirectory
  | isDirectory
  | nameTooLong
  | zeroByte
  | notText
  | addressInUse
deriving DecidableEq, Repr

def Refusal.message : Refusal → Text
  | notFound => "No such file or directory (os error 2)"
  | alreadyExists => "File exists (os error 17)"
  | notDirectory => "Not a directory (os error 20)"
  | isDirectory => "Is a directory (os error 21)"
  | nameTooLong => "File name too long (os error 36)"
  | zeroByte => "file name contained an unexpected NUL byte"
  | notText => "stream did not contain valid UTF-8"
  | addressInUse => "Address already in use (os error 98)"

def maxNameBytes : Nat := 255

def maxPathBytes : Nat := 4095

namespace Node

def empty : Node := directory []

def entries : Node → List (Text × Node)
  | file _ => []
  | directory es => es

def child? (name : Text) (n : Node) : Option Node := n.entries.lookup name

/-- The node at these names, one directory below the other. -/
def at? (n : Node) : List Text → Option Node
  | [] => some n
  | name :: rest => (n.child? name).bind (at? · rest)

def isDir : Node → Bool
  | directory _ => true
  | file _ => false

/-- The entries with one of them set; a new one comes last. -/
def putEntry (name : Text) (n : Node) : List (Text × Node) → List (Text × Node)
  | [] => [(name, n)]
  | (other, m) :: rest => if other = name then (name, n) :: rest else (other, m) :: putEntry name n rest

/-- The tree with the node at these names set. The directories on the way must exist. -/
def put (n : Node) (names : List Text) (new : Node) : Node :=
  match names with
  | [] => new
  | name :: rest =>
    match n.child? name with
    | some m => directory (putEntry name (m.put rest new) n.entries)
    | none => if rest.isEmpty then directory (putEntry name new n.entries) else n

def erase (n : Node) : List Text → Node
  | [] => n
  | [name] => directory (n.entries.filter (·.1 != name))
  | name :: rest =>
    match n.child? name with
    | some m => directory (putEntry name (erase m rest) n.entries)
    | none => n

/-! ## The way along a path -/

/-- The names from the root to where the steps lead, starting at `place`. Every step needs a directory to start from. -/
def walk (n : Node) (place : List Text) : List Path.Step → Except Refusal (List Text)
  | [] => .ok place
  | s :: rest =>
    match n.at? place with
    | none => .error .notFound
    | some (file _) => .error .notDirectory
    | some (directory es) =>
      match s with
      | .stay => n.walk place rest
      | .up => n.walk place.dropLast rest
      | .down name =>
        if maxNameBytes < Text.byteSize name then .error .nameTooLong
        else if (es.lookup name).isSome then n.walk (place ++ [name]) rest
        else .error .notFound

/-- What is wrong with the text of a path of any length, whatever the tree. -/
def checkText (path : Text) : Except Refusal Unit :=
  if path.elem '\x00' then .error .zeroByte
  else if path.isEmpty then .error .notFound
  else .ok ()

/-- What is wrong with a path for the system, whatever the tree. -/
def checkPath (path : Text) : Except Refusal Unit := do
  checkText path
  if maxPathBytes < Text.byteSize path then throw .nameTooLong

/-- The place that a path of any length leads to. -/
def canonical (n : Node) (path : Text) : Except Refusal (List Text) := do
  checkText path
  n.walk [] (Path.steps path)

def resolve (n : Node) (path : Text) : Except Refusal (List Text) := do
  checkPath path
  n.walk [] (Path.steps path)

def find (n : Node) (path : Text) : Except Refusal Node := do
  match n.at? (← n.resolve path) with
  | some m => return m
  | none => throw .notFound

def isDirectory (n : Node) (path : Text) : Bool :=
  match n.find path with
  | .ok (directory _) => true
  | _ => false

def isFile (n : Node) (path : Text) : Bool :=
  match n.find path with
  | .ok (file _) => true
  | _ => false

/-- The path leads somewhere. -/
def exists? (n : Node) (path : Text) : Bool := (n.find path).isOk

def read (n : Node) (path : Text) : Except Refusal Content := do
  match ← n.find path with
  | file c => return c
  | directory _ => throw .isDirectory

def readText (n : Node) (path : Text) : Except Refusal Text := do
  match ← n.read path with
  | .text t => return t
  | .binary _ => throw .notText

end Node

/-! ## Changes -/

/-- An action that changes a tree. What it has done before it fails stays. -/
abbrev Disk (α : Type) := ExceptT Refusal (StateM Node) α

namespace Disk

/-- Where a new entry goes: the directory that the steps but the last lead to, and the name of the last. No name means
that the steps end at a directory that must exist. -/
def target (steps : List Path.Step) : Disk (List Text × Option Text) := do
  let n ← get
  match steps.getLast? with
  | some (.down name) => do
    let place ← liftExcept (n.walk [] (steps.dropLast ++ [.stay]))
    if maxNameBytes < Text.byteSize name then throw .nameTooLong
    return (place, some name)
  | _ => return (← liftExcept (n.walk [] steps), none)
where
  /-- A question about the tree inside an action. -/
  liftExcept {α : Type} : Except Refusal α → Disk α
    | .ok a => pure a
    | .error e => throw e

def makeDirectory (steps : List Path.Step) : Disk Unit := do
  match ← target steps with
  | (_, none) => throw .alreadyExists
  | (place, some name) => do
    let n ← get
    if (n.at? (place ++ [name])).isSome then throw .alreadyExists
    set (n.put (place ++ [name]) Node.empty)

/-- The path of these parts leads to a directory. -/
def leadsToDirectory (n : Node) (steps : List Path.Step) : Bool :=
  match n.walk [] steps with
  | .ok place => (n.at? place).any Node.isDir
  | .error _ => false

/-- Overlooks a refusal where a directory is there already. -/
def acceptDirectory (steps : List Path.Step) (e : Refusal) : Disk Unit := do
  if leadsToDirectory (← get) steps then pure () else throw e

/-- Makes the directory of these parts, innermost first, with all directories on the way to it. -/
def makeAll : List Path.Part → Disk Unit
  | [] => pure ()
  | p :: outer => do
    let steps := ((p :: outer).reverse).map Path.Part.step
    try makeDirectory steps
    catch e =>
      if e = .notFound then do
        makeAll outer
        try makeDirectory steps
        catch e => acceptDirectory steps e
      else acceptDirectory steps e

/-- Makes a directory with all directories on the way to it. The working directory is there already. -/
def makeDirectories (path : Text) : Disk Unit := do
  if path.isEmpty then return ()
  target.liftExcept (Node.checkPath path)
  makeAll (Path.parts path).reverse

/-- Writes a file, in place of the one that is there. Its directory must exist. -/
def write (path : Text) (content : Content) : Disk Unit := do
  target.liftExcept (Node.checkPath path)
  match ← target (Path.steps path) with
  | (_, none) => throw .isDirectory
  | (place, some name) => do
    let n ← get
    if (n.at? (place ++ [name])).any Node.isDir then throw .isDirectory
    set (n.put (place ++ [name]) (.file content))

end Disk

end SnippetPreview
