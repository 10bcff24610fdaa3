import SnippetPreview.Cli.Run

/-!
# The program

`main` reads the files below the working directory, runs the command on them, writes what has changed and reports. A
command that ends in serving pages is taken up to the point where it would listen.
-/

namespace SnippetPreview.Program

def contentOf (bytes : ByteArray) : Content :=
  match String.fromUTF8? bytes with
  | some s => .text s.toList
  | none => .binary bytes.data.toList

def bytesOf : Content → ByteArray
  | .text t => (String.ofList t).toUTF8
  | .binary bytes => ⟨bytes.toArray⟩

/-- Directories that lie deeper are not looked into. -/
def depth : Nat := 64

/-- Reads a file, or a directory with all that is below it. A file that cannot be read counts as bytes of no text. -/
def readNode : Nat → String → IO Node
  | 0, _ => return Node.empty
  | n + 1, path => do
    let place := (← IO.currentDir) / path
    if ← place.isDir then
      let entries ← place.readDir
      let nodes ← entries.toList.mapM fun e => do
        return (e.fileName.toList, ← readNode n (path ++ "/" ++ e.fileName))
      return .directory nodes
    else
      try return .file (contentOf (← IO.FS.readBinFile place))
      catch _ => return .file (.binary [0xFF])

/-- Writes what is new below a path. Nothing is ever removed. -/
def writeNode : Nat → Option Node → String → Node → IO Unit
  | 0, _, _, _ => return ()
  | n + 1, old, path, new => do
    let place := (← IO.currentDir) / path
    match new, old with
    | .file c, some (.file d) => if c ≠ d then IO.FS.writeBinFile place (bytesOf c)
    | .file c, _ => IO.FS.writeBinFile place (bytesOf c)
    | .directory es, _ => do
      IO.FS.createDirAll place
      es.forM fun (name, m) => writeNode n (old.bind (Node.child? name)) (path ++ "/" ++ String.ofList name) m

/-- What the program is given to read. -/
def readInput (i : Invocation) : IO Content := do
  if i.command.readsInput then return contentOf (← (← IO.getStdin).readBinToEnd) else return .text []

/-- Reports what a command has come to, and gives the exit code. -/
def report : Except Failure Outcome → IO UInt32
  | .ok (.done output) => do
    IO.print (String.ofList output)
    return 0
  | .ok (.preview _ _ c) => do
    IO.eprintln (String.ofList ("Ready to listen on " ++ c.address))
    return 0
  | .ok (.serve directory port _) => do
    IO.eprintln (String.ofList ("Ready to serve " ++ directory ++ " on port " ++ Text.ofNat port))
    return 0
  | .error e => do
    IO.eprintln (String.ofList ("Error: " ++ e.message))
    return 1

/-- Runs a command on the files below the working directory. -/
def runHere (i : Invocation) : IO UInt32 := do
  let before ← readNode depth "."
  let (result, after) := (i.run (← readInput i) true).run before
  writeNode depth (some before) "." after
  report result

/-- Runs a command line on the files below the working directory. -/
def run (words : List Text) : IO UInt32 :=
  match Demand.ofWords? words with
  | none => do
    IO.eprintln "Usage: livepane [-c PATH] [-v] (init | detect | render | dev | publish | serve) [options]"
    return 2
  | some .version => do
    IO.print (String.ofList versionLine)
    return 0
  | some (.run i) => runHere i

end SnippetPreview.Program

def main (words : List String) : IO UInt32 := SnippetPreview.Program.run (words.map String.toList)
