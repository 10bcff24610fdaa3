import SnippetPreview.Cli.Command
import SnippetPreview.Cli.Samples
import SnippetPreview.Config.Basic

/-!
# Running commands

* `Failure`: why a command fails, and what the user is told;
* `Outcome`: what a command comes to. The two that serve pages end with what is to be served;
* `Invocation.run`: runs a command on a tree of files;
* `describe`: a verdict in words.
-/

namespace SnippetPreview

/-- Why a command fails. -/
inductive Failure where
  | unreadable (path : Text) (cause : Refusal)
  | unreadableInput
  | notCreated (path : Text) (cause : Refusal)
  | noSnippetDirectory (cause : Refusal)
  | unwritten (path : Text) (cause : Refusal)
  | config (cause : ConfigError)
  | publish (cause : PublishError)
  | noSnippet (path : Text)
  | noDirectory (path : Text)
  | start (cause : StartError)
  | unbound (address : Text)
deriving DecidableEq, Repr

def Failure.message : Failure → Text
  | unreadable path _ => "Failed to read " ++ path
  | unreadableInput => "Failed to read stdin"
  | notCreated path _ => "Failed to create " ++ path
  | noSnippetDirectory _ => "Failed to create snippets directory"
  | unwritten path _ => "Failed to write " ++ path
  | config cause => cause.message
  | publish cause => cause.message
  | noSnippet path => "Snippet not found: " ++ path ++ ". Run 'livepane init' or pass a file."
  | noDirectory path => "Directory not found: " ++ path ++ ". Run 'livepane publish' first."
  | start cause => cause.message
  | unbound address => "Failed to bind to " ++ address

/-- What a command comes to. -/
inductive Outcome where
  /-- It has ended, with this output. -/
  | done (output : Text)
  /-- A snippet is to be shown live. -/
  | preview (session : Session) (scope : Scope) (config : PreviewConfig)
  /-- A directory is to be served at a port of this machine. -/
  | serve (directory : Text) (port : Nat) (opens : Bool)

/-- The file that is named, when it is none that stands for the input. -/
def namedFile? (file : Option Text) : Option Text := file.filter fun path => !Path.sameAs path "-"

/-- The command reads what is given to the program. -/
def Command.readsInput : Command → Bool
  | .detect file _ _ | .render file _ _ => (namedFile? file).isNone
  | .init _ | .dev _ _ _ | .publish _ _ _ | .serve _ _ _ => false

/-- A command at work: it changes files and may fail, after part of the change. -/
abbrev Work (α : Type) := ExceptT Failure (StateM Node) α

namespace Work

/-- A change of files, with its failure in the words of the command. -/
def ofDisk {α : Type} (failure : Refusal → Failure) (action : Disk α) : Work α := ExceptT.mk do
  match ← action.run with
  | .ok a => return .ok a
  | .error e => return .error (failure e)

/-- A result that may be an error, with its failure in the words of the command. -/
def ofExcept {ε α : Type} (failure : ε → Failure) : Except ε α → Work α
  | .ok a => pure a
  | .error e => throw (failure e)

def config (path : Text) : Work Config := do ofExcept Failure.config (Config.load (← get) path)

def write (path : Text) (text : Text) : Work Unit := ofDisk (Failure.unwritten path) (Disk.write path (.text text))

/-- The source of a snippet: that of a file, or the input when no file or a hyphen is given. -/
def source (input : Content) (file : Option Text) : Work Text := do
  match namedFile? file with
  | some path => ofExcept (Failure.unreadable path) ((← get).readText path)
  | none =>
    match input with
    | .text t => return t
    | .binary _ => throw .unreadableInput

end Work

/-! ## The commands -/

/-- Writes a file unless it is there already. -/
def writeNew (overwrites : Bool) (path text : Text) : Work Unit := do
  if (← get).exists? path && !overwrites then return ()
  Work.write path text

/-- Writes a configuration, and sample snippets in a directory next to it. -/
def scaffold (config : Text) (overwrites : Bool) : Work Unit := do
  let snippets := Path.join (Path.directoryOf config) "snippets"
  writeNew overwrites config Samples.config
  if !(← get).exists? snippets then
    Work.ofDisk Failure.noSnippetDirectory (Disk.makeDirectories snippets)
  Samples.all.forM fun (name, text) => writeNew overwrites (Path.join snippets name) text

/-- The line for a runtime. -/
def loadsLine (url : Text) : Text := "  loads " ++ url ++ "\n"

def alsoLine (kinds : List Kind) : Text :=
  if kinds.isEmpty then [] else "  also matched: " ++ Text.join ", " (kinds.map Kind.name) ++ "\n"

/-- A verdict in words, one fact on each line, with further kinds whose signals occur. -/
def describe (v : Verdict) (matching : List Kind) : Text :=
  v.kind.name ++ "\n" ++ (if v.needsCompilation then "  compiles in the browser\n".toList else [])
    ++ v.scripts.flatMap loadsLine ++ alsoLine (matching.filter (· ≠ v.kind))

/-- What is told about a snippet. -/
def detection (source : Text) (asJson listsAll : Bool) : Text :=
  let v := classify source
  if asJson then v.toJson.pretty ++ "\n" else describe v (if listsAll then matchingKinds source else [])

/-- The document of a snippet, under a given kind or the classifier's. -/
def documentFor (source : Text) (kind : Option Kind) : Text :=
  render source ((kind.map Verdict.ofKind).getD (classify source))

def writeDocument (path document : Text) : Work Unit := do
  match Path.parentText? path with
  | none | some [] => pure ()
  | some parent => Work.ofDisk (Failure.notCreated parent) (Disk.makeDirectories parent)
  Work.write path document

/-- The live preview that the configuration and the options ask for. -/
def previewAsked (c : PreviewConfig) (entry : Option Text) (port : Option Nat) (opens : Bool) : PreviewConfig :=
  { c with entry := entry.getD c.entry, port := port.getD c.port, opens := c.opens && opens }

/-- The publication that the configuration and the options ask for. -/
def publicationAsked (c : PublishConfig) (source output : Option Text) (minifies : Bool) : PublishConfig :=
  { c with source := source.getD c.source, output := output.getD c.output, minify := c.minify && minifies }

/-- Begins a live preview, when its address is free. -/
def beginPreview (c : PreviewConfig) (addressIsFree : Bool) : Work Outcome := do
  let n ← get
  if !n.isFile c.entry then throw (.noSnippet c.entry)
  let (session, scope) ← Work.ofExcept Failure.start (Session.start n c addressIsFree)
  return .preview session scope c

def publishAll (c : PublishConfig) : Work Unit := ExceptT.mk do
  match ← (publishToDirectory c).run with
  | .ok _ => return .ok ()
  | .error e => return .error (.publish e)

/-- The directory to be served: the one that is given, or else the output of publishing. -/
def beginServing (config : Text) (port : Nat) (directory : Option Text) (opens addressIsFree : Bool) : Work Outcome := do
  let directory ← match directory with
    | some d => pure d
    | none => do pure (← Work.config config).publish.output
  if !(← get).exists? directory then throw (.noDirectory directory)
  if !addressIsFree then throw (.unbound ("127.0.0.1:" ++ Text.ofNat port))
  return .serve directory port opens

/-- Runs a command. `input` is what is given to the program to read, and `addressIsFree` tells whether it can listen. -/
def Invocation.run (i : Invocation) (input : Content) (addressIsFree : Bool) : Work Outcome := do
  match i.command with
  | .init overwrites => do
    scaffold i.config overwrites
    return .done []
  | .detect file asJson listsAll => return .done (detection (← Work.source input file) asJson listsAll)
  | .render file output kind => do
    let document := documentFor (← Work.source input file) kind
    match output with
    | some path => do
      writeDocument path document
      return .done []
    | none => return .done document
  | .dev entry port opens => do
    beginPreview (previewAsked (← Work.config i.config).preview entry port opens) addressIsFree
  | .publish source output minifies => do
    publishAll (publicationAsked (← Work.config i.config).publish source output minifies)
    return .done []
  | .serve port directory opens => beginServing i.config port directory opens addressIsFree

def versionLine : Text := "livepane 0.1.0\n"

end SnippetPreview
