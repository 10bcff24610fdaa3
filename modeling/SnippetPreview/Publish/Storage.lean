import SnippetPreview.Files.Tree

/-!
# Object storage

* `Storage`: where documents are kept, under paths such as `previews/button/index.html`;
* `Directory`, `Directory.storage`: a storage that keeps objects as files below a directory. Paths that could lead out of it
  are refused;
* `Directory.target`: the file of an object.
-/

namespace SnippetPreview

/-- Why an object is not stored. -/
inductive StorageError where
  /-- The path is no plain relative path. -/
  | invalidPath (path : Text)
  /-- The system refuses to write the file. -/
  | writeFailed (file : Text) (cause : Refusal)
deriving DecidableEq, Repr

def StorageError.message : StorageError → Text
  | invalidPath path => "Invalid object path: " ++ path
  | writeFailed file cause => "Failed to write " ++ file ++ ": " ++ cause.message

/-- A place to keep documents, with the state `σ`. -/
structure Storage (σ : Type) where
  /-- Keeps an object under a path, in place of an earlier one. -/
  put : Text → Content → ExceptT StorageError (StateM σ) Unit
  /-- The address that an object is served from. -/
  publicUrl : Text → Text

/-- A directory that objects are kept below. -/
structure Directory where
  root : Text
  /-- The address that the directory is served from. -/
  baseUrl : Text
deriving DecidableEq, Repr

namespace Directory

/-- A path made of names alone. -/
def isPlain (path : Text) : Bool :=
  !path.isEmpty && (Path.parts path).all fun
    | .name _ => true
    | _ => false

def target (d : Directory) (path : Text) : Except StorageError Text :=
  if isPlain path then .ok (Path.join d.root path) else .error (.invalidPath path)

def writeFile (file : Text) (body : Content) : Disk Unit := do
  match Path.parentText? file with
  | some directory => Disk.makeDirectories directory
  | none => pure ()
  Disk.write file body

def put (d : Directory) (path : Text) (body : Content) : ExceptT StorageError (StateM Node) Unit :=
  match d.target path with
  | .error e => throw e
  | .ok file => ExceptT.mk do
    match ← (writeFile file body).run with
    | .ok () => return .ok ()
    | .error e => return .error (.writeFailed file e)

/-- The base address without slashes at its end. -/
def trimmedUrl (d : Directory) : Text := (d.baseUrl.reverse.dropWhile (· == '/')).reverse

def publicUrl (d : Directory) (path : Text) : Text := d.trimmedUrl ++ '/' :: path

def storage (d : Directory) : Storage Node := ⟨d.put, d.publicUrl⟩

end Directory

end SnippetPreview
