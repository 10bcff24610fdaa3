import SnippetPreview.Text.Blank

/-!
# Framework kinds

* `Kind`: the idioms a snippet can be written in;
* `Kind.all`: all of them, in the order in which their signals are tried;
* `Kind.name`, `Kind.ofName?`, `Kind.ofAlias`: their names, exact and as a user may type them;
* `Kind.scripts`: the addresses of the runtimes that a kind loads.
-/

namespace SnippetPreview

/-- The idiom that a snippet is written in. -/
inductive Kind where
  | html
  | react
  | vue
  | angular
  | svelte
  | alpine
  | vanilla
deriving DecidableEq, Repr

namespace Kind

/-- Every kind, in the order in which signals are tried. -/
def all : List Kind := [react, vue, angular, svelte, alpine, html, vanilla]

theorem mem_all (k : Kind) : k ∈ all := by cases k <;> decide

/-- The name used in files, messages and on the command line. -/
def name : Kind → Text
  | html => "html"
  | react => "react"
  | vue => "vue"
  | angular => "angular"
  | svelte => "svelte"
  | alpine => "alpine"
  | vanilla => "vanilla"

/-- The name with a capital, as it is shown to developers. -/
def title : Kind → Text
  | html => "Html"
  | react => "React"
  | vue => "Vue"
  | angular => "Angular"
  | svelte => "Svelte"
  | alpine => "Alpine"
  | vanilla => "Vanilla"

def ofName? (t : Text) : Option Kind := all.find? (·.name == t)

theorem ofName?_name (k : Kind) : ofName? k.name = some k := by cases k <;> decide

/-- Further names that a user may type, in small letters. -/
def aliases : Kind → List Text
  | html => ["html", "htm"]
  | react => ["react", "jsx", "tsx"]
  | vue => ["vue"]
  | angular => ["angular", "angularjs"]
  | svelte => ["svelte"]
  | alpine => ["alpine", "alpinejs"]
  | vanilla => ["vanilla", "js", "javascript"]

/-- A name that no kind goes by. -/
structure UnknownName where
  given : Text
deriving DecidableEq, Repr

def UnknownName.message (e : UnknownName) : Text :=
  "Unknown framework: " ++ e.given ++ " (expected one of html, react, vue, angular, svelte, alpine, vanilla)"

/-- The kind that a user means by `t`: blanks around it and capitals do not matter. No character outside ASCII is the
capital of a letter that occurs in an alias, so small ASCII letters decide. -/
def ofAlias (t : Text) : Except UnknownName Kind :=
  match all.find? (·.aliases.contains (t.trim.lowerAscii)) with
  | some k => .ok k
  | none => .error ⟨t⟩

theorem ofAlias_name (k : Kind) : ofAlias k.name = .ok k := by cases k <;> rfl

/-! ## Runtimes -/

def reactScript : Text := "https://unpkg.com/react@18/umd/react.development.js"

def reactDomScript : Text := "https://unpkg.com/react-dom@18/umd/react-dom.development.js"

/-- The compiler for markup in scripts that runs in the browser. -/
def babelScript : Text := "https://unpkg.com/@babel/standalone/babel.min.js"

def vueScript : Text := "https://unpkg.com/vue@3/dist/vue.global.js"

def angularScript : Text := "https://ajax.googleapis.com/ajax/libs/angularjs/1.8.2/angular.min.js"

/-- The build of Alpine 3. -/
def alpineScript : Text := "https://cdn.jsdelivr.net/npm/alpinejs@3.x.x/dist/cdn.min.js"

/-- The runtimes that a document of the kind loads, in load order. -/
def scripts : Kind → List Text
  | react => [reactScript, reactDomScript, babelScript]
  | vue => [vueScript]
  | angular => [angularScript]
  | alpine => [alpineScript]
  | html | svelte | vanilla => []

/-- The browser has to compile such a snippet before it runs. -/
def needsCompilation : Kind → Bool
  | react | vue | angular | svelte => true
  | html | alpine | vanilla => false

end Kind

end SnippetPreview
