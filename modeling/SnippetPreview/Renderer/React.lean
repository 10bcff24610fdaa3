import SnippetPreview.Document.Shell
import SnippetPreview.Framework.Signals
import SnippetPreview.Renderer.Basic
import SnippetPreview.Script.Imports

/-!
# React snippets

* `React.dropModuleSyntax`: module code as a classic script can run it;
* `React.hasMarkup`: whether code contains markup and has to be compiled in the browser;
* `React.hookPrelude`: the hooks that a snippet may use without asking for them;
* `React.render`, `React.renderer`: the document. Complete documents stay as they are.
-/

namespace SnippetPreview.React

open Pattern Script

/-- The hooks that are in scope before a snippet runs. -/
def hooks : List Text := ["useState", "useEffect", "useRef", "useCallback", "useMemo"]

/-- Mounts a component when the snippet does not do so: the one named `App`, else the first global function with a
capital, else a counter. -/
def mountScript : Text := "(function () \x7b
  function PreviewFallback() \x7b
    var state = React.useState(0);
    return React.createElement(
      'div',
      \x7b style: \x7b textAlign: 'center', padding: '2rem' \x7d \x7d,
      React.createElement('h1', null, 'React Preview'),
      React.createElement('p', null, 'Count: ' + state[0]),
      React.createElement('button', \x7b onClick: function () \x7b state[1](state[0] + 1); \x7d \x7d, 'Increment')
    );
  \x7d

  var entry = null;
  if (typeof App !== 'undefined' && App) \x7b
    entry = App;
  \x7d
  if (!entry) \x7b
    var names = Object.keys(window);
    for (var i = 0; i < names.length; i++) \x7b
      var name = names[i];
      if (/^[A-Z]/.test(name) && name !== 'React' && name !== 'ReactDOM' && typeof window[name] === 'function') \x7b
        entry = window[name];
        break;
      \x7d
    \x7d
  \x7d
  if (!entry) \x7b
    entry = PreviewFallback;
  \x7d

  ReactDOM.createRoot(document.getElementById('root')).render(React.createElement(entry));
\x7d)();"

def exportDefault : Pattern := chain [wordEdge, "export", many1 isBlank, "default", many1 isBlank]

/-- An exported declaration that starts a line: group 1 is its indentation, group 2 its keyword. -/
def exportedDeclaration : Pattern :=
  chain [lineStart, group 1 (many isLineBlank), "export", many1 isBlank,
    group 2 (oneOf [chain [optional (chain ["async", many1 isBlank]), "function"], "const", "let", "var", "class"]),
    wordEdge]

def markupTag : Pattern :=
  let name := chain [one Char.isAlpha, many fun c => isWord c || c == '.' || c == '-']
  oneOf [
    chain ["<", name, optional (chain [one isBlank, fewest (charNotOf "<>")]), optional "/", ">"],
    chain ["</", name, many isBlank, ">"],
    "<>",
    "</>"]

/-- Names read from the global `React`, group 1 the list of names. -/
def readFromReact : Pattern :=
  chain [oneOf ["const", "let", "var"], many isBlank, "\x7b", group 1 (many (charNotOf "\x7d")), "\x7d", many isBlank,
    "=", many isBlank, "React", wordEdge]

def mountCall : Pattern :=
  oneOf [chain ["ReactDOM.render", many isBlank, "("], chain ["createRoot", many isBlank, "("]]

/-- Module code as a classic script: imports of React become reads from its globals, and exports plain declarations. -/
def dropModuleSyntax (source : Text) : Text :=
  let code := globalizeImports ["react-dom"] "ReactDOM" [] source
  let code := globalizeImports ["react"] "React" hooks code
  let code := exportDefault.replaceAll (fun _ => []) code
  exportedDeclaration.replaceAll (fun m => m.groupText 1 ++ m.groupText 2) code

def hasMarkup (code : Text) : Bool := markupTag.isMatch code

/-- The names that the code reads from `React` itself, as it calls them. -/
def declaredNames (code : Text) : List Text :=
  (readFromReact.finds code).flatMap fun m =>
    (Text.splitOn ',' (m.groupText 1)).map fun spec => ((Text.splitOn ':' spec).getLastD spec).trim

/-- A declaration of the hooks that the code does not read itself. -/
def hookPrelude (code : Text) : Text :=
  match hooks.filter fun h => !(declaredNames code).contains h with
  | [] => []
  | missing => "const \x7b " ++ Text.join ", " missing ++ " \x7d = React;"

/-- The whole script: the hooks, the code, and a mount when the code has none. -/
def script (code : Text) : Text :=
  let prelude := hookPrelude code
  (if prelude.isEmpty then [] else prelude ++ ['\n', '\n']) ++ code.trim
    ++ (if mountCall.isMatch code then [] else '\n' :: '\n' :: mountScript)

def render (source : Text) : Text :=
  if isHtmlDocument source then source
  else
    let code := dropModuleSyntax source
    let shell := (Shell.titled "React Preview").load [Kind.reactScript, Kind.reactDomScript]
    let shell := if hasMarkup code then shell.load [Kind.babelScript] else shell
    ((shell.withBody "<div id=\"root\"></div>").bodyScript
      (if hasMarkup code then .compiled (script code) else .inline (script code))).finish

def renderer : Renderer := ⟨"react", [.react], fun source _ => render source⟩

end SnippetPreview.React
