import SnippetPreview.Document.Head
import SnippetPreview.Document.Shell
import SnippetPreview.Framework.Signals
import SnippetPreview.Markup.Sections
import SnippetPreview.Renderer.Basic
import SnippetPreview.Script.Imports

/-!
# Vue snippets

* `Vue.isSingleFile`: whether a source is a single-file component;
* `Vue.renderSingleFile`: the document of a single-file component;
* `Vue.renderLoose`: the document of loose code, possibly mixed with markup;
* `Vue.render`, `Vue.renderer`: the document. A complete document is only given the runtime when it does not load it.
-/

namespace SnippetPreview.Vue

open Pattern Script Markup

/-- The names that are in scope before a snippet runs. -/
def provided : List Text := ["createApp", "ref", "reactive", "computed", "watch", "onMounted"]

/-- The template of a single-file component that has none. -/
def defaultTemplate : Text := "<div>
  <h1>\x7b\x7b message \x7d\x7d</h1>
</div>"

/-- The component of a single-file component that exports none. -/
def defaultComponent : Text := "const AppComponent = \x7b
  data() \x7b
    return \x7b message: \"Hello Vue!\" \x7d;
  \x7d
\x7d;"

/-- The markup for code that brings none. -/
def defaultMarkup : Text := "<h1>\x7b\x7b title \x7d\x7d</h1>
  <p>\x7b\x7b message \x7d\x7d</p>"

/-- Mounts an app when the code makes none. -/
def defaultMount : Text := "createApp(\x7b
  setup() \x7b
    const title = ref('Vue Preview');
    const message = ref('Hello Vue!');
    return \x7b title, message \x7d;
  \x7d
\x7d).mount('#app');"

/-- Makes an app out of the options of Vue 2. -/
def optionsMount : Text := "function VueCompat(options) \x7b
  var data = options.data;
  var app = createApp(Object.assign(\x7b\x7d, options, \x7b
    data: typeof data === 'function' ? data : function () \x7b return data || \x7b\x7d; \x7d
  \x7d));
  app.mount(options.el || '#app');
  return app;
\x7d"

def componentMount : Text := "createApp(AppComponent).mount('#app');"

/-- The words of a default export up to the opening brace of the exported object. -/
def exportedObject : Pattern := chain [wordEdge, "export", many1 isBlank, "default", many isBlank, "\x7b"]

def exportDefault : Pattern := chain [wordEdge, "export", many1 isBlank, "default", many1 isBlank]

def createAppCall : Pattern := chain [wordEdge, "createApp", many isBlank, "("]

def newVueCall : Pattern := chain [wordEdge, "new", many1 isBlank, "Vue", many isBlank, "("]

def runtimeScript : Pattern :=
  chain [anyCase "<script", many (charNotOf ">"), wordEdge, anyCase "src", many isBlank, "=", many isBlank,
    one (charOf "\"'"), many (charNotOf "\"'"), anyCase "vue", many (charNotOf "\"'"), one (charOf "\"'")]

/-- A script element, group 1 its content. -/
def scriptBlock : Pattern :=
  chain [anyCase "<script", many (charNotOf ">"), ">", group 1 (fewest anyChar), anyCase "</script>"]

def styleBlock : Pattern :=
  chain [anyCase "<style", many (charNotOf ">"), ">", fewest anyChar, anyCase "</style>"]

def isSingleFile (source : Text) : Bool := source.contains "<template" && (openTag "script").isMatch source

def prelude : Text := "const \x7b " ++ Text.join ", " provided ++ " \x7d = Vue;"

def shell : Shell := (Shell.titled "Vue Preview").load [Kind.vueScript]

/-- The code with its exported object declared as the component instead. -/
def declareComponent (code : Text) : Text := exportedObject.replaceFirst "const AppComponent = \x7b" code

/-! ## Single-file components -/

/-- The code that declares the component of a single-file component. -/
def component (source : Text) : Text :=
  match scriptBody? source with
  | none => defaultComponent
  | some body =>
    let code := globalizeImports ["vue"] "Vue" provided body
    if exportedObject.isMatch code then declareComponent code else code.trim ++ "\n\n" ++ defaultComponent

def renderSingleFile (source : Text) : Text :=
  let template := (template? source).getD defaultTemplate
  (((shell.style ((styleBody? source).getD [])).withBody ("<div id=\"app\">" ++ template ++ "</div>")).bodyScript
    (.inline (prelude ++ "\n\n" ++ (component source).trim ++ "\n\n" ++ componentMount))).finish

/-! ## Loose code -/

/-- The markup and the code of a source. A source that starts with a tag has its code in script elements, any other is
code altogether. -/
def markupAndCode (source : Text) : Text × Text :=
  if source.trimStart.head? = some '<' then
    let bodies := (scriptBlock.finds source).map fun m => (m.groupText 1).trim
    let code := Text.join "\n\n" (bodies.filter fun b => !b.isEmpty)
    (styleBlock.replaceAll (fun _ => []) (scriptBlock.replaceAll (fun _ => []) source), code)
  else ([], source)

/-- The markup that an app is mounted on. A template around all of it is opened, as it would stay inert. -/
def appMarkup (markup : Text) : Text :=
  let markup := markup.trim
  if markup.isEmpty then defaultMarkup
  else if List.isPrefixOf "<template".toList markup && List.isSuffixOf "</template>".toList markup then
    (template? markup).getD markup
  else markup

/-- The code without its exports, and what mounts it. -/
def withoutExports (code : Text) : Text × Text :=
  if exportedObject.isMatch code then (declareComponent code, componentMount)
  else (exportDefault.replaceAll (fun _ => []) code, defaultMount)

/-- A part of a script behind an empty line. -/
def paragraph (t : Text) : Text := '\n' :: '\n' :: t

def looseScript (code : Text) : Text :=
  let (code, mount) := withoutExports (globalizeImports ["vue"] "Vue" provided code)
  let usesOptions := newVueCall.isMatch code
  let code := newVueCall.replaceAll (fun _ => "VueCompat(") code
  prelude ++ (if usesOptions then paragraph optionsMount else [])
    ++ (if code.trim.isEmpty then [] else paragraph code.trim)
    ++ (if createAppCall.isMatch code || code.contains "VueCompat(" then [] else paragraph mount)

def renderLoose (source : Text) : Text :=
  let (markup, code) := markupAndCode source
  (((shell.style ((styleBody? source).getD [])).withBody
    ("<div id=\"app\">\n  " ++ appMarkup markup ++ "\n</div>")).bodyScript (.inline (looseScript code))).finish

def render (source : Text) : Text :=
  if isHtmlDocument source then
    if runtimeScript.isMatch source then source else injectHeadScript source Kind.vueScript
  else if isSingleFile source then renderSingleFile source
  else renderLoose source

def renderer : Renderer := ⟨"vue", [.vue], fun source _ => render source⟩

end SnippetPreview.Vue
