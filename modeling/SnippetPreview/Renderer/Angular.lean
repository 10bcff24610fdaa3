import SnippetPreview.Document.Head
import SnippetPreview.Document.Shell
import SnippetPreview.Framework.Signals
import SnippetPreview.Markup.Sections
import SnippetPreview.Renderer.Basic
import SnippetPreview.Script.Members

/-!
# Angular snippets

Components with decorators need a compiler, so they are turned into controllers of AngularJS.

* `Angular.translateTemplate`: bindings of a template as directives of AngularJS;
* `Angular.scopeStatements`: the members of a component class as assignments to the scope, the fields before the methods;
* `Angular.renderComponent`, `Angular.renderPlain`, `Angular.scaffold`: the documents of the three shapes of a source;
* `Angular.render`, `Angular.renderer`: the document. A complete document is only given the runtime when it loads none.
-/

namespace SnippetPreview.Angular

open Pattern Script Markup

/-- The template of a component without one. -/
def defaultTemplate : Text := "<h1>\x7b\x7b title \x7d\x7d</h1>
<p>Count: \x7b\x7b count \x7d\x7d</p>
<button ng-click=\"decrement()\">-</button>
<button ng-click=\"increment()\">+</button>"

/-- The template of the scaffold for sources of no known shape. -/
def scaffoldTemplate : Text := "<div class=\"container\">
  <h1>\x7b\x7b title \x7d\x7d</h1>
  <p>\x7b\x7b message \x7d\x7d</p>
  <p>Count: \x7b\x7b count \x7d\x7d</p>
  <button ng-click=\"decrement()\">-</button>
  <button ng-click=\"increment()\">+</button>
</div>"

/-- What every scope starts with. A component may override it. -/
def scopeSeed : List Text :=
  ["$scope.title = 'Angular App';", "$scope.count = 0;",
    "$scope.increment = function () \x7b $scope.count++; \x7d;",
    "$scope.decrement = function () \x7b $scope.count--; \x7d;"]

/-- A script element that loads a build of Angular. -/
def runtimeScript : Pattern :=
  chain [anyCase "<script", many (charNotOf ">"), wordEdge, anyCase "src", many isBlank, "=", many isBlank,
    one (charOf "\"'"), many (charNotOf "\"'"), anyCase "angular", many (charNotOf "\"'"), one (charOf "\"'")]

/-! ## Templates -/

def modelBinding : Pattern := chain ["[(ngModel)]", many isBlank, "="]

def conditional : Pattern := chain ["*ngIf", many isBlank, "="]

/-- A repetition: group 1 is the variable, group 2 the list. -/
def repetition : Pattern :=
  chain ["*ngFor", many isBlank, "=", many isBlank, "\"", many isBlank, "let", many1 isBlank, group 1 (many1 isIdentRest),
    many1 isBlank, "of", many1 isBlank, group 2 (fewest1 (charNotOf "\";")), many isBlank,
    optional (chain [";", many (charNotOf "\"")]), "\""]

/-- A binding of an event: group 1 is its name. -/
def eventBinding : Pattern := chain ["(", group 1 (many1 isWord), ")", many isBlank, "="]

def eventDirective (event : Text) : Text :=
  "ng-" ++ (if event = "input" then "change".toList else event) ++ "="

/-- The template with its bindings as directives. -/
def translateTemplate (template : Text) : Text :=
  let out := modelBinding.replaceAll (fun _ => "ng-model=") template
  let out := conditional.replaceAll (fun _ => "ng-if=") out
  let out := repetition.replaceAll (fun m => "ng-repeat=\"" ++ m.groupText 1 ++ " in " ++ m.groupText 2 ++ "\"") out
  eventBinding.replaceAll (fun m => eventDirective (m.groupText 1)) out

/-! ## Scopes -/

def fieldStatement (f : Field) : Text := "$scope." ++ f.name ++ " = " ++ f.value ++ ";"

def methodStatement (m : Method) : Text :=
  "$scope." ++ m.name ++ " = " ++ (if m.isAsync then "async ".toList else []) ++ "function () \x7b" ++ m.body ++ "\x7d;"

/-- The assignments of members: the fields, the methods, and a call of the initialisation when it is among them. -/
def memberStatements (fields : List Field) (methods : List Method) : List Text :=
  fields.map fieldStatement ++ methods.map methodStatement
    ++ (if methods.any (·.name == ("ngOnInit" : Text)) then ["$scope.ngOnInit();".toList] else [])

def scopeStatements (body : Text) : List Text := memberStatements (Field.ofBody body) (Method.ofBody body)

def statementLine (s : Text) : Text := "  " ++ s ++ "\n"

/-- The controller with these statements behind the seed. -/
def controller (statements : List Text) : Text :=
  "angular.module('previewApp', []).controller('MainController', ['$scope', function ($scope) \x7b\n"
    ++ (scopeSeed ++ statements).flatMap statementLine ++ "\x7d]);"

/-! ## Documents -/

/-- A document with a template under the controller. -/
def controllerShell (template : Text) (statements : List Text) : Shell :=
  ((((Shell.titled "Angular Preview").load [Kind.angularScript]).withBodyAttributes "ng-app=\"previewApp\"").withBody
    ("<div ng-controller=\"MainController\">\n" ++ template.trim ++ "\n</div>")).bodyScript
    (.inline (controller statements))

/-- The document of a component with a decorator. -/
def renderComponent (source : Text) : Text :=
  let template := (decoratorTemplate? source).elim defaultTemplate translateTemplate
  let statements := (classBody? source).elim [] scopeStatements
  ((controllerShell template statements).style (decoratorStyles source)).finish

/-- The document of code or markup for AngularJS. -/
def renderPlain (source : Text) : Text :=
  let shell := (Shell.titled "Angular Preview").load [Kind.angularScript]
  if hasTag source then (shell.withBody source.trim).finish else (shell.bodyScript (.inline source.trim)).finish

def scaffold : Text := (controllerShell scaffoldTemplate ["$scope.message = 'Hello from AngularJS!';"]).finish

def render (source : Text) : Text :=
  if isHtmlDocument source then
    if source.contains "@angular/" || runtimeScript.isMatch source then source
    else injectHeadScript source Kind.angularScript
  else if source.containsAny ["@Component", "@NgModule"] then renderComponent source
  else if source.containsAny ["ng-app", "ng-controller", "angular.module"] then renderPlain source
  else scaffold

def renderer : Renderer := ⟨"angular", [.angular], fun source _ => render source⟩

end SnippetPreview.Angular
