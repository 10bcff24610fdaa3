import SnippetPreview.Framework.Verdict
import SnippetPreview.Pattern.Search

/-!
# Signals of a framework

* `Kind.showsIn`: whether the signals of a kind appear in a source;
* `matchingKinds`: the kinds whose signals appear, in the order of `Kind.all`;
* `classifyKind`, `classify`: the first of them decides, and plain script and markup is what remains;
* `classifyKind_eq_iff`: a kind is chosen exactly when its signals appear and those of no earlier kind do.

Signals overlap: markup in a script beats the signals of Vue, and those of Vue beat the ones of Alpine.
-/

namespace SnippetPreview

open Pattern

namespace Signal

def reactImport : Pattern :=
  oneOf [
    chain ["import", many1 isBlank, "React", wordEdge],
    chain ["from", many isBlank, one (charOf "'\""), "react", one (charOf "'\"")]]

/-- Names that only React code mentions. -/
def reactCalls : List Text := ["React.createElement", "ReactDOM.render", "ReactDOM.createRoot"]

/-- The start of a tag with a capital, as components have. -/
def componentTag : Pattern :=
  chain ["<", one Char.isUpper, many fun c => c.isAlphanum || c == '_' || c == '.',
    one fun c => isBlank c || c == '/' || c == '>']

def arrowMarkup : Pattern :=
  chain ["=>", many isBlank, optional "(", many isBlank, "<", one Char.isAlpha]

/-- A named function with a `return` of markup behind its opening brace. -/
def functionMarkup : Pattern :=
  chain ["function", many1 isBlank, one isIdentStart, many isIdentRest, many isBlank, "(", many (charNotOf ")"), ")",
    many isBlank, "\x7b", fewest anyChar, wordEdge, "return", many isBlank, optional "(", many isBlank, "<",
    one Char.isAlpha]

def newVue : Pattern := chain ["new", many1 isBlank, "Vue", wordEdge]

def vueMarkers : List Text := ["createApp", "v-model", "v-if", "v-for", "@click"]

def templateTag : Pattern := chain ["<template", one fun c => isBlank c || c == '>']

/-- An exported component object with a `data` method. -/
def exportedData : Pattern :=
  chain ["export", many1 isBlank, "default", many isBlank, "\x7b", fewest anyChar, wordEdge, "data", many isBlank, "(",
    many isBlank, ")"]

def angularMarkers : List Text :=
  ["@Component", "@NgModule", "angular.module", "ng-app", "ng-controller", "*ngFor", "*ngIf", "[(ngModel)]"]

/-- A script element with a style element right behind it. -/
def scriptThenStyle : Pattern :=
  chain [anyCase "<script", many (charNotOf ">"), ">", fewest anyChar, anyCase "</script>", many isBlank,
    anyCase "<style"]

def alpineMarkers : List Text := ["x-data", "x-show", "x-if", "@click", "Alpine."]

def documentStart : Pattern := oneOf [anyCase "<!doctype", anyCase "<html"]

end Signal

/-- Markup in script code: component tags, arrow functions and named functions that return markup. -/
def hasScriptMarkup (source : Text) : Bool :=
  Signal.componentTag.isMatch source || Signal.arrowMarkup.isMatch source || Signal.functionMarkup.isMatch source

def isHtmlDocument (source : Text) : Bool := Signal.documentStart.isMatch source

namespace Kind

/-- The signals of the kind appear in the source. The plain kind has none. -/
def showsIn (source : Text) : Kind → Bool
  | react =>
    Signal.reactImport.isMatch source || source.containsAny Signal.reactCalls || hasScriptMarkup source
  | vue =>
    Signal.newVue.isMatch source || source.containsAny Signal.vueMarkers || Signal.templateTag.isMatch source
      || Signal.exportedData.isMatch source
  | angular => source.containsAny Signal.angularMarkers
  | svelte =>
    source.contains "export let" || source.contains "$:" || Signal.scriptThenStyle.isMatch source
  | alpine => source.containsAny Signal.alpineMarkers
  | html => isHtmlDocument source
  | vanilla => false

end Kind

/-- The kinds whose signals appear, in the order of `Kind.all`. -/
def matchingKinds (source : Text) : List Kind := Kind.all.filter (·.showsIn source)

def classifyKind (source : Text) : Kind := (matchingKinds source).head?.getD .vanilla

def classify (source : Text) : Verdict := .ofKind (classifyKind source)

/-- A kind is chosen exactly when it is the first whose signals appear, or none appear and it is the plain kind. -/
theorem classifyKind_eq_iff {source : Text} {k : Kind} :
    classifyKind source = k ↔
      Kind.all.find? (·.showsIn source) = some k ∨ k = .vanilla ∧ ∀ j : Kind, j.showsIn source = false := by
  simp only [classifyKind, matchingKinds, List.head?_filter]
  cases h : Kind.all.find? (·.showsIn source) with
  | none =>
    have none_shows : ∀ j : Kind, j.showsIn source = false := fun j => by
      simpa using List.find?_eq_none.1 h j (Kind.mem_all j)
    exact ⟨fun e => .inr ⟨e.symm, none_shows⟩, fun e => e.elim nofun fun e => e.1.symm⟩
  | some j =>
    have shows_j : j.showsIn source = true := by simpa using List.find?_some h
    refine ⟨fun e => .inl (congrArg some e), fun e => e.elim (fun e => Option.some.inj e) fun e => ?_⟩
    exact absurd (e.2 j) (by simp [shows_j])

end SnippetPreview
