import SnippetPreview.Proofs.Document.Finished
import SnippetPreview.Proofs.Document.Seams
import SnippetPreview.Proofs.Markup.Sections
import SnippetPreview.Proofs.Script.Doctypes
import SnippetPreview.Renderer.Registry

/-!
# Document types of rendered snippets

How many document types the documents of each renderer have when the snippet has none.

* `React.doctypes_render`, `Vue.doctypes_renderLoose`, `Alpine.doctypes_render`: one, and those of the texts that
  something has been taken out of;
* `Vue.doctypes_renderSingleFile`, `Angular.doctypes_renderComponent` and others: one, when nothing is taken out;
* `React.doctypes_dropModuleSyntax`, `Vue.doctypes_markupAndCode`, `Vue.doctypes_looseCode`: a text has none after
  something has been taken out of it, unless it was taken out of the middle of one.
-/

namespace SnippetPreview

open Pattern

/-! ### React -/

namespace React

/-- The code of a snippet with its imports as reads from globals. -/
def globalized (source : Text) : Text :=
  Script.globalizeImports ["react"] "React" hooks (Script.globalizeImports ["react-dom"] "ReactDOM" [] source)

theorem doctypes_globalized {source : Text} (h : doctypes source = 0) : doctypes (globalized source) = 0 :=
  Script.doctypes_globalizeImports _ _ (by decide) (Script.doctypes_globalizeImports _ _ (by decide) h)

/-- Module code without exports has no document type, unless a default export was taken out of the middle of one. -/
theorem doctypes_dropModuleSyntax {source : Text} (h : doctypes source = 0)
    (hclear : exportDefault.StandsClear (globalized source)) : doctypes (dropModuleSyntax source) = 0 := by
  have hexport := doctypes_removeAll rfl (doctypes_globalized h) hclear
  -- an exported declaration keeps its indentation and its keyword
  refine doctypes_replaceAll rfl hexport fun m _ x u y hcuts q _ hq => ?_
  have hx : reach 0 x = 0 := reach_eq_zero_of_lineStart hcuts.reads
  obtain rfl : q = 0 := hq.elim id (·.trans hx)
  have hangle : '<' ∉ m.groupText 1 ++ m.groupText 2 := by
    rw [List.mem_append, not_or]
    exact ⟨hcuts.not_mem_groupText rfl 1, hcuts.not_mem_groupText rfl 2⟩
  exact ⟨hits_zero_of_not_mem hangle, .inl (reach_zero_of_not_mem hangle)⟩

theorem not_mem_hookPrelude (code : Text) : '<' ∉ hookPrelude code := by
  have hhooks : ∀ h ∈ hooks.filter fun h => !(declaredNames code).contains h, '<' ∉ h := fun h hh =>
    (by decide : ∀ h ∈ hooks, '<' ∉ h) h (List.mem_filter.1 hh).1
  unfold hookPrelude
  generalize (hooks.filter fun h => !(declaredNames code).contains h) = missing at hhooks
  cases missing with
  | nil => exact List.not_mem_nil
  | cons first rest =>
    dsimp only
    rw [List.mem_append, List.mem_append, not_or, not_or]
    refine ⟨⟨by decide, fun hmem => ?_⟩, by decide⟩
    rcases Text.mem_of_mem_join hmem with hmem | ⟨h, hh, hmem⟩
    · exact absurd hmem (by decide)
    · exact hhooks h hh hmem

set_option maxRecDepth 6000 in
theorem doctypes_mountScript : doctypes mountScript = 0 := doctypes_literal rfl (by decide)

/-- The hooks and the mount bring no document type. -/
theorem doctypes_script (code : Text) : doctypes (script code) = doctypes code := by
  have hprelude : '<' ∉ (if (hookPrelude code).isEmpty then [] else hookPrelude code ++ ['\n', '\n']) := by
    split
    · exact List.not_mem_nil
    · rw [List.mem_append, not_or]
      exact ⟨not_mem_hookPrelude code, by decide⟩
  have hmount : doctypes (code.trim ++ (if mountCall.isMatch code then [] else '\n' :: '\n' :: mountScript))
      = doctypes code := by
    split
    · rw [List.append_nil, doctypes_trim]
    · rw [doctypes_append_cons (by decide), doctypes_cons_of_ne (by decide), doctypes_mountScript, doctypes_trim]
      rfl
  unfold script
  dsimp only
  rw [List.append_assoc, doctypes_append_of_not_mem hprelude]
  exact hmount

/-- A document made of a snippet has the document types of its code, besides its own. -/
theorem doctypes_render {source : Text} (h : isHtmlDocument source = false) :
    doctypes (render source) = 1 + doctypes (dropModuleSyntax source) := by
  have htitle : doctypes "React Preview" = 0 := doctypes_literal rfl (by decide)
  have hbody : doctypes "<div id=\"root\"></div>" = 0 := doctypes_literal rfl (by decide)
  have hscripts : ∀ url ∈ [Kind.reactScript, Kind.reactDomScript] ++ [Kind.babelScript], doctypes url = 0 :=
    Kind.doctypes_scripts .react
  obtain ⟨hruntime, hbabel⟩ := List.forall_mem_append.1 hscripts
  unfold render
  rw [h, if_neg Bool.false_ne_true]
  dsimp only
  cases hasMarkup (dropModuleSyntax source) with
  | true =>
    rw [if_pos rfl, if_pos rfl, Shell.doctypes_bodyScript, Shell.doctypes_withBody rfl, Shell.doctypes_load hbabel,
      Shell.doctypes_load hruntime, Shell.doctypes_titled htitle, hbody]
    exact congrArg _ (doctypes_script _)
  | false =>
    rw [if_neg Bool.false_ne_true, if_neg Bool.false_ne_true, Shell.doctypes_bodyScript, Shell.doctypes_withBody rfl,
      Shell.doctypes_load hruntime, Shell.doctypes_titled htitle, hbody]
    exact congrArg _ (doctypes_script _)

end React

/-! ### Vue -/

namespace Vue

open Script Markup

/-- The code of a snippet with its imports as reads from globals. -/
def globalized (code : Text) : Text := globalizeImports ["vue"] "Vue" provided code

/-- The code of a loose snippet as it stands in the script, but for what is added to it. -/
def looseCode (source : Text) : Text :=
  newVueCall.replaceAll (fun _ => "VueCompat(") (withoutExports (globalized (markupAndCode source).2)).1

theorem doctypes_globalized {code : Text} (h : doctypes code = 0) : doctypes (globalized code) = 0 :=
  doctypes_globalizeImports _ _ (by decide) h

theorem doctypes_declareComponent {code : Text} (h : doctypes code = 0) : doctypes (declareComponent code) = 0 :=
  doctypes_replaceFirst (.literal rfl (by decide)) h

theorem doctypes_paragraph (x t : Text) : doctypes (x ++ paragraph t) = doctypes x + doctypes t := by
  rw [paragraph, doctypes_append_cons (by decide), doctypes_cons_of_ne (by decide)]

/-- Blank code is left out. -/
theorem doctypes_append_codeParagraph (x code : Text) :
    doctypes (x ++ if code.trim.isEmpty then [] else paragraph code.trim) = doctypes x + doctypes code := by
  split
  · next hblank => rw [List.append_nil, ← doctypes_trim code, List.isEmpty_iff.1 hblank, doctypes_nil, Nat.add_zero]
  · rw [doctypes_paragraph, doctypes_trim]

set_option maxRecDepth 3000 in
/-- The options, the component and the mount bring no document type. -/
theorem doctypes_looseScript (source : Text) :
    doctypes (looseScript (markupAndCode source).2) = doctypes (looseCode source) := by
  have hprelude : doctypes prelude = 0 := by decide
  have hoptions : doctypes optionsMount = 0 := doctypes_literal rfl (by decide)
  have hcomponent : doctypes componentMount = 0 := doctypes_literal rfl (by decide)
  have hdefault : doctypes defaultMount = 0 := doctypes_literal rfl (by decide)
  have hmount : doctypes (withoutExports (globalized (markupAndCode source).2)).2 = 0 := by
    unfold withoutExports
    split
    · rw [hcomponent]
    · rw [hdefault]
  unfold looseCode looseScript
  change doctypes (withoutExports (globalizeImports ["vue"] "Vue" provided (markupAndCode source).2)).2 = 0 at hmount
  change _ = doctypes (newVueCall.replaceAll _ (withoutExports (globalizeImports ["vue"] "Vue" provided _)).1)
  generalize withoutExports (globalizeImports ["vue"] "Vue" provided (markupAndCode source).2) = parts at hmount ⊢
  obtain ⟨code, mount⟩ := parts
  dsimp only at hmount ⊢
  generalize newVueCall.replaceAll (fun _ => "VueCompat(") code = script
  have hopt : ∀ b : Bool, doctypes (prelude ++ if b = true then paragraph optionsMount else []) = 0 := by
    intro b
    cases b with
    | true => rw [if_pos rfl, doctypes_paragraph, hprelude, hoptions]
    | false => rw [if_neg Bool.false_ne_true, List.append_nil, hprelude]
  have hlast : ∀ (b : Bool) x, doctypes (x ++ if b = true then [] else paragraph mount) = doctypes x := by
    intro b x
    cases b with
    | true => rw [if_pos rfl, List.append_nil]
    | false => rw [if_neg Bool.false_ne_true, doctypes_paragraph, hmount, Nat.add_zero]
  rw [hlast, doctypes_append_codeParagraph, hopt, Nat.zero_add]

/-- The style of a source without a document type has none. -/
theorem doctypes_styleBody? {source : Text} (h : doctypes source = 0) : doctypes ((styleBody? source).getD []) = 0 := by
  cases hstyle : styleBody? source with
  | none => rfl
  | some css => exact doctypes_eq_zero_of_isInfix (styleBody?_isInfix hstyle) h

theorem doctypes_shell : doctypes shell.finish = 1 := by
  have htitle : doctypes "Vue Preview" = 0 := doctypes_literal rfl (by decide)
  exact (Shell.doctypes_load (Kind.doctypes_scripts .vue)).trans (Shell.doctypes_titled htitle)

/-- The document of loose code has the document types of its markup and its code, besides its own. -/
theorem doctypes_renderLoose {source : Text} (h : doctypes source = 0) : doctypes (renderLoose source)
    = 1 + doctypes (appMarkup (markupAndCode source).1) + doctypes (looseCode source) := by
  have hopen : Insulates "<div id=\"app\">\n  " := .literal rfl (by decide)
  have hclose : Insulates "\n</div>" := .literal rfl (by decide)
  have hscript : doctypes (ScriptElement.inline (looseScript (markupAndCode source).2)).text
      = doctypes (looseCode source) := doctypes_looseScript source
  unfold renderLoose
  dsimp only
  rw [Shell.doctypes_bodyScript, Shell.doctypes_withBody (Shell.body_style shell _), Shell.doctypes_style,
    doctypes_shell, doctypes_styleBody? h, hclose.doctypes_back, hopen.doctypes_front, hscript]

/-! The sections of a single-file component are parts of its source, and nothing is taken out of them. -/

theorem doctypes_component {source : Text} (h : doctypes source = 0) : doctypes (component source) = 0 := by
  have hdefault : doctypes defaultComponent = 0 := doctypes_literal rfl (by decide)
  unfold component
  cases hbody : scriptBody? source with
  | none => exact hdefault
  | some body =>
    have hcode : doctypes (globalized body) = 0 :=
      doctypes_globalized (doctypes_eq_zero_of_isInfix (scriptBody?_isInfix hbody) h)
    change doctypes (globalizeImports ["vue"] "Vue" provided body) = 0 at hcode
    dsimp only
    split
    · exact doctypes_declareComponent hcode
    · have hline : Insulates "\n\n" := by decide
      rw [List.append_assoc, hline.doctypes_append, doctypes_trim, hcode, hdefault]

theorem doctypes_renderSingleFile {source : Text} (h : doctypes source = 0) :
    doctypes (renderSingleFile source) = 1 := by
  have hopen : Insulates "<div id=\"app\">" := .literal rfl (by decide)
  have hclose : Insulates "</div>" := .literal rfl (by decide)
  have hline : Insulates "\n\n" := by decide
  have hprelude : doctypes prelude = 0 := by decide
  have hmount : doctypes componentMount = 0 := doctypes_literal rfl (by decide)
  have hdefault : doctypes defaultTemplate = 0 := doctypes_literal rfl (by decide)
  have htemplate : doctypes ((template? source).getD defaultTemplate) = 0 := by
    cases htemplate : template? source with
    | none => exact hdefault
    | some template => exact doctypes_eq_zero_of_isInfix (template?_isInfix htemplate) h
  have hscript : doctypes (ScriptElement.inline
      (prelude ++ "\n\n" ++ (component source).trim ++ "\n\n" ++ componentMount)).text = 0 := by
    show doctypes (prelude ++ "\n\n".toList ++ (component source).trim ++ "\n\n".toList ++ componentMount) = 0
    rw [List.append_assoc, hline.doctypes_append, List.append_assoc, hline.doctypes_append, doctypes_trim,
      doctypes_component h, hprelude, hmount]
  unfold renderSingleFile
  dsimp only
  rw [Shell.doctypes_bodyScript, Shell.doctypes_withBody (Shell.body_style shell _), Shell.doctypes_style,
    doctypes_shell, doctypes_styleBody? h, hclose.doctypes_back, hopen.doctypes_front, htemplate, hscript]

/-! What is taken out of a loose snippet: its script elements, then its styles, and the words of its default export. -/

/-- The texts that something is taken out of, each with the pattern of what is. -/
def removals (source : Text) : List (Pattern × Text) :=
  (if source.trimStart.head? = some '<' then
    [(scriptBlock, source), (styleBlock, scriptBlock.replaceAll (fun _ => []) source)] else [])
  ++ (if exportedObject.isMatch (globalized (markupAndCode source).2) then []
    else [(exportDefault, globalized (markupAndCode source).2)])

theorem doctypes_appMarkup {markup : Text} (h : doctypes markup = 0) : doctypes (appMarkup markup) = 0 := by
  have hdefault : doctypes defaultMarkup = 0 := doctypes_literal rfl (by decide)
  have htrim : doctypes markup.trim = 0 := (doctypes_trim markup).trans h
  unfold appMarkup
  dsimp only
  split
  · exact hdefault
  · split
    · cases htemplate : template? markup.trim with
      | none => exact htrim
      | some template => exact doctypes_eq_zero_of_isInfix (template?_isInfix htemplate) htrim
    · exact htrim

/-- Markup and code of a source without a document type have none, unless script elements or styles are taken out of the
middle of one. -/
theorem doctypes_markupAndCode {source : Text} (h : doctypes source = 0)
    (hclear : ∀ r ∈ removals source, r.1.StandsClear r.2) :
    doctypes (markupAndCode source).1 = 0 ∧ doctypes (markupAndCode source).2 = 0 := by
  unfold removals at hclear
  unfold markupAndCode
  by_cases htag : source.trimStart.head? = some '<'
  · rw [if_pos htag] at hclear ⊢
    dsimp only
    have hscripts : doctypes (scriptBlock.replaceAll (fun _ => []) source) = 0 :=
      doctypes_removeAll rfl h (hclear (scriptBlock, source) List.mem_cons_self)
    refine ⟨doctypes_removeAll rfl hscripts (hclear _ (List.mem_cons_of_mem _ List.mem_cons_self)), ?_⟩
    have hline : "\n\n".toList = '\n' :: ['\n'] := rfl
    rw [hline, doctypes_join (by decide) (by decide)]
    refine doctypesIn_eq_zero fun body hbody => ?_
    obtain ⟨m, hm, rfl⟩ := List.mem_map.1 (List.mem_filter.1 hbody).1
    rw [doctypes_trim]
    exact doctypes_eq_zero_of_isInfix (scriptBlock.groupText_isInfix hm 1) h
  · rw [if_neg htag]
    exact ⟨rfl, h⟩

theorem doctypes_looseCode {source : Text} (h : doctypes source = 0)
    (hclear : ∀ r ∈ removals source, r.1.StandsClear r.2) : doctypes (looseCode source) = 0 := by
  have hcode : doctypes (globalized (markupAndCode source).2) = 0 :=
    doctypes_globalized (doctypes_markupAndCode h hclear).2
  have hexports : doctypes (withoutExports (globalized (markupAndCode source).2)).1 = 0 := by
    unfold removals at hclear
    unfold withoutExports
    generalize globalized (markupAndCode source).2 = code at hclear hcode
    cases hobject : exportedObject.isMatch code with
    | true => exact doctypes_declareComponent hcode
    | false =>
      rw [hobject, if_neg Bool.false_ne_true] at hclear
      have hexport : exportDefault.StandsClear code :=
        hclear (exportDefault, code) (List.mem_append_right _ List.mem_cons_self)
      exact doctypes_removeAll rfl hcode hexport
  exact doctypes_replaceAll_of_insulates rfl hexports fun _ _ _ _ _ _ => .literal rfl (by decide)

end Vue

/-! ### Alpine -/

/-- The document has the document types of the markup without its runtime, besides its own. -/
theorem Alpine.doctypes_render {source : Text} (h : doctypes source = 0) :
    doctypes (Alpine.render source (Verdict.ofKind .alpine))
      = 1 + doctypes (Alpine.runtimeScript.replaceAll (fun _ => []) source) := by
  have htitle : doctypes "Alpine Preview" = 0 := doctypes_literal rfl (by decide)
  have hruntime : doctypes Kind.alpineScript = 0 := Kind.doctypes_scripts .alpine _ (List.mem_singleton_self _)
  have hshell : (Alpine.addresses (Verdict.ofKind .alpine)).foldl (fun s url => s.headScript (.deferred url))
      (Shell.titled "Alpine Preview") = (Shell.titled "Alpine Preview").headScript (.deferred Kind.alpineScript) := rfl
  unfold Alpine.render
  rw [doctypes_eq_zero_iff.1 h, if_neg Bool.false_ne_true]
  dsimp only
  rw [hshell, Shell.doctypes_withBody rfl, Shell.doctypes_headScript, Shell.doctypes_titled htitle, doctypes_trim]
  rw [ScriptElement.text, hruntime]

/-! ### Plain snippets -/

/-- The document of a plain snippet is the snippet, or has one document type. -/
theorem Plain.doctypes_render {source : Text} (h : doctypes source = 0) :
    doctypes (Plain.render source) ≤ 1 := by
  have htitle : doctypes "Preview" = 0 := doctypes_literal rfl (by decide)
  have hcode : doctypes source.trim = 0 := (doctypes_trim source).trans h
  unfold Plain.render
  split
  · rw [h]
    exact Nat.zero_le 1
  · dsimp only
    split
    · rw [Shell.doctypes_titled htitle]
    · split
      · rw [Shell.doctypes_withBody rfl, Shell.doctypes_titled htitle, hcode]
      · rw [Shell.doctypes_bodyScript, Shell.doctypes_titled htitle]
        show 1 + doctypes source.trim ≤ 1
        rw [hcode]

/-! ### Angular -/

namespace Angular

open Script Markup

theorem doctypes_translateTemplate {template : Text} (h : doctypes template = 0) :
    doctypes (translateTemplate template) = 0 := by
  have hmodel : doctypes (modelBinding.replaceAll (fun _ => "ng-model=") template) = 0 :=
    doctypes_replaceAll_of_insulates rfl h fun _ _ _ _ _ _ => .literal rfl (by decide)
  unfold translateTemplate
  dsimp only
  generalize modelBinding.replaceAll (fun _ => "ng-model=") template = out at hmodel
  have hif : doctypes (conditional.replaceAll (fun _ => "ng-if=") out) = 0 :=
    doctypes_replaceAll_of_insulates rfl hmodel fun _ _ _ _ _ _ => .literal rfl (by decide)
  generalize conditional.replaceAll (fun _ => "ng-if=") out = out at hif
  have hrepeat : doctypes (repetition.replaceAll
      (fun m => "ng-repeat=\"" ++ m.groupText 1 ++ " in " ++ m.groupText 2 ++ "\"") out) = 0 := by
    refine doctypes_replaceAll_of_insulates rfl hif fun m hm _ _ _ _ => ?_
    have hgroup : ∀ i, doctypes (m.groupText i) = 0 := fun i =>
      doctypes_eq_zero_of_isInfix (repetition.groupText_isInfix hm i) hif
    have hopen : Insulates "ng-repeat=\"" := .literal rfl (by decide)
    have hin : Insulates " in " := .literal rfl (by decide)
    have hclose : Insulates "\"" := by decide
    exact (hopen.framed (hgroup 1) hin).framed (hgroup 2) hclose
  generalize repetition.replaceAll
      (fun m => "ng-repeat=\"" ++ m.groupText 1 ++ " in " ++ m.groupText 2 ++ "\"") out = out at hrepeat
  refine doctypes_replaceAll_of_insulates rfl hrepeat fun m hm _ _ _ _ => ?_
  have hopen : Insulates "ng-" := by decide
  have hclose : Insulates "=" := by decide
  refine hopen.framed ?_ hclose
  split
  · decide
  · exact doctypes_eq_zero_of_isInfix (eventBinding.groupText_isInfix hm 1) hrepeat

theorem doctypes_fieldStatement {f : Field} (hname : doctypes f.name = 0) (hvalue : doctypes f.value = 0) :
    doctypes (fieldStatement f) = 0 := by
  have hscope : Insulates "$scope." := .literal rfl (by decide)
  have hassign : Insulates " = " := by decide
  have hend : Insulates ";" := by decide
  unfold fieldStatement
  rw [hend.doctypes_back, List.append_assoc, hassign.doctypes_append, hscope.doctypes_front, hname, hvalue]

theorem doctypes_methodStatement {m : Method} (hname : doctypes m.name = 0) (hbody : doctypes m.body = 0) :
    doctypes (methodStatement m) = 0 := by
  have hscope : Insulates "$scope." := .literal rfl (by decide)
  have hassign : Insulates " = " := by decide
  have hasync : Insulates "async " := by decide
  have hopen : Insulates "function () \x7b" := .literal rfl (by decide)
  have hend : Insulates "\x7d;" := by decide
  have hfront : doctypes ("$scope.".toList ++ m.name ++ " = ".toList) = 0 := by
    rw [hassign.doctypes_back, hscope.doctypes_front, hname]
  unfold methodStatement
  rw [hend.doctypes_back, List.append_assoc, hopen.doctypes_append, hbody]
  split
  · rw [hasync.doctypes_back, hfront]
  · rw [List.append_nil, hfront]

theorem doctypes_scopeStatements {body : Text} (h : doctypes body = 0) :
    ∀ s ∈ scopeStatements body, doctypes s = 0 := by
  have hcall : doctypes "$scope.ngOnInit();" = 0 := doctypes_literal rfl (by decide)
  unfold scopeStatements memberStatements
  simp only [List.mem_append, List.mem_map]
  rintro s ((⟨f, hf, rfl⟩ | ⟨m, hm, rfl⟩) | hs)
  · obtain ⟨hname, hvalue⟩ := doctypes_eq_zero_of_mem_fields h hf
    exact doctypes_fieldStatement hname hvalue
  · obtain ⟨hname, hbody⟩ := doctypes_eq_zero_of_mem_methods h hm
    exact doctypes_methodStatement hname hbody
  · split at hs
    · rw [List.mem_singleton.1 hs, hcall]
    · exact absurd hs List.not_mem_nil

set_option maxRecDepth 3000 in
theorem doctypes_controller {statements : List Text} (h : ∀ s ∈ statements, doctypes s = 0) :
    doctypes (controller statements) = 0 := by
  have hseed : ∀ s ∈ scopeSeed, doctypes s = 0 := by decide
  have hopen : Insulates
      "angular.module('previewApp', []).controller('MainController', ['$scope', function ($scope) \x7b\n" :=
    .literal rfl (by decide)
  have hindent : Insulates "  " := by decide
  have hline : Insulates "\n" := by decide
  have hend : doctypes "\x7d]);" = 0 := by decide
  unfold controller
  rw [List.append_assoc, hopen.doctypes_front]
  refine (hindent.doctypes_flatMap hline id (scopeSeed ++ statements) _).trans ?_
  rw [hend, Nat.add_zero, List.map_id]
  exact doctypesIn_eq_zero (List.forall_mem_append.2 ⟨hseed, h⟩)

theorem doctypes_shell : doctypes ((Shell.titled "Angular Preview").load [Kind.angularScript]).finish = 1 := by
  have htitle : doctypes "Angular Preview" = 0 := doctypes_literal rfl (by decide)
  exact (Shell.doctypes_load (Kind.doctypes_scripts .angular)).trans (Shell.doctypes_titled htitle)

theorem doctypes_controllerShell {template : Text} {statements : List Text} (ht : doctypes template = 0)
    (hs : ∀ s ∈ statements, doctypes s = 0) : doctypes (controllerShell template statements).finish = 1 := by
  have hattributes : doctypes "ng-app=\"previewApp\"" = 0 := doctypes_literal rfl (by decide)
  have hopen : Insulates "<div ng-controller=\"MainController\">\n" := .literal rfl (by decide)
  have hclose : Insulates "\n</div>" := .literal rfl (by decide)
  unfold controllerShell
  rw [Shell.doctypes_bodyScript, Shell.doctypes_withBody rfl, Shell.doctypes_withBodyAttributes rfl hattributes,
    doctypes_shell, hclose.doctypes_back, hopen.doctypes_front, doctypes_trim, ht]
  show 1 + 0 + doctypes (controller statements) = 1
  rw [doctypes_controller hs]

set_option maxRecDepth 3000 in
theorem doctypes_renderComponent {source : Text} (h : doctypes source = 0) : doctypes (renderComponent source) = 1 := by
  have hdefault : doctypes defaultTemplate = 0 := doctypes_literal rfl (by decide)
  have htemplate : doctypes ((decoratorTemplate? source).elim defaultTemplate translateTemplate) = 0 := by
    cases htemplate : decoratorTemplate? source with
    | none => rw [Option.elim_none, hdefault]
    | some template =>
      rw [Option.elim_some]
      exact doctypes_translateTemplate (doctypes_eq_zero_of_isInfix (decoratorTemplate?_isInfix htemplate) h)
  have hstatements : ∀ s ∈ (classBody? source).elim [] scopeStatements, doctypes s = 0 := by
    cases hbody : classBody? source with
    | none => exact List.forall_mem_nil _
    | some body => exact doctypes_scopeStatements (doctypes_eq_zero_of_isInfix (classBody?_isInfix hbody) h)
  unfold renderComponent
  dsimp only
  rw [Shell.doctypes_style, doctypes_controllerShell htemplate hstatements,
    doctypes_eq_zero_of_isInfix (decoratorStyles_isInfix source) h]

theorem doctypes_renderPlain {source : Text} (h : doctypes source = 0) : doctypes (renderPlain source) = 1 := by
  have hcode : doctypes source.trim = 0 := (doctypes_trim source).trans h
  unfold renderPlain
  dsimp only
  split
  · rw [Shell.doctypes_withBody rfl, doctypes_shell, hcode]
  · rw [Shell.doctypes_bodyScript, doctypes_shell]
    show 1 + doctypes source.trim = 1
    rw [hcode]

set_option maxRecDepth 3000 in
theorem doctypes_scaffold : doctypes scaffold = 1 := by
  have htemplate : doctypes scaffoldTemplate = 0 := doctypes_literal rfl (by decide)
  have hmessage : ∀ s ∈ ["$scope.message = 'Hello from AngularJS!';".toList], doctypes s = 0 := by decide
  exact doctypes_controllerShell htemplate hmessage

end Angular

end SnippetPreview
