import Mathlib.Data.List.Nodup
import SnippetPreview.Proofs.Renderer.Doctypes
import SnippetPreview.Proofs.Script.GlobalNames

/-!
# Names in the script of a Vue snippet

* `Vue.script`, `Vue.render_eq_script`: the only script in the body of the document of a snippet;
* `Vue.code`, `Vue.rewritten`: the snippet's own code, and what has become of it in the script;
* `Vue.boundNames_script`: the script binds the provided names, whatever the code binds, and what the rewritten code binds;
* `Vue.standsApart`, `Vue.globalReads_rewritten`: where nothing that is rewritten touches a declaration, the rewritten
  code binds what the code imports and what it binds itself;
* `Vue.script_binds`: so a name is bound twice exactly when two of these three bind it.
-/

namespace SnippetPreview.Vue

open Pattern Script Markup

/-! ### The script -/

/-- The snippet's own code. -/
def code (source : Text) : Text :=
  if isSingleFile source then (scriptBody? source).getD [] else (markupAndCode source).2

/-- The script in the body of the document. -/
def script (source : Text) : Text :=
  if isSingleFile source then prelude ++ "\n\n" ++ (component source).trim ++ "\n\n" ++ componentMount
  else looseScript (markupAndCode source).2

theorem bodyScripts_style (s : Shell) (css : Text) : (s.style css).bodyScripts = s.bodyScripts := by
  rw [Shell.style]
  split <;> rfl

/-- A snippet that is no document has all its code in one script. -/
theorem render_eq_script {source : Text} (h : isHtmlDocument source = false) :
    ∃ s : Shell, s.bodyScripts = [] ∧ render source = (s.bodyScript (.inline (script source))).finish := by
  rw [render, h, if_neg Bool.false_ne_true, script]
  split
  · exact ⟨_, bodyScripts_style _ _, rfl⟩
  · exact ⟨_, bodyScripts_style _ _, rfl⟩

/-- The code as it stands in the script. -/
def rewritten (source : Text) : Text :=
  if isSingleFile source then declareComponent (globalized (code source)) else looseCode source

/-! ### What the script reads -/

theorem isGlobal_vue : IsGlobal "Vue" := ⟨by decide, by decide⟩

/-- All names that a script reads from `Vue`, as it calls them. -/
def boundNames (t : Text) : List Text := (globalReads "Vue" t).map NameRead.bound

theorem globalReads_prelude : globalReads "Vue" prelude = provided.map fun n => ⟨n, n⟩ := by decide +kernel

theorem isSettled_prelude : isSettled prelude = true := by decide +kernel

theorem globalReads_prelude_append (t : Text) :
    globalReads "Vue" (prelude ++ t) = globalReads "Vue" prelude ++ globalReads "Vue" t :=
  globalReads_append_of_isSettled isGlobal_vue isSettled_prelude t

/-- Nothing can go on in the part of a script that is added behind the code, and it reads nothing. -/
structure Closes (t : Text) : Prop where
  ends : Ends "Vue" t
  head : t.head?.any isWord = false
  silent : globalReads "Vue" t = []

theorem Closes.globalReads_append {t : Text} (h : Closes t) (x : Text) :
    globalReads "Vue" (x ++ t) = globalReads "Vue" x := by
  rw [globalReads_append_of_ends isGlobal_vue h.ends h.head, h.silent, List.append_nil]

theorem closes_nil : Closes [] := ⟨ends_of_blank isGlobal_vue rfl, rfl, rfl⟩

theorem Closes.literal {s : String} {t : Text} (hs : s = String.ofList t)
    (h : Ends "Vue" (paragraph t) ∧ globalReads "Vue" (paragraph t) = []) : Closes (paragraph s) :=
  Text.of_literal (P := fun t => Closes (paragraph t)) hs ⟨h.1, (by decide : isWord '\n' = false), h.2⟩

theorem closes_componentMount : Closes (paragraph componentMount) :=
  .literal rfl ⟨⟨by decide +kernel, by decide +kernel, by decide +kernel, by decide +kernel⟩, by decide +kernel⟩

set_option maxRecDepth 2000 in
theorem closes_defaultMount : Closes (paragraph defaultMount) :=
  .literal rfl ⟨⟨by decide +kernel, by decide +kernel, by decide +kernel, by decide +kernel⟩, by decide +kernel⟩

theorem closes_defaultComponent : Closes (paragraph defaultComponent) :=
  .literal rfl ⟨⟨by decide +kernel, by decide +kernel, by decide +kernel, by decide +kernel⟩, by decide +kernel⟩

set_option maxRecDepth 3000 in
theorem isSilent_optionsMount : isSilent "Vue" (paragraph optionsMount) = true :=
  Text.of_literal (P := fun t => isSilent "Vue" (paragraph t) = true) rfl (by decide +kernel)

theorem globalReads_paragraph (t : Text) : globalReads "Vue" (paragraph t) = globalReads "Vue" t :=
  globalReads_blank_append (a := ['\n', '\n']) (by decide) t

theorem declareComponent_eq_self {t : Text} (h : exportedObject.isMatch t = false) : declareComponent t = t := by
  have hnone : exportedObject.find? t = none := Option.not_isSome_iff_eq_none.1 (Bool.eq_false_iff.1 h)
  rw [declareComponent, replaceFirst, hnone]
  rfl

theorem globalReads_component {source : Text} (h : isSingleFile source = true) :
    globalReads "Vue" (component source) = globalReads "Vue" (declareComponent (globalized (code source))) := by
  rw [component, globalized, code, if_pos h]
  cases hbody : scriptBody? source with
  | none =>
    have hnone : declareComponent (globalizeImports ["vue"] "Vue" provided []) = [] := by decide +kernel
    have hdefault : globalReads "Vue" (paragraph defaultComponent) = [] := closes_defaultComponent.silent
    rw [globalReads_paragraph] at hdefault
    rw [Option.getD_none, hnone]
    exact hdefault
  | some body =>
    rw [Option.getD_some]
    dsimp only
    split
    · rfl
    · next hexport =>
      have hparts (t : Text) : t ++ "\n\n" ++ defaultComponent = t ++ paragraph defaultComponent := by simp [paragraph]
      rw [declareComponent_eq_self (eq_false_of_ne_true hexport), hparts, closes_defaultComponent.globalReads_append,
        globalReads_trim isGlobal_vue]

theorem closes_mount (t : Text) : Closes (paragraph (withoutExports t).2) := by
  unfold withoutExports
  split <;> dsimp only
  · exact closes_componentMount
  · exact closes_defaultMount

/-- The script reads the provided names and what the rewritten code reads. -/
theorem globalReads_script (source : Text) :
    globalReads "Vue" (script source) = (provided.map fun n => ⟨n, n⟩) ++ globalReads "Vue" (rewritten source) := by
  rw [script, rewritten, ← globalReads_prelude]
  split
  · next h =>
    have hparts : prelude ++ "\n\n" ++ (component source).trim ++ "\n\n" ++ componentMount
        = prelude ++ (paragraph (component source).trim ++ paragraph componentMount) := by
      simp [paragraph]
    rw [hparts, globalReads_prelude_append, closes_componentMount.globalReads_append, globalReads_paragraph,
      globalReads_trim isGlobal_vue, globalReads_component h]
  · next h =>
    have hcode : code source = (markupAndCode source).2 := by rw [code, if_neg h]
    rw [looseScript, looseCode, ← hcode, ← globalized]
    dsimp only
    generalize newVueCall.replaceAll (fun _ => "VueCompat(") (withoutExports (globalized (code source))).1 = exported
    have hoptions (b : Bool) (t : Text) :
        globalReads "Vue" ((if b then paragraph optionsMount else []) ++ t) = globalReads "Vue" t := by
      cases b
      · rfl
      · exact globalReads_append_of_isSilent isGlobal_vue isSilent_optionsMount t
    have hexported :
        globalReads "Vue" (if exported.trim.isEmpty then [] else paragraph exported.trim) = globalReads "Vue" exported := by
      rw [← globalReads_trim isGlobal_vue exported]
      split
      · next hempty => rw [List.isEmpty_iff.1 hempty]
      · exact globalReads_paragraph _
    have hmount (b : Bool) : Closes (if b then [] else paragraph (withoutExports (globalized (code source))).2) := by
      cases b
      · exact closes_mount _
      · exact closes_nil
    rw [List.append_assoc, List.append_assoc, globalReads_prelude_append, hoptions, (hmount _).globalReads_append,
      hexported]

/-- The script binds the provided names, whatever the code binds, and what the rewritten code binds. -/
theorem boundNames_script (source : Text) : boundNames (script source) = provided ++ boundNames (rewritten source) := by
  rw [boundNames, globalReads_script, List.map_append, List.map_map]
  rfl

/-! ### What the rewritten code reads -/

/-- What the code imports from `Vue`. -/
def imported (source : Text) : List NameRead := importedReads ["vue"] provided (code source)

/-- Imports, exports and calls of the old constructor that are rewritten stand apart. -/
def standsApart (source : Text) : Bool :=
  let globalized := Vue.globalized (code source)
  importsStandApart ["vue"] "Vue" provided (code source)
    && (if isSingleFile source || exportedObject.isMatch globalized then
        (exportedObject.find? globalized).all (Script.standsApart "Vue" globalized)
      else (exportDefault.finds globalized).all (Script.standsApart "Vue" globalized))
    && (isSingleFile source || (newVueCall.finds (withoutExports globalized).1).all
      (Script.standsApart "Vue" (withoutExports globalized).1))

theorem globalReads_declareComponent {t : Text}
    (h : (exportedObject.find? t).all (Script.standsApart "Vue" t) = true) :
    globalReads "Vue" (declareComponent t) = globalReads "Vue" t := by
  refine globalReads_replaceFirst isGlobal_vue (by decide +kernel) fun m hm => ?_
  rwa [hm, Option.all_some] at h

/-- Where matches that stand apart give way to a silent text, nothing else is read. -/
theorem perm_globalReads_replaceAll {p : Pattern} (hp : p.consumes = true) {new t : Text}
    (hnew : isSilent "Vue" new = true) (h : (p.finds t).all (Script.standsApart "Vue" t) = true) :
    (globalReads "Vue" (p.replaceAll (fun _ => new) t)).Perm (globalReads "Vue" t) := by
  have hperm := globalReads_replaceAll isGlobal_vue hp (f := fun _ => new) (t := t) (fun _ => []) fun m hm =>
    .inr ⟨List.all_eq_true.1 h m hm, globalReads_append_of_isSilent isGlobal_vue hnew⟩
  have hnothing (ms : List Match) : ms.flatMap (fun _ => ([] : List NameRead)) = [] := by simp
  rwa [hnothing, List.nil_append] at hperm

/-- Where nothing that is rewritten touches a declaration, the rewritten code reads what it imports and what it reads
itself. -/
theorem globalReads_rewritten {source : Text} (h : standsApart source = true) :
    (globalReads "Vue" (rewritten source)).Perm (imported source ++ globalReads "Vue" (code source)) := by
  rw [standsApart, Bool.and_eq_true, Bool.and_eq_true] at h
  obtain ⟨⟨himports, hexports⟩, hcalls⟩ := h
  have hglobalized : (globalReads "Vue" (globalized (code source))).Perm (imported source ++ globalReads "Vue" (code source)) :=
    globalReads_globalizeImports isGlobal_vue himports
  refine List.Perm.trans ?_ hglobalized
  unfold rewritten
  split
  · next hsingle =>
    rw [hsingle, Bool.true_or, if_pos rfl] at hexports
    rw [globalReads_declareComponent hexports]
  · next hsingle =>
    have hsingle := eq_false_of_ne_true hsingle
    rw [hsingle, Bool.false_or] at hexports hcalls
    have hcode : code source = (markupAndCode source).2 := by rw [code, hsingle, if_neg Bool.false_ne_true]
    rw [looseCode, ← hcode]
    refine (perm_globalReads_replaceAll rfl (by decide +kernel) hcalls).trans ?_
    unfold withoutExports
    split
    · next hmatch =>
      rw [if_pos hmatch] at hexports
      rw [globalReads_declareComponent hexports]
    · next hmatch =>
      rw [if_neg hmatch] at hexports
      have hnothing : isSilent "Vue" [] = true := by decide +kernel
      have hkept := perm_globalReads_replaceAll (p := exportDefault) rfl hnothing hexports
      dsimp only
      exact hkept

/-- **What a script binds.** All code of a snippet that is no document is in one script. It binds the provided names and
what the rewritten code binds. Where nothing that is rewritten touches a declaration, that is what the code imports and what
it binds itself. So if the code itself binds no name twice, the script binds none twice exactly when no name is imported
twice, and none that is imported or bound by the code is provided, or both imported and bound. -/
theorem script_binds {source : Text} (h : isHtmlDocument source = false) :
    (∃ s : Shell, s.bodyScripts = [] ∧ render source = (s.bodyScript (.inline (script source))).finish)
      ∧ boundNames (script source) = provided ++ boundNames (rewritten source)
      ∧ (standsApart source = true →
        let own := boundNames (code source)
        let imports := (imported source).map NameRead.bound
        (boundNames (script source)).Perm (provided ++ (imports ++ own))
          ∧ (own.Nodup → ((boundNames (script source)).Nodup ↔
            imports.Nodup ∧ provided.Disjoint imports ∧ provided.Disjoint own ∧ imports.Disjoint own))) := by
  refine ⟨render_eq_script h, boundNames_script source, ?_⟩
  intro hapart own imports
  have hrewritten : (boundNames (rewritten source)).Perm (imports ++ own) := by
    have hperm := (globalReads_rewritten hapart).map NameRead.bound
    rwa [List.map_append] at hperm
  have hscript : (boundNames (script source)).Perm (provided ++ (imports ++ own)) := by
    rw [boundNames_script]
    exact hrewritten.append_left provided
  have hprovided : provided.Nodup := by decide
  refine ⟨hscript, fun hown => ?_⟩
  rw [hscript.nodup_iff, List.nodup_append', List.nodup_append', List.disjoint_append_right]
  tauto

/-- Code that reads a provided name itself. -/
def ownRead : Text := "const \x7b ref \x7d = Vue;\nconst count = ref(0);"

/-- The name is bound twice. -/
theorem script_binds_ownRead :
    isHtmlDocument ownRead = false ∧ standsApart ownRead = true ∧ (boundNames (code ownRead)).Nodup
      ∧ ¬ (boundNames (script ownRead)).Nodup := by
  have hdoc : isHtmlDocument ownRead = false := by decide +kernel
  have hapart : standsApart ownRead = true := by decide +kernel
  have hown : boundNames (code ownRead) = [("ref" : Text)] := by decide +kernel
  have hnodup : (boundNames (code ownRead)).Nodup := by rw [hown]; decide
  refine ⟨hdoc, hapart, hnodup, fun h => ?_⟩
  obtain ⟨-, -, hprovided, -⟩ := (((script_binds hdoc).2.2 hapart).2 hnodup).1 h
  rw [hown] at hprovided
  exact hprovided (by decide : ("ref" : Text) ∈ provided) (List.mem_singleton_self _)

end SnippetPreview.Vue
