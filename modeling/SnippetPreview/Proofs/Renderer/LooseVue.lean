import SnippetPreview.Proofs.Pattern.Images
import SnippetPreview.Proofs.Renderer.Components
import SnippetPreview.Proofs.Renderer.Doctypes
import SnippetPreview.Proofs.Script.Globalizing

/-!
# What loose code leaves in its document

* `Vue.loosePage`: the parts of the document of loose code;
* `Vue.infix_styles_iff`, `Vue.scriptsIn_loosePage`: the styles in its head, and the scripts that are read in it;
* `Vue.follow`: what becomes of a part of the code when imports, exports and `new Vue` are rewritten;
* `Vue.render_loose`: every script body is in the script but for what is rewritten, the first style is the only one of the
  source in the head, and no script is loaded but the runtime.
-/

namespace SnippetPreview.Vue

open Pattern Script Markup

/-- The parts of the document of loose code. -/
def loosePage (source : Text) : Shell :=
  ((shell.style ((styleBody? source).getD [])).withBody
    ("<div id=\"app\">\n  " ++ appMarkup (markupAndCode source).1 ++ "\n</div>")).bodyScript
      (.inline (looseScript (markupAndCode source).2))

theorem renderLoose_eq (source : Text) : renderLoose source = (loosePage source).finish := rfl

/-! ### Styles and scripts of the page -/

theorem trim_styleBody? (source : Text) : ((styleBody? source).getD []).trim = (styleBody? source).getD [] := by
  unfold styleBody?
  cases styleElement.find? source with
  | none => rfl
  | some m => exact Text.trim_trim _

theorem styles_loosePage (source : Text) :
    (loosePage source).styles = if ((styleBody? source).getD []).isEmpty then [] else [(styleBody? source).getD []] := by
  unfold loosePage Shell.bodyScript Shell.withBody Shell.style
  dsimp only
  rw [trim_styleBody?]
  split <;> rfl

/-- Of the styles of the source, the head has the first one. -/
theorem infix_styles_iff (source css : Text) : (∃ t ∈ baseStyle :: (loosePage source).styles, css <:+: t) ↔
    css <:+: baseStyle ∨ css <:+: (styleBody? source).getD [] := by
  rw [styles_loosePage]
  constructor
  · rintro ⟨t, ht, hcss⟩
    rcases List.mem_cons.1 ht with hbase | ht
    · rw [hbase] at hcss
      exact .inl hcss
    · split at ht
      · exact absurd ht List.not_mem_nil
      · rw [List.mem_singleton.1 ht] at hcss
        exact .inr hcss
  · rintro (hcss | hcss)
    · exact ⟨baseStyle, List.mem_cons_self, hcss⟩
    · by_cases hempty : ((styleBody? source).getD []).isEmpty = true
      · rw [List.isEmpty_iff.1 hempty] at hcss
        exact ⟨baseStyle, List.mem_cons_self, List.infix_nil.1 hcss ▸ List.nil_infix⟩
      · rw [if_neg hempty]
        exact ⟨_, List.mem_cons_of_mem _ List.mem_cons_self, hcss⟩

theorem bodyScripts_loosePage (source : Text) :
    (loosePage source).bodyScripts = [.inline (looseScript (markupAndCode source).2)] := by
  unfold loosePage Shell.bodyScript Shell.withBody Shell.style
  dsimp only
  split <;> rfl

/-- No script is loaded but the runtime, unless the markup or the style has one. -/
theorem scriptsIn_loosePage {l : Letters} {source : Text} (hbody : Scriptless l (loosePage source).body)
    (hstyles : ∀ css ∈ (loosePage source).styles, Scriptless l css) : scriptsIn l (loosePage source).finish
      = [(ScriptElement.src Kind.vueScript).read, (ScriptElement.inline (looseScript (markupAndCode source).2)).read] := by
  have hhead : (loosePage source).headScripts = [.src Kind.vueScript] := Shell.headScripts_style shell _
  have htitle : (loosePage source).title = "Vue Preview" ∧ (loosePage source).bodyAttributes = [] := by
    unfold loosePage Shell.bodyScript Shell.withBody Shell.style
    dsimp only
    split <;> exact ⟨rfl, rfl⟩
  have htame : (loosePage source).IsTame l := {
    title := by
      rw [htitle.1]
      cases l <;> decide
    headScripts := by
      rw [hhead]
      decide
    styles := hstyles
    bodyAttributes := by
      rw [htitle.2]
      exact scriptless_nil l
    body := hbody
    bodyScripts := by
      rw [bodyScripts_loosePage]
      exact List.forall_mem_singleton.2 trivial }
  have hclose : IsPassed l "</head>\n" := .literal rfl (by decide)
  rw [Shell.finish_eq, List.append_assoc, htame.scriptsIn_headFront, hclose.scriptsIn_append, htame.scriptsIn_tail, hhead,
    bodyScripts_loosePage]
  rfl

/-! ### The code in the script -/

/-- What becomes of a part of the code when imports are rewritten. -/
def followImports (s : Marked) : Marked :=
  let s := s.replaceHits namedImport (fun m => isWithin ["vue"] (m.groupText 2)) (namedImage ["vue"] "Vue" provided)
  s.replaceHits anyImport (fun m => isWithin ["vue"] (m.groupText 1)) (otherImage ["vue"])

/-- What becomes of a part of the code when exports are rewritten. -/
def followExports (s : Marked) : Marked :=
  if exportedObject.isMatch s.whole then s.replaceFirst exportedObject "const AppComponent = \x7b"
  else s.replaceHits exportDefault (fun _ => true) (fun _ => [])

/-- What becomes of a part of the code in the script. -/
def follow (s : Marked) : Marked :=
  (followExports (followImports s)).replaceHits newVueCall (fun _ => true) (fun _ => "VueCompat(")

theorem whole_followImports (s : Marked) : (followImports s).whole = globalized s.whole := by
  have hnamed : (s.replaceHits namedImport (fun m => isWithin ["vue"] (m.groupText 2))
      (namedImage ["vue"] "Vue" provided)).whole = namedImport.replaceAll (namedImage ["vue"] "Vue" provided) s.whole :=
    Marked.whole_replaceHits rfl fun _ _ hhit => if_neg (Bool.eq_false_iff.1 hhit)
  unfold followImports
  dsimp only
  rw [Marked.whole_replaceHits rfl, hnamed]
  · rfl
  · exact fun _ _ hhit => if_neg (Bool.eq_false_iff.1 hhit)

theorem whole_followExports (s : Marked) : (followExports s).whole = (withoutExports s.whole).1 := by
  unfold followExports withoutExports
  split
  · exact Marked.whole_replaceFirst rfl _ s
  · exact Marked.whole_replaceHits rfl fun _ _ hhit => absurd hhit.symm Bool.false_ne_true

theorem whole_follow {source : Text} {s : Marked} (h : s.whole = (markupAndCode source).2) :
    (follow s).whole = looseCode source := by
  unfold follow looseCode
  rw [Marked.whole_replaceHits rfl, whole_followExports, whole_followImports, h]
  exact fun _ _ hhit => absurd hhit.symm Bool.false_ne_true

/-- The rewritten code is a paragraph of the script. -/
theorem trim_looseCode_isInfix (source : Text) : (looseCode source).trim <:+: looseScript (markupAndCode source).2 := by
  unfold looseCode looseScript
  change Text.trim (newVueCall.replaceAll _ (withoutExports (globalizeImports ["vue"] "Vue" provided _)).1) <:+: _
  generalize withoutExports (globalizeImports ["vue"] "Vue" provided (markupAndCode source).2) = parts
  obtain ⟨code, mount⟩ := parts
  dsimp only
  generalize newVueCall.replaceAll (fun _ => "VueCompat(") code = script
  refine List.infix_append_of_infix_left (List.infix_append_of_infix_right ?_)
  split
  · next hempty =>
    rw [List.isEmpty_iff.1 hempty]
  · exact (List.suffix_append ['\n', '\n'] script.trim).isInfix

/-- A body of a script is a part of the code. -/
theorem infix_code {source : Text} (htag : source.trimStart.head? = some '<') {m : Match}
    (hm : m ∈ scriptBlock.finds source) (hne : (m.groupText 1).trim ≠ []) :
    (m.groupText 1).trim <:+: (markupAndCode source).2 := by
  have hkept : (!(m.groupText 1).trim.isEmpty) = true := by
    rwa [Bool.not_eq_true', List.isEmpty_eq_false_iff]
  have hmem := List.mem_map_of_mem (f := fun m : Match => (m.groupText 1).trim) hm
  unfold markupAndCode
  rw [if_pos htag]
  exact Text.infix_join (List.mem_filter.2 ⟨hmem, hkept⟩) _

/-- A part of the code is in the script, but for what is rewritten. -/
theorem exists_follow {source b : Text} (h : b <:+: (markupAndCode source).2) : ∃ s : Marked,
    s.whole = (markupAndCode source).2 ∧ s.part = b ∧ (follow s).part.trim <:+: looseScript (markupAndCode source).2 := by
  obtain ⟨x, y, hcode⟩ := h
  have hwhole : (⟨x, b, y⟩ : Marked).whole = (markupAndCode source).2 := by
    rw [← hcode]
    exact (List.append_assoc ..).symm
  have hpart : (follow ⟨x, b, y⟩).part <:+: looseCode source := by
    rw [← whole_follow hwhole]
    exact ⟨_, _, List.append_assoc ..⟩
  exact ⟨⟨x, b, y⟩, hwhole, rfl, (Text.trim_isInfix_trim hpart).trans (trim_looseCode_isInfix source)⟩

/-! ### The document -/

/-- **What loose markup leaves in its document.** The body of every script is in the script of the document, but for the
imports, exports and calls that are rewritten in it. Of the styles only the first one gets into the head, wherever it stands
in the source, and of the scripts that the source loads none is left. -/
theorem render_loose {source : Text} {v : Verdict} (hv : v.kind = .vue) (htag : source.trimStart.head? = some '<')
    (hdocument : isHtmlDocument source = false) (hfile : isSingleFile source = false) :
    SnippetPreview.render source v = (loosePage source).finish
      ∧ (∀ css, (∃ t ∈ baseStyle :: (loosePage source).styles, css <:+: t) ↔
        css <:+: baseStyle ∨ css <:+: (styleBody? source).getD [])
      ∧ (loosePage source).bodyScripts = [.inline (looseScript (markupAndCode source).2)]
      ∧ (∀ m ∈ scriptBlock.finds source, (m.groupText 1).trim ≠ [] →
        (∃ s : Marked, s.whole = (markupAndCode source).2 ∧ s.part = (m.groupText 1).trim
          ∧ (follow s).part.trim <:+: looseScript (markupAndCode source).2)
        ∧ (looseCode source = (markupAndCode source).2 →
          (m.groupText 1).trim <:+: looseScript (markupAndCode source).2))
      ∧ ∀ l, Scriptless l (loosePage source).body → (∀ css ∈ (loosePage source).styles, Scriptless l css) →
        scriptsIn l (SnippetPreview.render source v)
          = [(ScriptElement.src Kind.vueScript).read,
            (ScriptElement.inline (looseScript (markupAndCode source).2)).read] := by
  have hrender : SnippetPreview.render source v = (loosePage source).finish := by
    refine render_vue hv ?_
    rw [render, hdocument, hfile, if_neg Bool.false_ne_true, if_neg Bool.false_ne_true, renderLoose_eq]
  refine ⟨hrender, infix_styles_iff source, bodyScripts_loosePage source, ?_, ?_⟩
  · intro m hm hne
    have hpart := infix_code htag hm hne
    refine ⟨exists_follow hpart, fun hsame => ?_⟩
    -- nothing is rewritten, so the body is in the code as it stands in the script
    rw [← hsame] at hpart
    have htrim := (Text.trim_isInfix_trim hpart).trans (trim_looseCode_isInfix source)
    rwa [Text.trim_trim] at htrim
  · intro l hbody hstyles
    rw [hrender]
    exact scriptsIn_loosePage hbody hstyles

set_option maxRecDepth 3000 in
/-- The base style has no selector of children. -/
theorem not_mem_baseStyle : '>' ∉ baseStyle := Text.of_literal (P := fun t => '>' ∉ t) rfl (by decide +kernel)

/-- Two styles, and a script that is loaded. -/
theorem render_loose_loading :
    let source : Text := "<style>a\x7b\x7d</style><style>a>b\x7b\x7d</style><p></p><script src=\"https://x/y.js\"></script>"
    let document := SnippetPreview.render source (Verdict.ofKind .vue)
    source.trimStart.head? = some '<' ∧ isHtmlDocument source = false ∧ isSingleFile source = false
      ∧ document = (loosePage source).finish ∧ (loosePage source).styles = ["a\x7b\x7d"]
      ∧ (¬ ∃ t ∈ baseStyle :: (loosePage source).styles, "a>b\x7b\x7d".toList <:+: t)
      ∧ ⟨" src=\"https://x/y.js\"", []⟩ ∈ scriptsIn .ascii source
      ∧ (scriptsIn .ascii document).map ScriptRead.attributes = [(ScriptElement.src Kind.vueScript).attributes, []] := by
  intro source document
  have htag : source.trimStart.head? = some '<' := by decide +kernel
  have hdocument : isHtmlDocument source = false := by decide +kernel
  have hfile : isSingleFile source = false := by decide +kernel
  have hfirst : (styleBody? source).getD [] = "a\x7b\x7d" := by decide +kernel
  have hlost : ¬ ("a>b\x7b\x7d".toList <:+: baseStyle ∨ "a>b\x7b\x7d".toList <:+: "a\x7b\x7d".toList) := by
    rintro (h | h)
    · exact not_mem_baseStyle (h.subset (by decide))
    · exact absurd (h.subset (show '>' ∈ "a>b\x7b\x7d".toList by decide)) (by decide)
  have hbody : Scriptless .ascii (loosePage source).body := by decide +kernel
  have hstyle : (loosePage source).styles = ["a\x7b\x7d"] := by
    rw [styles_loosePage, hfirst]
    rfl
  have hstyles : ∀ css ∈ (loosePage source).styles, Scriptless .ascii css := by
    rw [hstyle]
    decide +kernel
  obtain ⟨hrender, hhead, -, -, hscripts⟩ := render_loose (v := Verdict.ofKind .vue) rfl htag hdocument hfile
  have hloads : ⟨" src=\"https://x/y.js\"", []⟩ ∈ scriptsIn .ascii source := by decide +kernel
  refine ⟨htag, hdocument, hfile, hrender, hstyle, ?_, hloads, ?_⟩
  · rw [hhead, hfirst]
    exact hlost
  · rw [hscripts .ascii hbody hstyles]
    rfl

end SnippetPreview.Vue
