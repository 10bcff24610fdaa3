import SnippetPreview.Proofs.Document.Completion
import SnippetPreview.Proofs.Document.Scripts
import SnippetPreview.Proofs.Markup.Elements
import SnippetPreview.Proofs.Text.Separators
import SnippetPreview.Renderer.Registry

/-!
# Single-file components

* `sections`: a template, a script and a style, each in its element;
* `template?_sections`, `scriptBody?_sections`, `styleBody?_sections`: each section is found for what it is;
* `Vue.render_sections`: so the template is the markup of the app, and the style is in the head.
-/

namespace SnippetPreview

open Pattern Markup

/-- A source with these sections, each on a line of its own. -/
def sections (t s c : Text) : Text :=
  element "template" t ++ '\n' :: (element "script" s ++ '\n' :: element "style" c)

variable {t s c : Text}

/-! ### Finding the sections -/

/-- The template is found, whatever tags of templates there are in it. -/
theorem template?_sections (hs : Lacks "</template>" s) (hc : Lacks "</template>" c) :
    template? (sections t s c) = some t.trim := by
  have hscript : Lacks "</template>" (element "script" s) := hs.element (by decide) (by decide) (by decide)
  have hstyle : Lacks "</template>" (element "style" c) := hc.element (by decide) (by decide) (by decide)
  have hrest : Lacks "</template>" ("/template>" ++ '\n' :: (element "script" s ++ '\n' :: element "style" c)) :=
    Lacks.line (by decide) (by decide) (hscript.line (by decide) hstyle)
  obtain ⟨r, hfirst, hstop, hgroup⟩ := first_templateElement (k := .start (sections t s c)) rfl hrest
  obtain ⟨ms, hms⟩ := finds_of_first (t := sections t s c) (x := []) rfl
    (fun _ _ hvw hw => absurd (List.append_eq_nil_iff.1 hvw.symm).2 hw) hfirst (List.cons_ne_nil _ _) hstop
  rw [template?, find?, hms, List.head?_cons, Option.map_some]
  exact congrArg (fun t => some (Text.trim t)) hgroup

/-- The script is found behind a template that has none. -/
theorem scriptBody?_sections (ht : Lacks "<script" t) (hs : Lacks "</script>" s) :
    scriptBody? (sections t s c) = some s.trim := by
  have htemplate : Lacks "<script" (element "template" t) := ht.element (by decide) (by decide) (by decide)
  have hfront : Lacks "<script" (element "template" t ++ ['\n']) :=
    htemplate.line (by decide) (lacks_nil (List.cons_ne_nil _ _))
  have hsource : sections t s c = (element "template" t ++ ['\n']) ++ (element "script" s ++ '\n' :: element "style" c) :=
    List.append_cons ..
  obtain ⟨r, hfirst, hstop, hsrc, hgroup⟩ := first_scriptElement
    (k := (Cursor.start (sections t s c)).behind (element "template" t ++ ['\n'])
      (element "script" s ++ '\n' :: element "style" c)) rfl hs
  obtain ⟨ms, hms⟩ := finds_of_first (p := scriptElement) hsource (hfront.silent (by decide) (by decide) _ _) hfirst
    (List.cons_ne_nil _ _) hstop
  rw [scriptBody?, hms, List.find?_cons_of_pos (by rw [hsrc]; decide), Option.map_some]
  exact congrArg (fun t => some (Text.trim t)) hgroup

/-- The style is found behind a template and a script that have none. -/
theorem styleBody?_sections (ht : Lacks "<style" t) (hs : Lacks "<style" s) (hc : Lacks "</style>" c) :
    styleBody? (sections t s c) = some c.trim := by
  have htemplate : Lacks "<style" (element "template" t) := ht.element (by decide) (by decide) (by decide)
  have hscript : Lacks "<style" (element "script" s) := hs.element (by decide) (by decide) (by decide)
  have hfront : Lacks "<style" (element "template" t ++ '\n' :: (element "script" s ++ ['\n'])) :=
    htemplate.line (by decide) (hscript.line (by decide) (lacks_nil (List.cons_ne_nil _ _)))
  have hsource : sections t s c
      = (element "template" t ++ '\n' :: (element "script" s ++ ['\n'])) ++ (element "style" c ++ []) := by
    simp only [sections, List.append_assoc, List.cons_append, List.nil_append, List.append_nil]
  obtain ⟨r, hfirst, hstop, hgroup⟩ := first_styleElement
    (k := (Cursor.start (sections t s c)).behind (element "template" t ++ '\n' :: (element "script" s ++ ['\n']))
      (element "style" c ++ [])) rfl hc
  obtain ⟨ms, hms⟩ := finds_of_first (p := styleElement) hsource (hfront.silent (by decide) (by decide) _ _) hfirst
    (List.cons_ne_nil _ _) hstop
  rw [styleBody?, find?, hms, List.head?_cons, Option.map_some]
  exact congrArg (fun t => some (Text.trim t)) hgroup

/-! ### The document -/

theorem isSingleFile_sections (t s c : Text) : Vue.isSingleFile (sections t s c) = true := by
  rw [Vue.isSingleFile, Bool.and_eq_true]
  constructor
  · exact Text.contains_iff.2 ⟨[], ">".toList ++ t ++ "</template>".toList
      ++ '\n' :: (element "script" s ++ '\n' :: element "style" c), rfl⟩
  · refine isMatch_iff.2 ⟨element "template" t ++ ['\n'], "<script".toList ++ ([] ++ (">".toList ++ [])),
      s ++ "</script>".toList ++ '\n' :: element "style" c, ?_, ?_⟩
    · rw [sections, element, element]
      simp only [List.append_assoc, List.cons_append, List.nil_append]
      rfl
    · exact .seq (reads_anyCase_iff.2 rfl) (.seq (.altRight _ (.empty _ _)) (reads_last_iff.2 (reads_text_iff.2 rfl)))

/-- A style in the head, if it is not blank. -/
def Shell.headStyle (css : Text) : Text := if css.trim.isEmpty then [] else styleLines css.trim

/-- A style is the last part of a head. -/
theorem Shell.headFront_style (s : Shell) (css : Text) : (s.style css).headFront = s.headFront ++ headStyle css := by
  unfold Shell.style headStyle
  split
  · rw [List.append_nil]
  · have hlines : (s.styles ++ [css.trim]).flatMap styleLines = s.styles.flatMap styleLines ++ styleLines css.trim := by
      rw [List.flatMap_append, List.flatMap_singleton]
    unfold headFront
    rw [hlines, ← List.append_assoc]

namespace Vue

/-- The document of this style, this markup and this script. -/
theorem finish_shell (css : Text) {markup : Text} (hmarkup : markup ≠ []) (e : ScriptElement) :
    (((shell.style css).withBody markup).bodyScript e).finish
      = shell.headFront ++ Shell.headStyle css ++ "</head>\n".toList
        ++ ("<body>" ++ "\n" ++ ("  " ++ markup ++ "\n") ++ Shell.scriptLines e ++ "</body>\n</html>\n") := by
  have hstyle : (shell.style css).bodyAttributes = [] ∧ (shell.style css).bodyScripts = [] := by
    rw [Shell.style]
    split <;> exact ⟨rfl, rfl⟩
  have htail : (((shell.style css).withBody markup).bodyScript e).tail
      = "<body>" ++ "\n" ++ ("  " ++ markup ++ "\n") ++ Shell.scriptLines e ++ "</body>\n</html>\n" := by
    have hopen : ([] : Text).isEmpty = true := rfl
    have hbody : ¬ markup.isEmpty = true := by rwa [List.isEmpty_iff]
    unfold Shell.tail Shell.bodyTag Shell.bodyLines Shell.bodyScript Shell.withBody
    dsimp only
    rw [hstyle.1, hstyle.2, if_pos hopen, if_neg hbody, List.nil_append, List.flatMap_singleton]
  rw [Shell.finish_eq, htail, ← Shell.headFront_style]
  rfl

end Vue

/-- A renderer's finished document needs no other document type. -/
theorem render_vue {source : Text} {v : Verdict} (hv : v.kind = .vue) {s : Shell} (h : Vue.render source = s.finish) :
    render source v = s.finish := by
  have hrender : render source v = ensureDoctype (Vue.render source) := by
    unfold render Registry.render Registry.rendererFor
    rw [hv]
    rfl
  rw [hrender, h, ensureDoctype_eq_self (hasDoctype_of_isPrefix s.frontDoctype_prefix_finish)]

namespace Vue

/-- Every section of a component is found, and where it is not a complete document, the template is the markup of the
app, and the style is in the head. -/
theorem render_sections {t s c : Text} (ht : Lacks "<script" t ∧ Lacks "<style" t)
    (hs : Lacks "</script>" s ∧ Lacks "<style" s ∧ Lacks "</template>" s)
    (hc : Lacks "</style>" c ∧ Lacks "</template>" c) :
    template? (sections t s c) = some t.trim ∧ scriptBody? (sections t s c) = some s.trim
      ∧ styleBody? (sections t s c) = some c.trim
      ∧ (isHtmlDocument (sections t s c) = false → ∀ v : Verdict, v.kind = .vue → ∃ rest,
        SnippetPreview.render (sections t s c) v = shell.headFront ++ Shell.headStyle c ++ "</head>\n".toList
          ++ ("<body>\n  <div id=\"app\">" ++ t.trim ++ "</div>" ++ rest)) := by
  have htemplate := template?_sections (t := t) hs.2.2 hc.2
  have hstyle := styleBody?_sections ht.2 hs.2.1 hc.1
  refine ⟨htemplate, scriptBody?_sections ht.1 hs.1, hstyle, ?_⟩
  intro hdocument v hv
  have hrender : Vue.render (sections t s c) = renderSingleFile (sections t s c) := by
    rw [Vue.render, hdocument, isSingleFile_sections, if_neg Bool.false_ne_true, if_pos rfl]
  unfold renderSingleFile at hrender
  dsimp only at hrender
  rw [htemplate, hstyle, Option.getD_some, Option.getD_some] at hrender
  have hassoc : ∀ b l i o m d r n : Text,
      b ++ l ++ (i ++ (o ++ m ++ d) ++ l) ++ r ++ n = b ++ (l ++ (i ++ o)) ++ m ++ d ++ (l ++ (r ++ n)) := by
    simp only [List.append_assoc, implies_true]
  have hmarkup : "<div id=\"app\">".toList ++ t.trim ++ "</div>".toList ≠ [] := by simp
  have hcss : Shell.headStyle c.trim = Shell.headStyle c := by simp only [Shell.headStyle, Text.trim_trim]
  rw [render_vue hv hrender, finish_shell _ hmarkup, hcss]
  exact ⟨_, congrArg (fun tail => shell.headFront ++ Shell.headStyle c ++ "</head>\n".toList ++ tail)
    (hassoc "<body>" "\n" "  " "<div id=\"app\">" t.trim "</div>" _ _)⟩

/-- The tags of templates in the template are not balanced. -/
theorem render_sections_unbalanced :
    let t : Text := "\n  </template><p>\x7b\x7b n \x7d\x7d</p><template>\n"
    let s : Text := "\nexport default \x7b data: () => (\x7b n: '<template>' \x7d) \x7d\n"
    let c : Text := "\n"
    (Lacks "<script" t ∧ Lacks "<style" t) ∧ (Lacks "</script>" s ∧ Lacks "<style" s ∧ Lacks "</template>" s)
      ∧ (Lacks "</style>" c ∧ Lacks "</template>" c) ∧ isHtmlDocument (sections t s c) = false
      ∧ template? (sections t s c) = some "</template><p>\x7b\x7b n \x7d\x7d</p><template>".toList
      ∧ ∃ rest, SnippetPreview.render (sections t s c) (Verdict.ofKind .vue) = shell.headFront ++ "</head>\n".toList
          ++ ("<body>\n  <div id=\"app\">" ++ "</template><p>\x7b\x7b n \x7d\x7d</p><template>" ++ "</div>" ++ rest) := by
  intro t s c
  have ht : Lacks "<script" t ∧ Lacks "<style" t := by decide +kernel
  have hs : Lacks "</script>" s ∧ Lacks "<style" s ∧ Lacks "</template>" s := by decide +kernel
  have hc : Lacks "</style>" c ∧ Lacks "</template>" c := by decide +kernel
  have hdocument : isHtmlDocument (sections t s c) = false := by decide +kernel
  have htrim : t.trim = "</template><p>\x7b\x7b n \x7d\x7d</p><template>" := by decide +kernel
  have hcss : Shell.headStyle c = [] := by decide +kernel
  obtain ⟨htemplate, -, -, hrender⟩ := render_sections ht hs hc
  rw [htrim] at htemplate hrender
  rw [hcss, List.append_nil] at hrender
  exact ⟨ht, hs, hc, hdocument, htemplate, hrender hdocument _ rfl⟩

end Vue

end SnippetPreview
