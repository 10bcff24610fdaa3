import SnippetPreview.Document.Shell
import SnippetPreview.Proofs.Document.Rewriting

/-!
# Document types of finished documents

* `ScriptElement.doctypes_render`: a script element brings the document types of its address or code;
* `Shell.doctypes_finish`: a finished document has its own document type and those of its parts;
* `Shell.doctypes_style`, `Shell.doctypes_withBody` and others: what each part adds when documents are put together step
  by step.
-/

namespace SnippetPreview

namespace ScriptElement

/-- What a script element is made of: an address, or code. -/
def text : ScriptElement → Text
  | src url | deferred url => url
  | inline code | compiled code => code

/-- A script element brings the document types of its address or code. -/
theorem doctypes_render (e : ScriptElement) : doctypes e.render = doctypes e.text := by
  have hurl : Insulates "\"></script>" := .literal rfl (by decide)
  have hcode : Insulates "\n</script>" := .literal rfl (by decide)
  cases e with
  | src url =>
    have hopen : Insulates "<script src=\"" := .literal rfl (by decide)
    exact (hurl.doctypes_back _).trans (hopen.doctypes_front url)
  | deferred url =>
    have hopen : Insulates "<script defer src=\"" := .literal rfl (by decide)
    exact (hurl.doctypes_back _).trans (hopen.doctypes_front url)
  | inline code =>
    have hopen : Insulates "<script>\n" := .literal rfl (by decide)
    exact ((hcode.doctypes_back _).trans (hopen.doctypes_front _)).trans (doctypes_escapeScript code)
  | compiled code =>
    have hopen : Insulates "<script type=\"text/babel\" data-presets=\"env,react\">\n" :=
      .literal rfl (by decide)
    exact ((hcode.doctypes_back _).trans (hopen.doctypes_front _)).trans (doctypes_escapeScript code)

theorem doctypesIn_map_render (es : List ScriptElement) :
    doctypesIn (es.map ScriptElement.render) = doctypesIn (es.map text) := by
  induction es with
  | nil => rfl
  | cons e es ih => rw [List.map_cons, List.map_cons, doctypesIn_cons, doctypesIn_cons, doctypes_render, ih]

end ScriptElement

namespace Shell

theorem doctypes_scriptLines (es : List ScriptElement) (y : Text) :
    doctypes (es.flatMap scriptLines ++ y) = doctypesIn (es.map ScriptElement.text) + doctypes y := by
  have hindent : Insulates "  " := by decide
  have hline : Insulates "\n" := by decide
  have hlines := hindent.doctypes_flatMap hline ScriptElement.render es y
  rw [ScriptElement.doctypesIn_map_render] at hlines
  exact hlines

theorem doctypes_styleLines (styles : List Text) (y : Text) :
    doctypes (styles.flatMap styleLines ++ y) = doctypesIn styles + doctypes y := by
  have hopen : Insulates "  <style>\n" := .literal rfl (by decide)
  have hclose : Insulates "\n  </style>\n" := .literal rfl (by decide)
  have hlines := hopen.doctypes_flatMap hclose id styles y
  rw [List.map_id] at hlines
  exact hlines

theorem doctypes_bodyTag (s : Shell) (y : Text) :
    doctypes (s.bodyTag ++ ("\n".toList ++ y)) = doctypes s.bodyAttributes + doctypes y := by
  have hline : Insulates "\n" := by decide
  rw [hline.doctypes_append]
  refine congrArg (· + doctypes y) ?_
  unfold bodyTag
  split
  · next hempty =>
    rw [List.isEmpty_iff.1 hempty]
    decide
  · have hopen : Insulates "<body " := by decide
    have hclose : Insulates ">" := by decide
    rw [hclose.doctypes_back, hopen.doctypes_front]

theorem doctypes_bodyLines (s : Shell) (y : Text) : doctypes (s.bodyLines ++ y) = doctypes s.body + doctypes y := by
  unfold bodyLines
  split
  · next hempty =>
    rw [List.isEmpty_iff.1 hempty]
    exact (Nat.zero_add _).symm
  · have hindent : Insulates "  " := by decide
    have hline : Insulates "\n" := by decide
    exact hindent.doctypes_framed hline s.body y

set_option maxRecDepth 3000 in
theorem doctypes_baseStyle : doctypes baseStyle = 0 := doctypes_literal rfl (by decide)

/-- A finished document has its own document type and those of its parts. -/
theorem doctypes_finish (s : Shell) : doctypes s.finish = 1 + doctypes s.title
    + doctypesIn (s.headScripts.map ScriptElement.text) + doctypesIn s.styles + doctypes s.bodyAttributes
    + doctypes s.body + doctypesIn (s.bodyScripts.map ScriptElement.text) := by
  have hfirst : doctypes "<!DOCTYPE html>\n<html lang=\"en\">\n<head>\n  <meta charset=\"UTF-8\">\n" = 1 :=
    doctypes_literal rfl (by decide)
  have hmeta : Insulates "  <meta name=\"viewport\" content=\"width=device-width, initial-scale=1.0\">\n" :=
    .literal rfl (by decide)
  have hopen : Insulates "  <title>" := .literal rfl (by decide)
  have hclose : Insulates "</title>\n" := .literal rfl (by decide)
  have hbase : ∀ y, doctypes (styleLines baseStyle ++ y) = doctypes y := by
    intro y
    have hlines := doctypes_styleLines [baseStyle] y
    rw [List.flatMap_singleton, doctypesIn_cons, doctypes_baseStyle, doctypesIn_nil, Nat.zero_add] at hlines
    exact hlines
  have hhead : Insulates "</head>\n" := .literal rfl (by decide)
  have hend : doctypes "</body>\n</html>\n" = 0 := by decide
  unfold finish head tail
  simp only [List.append_assoc]
  rw [hmeta.doctypes_append, hfirst, hopen.doctypes_front, hclose.doctypes_append, doctypes_scriptLines,
    hbase, doctypes_styleLines, hhead.doctypes_front, doctypes_bodyTag, doctypes_bodyLines,
    doctypes_scriptLines, hend]
  omega

/-! ### Documents step by step

Each step that adds a part adds its document types. -/

variable {s : Shell}

theorem doctypes_titled {title : Text} (h : doctypes title = 0) : doctypes (titled title).finish = 1 := by
  rw [doctypes_finish]
  show 1 + doctypes title = 1
  rw [h]

theorem doctypes_headScript (s : Shell) (e : ScriptElement) :
    doctypes (s.headScript e).finish = doctypes s.finish + doctypes e.text := by
  rw [doctypes_finish, doctypes_finish]
  simp only [headScript, List.map_append, List.map_singleton, doctypesIn_append, doctypesIn_cons, doctypesIn_nil]
  omega

/-- Scripts from addresses without a document type bring none. -/
theorem doctypes_load {urls : List Text} (h : ∀ url ∈ urls, doctypes url = 0) :
    doctypes (s.load urls).finish = doctypes s.finish := by
  have hnone : doctypesIn ((urls.map ScriptElement.src).map ScriptElement.text) = 0 := by
    refine doctypesIn_eq_zero ?_
    rw [List.map_map, List.forall_mem_map]
    exact h
  rw [doctypes_finish, doctypes_finish]
  simp only [load, List.map_append, doctypesIn_append, hnone, Nat.add_zero]

/-- A blank style is left out, and brings no document type. -/
theorem doctypes_style (s : Shell) (css : Text) :
    doctypes (s.style css).finish = doctypes s.finish + doctypes css := by
  unfold style
  split
  · next hblank =>
    rw [← doctypes_trim css, List.isEmpty_iff.1 hblank, doctypes_nil, Nat.add_zero]
  · rw [doctypes_finish, doctypes_finish]
    simp only [doctypesIn_append, doctypesIn_cons, doctypesIn_nil, doctypes_trim]
    omega

theorem doctypes_withBodyAttributes (hs : s.bodyAttributes = []) {attributes : Text} (h : doctypes attributes = 0) :
    doctypes (s.withBodyAttributes attributes).finish = doctypes s.finish := by
  rw [doctypes_finish, doctypes_finish, hs, doctypes_nil]
  simp only [withBodyAttributes, h]

theorem doctypes_withBody (hs : s.body = []) (markup : Text) :
    doctypes (s.withBody markup).finish = doctypes s.finish + doctypes markup := by
  rw [doctypes_finish, doctypes_finish, hs, doctypes_nil]
  simp only [withBody]
  omega

theorem doctypes_bodyScript (s : Shell) (e : ScriptElement) :
    doctypes (s.bodyScript e).finish = doctypes s.finish + doctypes e.text := by
  rw [doctypes_finish, doctypes_finish]
  simp only [bodyScript, List.map_append, List.map_singleton, doctypesIn_append, doctypesIn_cons, doctypesIn_nil]
  omega

@[simp] theorem body_style (s : Shell) (css : Text) : (s.style css).body = s.body := by
  rw [style]
  split <;> rfl

end Shell

end SnippetPreview
