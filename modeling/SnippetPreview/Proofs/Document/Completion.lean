import SnippetPreview.Document.Head
import SnippetPreview.Document.Shell
import SnippetPreview.Proofs.Pattern.Context
import SnippetPreview.Proofs.Pattern.Finds

/-!
# Document types and scripts in the head

* `hasDoctype_iff`, `hasDoctype_eq_contains`: a document has a document type iff the text of one occurs, up to case;
* `hasDoctype_ensureDoctype`, `ensureDoctype_eq_self`: a completed document has one, and needs no second completion;
* `Shell.frontDoctype_prefix_finish`, `Shell.render_infix_finish`: a finished document starts with its document type and
  holds the element of each script in its head.
-/

namespace SnippetPreview

open Pattern

/-! ### Document types -/

/-- The document type that generated documents start with. -/
def frontDoctype : Text := "<!DOCTYPE html>"

theorem hasDoctype_iff {t : Text} : hasDoctype t = true ↔ "<!doctype".toList <:+: t.map foldCase := by
  have hw : "<!doctype".toList.map foldCase = "<!doctype".toList := by decide
  rw [hasDoctype, doctype, isMatch_anyCase, hw]

/-- Two ways to fold characters that agree on what becomes a letter of `w` find `w` in the same texts. -/
theorem infix_map_of_infix_map {f g : Char → Char} {w t : Text} (h : ∀ d ∈ w, ∀ c, f c = d → g c = d)
    (ht : w <:+: t.map f) : w <:+: t.map g := by
  obtain ⟨x', y', hxy⟩ := ht
  obtain ⟨xu, y, rfl, hxu, -⟩ := List.map_eq_append_iff.1 hxy.symm
  obtain ⟨x, u, rfl, -, hu⟩ := List.map_eq_append_iff.1 hxu
  have hu' : u.map g = w := by
    rw [← hu]
    refine List.map_congr_left fun c hc => h (f c) ?_ c rfl
    rw [← hu]
    exact List.mem_map_of_mem hc
  rw [List.map_append, List.map_append, hu']
  exact List.infix_append _ _ _

theorem foldCase_eq_iff_toLower_eq {d : Char} (hd : d ∈ "<!doctype".toList) (c : Char) :
    foldCase c = d ↔ c.toLower = d := by
  have hs : ∀ d ∈ "<!doctype".toList, ¬ 's' = d ∧ ¬ 'ſ'.toLower = d := by simp
  have hk : ∀ d ∈ "<!doctype".toList, ¬ 'k' = d ∧ ¬ '\u212a'.toLower = d := by simp
  unfold foldCase
  split
  · next h =>
    subst h
    exact ⟨fun e => absurd e (hs d hd).1, fun e => absurd e (hs d hd).2⟩
  · split
    · next h =>
      subst h
      exact ⟨fun e => absurd e (hk d hd).1, fun e => absurd e (hk d hd).2⟩
    · exact Iff.rfl

/-- A document type is looked for up to the case of ASCII letters. -/
theorem hasDoctype_eq_contains (t : Text) : hasDoctype t = Text.contains t.lowerAscii "<!doctype" := by
  rw [Bool.eq_iff_iff, hasDoctype_iff, Text.contains_iff]
  constructor
  · intro h
    obtain ⟨x, y, h⟩ := infix_map_of_infix_map (fun d hd c => (foldCase_eq_iff_toLower_eq hd c).1) h
    exact ⟨x, y, h.symm⟩
  · rintro ⟨x, y, h⟩
    exact infix_map_of_infix_map (fun d hd c => (foldCase_eq_iff_toLower_eq hd c).2) ⟨x, y, h.symm⟩

theorem hasDoctype_of_isInfix {t t' : Text} (h : hasDoctype t = true) (ht : t <:+: t') : hasDoctype t' = true :=
  isMatch_of_isInfix rfl rfl h ht

theorem hasDoctype_of_isPrefix {t : Text} (h : frontDoctype <+: t) : hasDoctype t = true :=
  hasDoctype_of_isInfix (by decide) h.isInfix

theorem ensureDoctype_eq_self {t : Text} (h : hasDoctype t = true) : ensureDoctype t = t := if_pos h

/-- What is put in front of a document without a document type. -/
theorem ensureDoctype_of_not {t : Text} (h : hasDoctype t = false) : ensureDoctype t = frontDoctype ++ '\n' :: t := by
  rw [ensureDoctype, h]
  rfl

/-- A completed document has a document type. -/
theorem hasDoctype_ensureDoctype (t : Text) : hasDoctype (ensureDoctype t) = true := by
  cases h : hasDoctype t with
  | true => rw [ensureDoctype_eq_self h, h]
  | false =>
    rw [ensureDoctype_of_not h]
    exact hasDoctype_of_isPrefix (List.prefix_append _ _)

/-- A completed document ends in the document. -/
theorem suffix_ensureDoctype (t : Text) : t <:+ ensureDoctype t := by
  unfold ensureDoctype
  split
  · exact List.suffix_rfl
  · exact List.suffix_append _ _

/-! ### Finished documents -/

namespace Shell

@[simp] theorem headScripts_load (s : Shell) (urls : List Text) :
    (s.load urls).headScripts = s.headScripts ++ urls.map .src := rfl

@[simp] theorem headScripts_withBodyAttributes (s : Shell) (attributes : Text) :
    (s.withBodyAttributes attributes).headScripts = s.headScripts := rfl

@[simp] theorem headScripts_withBody (s : Shell) (markup : Text) : (s.withBody markup).headScripts = s.headScripts := rfl

@[simp] theorem headScripts_bodyScript (s : Shell) (e : ScriptElement) :
    (s.bodyScript e).headScripts = s.headScripts := rfl

@[simp] theorem headScripts_style (s : Shell) (css : Text) : (s.style css).headScripts = s.headScripts := by
  rw [style]
  split <;> rfl

/-- A finished document starts with its document type. -/
theorem frontDoctype_prefix_finish (s : Shell) : frontDoctype <+: s.finish := by
  have h : frontDoctype <+: "<!DOCTYPE html>\n<html lang=\"en\">\n<head>\n  <meta charset=\"UTF-8\">\n".toList := by
    decide
  unfold finish head
  simp only [List.append_assoc]
  exact h.trans (List.prefix_append _ _)

theorem headLines_infix_finish (s : Shell) : s.headScripts.flatMap scriptLines <:+: s.finish := by
  unfold finish head
  simp only [List.append_assoc]
  iterate 5 refine List.infix_append_of_infix_right ?_
  exact List.infix_append_left

/-- A finished document holds the element of each script in its head. -/
theorem render_infix_finish {s : Shell} {e : ScriptElement} (h : e ∈ s.headScripts) : e.render <:+: s.finish := by
  refine List.IsInfix.trans ?_ s.headLines_infix_finish
  obtain ⟨es, es', hes⟩ := List.append_of_mem h
  rw [hes, List.flatMap_append, List.flatMap_cons, scriptLines]
  refine List.infix_append_of_infix_right (List.infix_append_of_infix_left ?_)
  exact List.infix_append _ _ _

end Shell

/-! ### Places in documents -/

theorem textBefore_behind (x y : Text) : textBefore (x ++ y) ((Cursor.start (x ++ y)).behind x y) = x := by
  show Text.slice (x ++ y) 0 (0 + Text.byteSize x - 0) = x
  rw [Nat.zero_add, Nat.sub_zero]
  exact Text.slice_zero_append x y

end SnippetPreview
