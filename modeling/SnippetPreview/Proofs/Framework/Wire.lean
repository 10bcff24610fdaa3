import Mathlib.Data.List.Nodup
import Mathlib.Data.List.Perm.Basic
import SnippetPreview.Framework.Wire
import SnippetPreview.Proofs.Json.Records

/-!
# Verdicts there and back

* `Kind.takes_reader`: the name of a kind is read as the kind;
* `Verdict.known`, `Verdict.takes_field`: a reader that has read some members of a verdict takes any other;
* `Verdict.takes_object`: a verdict is taken from its members in whatever order and layout;
* `Verdict.run_written`: so it comes back from what is written.
-/

namespace SnippetPreview

open Json (Layout quoted)
open Json.Reader

theorem Kind.takes_reader (k : Kind) : Takes Kind.reader (quoted k.name) k := by
  intro gap rest hgap
  have hname : Kind.nameReader (quoted k.name ++ rest) = .ok (k, rest) := by
    rw [nameReader, bind_of_ok ((takes_string k.name).append rest), ofName?_name]
    rfl
  rw [reader, bind_of_ok (peek_quoted hgap _ _), if_pos rfl, hname]

namespace Verdict

/-- The members of the verdict with these names are read, and no others. -/
def known (v : Verdict) (names : List Text) : Partial where
  kind := if names.contains "kind".toList then some v.kind else none
  needsCompilation := if names.contains "needs_browser_compilation".toList then some v.needsCompilation else none
  scripts := if names.contains "cdn_script_urls".toList then some v.scripts else none

theorem if_contains_cons_self {α : Type} (name : Text) (names : List Text) (x y : α) :
    (if (name :: names).contains name then x else y) = x :=
  if_pos (List.contains_iff_mem.2 List.mem_cons_self)

theorem if_contains_cons_of_ne {α : Type} {name other : Text} (h : name ≠ other) (names : List Text) (x y : α) :
    (if (other :: names).contains name then x else y) = if names.contains name then x else y := by
  rw [List.contains_cons, beq_false_of_ne h, Bool.false_or]

/-- A reader takes any member that it has not read yet. -/
theorem takes_field (v : Verdict) (l : Layout) {m : Text × Json} (hm : m ∈ v.members) {names : List Text}
    (hnew : m.1 ∉ names) : ∃ read, field? m.1 = some read ∧
      Takes (read (v.known names)) (':' :: (l.space ++ l.value m.2)) (v.known (m.1 :: names)) := by
  simp only [members, List.mem_cons, List.not_mem_nil, or_false] at hm
  rcases hm with rfl | rfl | rfl
  · have hvalue : Takes Kind.reader (l.space ++ l.value v.kind.toJson) v.kind := by
      rw [Kind.toJson, l.value_string]
      exact v.kind.takes_reader.blank l.blank_space
    have hunread : (v.known names).kind = none := if_neg (mt List.contains_iff_mem.1 hnew)
    have hknown : v.known ("kind".toList :: names) = { v.known names with kind := some v.kind } := by
      rw [known, if_contains_cons_self, if_contains_cons_of_ne (by decide), if_contains_cons_of_ne (by decide)]
      rfl
    refine ⟨_, if_pos rfl, ?_⟩
    rw [hknown, hunread]
    exact (takes_once hvalue).map fun k => { v.known names with kind := k }
  · have hvalue : Takes bool (l.space ++ l.value v.needsCompilation) v.needsCompilation := by
      rw [l.value_bool]
      exact (takes_bool v.needsCompilation).blank l.blank_space
    have hunread : (v.known names).needsCompilation = none := if_neg (mt List.contains_iff_mem.1 hnew)
    have hknown : v.known ("needs_browser_compilation".toList :: names)
        = { v.known names with needsCompilation := some v.needsCompilation } := by
      rw [known, if_contains_cons_of_ne (by decide), if_contains_cons_self, if_contains_cons_of_ne (by decide)]
      rfl
    have hkind : "needs_browser_compilation".toList ≠ "kind" := by decide
    refine ⟨_, (if_neg hkind).trans (if_pos rfl), ?_⟩
    rw [hknown, hunread]
    exact (takes_once hvalue).map fun b => { v.known names with needsCompilation := b }
  · have hvalue : Takes (array string) (l.space ++ l.value (.array (v.scripts.map .string))) v.scripts :=
      (takes_array (l.isArray_value v.scripts)).blank l.blank_space
    have hunread : (v.known names).scripts = none := if_neg (mt List.contains_iff_mem.1 hnew)
    have hknown : v.known ("cdn_script_urls".toList :: names) = { v.known names with scripts := some v.scripts } := by
      rw [known, if_contains_cons_of_ne (by decide), if_contains_cons_of_ne (by decide), if_contains_cons_self]
      rfl
    have hkind : "cdn_script_urls".toList ≠ "kind" := by decide
    have hneeds : "cdn_script_urls".toList ≠ "needs_browser_compilation" := by decide
    refine ⟨_, (if_neg hkind).trans ((if_neg hneeds).trans (if_pos rfl)), ?_⟩
    rw [hknown, hunread]
    exact (takes_once hvalue).map fun urls => { v.known names with scripts := urls }

/-- A reader takes members of the verdict in any order, when none of them has been read and none comes twice. -/
theorem takesFields (v : Verdict) (l : Layout) {ms : List (Text × Json)} (hms : ms ⊆ v.members) {names : List Text}
    (hnew : ((ms.map Prod.fst).reverse ++ names).Nodup) :
    TakesFields field? (v.known names) (l.members ms) (v.known ((ms.map Prod.fst).reverse ++ names)) := by
  induction ms generalizing names with
  | nil => exact .nil _
  | cons m ms ih =>
    obtain ⟨hm, hms⟩ := List.cons_subset.1 hms
    rw [List.map_cons, List.reverse_cons, List.append_assoc, List.singleton_append] at hnew ⊢
    have hfirst : m.1 ∉ names := (List.nodup_cons.1 (List.nodup_append.1 hnew).2.1).1
    obtain ⟨read, hread, hvalue⟩ := v.takes_field l hm hfirst
    exact .cons hread hvalue (ih hms hnew)

/-- A verdict is taken from an object of its members, in whatever order they stand and however the object is laid out. -/
theorem takes_object (v : Verdict) (l : Layout) {ms : List (Text × Json)} (h : ms.Perm v.members) :
    Takes reader (l.object ms) v := by
  have hnames : (ms.map Prod.fst).Perm ["kind".toList, "needs_browser_compilation", "cdn_script_urls"] := h.map Prod.fst
  have hnodup : ((ms.map Prod.fst).reverse ++ []).Nodup := by
    rw [List.append_nil, List.nodup_reverse, hnames.nodup_iff]
    decide
  have hmem : ∀ name, name ∈ ["kind".toList, "needs_browser_compilation", "cdn_script_urls"] →
      ((ms.map Prod.fst).reverse ++ []).contains name = true := by
    intro name hname
    rw [List.contains_iff_mem, List.append_nil, List.mem_reverse, hnames.mem_iff]
    exact hname
  have hall : v.known ((ms.map Prod.fst).reverse ++ []) = ⟨some v.kind, some v.needsCompilation, some v.scripts⟩ := by
    rw [known, if_pos (hmem _ (by decide)), if_pos (hmem _ (by decide)), if_pos (hmem _ (by decide))]
  have hstart : v.known [] = ⟨none, none, none⟩ := rfl
  have hfields := v.takesFields l h.subset hnodup
  rw [hall, hstart] at hfields
  intro gap rest hgap
  have hassoc : l.object ms ++ rest
      = '\x7b' :: (Json.spellMembers l.gap true (l.members ms) ++ (l.close ++ '\x7d' :: rest)) := by
    simp only [Layout.object, List.cons_append, List.append_assoc]
    rfl
  rw [hassoc, reader, bind_of_ok (peek_append hgap (by decide) _), if_neg (by decide), if_pos rfl,
    bind_of_ok (next_cons _ _), bind_of_ok (fields_object l hfields rest)]
  rfl

theorem run_written (v : Verdict) {ms : List (Text × Json)} (h : ms.Perm v.members) :
    reader.run (Json.object ms).compact = .ok v ∧ reader.run (Json.object ms).pretty = .ok v := by
  have hms : ms ≠ [] := by
    rintro rfl
    exact List.cons_ne_nil _ _ h.nil_eq.symm
  exact ⟨Layout.object_compact ms ▸ (v.takes_object .compact h).run,
    Layout.object_pretty hms ▸ (v.takes_object .pretty h).run⟩

theorem injective_of_run {write : Verdict → Text} (h : ∀ v, reader.run (write v) = .ok v) : Function.Injective write := by
  intro v w heq
  exact Except.ok.inj ((h v).symm.trans ((congrArg reader.run heq).trans (h w)))

end Verdict

end SnippetPreview
