import SnippetPreview.Proofs.Script.Globalizing

/-!
# Code that begins with imports

* `PassesEnd`: what both passes over the imports make of the rest of a text;
* `ImportLine.passesEnd_unbroken`: an import without its line break becomes what the whole line does;
* `BeginsWith`: code that begins with lines of imports, the last one maybe without its line break;
* `BeginsWith.globalizeImports_of_other`, `BeginsWith.globalizeImports_eq`: the imports of other packages stay, those of the
  packages become declarations, and the code behind them is rewritten by itself.
-/

namespace SnippetPreview.Script

open Pattern

/-- The two passes make `out` of the text that is left at the start of a line. -/
def PassesEnd (packages : List Text) (global : Text) (provided : List Text) (t out : Text) : Prop :=
  ∃ mid, RewritesEnd namedImport (namedImage packages global provided) t mid ∧
    RewritesEnd anyImport (otherImage packages) mid out

variable {packages provided : List Text} {global t t' out out' rest : Text}

theorem Passes.append_end (h : Passes packages global provided t out) (h' : PassesEnd packages global provided t' out') :
    PassesEnd packages global provided (t ++ t') (out ++ out') := by
  obtain ⟨mid, hnamed, hany⟩ := h
  obtain ⟨mid', hnamed', hany'⟩ := h'
  exact ⟨mid ++ mid', hnamed.append_end hnamed', hany.append_end hany'⟩

theorem PassesEnd.globalizeImports_eq (h : PassesEnd packages global provided t out) :
    globalizeImports packages global provided t = out := by
  obtain ⟨mid, hnamed, hany⟩ := h
  show anyImport.replaceAll (otherImage packages) (namedImport.replaceAll (namedImage packages global provided) t) = out
  rw [hnamed.replaceAll_eq, hany.replaceAll_eq]

/-- No import is found in the text. -/
structure IsImportFree (t : Text) : Prop where
  named : namedImport.isMatch t = false
  any : anyImport.isMatch t = false

theorem IsImportFree.passesEnd (h : IsImportFree t) : PassesEnd packages global provided t t :=
  ⟨t, .of_isMatch h.named, .of_isMatch h.any⟩

/-- A cut of a part of a line at the start of a line is none. -/
theorem eq_nil_of_feed_not_mem {t u v : Text} (ht : '\n' ∉ t) (h : t = u ++ v)
    (hu : (lastOf (some '\n') u).all (· == '\n') = true) : u = [] := by
  refine Classical.byContradiction fun hne => ht ?_
  obtain ⟨u', rfl⟩ := eq_concat_of_lineStart hne hu
  rw [h]
  simp

namespace ImportLine

variable (l : ImportLine)

theorem unbroken_ne_nil : l.unbroken ≠ [] :=
  List.append_ne_nil_of_right_ne_nil _ (List.cons_ne_nil _ _)

/-- In the first pass, a list of names of a package becomes a declaration. -/
theorem rewritesEnd_namedImport {default? : Option DefaultImport} {entries : List Entry} {before behind : Gap}
    (ho : l.origin? = some ⟨.named default? entries, before, behind⟩) (hstop : l.ending.stopsAt rest = true)
    (hrest : IsImportFree rest) :
    RewritesEnd namedImport (namedImage packages global provided) (l.unbroken ++ rest)
      ((if isWithin packages l.module.1 then destructuring global provided (listing entries) else l.unbroken) ++ rest) :=
  .of_first l.unbroken_ne_nil hrest.named fun _ hline hk => exists_namedImage l ho (isEnd_unbroken hstop) hline hk

/-- Any other import stays in the first pass. -/
theorem rewritesEnd_namedImport_of_other
    (hother : ∀ default? entries before behind, l.origin? ≠ some ⟨.named default? entries, before, behind⟩)
    (hrest : IsImportFree rest) :
    RewritesEnd namedImport (namedImage packages global provided) (l.unbroken ++ rest) (l.unbroken ++ rest) := by
  refine .of_unread hrest.named fun u v ht _ hu k hk => ?_
  obtain rfl := eq_nil_of_feed_not_mem l.feed_not_mem_unbroken ht hu
  have hwhole : k.after = l.unbroken ++ rest := by
    rw [ht, hk]
    rfl
  exact readings_namedImport_eq_nil l hother hwhole

/-- In the second pass, all imports of the packages that are left vanish. -/
theorem rewritesEnd_anyImport (hstop : l.ending.stopsAt rest = true) (hrest : IsImportFree rest) :
    RewritesEnd anyImport (otherImage packages) (l.unbroken ++ rest)
      ((if isWithin packages l.module.1 then [] else l.unbroken) ++ rest) :=
  .of_first l.unbroken_ne_nil hrest.any fun _ hline hk => exists_otherImage l (isEnd_unbroken hstop) hline hk

/-- The two passes over an import without its line break, and over what follows. -/
theorem passesEnd_unbroken (hglobal : OpensNoImport global) (hstop : l.ending.stopsAt rest = true)
    (hrest : IsImportFree rest) :
    PassesEnd packages global provided (l.unbroken ++ rest)
      ((if isWithin packages l.module.1 then destructuring global provided (listing l.entries) else l.unbroken) ++ rest) := by
  have hsecond : RewritesEnd anyImport (otherImage packages) (l.unbroken ++ rest) _ := l.rewritesEnd_anyImport hstop hrest
  by_cases hnamed : ∃ default? entries before behind, l.origin? = some ⟨.named default? entries, before, behind⟩
  · obtain ⟨default?, entries, before, behind, ho⟩ := hnamed
    refine ⟨_, l.rewritesEnd_namedImport ho hstop hrest, ?_⟩
    rw [l.entries_of_named ho]
    split
    · exact (isUnopened_destructuring hglobal provided entries).rewrites.append_end (.of_isMatch hrest.any)
    · next hwithin => rwa [if_neg hwithin] at hsecond
  · simp only [not_exists] at hnamed
    have hnone : destructuring global provided (listing l.entries) = [] := by
      rw [l.entries_of_other hnamed]
      rfl
    refine ⟨_, l.rewritesEnd_namedImport_of_other hnamed hrest, ?_⟩
    rwa [hnone]

end ImportLine

/-! ### Imports and the code behind them -/

/-- Code that begins with lines of imports. -/
inductive BeginsWith : List ImportLine → Text → Text → Prop where
  | whole (lines : List ImportLine) (rest : Text) : BeginsWith lines rest (lines.flatMap ImportLine.text ++ rest)
  /-- The last import has no line break. Behind it the code ends, or goes on with something else on the same line. -/
  | unbroken (lines : List ImportLine) {l : ImportLine} {rest : Text} (hstop : l.ending.stopsAt rest = true)
      (hrest : IsImportFree rest) : BeginsWith (lines ++ [l]) rest (lines.flatMap ImportLine.text ++ (l.unbroken ++ rest))

namespace BeginsWith

variable {lines : List ImportLine} {source : Text}

theorem passes_of_other (hglobal : OpensNoImport global) (hother : ∀ l ∈ lines, isWithin packages l.module.1 = false) :
    Passes packages global provided (lines.flatMap ImportLine.text) (lines.flatMap ImportLine.text) := by
  refine .flatMap fun l hl => ?_
  have hpasses : Passes packages global provided l.text _ := (SourceLine.imports l).passes_text hglobal
  rwa [SourceLine.rewritten_imports, hother l hl, if_neg Bool.false_ne_true] at hpasses

theorem passes_of_packages (hglobal : OpensNoImport global) (hof : ∀ l ∈ lines, isWithin packages l.module.1 = true) :
    Passes packages global provided (lines.flatMap ImportLine.text)
      (lines.flatMap fun l => destructuring global provided (listing l.entries)) := by
  refine .flatMap fun l hl => ?_
  have hpasses : Passes packages global provided l.text _ := (SourceLine.imports l).passes_text hglobal
  rwa [SourceLine.rewritten_imports, hof l hl, if_pos rfl] at hpasses

/-- Imports of other packages stay in front of the code. -/
theorem globalizeImports_of_other (hglobal : OpensNoImport global) (h : BeginsWith lines rest source)
    (hother : ∀ l ∈ lines, isWithin packages l.module.1 = false) :
    BeginsWith lines (globalizeImports packages global provided rest) (globalizeImports packages global provided source) := by
  cases h with
  | whole =>
    have hfront : Passes packages global provided (lines.flatMap ImportLine.text) _ := passes_of_other hglobal hother
    rw [hfront.globalizeImports_append]
    exact .whole lines _
  | @unbroken front l _ hstop hrest =>
    have hfront : Passes packages global provided (front.flatMap ImportLine.text) _ :=
      passes_of_other hglobal fun l hl => hother l (List.mem_append_left _ hl)
    have hlast : PassesEnd packages global provided (l.unbroken ++ rest) _ := l.passesEnd_unbroken hglobal hstop hrest
    rw [hother l (List.mem_append_right _ List.mem_cons_self), if_neg Bool.false_ne_true] at hlast
    rw [(hfront.append_end hlast).globalizeImports_eq, hrest.passesEnd.globalizeImports_eq]
    exact .unbroken front hstop hrest

/-- Imports of the packages become declarations. -/
theorem globalizeImports_eq (hglobal : OpensNoImport global) (h : BeginsWith lines rest source)
    (hof : ∀ l ∈ lines, isWithin packages l.module.1 = true) :
    globalizeImports packages global provided source
      = lines.flatMap (fun l => destructuring global provided (listing l.entries))
        ++ globalizeImports packages global provided rest := by
  cases h with
  | whole => exact (passes_of_packages hglobal hof).globalizeImports_append rest
  | @unbroken front l _ hstop hrest =>
    have hfront : Passes packages global provided (front.flatMap ImportLine.text) _ :=
      passes_of_packages hglobal fun l hl => hof l (List.mem_append_left _ hl)
    have hlast : PassesEnd packages global provided (l.unbroken ++ rest) _ := l.passesEnd_unbroken hglobal hstop hrest
    rw [if_pos (hof l (List.mem_append_right _ List.mem_cons_self))] at hlast
    rw [(hfront.append_end hlast).globalizeImports_eq, hrest.passesEnd.globalizeImports_eq, List.flatMap_append,
      List.flatMap_singleton, List.append_assoc]

end BeginsWith

end SnippetPreview.Script
