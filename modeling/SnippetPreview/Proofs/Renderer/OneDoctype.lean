import SnippetPreview.Proofs.Renderer.Doctypes

/-!
# One document type

* `rewrittenParts`, `removals`: what stands in a document after something has been taken out of it, and what is taken
  out of where;
* `render_adds_doctype`: the document of a snippet without a document type has one, and one more for each that comes
  about where something has been taken out.
-/

namespace SnippetPreview

open Pattern

/-- The parts of a document that something of the source has been taken out of. -/
def rewrittenParts (source : Text) : Kind → List Text
  | .react => if isHtmlDocument source then [] else [React.dropModuleSyntax source]
  | .vue => if isHtmlDocument source || Vue.isSingleFile source then []
    else [Vue.appMarkup (Vue.markupAndCode source).1, Vue.looseCode source]
  | .alpine => [Alpine.runtimeScript.replaceAll (fun _ => []) source]
  | .html | .angular | .svelte | .vanilla => []

/-- The texts that something is taken out of, each with the pattern of what is. -/
def removals (source : Text) : Kind → List (Pattern × Text)
  | .react => if isHtmlDocument source then [] else [(React.exportDefault, React.globalized source)]
  | .vue => if isHtmlDocument source || Vue.isSingleFile source then [] else Vue.removals source
  | .alpine => [(Alpine.runtimeScript, source)]
  | .html | .angular | .svelte | .vanilla => []

variable {source : Text}

theorem doctypes_ensureDoctype_of_le_one {t : Text} (h : doctypes t ≤ 1) : doctypes (ensureDoctype t) = 1 := by
  rcases Nat.le_one_iff_eq_zero_or_eq_one.1 h with h | h
  · exact doctypes_ensureDoctype_of_zero h
  · rw [doctypes_ensureDoctype_of_pos (by omega), h]

theorem doctypes_ensureDoctype_one_add {t : Text} {n : Nat} (h : doctypes t = 1 + n) :
    doctypes (ensureDoctype t) = 1 + n := by
  rw [doctypes_ensureDoctype_of_pos (by omega), h]

theorem Vue.doctypes_ensureDoctype (h : doctypes source = 0) : doctypes (ensureDoctype (Vue.render source))
    = 1 + doctypesIn (rewrittenParts source .vue) := by
  unfold rewrittenParts Vue.render
  cases isHtmlDocument source with
  | true =>
    simp only [Bool.true_or, if_true, doctypesIn_nil, Nat.add_zero]
    refine doctypes_ensureDoctype_of_zero ?_
    split
    · exact h
    · exact (doctypes_injectHeadScript (Kind.doctypes_scripts .vue _ (List.mem_singleton_self _)) source).trans h
  | false =>
    simp only [Bool.false_or, Bool.false_eq_true, if_false]
    cases Vue.isSingleFile source with
    | true =>
      simp only [if_true, doctypesIn_nil]
      exact doctypes_ensureDoctype_one_add (Vue.doctypes_renderSingleFile h)
    | false =>
      simp only [Bool.false_eq_true, if_false, doctypesIn_cons, doctypesIn_nil, Nat.add_zero]
      rw [← Nat.add_assoc]
      have hloose := Vue.doctypes_renderLoose h
      rw [Nat.add_assoc] at hloose ⊢
      exact doctypes_ensureDoctype_one_add hloose

theorem Angular.doctypes_ensureDoctype (h : doctypes source = 0) :
    doctypes (ensureDoctype (Angular.render source)) = 1 := by
  unfold Angular.render
  split
  · refine doctypes_ensureDoctype_of_zero ?_
    split
    · exact h
    · exact (doctypes_injectHeadScript (Kind.doctypes_scripts .angular _ (List.mem_singleton_self _)) source).trans h
  · refine doctypes_ensureDoctype_one_add (n := 0) ?_
    split
    · exact doctypes_renderComponent h
    · split
      · exact doctypes_renderPlain h
      · exact doctypes_scaffold

theorem React.doctypes_ensureDoctype (h : doctypes source = 0) : doctypes (ensureDoctype (React.render source))
    = 1 + doctypesIn (rewrittenParts source .react) := by
  unfold rewrittenParts
  cases hdoc : isHtmlDocument source with
  | true =>
    have hself : React.render source = source := if_pos hdoc
    rw [hself]
    exact doctypes_ensureDoctype_of_zero h
  | false =>
    simp only [Bool.false_eq_true, if_false, doctypesIn_cons, doctypesIn_nil, Nat.add_zero]
    exact doctypes_ensureDoctype_one_add (React.doctypes_render hdoc)

/-- What is taken out leaves no document type behind unless it stood in the middle of one. -/
theorem doctypes_rewrittenParts (h : doctypes source = 0) {k : Kind}
    (hclear : ∀ r ∈ removals source k, r.1.StandsClear r.2) : ∀ part ∈ rewrittenParts source k, doctypes part = 0 := by
  unfold removals at hclear
  unfold rewrittenParts
  cases k with
  | html | angular | svelte | vanilla => exact List.forall_mem_nil _
  | react =>
    dsimp only at hclear ⊢
    generalize isHtmlDocument source = complete at hclear ⊢
    cases complete with
    | true => exact List.forall_mem_nil _
    | false =>
      simp only [Bool.false_eq_true, if_false, List.forall_mem_singleton] at hclear ⊢
      exact React.doctypes_dropModuleSyntax h hclear
  | vue =>
    dsimp only at hclear ⊢
    generalize (isHtmlDocument source || Vue.isSingleFile source) = kept at hclear ⊢
    cases kept with
    | true => exact List.forall_mem_nil _
    | false =>
      simp only [Bool.false_eq_true, if_false, List.forall_mem_cons] at hclear ⊢
      refine ⟨?_, ?_, List.forall_mem_nil _⟩
      · exact Vue.doctypes_appMarkup (Vue.doctypes_markupAndCode h hclear).1
      · exact Vue.doctypes_looseCode h hclear
  | alpine =>
    simp only [List.forall_mem_singleton] at hclear ⊢
    exact doctypes_removeAll rfl h hclear

/-- **One document type.** The document of a snippet without a document type has one, and one more for each that its
rewritten parts have. They have none as long as nothing is taken out right behind the beginning of one: this is what
joins the two halves of a document type that something stands in the middle of. -/
theorem render_adds_doctype (source : Text) (k : Kind) (h : doctypes source = 0) :
    doctypes (render source (Verdict.ofKind k)) = 1 + doctypesIn (rewrittenParts source k) ∧
      ((∀ r ∈ removals source k, r.1.StandsClear r.2) → doctypes (render source (Verdict.ofKind k)) = 1) := by
  have hcount : doctypes (render source (Verdict.ofKind k)) = 1 + doctypesIn (rewrittenParts source k) := by
    cases k with
    | html => exact doctypes_ensureDoctype_of_zero h
    | react => exact React.doctypes_ensureDoctype h
    | vue => exact Vue.doctypes_ensureDoctype h
    | angular => exact Angular.doctypes_ensureDoctype h
    | svelte => exact doctypes_ensureDoctype_of_le_one (Plain.doctypes_render h)
    | alpine => exact doctypes_ensureDoctype_one_add (Alpine.doctypes_render h)
    | vanilla => exact doctypes_ensureDoctype_of_le_one (Plain.doctypes_render h)
  refine ⟨hcount, fun hclear => ?_⟩
  rw [hcount, doctypesIn_eq_zero (doctypes_rewrittenParts h hclear)]

/-- A default export in the middle of a document type, and one at the start. -/
theorem render_adds_doctype_export :
    doctypes "<!export default doctype html>" = 0 ∧
      doctypes (render "<!export default doctype html>" (Verdict.ofKind .react)) = 2 ∧
      doctypes "export default App;" = 0 ∧
      doctypes (render "export default App;" (Verdict.ofKind .react)) = 1 := by
  have hjoined : doctypes "<!export default doctype html>" = 0 := by decide +kernel
  have hparts : doctypesIn (rewrittenParts "<!export default doctype html>" .react) = 1 := by decide +kernel
  have hclean : doctypes "export default App;" = 0 := by decide +kernel
  have hclear : ∀ r ∈ removals "export default App;" .react, r.1.StandsClear r.2 := by decide +kernel
  refine ⟨hjoined, ?_, hclean, (render_adds_doctype _ .react hclean).2 hclear⟩
  rw [(render_adds_doctype _ .react hjoined).1, hparts]

end SnippetPreview
