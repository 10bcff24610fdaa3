import SnippetPreview.Proofs.Script.Ghosts
import SnippetPreview.Renderer.Angular

/-!
# Statements of a printed class

* `eq_of_memberStatements_eq`: a class with further methods has further statements;
* `reread_print_iff`: a printed class body is read as its members just when they are free of ghosts;
* `ghostFree_of_isQuoted`: they are when no comment in a value has a closing brace.
-/

namespace SnippetPreview.Angular

open Script Pattern

/-- Further methods give further statements. -/
theorem eq_of_memberStatements_eq {fields : List Field} {methods methods' : List Method}
    (hsub : methods.Sublist methods') (h : memberStatements fields methods' = memberStatements fields methods) :
    methods' = methods := by
  have hcalls : methods.any (·.name == "ngOnInit".toList) = true →
      methods'.any (·.name == "ngOnInit".toList) = true := by
    rw [List.any_eq_true, List.any_eq_true]
    rintro ⟨m, hm, hname⟩
    exact ⟨m, hsub.subset hm, hname⟩
  have hlen := congrArg List.length h
  simp only [memberStatements, List.length_append, List.length_map] at hlen
  have hle : methods'.length ≤ methods.length := by
    cases hcall : methods.any (·.name == "ngOnInit".toList) with
    | true =>
      rw [hcall, hcalls hcall] at hlen
      omega
    | false =>
      rw [hcall, if_neg Bool.false_ne_true, List.length_nil] at hlen
      omega
  exact (hsub.eq_of_length_le hle).symm

theorem stands_start {ms : List Member} (h : ∀ m ∈ ms, m.IsPrintable) : Stands [] ms (.start (mask (print ms))) :=
  ⟨.nil, rfl, rfl, mask_print h⟩

/-- **Reading a class body undoes printing it**, but for the heads of methods that comments in the values of fields show.
The fields and all the methods are read again, and nothing else just when no field that shows such a head has a method
behind it. -/
theorem reread_print_iff {ms : List Member} (h : ∀ m ∈ ms, m.IsPrintable) :
    Field.ofBody (print ms) = fieldsOf ms ∧
      (methodsOf ms).Sublist (Method.ofBody (print ms)) ∧
      (Method.ofBody (print ms) = methodsOf ms ↔ ghostFree ms = true) ∧
      (scopeStatements (print ms)
          = (fieldsOf ms).map fieldStatement ++ (methodsOf ms).map methodStatement
            ++ (if ∃ m ∈ methodsOf ms, m.name = "ngOnInit".toList then ["$scope.ngOnInit();".toList] else [])
        ↔ ghostFree ms = true) := by
  have hfields := fields_findsFrom h (stands_start h)
  obtain ⟨hsub, hiff⟩ := methods_findsFrom h (stands_start h)
  rw [List.nil_append, ← finds_eq_findsFrom] at hfields hsub hiff
  change Field.ofBody (print ms) = fieldsOf ms at hfields
  change (methodsOf ms).Sublist (Method.ofBody (print ms)) at hsub
  change Method.ofBody (print ms) = methodsOf ms ↔ _ at hiff
  have hspec : (fieldsOf ms).map fieldStatement ++ (methodsOf ms).map methodStatement
      ++ (if ∃ m ∈ methodsOf ms, m.name = "ngOnInit".toList then ["$scope.ngOnInit();".toList] else [])
      = memberStatements (fieldsOf ms) (methodsOf ms) := by
    unfold memberStatements
    congr 1
    simp only [List.any_eq_true, beq_iff_eq]
  refine ⟨hfields, hsub, hiff, ?_⟩
  rw [hspec, ← hiff]
  unfold scopeStatements
  rw [hfields]
  exact ⟨fun heq => eq_of_memberStatements_eq hsub heq, congrArg _⟩

/-- A field with a comment that looks like a method, and a method behind it. -/
def commented : List Member := [.field ⟨"a", "1 /* \x7b\x7d foo() \x7b\x7d */"⟩, .method ⟨"run", "x", false⟩]

theorem isPrintable_commented : ∀ m ∈ commented, m.IsPrintable := by
  intro m hm
  simp only [commented, List.mem_cons, List.not_mem_nil, or_false] at hm
  rcases hm with rfl | rfl
  · exact {
      name := by decide
      ne_nil := by decide
      trim := by decide
      line := by decide
      arrow := by decide
      braces := by decide
      balanced := by decide
      final := by decide
      semicolons := fun x y h => by
        have hmem : ';' ∈ x ++ ';' :: y := List.mem_append_right x List.mem_cons_self
        rw [← h] at hmem
        exact absurd hmem (by decide) }
  · exact { name := by decide, isMethod := by decide, final := by decide, nested := by decide }

theorem reread_print_commented :
    (∀ m ∈ commented, m.IsPrintable) ∧ Field.ofBody (print commented) = fieldsOf commented ∧
      Method.ofBody (print commented) ≠ methodsOf commented := by
  obtain ⟨hfields, -, hiff, -⟩ := reread_print_iff isPrintable_commented
  have hghost : ghostFree commented = false := by decide +kernel
  refine ⟨isPrintable_commented, hfields, fun h => ?_⟩
  rw [hiff, hghost] at h
  exact Bool.false_ne_true h

/-- Members are free of ghosts when no comment in a value has a closing brace. -/
theorem ghostFree_of_isQuoted {ms : List Member} (h : ∀ m ∈ ms, m.IsPrintable)
    (hquoted : ∀ f ∈ fieldsOf ms, IsQuoted '\x7d' f.value) : ghostFree ms = true := by
  induction ms with
  | nil => rfl
  | cons m ms ih =>
    have hms : ∀ m' ∈ ms, m'.IsPrintable := fun m' hm' => h m' (List.mem_cons_of_mem m hm')
    have hm := h m List.mem_cons_self
    cases m with
    | field f =>
      have hrest := ih hms fun f' hf' => hquoted f' (List.mem_cons_of_mem f hf')
      show ((f.ghosts.isEmpty || (methodsOf ms).isEmpty) && ghostFree ms) = true
      rw [ghosts_eq_nil hm (hquoted f List.mem_cons_self), hrest]
      rfl
    | method m => exact ih hms hquoted

end SnippetPreview.Angular
