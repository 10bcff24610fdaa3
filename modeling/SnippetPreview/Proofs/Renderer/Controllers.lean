import SnippetPreview.Proofs.Script.Bodies
import SnippetPreview.Renderer.Angular

/-!
# Statements of a controller by themselves

* `IsSelfContained`: statements that end in code with their braces balanced when they are scanned by themselves;
* `isSelfContained_field_iff`, `isSelfContained_method`: which assignments are such statements;
* `stands_controller`: in a controller, what stands behind such statements is code of its function;
* `selfContained_scopeStatements`: what that comes to for the statements of a class body.
-/

namespace SnippetPreview.Angular

open Pattern Script

/-- With a line feed behind it, a scan of the statement ends in code with its braces balanced. -/
def IsSelfContained (s : Text) : Prop := (scan (s ++ ['\n'])).final = .code ∧ isNested (s ++ ['\n']) = true

instance : DecidablePred IsSelfContained := fun _ => inferInstanceAs (Decidable (_ ∧ _))

theorem isSelfContained_iff {s : Text} : IsSelfContained s ↔ IsWhole (s ++ ['\n']) := by
  rw [IsSelfContained, final_scan, isNested, braces_scan, beq_iff_eq]
  exact ⟨fun h => ⟨h.1, h.2⟩, fun h => ⟨h.final, h.nested⟩⟩

theorem isPlainCode_of_isIdentifier {name : Text} (h : isIdentifier name = true) : name.all isPlainCode = true :=
  all_mono (fun _ => isPlainCode_of_isIdentRest) (all_isIdentRest_of_isIdentifier h)

/-- The assignment of a field is self-contained unless its value ends in a block comment or has braces in code that do not
balance. -/
theorem isSelfContained_field_iff {f : Field} (hname : isIdentifier f.name = true) (hquotes : quotesClosed f.value = true) :
    IsSelfContained (fieldStatement f) ↔ (scan f.value).final ≠ .blockComment ∧ isNested f.value = true := by
  have hfront : ("$scope.".toList ++ f.name ++ " = ").all isPlainCode = true := by
    rw [List.all_append, List.all_append, isPlainCode_of_isIdentifier hname]
    decide
  have hline : fieldStatement f ++ ['\n'] = ("$scope.".toList ++ f.name ++ " = ") ++ (f.value ++ [';', '\n']) := by
    have hassoc : ∀ front value : Text, front ++ value ++ [';'] ++ ['\n'] = front ++ (value ++ [';', '\n']) := by
      simp only [List.append_assoc, List.cons_append, List.nil_append, implies_true]
    exact hassoc _ _
  rw [isSelfContained_iff, hline, isWhole_plain_append_iff hfront, isWhole_value_iff hquotes]

/-- The assignment of a method is self-contained when its body is whole. -/
theorem isSelfContained_method {f : Method} (hname : isIdentifier f.name = true) (hbody : IsWhole f.body) :
    IsSelfContained (methodStatement f) := by
  have hfront : ("$scope.".toList ++ f.name ++ " = " ++ (if f.isAsync then "async ".toList else []) ++ "function () ").all
      isPlainCode = true := by
    rw [List.all_append, List.all_append, List.all_append, List.all_append, isPlainCode_of_isIdentifier hname]
    cases f.isAsync <;> decide
  have hline : methodStatement f ++ ['\n'] = ("$scope.".toList ++ f.name ++ " = "
      ++ (if f.isAsync then "async ".toList else []) ++ "function () ") ++ ('\x7b' :: (f.body ++ ['\x7d']) ++ [';', '\n']) := by
    have hassoc : ∀ front sign body : Text, front ++ (sign ++ ['\x7b']) ++ body ++ ['\x7d', ';'] ++ ['\n']
        = front ++ sign ++ ('\x7b' :: (body ++ ['\x7d']) ++ [';', '\n']) := by
      simp only [List.append_assoc, List.cons_append, List.nil_append, implies_true]
    exact hassoc _ "function () " _
  have hend : IsWhole [';', '\n'] := .plain (by decide)
  rw [isSelfContained_iff, hline, isWhole_plain_append_iff hfront]
  exact hbody.braced.append hend (.cons (by decide) (by decide) _)

/-! ### Controllers -/

/-- The controller up to its statements. -/
def controllerHead : Text :=
  "angular.module('previewApp', []).controller('MainController', ['$scope', function ($scope) \x7b\n"

/-- A scan of the text ends in code inside one pair of braces. -/
def StandsInFunction (x : Text) : Prop :=
  (scan x).final = .code ∧ nesting? 0 ((scan x).braces.map Brace.isOpen) = some 1

instance : DecidablePred StandsInFunction := fun _ => inferInstanceAs (Decidable (_ ∧ _))

/-- What is whole leaves the function open that it stands in. -/
theorem StandsInFunction.append {x y : Text} (hx : StandsInFunction x) (hy : IsWhole y) (hcalm : Calm y) :
    StandsInFunction (x ++ y) := by
  obtain ⟨hfinal, hnested⟩ := hx
  rw [final_scan] at hfinal
  rw [braces_scan] at hnested
  refine ⟨?_, ?_⟩
  · rw [final_scan, Mode.behind_append hcalm, hfinal, hy.final]
  · rw [braces_scan, bracesFrom_append hcalm, List.map_append, nesting?_append, hnested, hfinal, isOpen_bracesFrom _ _ 0]
    exact nesting?_of_balanced hy.nested 1

theorem StandsInFunction.lines {x : Text} (hx : StandsInFunction x) {statements : List Text}
    (h : ∀ s ∈ statements, IsSelfContained s) : StandsInFunction (x ++ statements.flatMap statementLine) := by
  induction statements generalizing x with
  | nil => rwa [List.flatMap_nil, List.append_nil]
  | cons s statements ih =>
    have hs : IsWhole (statementLine s) := by
      have hline : statementLine s = [' ', ' '] ++ (s ++ ['\n']) := by simp [statementLine]
      rw [hline]
      exact .plain_append (by decide) (isSelfContained_iff.1 (h s List.mem_cons_self))
    rw [List.flatMap_cons, ← List.append_assoc]
    exact ih (hx.append hs (.cons (by decide) (by decide) _)) fun s' hs' => h s' (List.mem_cons_of_mem s hs')

/-- Behind self-contained statements a controller goes on as code of its function. -/
theorem stands_controller {front : List Text} (h : ∀ s ∈ front, IsSelfContained s) (back : List Text) :
    ∃ x, controller (front ++ back) = x ++ back.flatMap statementLine ++ "\x7d]);" ∧ StandsInFunction x := by
  have hhead : StandsInFunction controllerHead := by decide +kernel
  have hseed : ∀ s ∈ scopeSeed, IsSelfContained s := by decide +kernel
  refine ⟨controllerHead ++ (scopeSeed ++ front).flatMap statementLine, ?_, ?_⟩
  · have hassoc : ∀ head close : Text, head ++ (scopeSeed ++ (front ++ back)).flatMap statementLine ++ close
        = head ++ (scopeSeed ++ front).flatMap statementLine ++ back.flatMap statementLine ++ close := by
      intro head close
      rw [← List.append_assoc scopeSeed, List.flatMap_append, ← List.append_assoc head]
    exact hassoc controllerHead _
  · refine hhead.lines fun s hs => ?_
    rcases List.mem_append.1 hs with hs | hs
    · exact hseed s hs
    · exact h s hs

/-! ### The statements of a class body -/

theorem mem_scopeStatements {body s : Text} (h : s ∈ scopeStatements body) :
    (∃ f ∈ Field.ofBody body, s = fieldStatement f) ∨ (∃ f ∈ Method.ofBody body, s = methodStatement f) ∨
      s = "$scope.ngOnInit();" := by
  rcases List.mem_append.1 h with h | h
  · rcases List.mem_append.1 h with h | h
    · obtain ⟨f, hf, rfl⟩ := List.mem_map.1 h
      exact .inl ⟨f, hf, rfl⟩
    · obtain ⟨f, hf, rfl⟩ := List.mem_map.1 h
      exact .inr (.inl ⟨f, hf, rfl⟩)
  · split at h
    · exact .inr (.inr (List.mem_singleton.1 h))
    · exact absurd h List.not_mem_nil

theorem fieldStatement_mem {body : Text} {f : Field} (hf : f ∈ Field.ofBody body) : fieldStatement f ∈ scopeStatements body :=
  List.mem_append_left _ (List.mem_append_left _ (List.mem_map_of_mem hf))

theorem methodStatement_mem {body : Text} {f : Method} (hf : f ∈ Method.ofBody body) :
    methodStatement f ∈ scopeStatements body :=
  List.mem_append_left _ (List.mem_append_right _ (List.mem_map_of_mem hf))

/-- **Which statements of a class body are self-contained.** The assignment of a field is if and only if its value does not
end in a block comment and the braces in it that stand in code balance, which they do when no brace of the value is in a string
or a comment. The assignment of a method is when the brace in front of its body stands in code. So all statements are if and
only if those of the fields are and those of the methods whose brace is in a comment. Whatever the statements are, behind
those that are self-contained the controller goes on as code of its function. -/
theorem selfContained_scopeStatements (body : Text) :
    (∀ f ∈ Field.ofBody body,
        (IsSelfContained (fieldStatement f) ↔ (scan f.value).final ≠ .blockComment ∧ isNested f.value = true) ∧
          (ShowsBraces f.value → isNested f.value = true)) ∧
      (∀ m ∈ methodPattern.finds (mask body), openingMode body m = .code →
        ∀ f, Method.ofMatch? body m = some f → IsSelfContained (methodStatement f)) ∧
      ((∀ s ∈ scopeStatements body, IsSelfContained s) ↔
        (∀ f ∈ Field.ofBody body, IsSelfContained (fieldStatement f)) ∧
          ∀ m ∈ methodPattern.finds (mask body), (openingMode body m).isComment = true →
            ∀ f, Method.ofMatch? body m = some f → IsSelfContained (methodStatement f)) ∧
      ∀ front back, scopeStatements body = front ++ back → (∀ s ∈ front, IsSelfContained s) →
        ∃ x, controller (scopeStatements body) = x ++ back.flatMap statementLine ++ "\x7d]);" ∧ StandsInFunction x := by
  have hmethods : ∀ m ∈ methodPattern.finds (mask body), openingMode body m = .code →
      ∀ f, Method.ofMatch? body m = some f → IsSelfContained (methodStatement f) := by
    intro m hm hopens f hf
    obtain ⟨hname, hbody⟩ := isWhole_body hm hopens hf
    exact isSelfContained_method hname hbody
  refine ⟨?_, hmethods, ?_, ?_⟩
  · intro f hf
    obtain ⟨hname, hcomplete⟩ := isIdentifier_of_mem_fields hf
    simp only [isCompleteValue, Bool.and_eq_true] at hcomplete
    exact ⟨isSelfContained_field_iff hname hcomplete.1.2, fun hshown => isNested_of_shown hshown hcomplete.2⟩
  · constructor
    · intro h
      refine ⟨fun f hf => h _ (fieldStatement_mem hf), ?_⟩
      intro m hm _ f hf
      exact h _ (methodStatement_mem (List.mem_filterMap.2 ⟨m, hm, hf⟩))
    · rintro ⟨hfields, hcommented⟩ s hs
      rcases mem_scopeStatements hs with ⟨f, hf, rfl⟩ | ⟨f, hf, rfl⟩ | rfl
      · exact hfields f hf
      · obtain ⟨m, hm, hf⟩ := List.mem_filterMap.1 hf
        rcases openingMode_cases hm with hopens | hopens
        · exact hmethods m hm hopens f hf
        · exact hcommented m hm hopens f hf
      · decide
  · intro front back hcut hfront
    rw [hcut]
    exact stands_controller hfront back

/-- A class body with a value over two lines, a closing brace in a string literal of it, and a method. -/
def braceInString : Text := "  a = \x7b'\x7d': 1,\n  b: 2\x7d;\n  run() \x7bx\x7d\n"

/-- The first line of the value is taken for the value: it leaves a brace open, and the method behind it stands inside. -/
theorem selfContained_scopeStatements_braceInString :
    ∃ f ∈ Field.ofBody braceInString, ∃ g ∈ Method.ofBody braceInString,
      scopeStatements braceInString = [fieldStatement f, methodStatement g] ∧ ¬ IsSelfContained (fieldStatement f) ∧
        IsSelfContained (methodStatement g) ∧
        ¬ StandsInFunction (controllerHead ++ (scopeSeed ++ [fieldStatement f]).flatMap statementLine) := by
  obtain ⟨hfields, hmethods, -, -⟩ := selfContained_scopeStatements braceInString
  have hf : (⟨"a", "\x7b'\x7d': 1,"⟩ : Field) ∈ Field.ofBody braceInString := by decide +kernel
  have hg : (⟨"run", "x", false⟩ : Method) ∈ Method.ofBody braceInString := by decide +kernel
  have hopens : ∀ m ∈ methodPattern.finds (mask braceInString), openingMode braceInString m = .code := by decide +kernel
  obtain ⟨m, hm, hmatch⟩ := List.mem_filterMap.1 hg
  refine ⟨_, hf, _, hg, by decide +kernel, ?_, hmethods m hm (hopens m hm) _ hmatch, by decide +kernel⟩
  intro h
  exact absurd ((hfields _ hf).1.1 h).2 (by decide)

end SnippetPreview.Angular
