import SnippetPreview.Proofs.Script.Masking
import SnippetPreview.Proofs.Script.Names
import SnippetPreview.Proofs.Text.Separators
import SnippetPreview.Script.Members

/-!
# Class bodies in print

* `Member`, `print`: the members of a class, each on lines of its own;
* `Member.IsPrintable`: what a member must be for its text to be told from its surroundings;
* `IsWhole`: texts that end in code with all their braces closed, such as the line of a member;
* `mask_print`: masking a printed class body masks the values and bodies of its members, line by line.
-/

namespace SnippetPreview.Script

/-! ### Members -/

inductive Member where
  | field (f : Field)
  | method (m : Method)
deriving DecidableEq, Repr

namespace Member

def field? : Member → Option Field
  | field f => some f
  | method _ => none

def method? : Member → Option Method
  | field _ => none
  | method m => some m

def fieldLine (f : Field) : Text := "  " ++ f.name ++ " = " ++ f.value ++ ";\n"

/-- What tells an asynchronous method from others. -/
def marker (m : Method) : Text := if m.isAsync then "async ".toList else []

/-- The line of a method in front of its opening brace. -/
def opening (m : Method) : Text := "  " ++ marker m ++ m.name ++ "() "

def methodLines (m : Method) : Text := opening m ++ "\x7b" ++ m.body ++ "\x7d\n"

def print : Member → Text
  | field f => fieldLine f
  | method m => methodLines m

end Member

/-- A class body with these members, each on lines of its own. -/
def print (ms : List Member) : Text := ms.flatMap Member.print

def fieldsOf (ms : List Member) : List Field := ms.filterMap Member.field?

def methodsOf (ms : List Member) : List Method := ms.filterMap Member.method?

/-- Wherever the character stands in the text, it is inside a string literal. -/
def IsQuoted (c : Char) (t : Text) : Prop :=
  ∀ x y, t = x ++ c :: y → ∃ r ∈ (scan t).strings, r.1 ≤ Text.byteSize x ∧ Text.byteSize x < r.2

/-- A field with a value on one line that reads as a value of its own, its semicolons being in string literals. -/
structure Field.IsPrintable (f : Field) : Prop where
  name : isName f.name = true
  ne_nil : f.value ≠ []
  trim : f.value.trim = f.value
  line : '\n' ∉ f.value
  arrow : f.value.contains "=>" = false
  braces : (scan f.value).braces = []
  balanced : isBalanced f.value = true
  final : (scan f.value).final = .code
  semicolons : IsQuoted ';' f.value

/-- A method with any body that ends in code with its braces balanced. -/
structure Method.IsPrintable (m : Method) : Prop where
  name : isName m.name = true
  isMethod : m.name ∉ nonMethods
  final : (scan m.body).final = .code
  nested : isNested m.body = true

/-- The member can be told from what surrounds it in print. -/
def Member.IsPrintable : Member → Prop
  | field f => f.IsPrintable
  | method m => m.IsPrintable

/-! ### Whole texts -/

/-- The text ends in code, with its braces closed. -/
structure IsWhole (t : Text) : Prop where
  final : Mode.behind .code t = .code
  nested : nesting? 0 ((bracesFrom .code 0 t).map Brace.isOpen) = some 0

namespace IsWhole

variable {x y b : Text}

theorem nil : IsWhole [] := ⟨rfl, rfl⟩

theorem of_scan (hfinal : (scan x).final = .code) (hnested : isNested x = true) : IsWhole x :=
  ⟨(final_scan x).symm.trans hfinal, beq_iff_eq.1 hnested⟩

theorem append (hx : IsWhole x) (hy : IsWhole y) (hcalm : Calm y) : IsWhole (x ++ y) := by
  refine ⟨?_, ?_⟩
  · rw [Mode.behind_append hcalm, hx.final, hy.final]
  · rw [bracesFrom_append hcalm, List.map_append, nesting?_append, hx.nested, hx.final, isOpen_bracesFrom _ _ 0]
    exact hy.nested

theorem plain_append (hx : x.all isPlainCode = true) (hy : IsWhole y) : IsWhole (x ++ y) := by
  refine ⟨?_, ?_⟩
  · rw [Mode.behind_plain_append hx, hy.final]
  · rw [bracesFrom_plain hx, isOpen_bracesFrom _ _ 0]
    exact hy.nested

theorem plain (hx : x.all isPlainCode = true) : IsWhole x := by
  have h := plain_append hx nil
  rwa [List.append_nil] at h

theorem braced (hb : IsWhole b) : IsWhole ('\x7b' :: (b ++ ['\x7d'])) := by
  have hclose : Calm ['\x7d'] := .cons (by decide) (by decide) _
  refine ⟨?_, ?_⟩
  · show Mode.code.behind (b ++ ['\x7d']) = .code
    rw [Mode.behind_append hclose, hb.final]
    rfl
  · show nesting? 1 ((bracesFrom .code _ (b ++ ['\x7d'])).map Brace.isOpen) = some 0
    rw [bracesFrom_append hclose, List.map_append, nesting?_append, isOpen_bracesFrom _ _ 0,
      nesting?_of_balanced hb.nested 1, hb.final]
    rfl

theorem maskFrom_append (hx : IsWhole x) (hcalm : Calm y) (depth : Nat) :
    maskFrom .code depth (x ++ y) = maskFrom .code depth x ++ maskFrom .code depth y := by
  have hdepth := depthBehind_of_nesting hx.nested depth
  rw [Nat.zero_add] at hdepth
  rw [Script.maskFrom_append hcalm, hx.final, hdepth]

end IsWhole

/-! ### Lines -/

theorem isPlainCode_of_isName {name : Text} (h : isName name = true) : name.all isPlainCode = true :=
  List.all_eq_true.2 fun c hc =>
    isPlainCode_of_isNameRest (List.all_eq_true.1 (all_isNameRest_of_isName h) c hc)

namespace Member

/-- The line of a field in front of its value. -/
def naming (f : Field) : Text := "  " ++ f.name ++ " = "

theorem naming_append (f : Field) (z : Text) : naming f ++ z = ' ' :: ' ' :: (f.name ++ ' ' :: '=' :: ' ' :: z) := by
  rw [naming, List.append_assoc, List.append_assoc]
  rfl

theorem opening_append (m : Method) (z : Text) :
    opening m ++ z = ' ' :: ' ' :: (marker m ++ (m.name ++ '(' :: ')' :: ' ' :: z)) := by
  rw [opening, List.append_assoc, List.append_assoc, List.append_assoc]
  rfl

theorem fieldLine_eq (f : Field) : fieldLine f = naming f ++ (f.value ++ [';', '\n']) := List.append_assoc ..

theorem methodLines_eq (m : Method) : methodLines m = opening m ++ '\x7b' :: (m.body ++ ['\x7d', '\n']) := by
  rw [methodLines, List.append_assoc, List.append_assoc]
  rfl

theorem isPlainCode_naming {f : Field} (h : isName f.name = true) : (naming f).all isPlainCode = true := by
  unfold naming
  rw [List.all_append, List.all_append, isPlainCode_of_isName h]
  decide

theorem isPlainCode_opening {m : Method} (h : isName m.name = true) : (opening m).all isPlainCode = true := by
  unfold opening
  rw [List.all_append, List.all_append, List.all_append, isPlainCode_of_isName h, marker]
  cases m.isAsync <;> decide

end Member

theorem print_field (f : Field) (ms : List Member) :
    print (.field f :: ms) = Member.naming f ++ (f.value ++ ';' :: '\n' :: print ms) := by
  show Member.fieldLine f ++ print ms = _
  rw [Member.fieldLine_eq, List.append_assoc, List.append_assoc]
  rfl

theorem print_method (m : Method) (ms : List Member) :
    print (.method m :: ms) = Member.opening m ++ '\x7b' :: (m.body ++ '\x7d' :: '\n' :: print ms) := by
  show Member.methodLines m ++ print ms = _
  rw [Member.methodLines_eq, List.append_assoc, List.cons_append, List.append_assoc]
  rfl

theorem Field.IsPrintable.isWhole {f : Field} (h : f.IsPrintable) : IsWhole f.value :=
  .of_scan h.final (by rw [isNested, h.braces]; rfl)

theorem Method.IsPrintable.isWhole {m : Method} (h : m.IsPrintable) : IsWhole m.body := .of_scan h.final h.nested

theorem Member.calm_print (m : Member) : Calm m.print := by
  cases m <;> exact .cons (by decide) (by decide) _

theorem calm_print (ms : List Member) : Calm (print ms) := by
  cases ms with
  | nil => exact .nil
  | cons m ms => cases m <;> exact .cons (by decide) (by decide) _

theorem Member.IsPrintable.isWhole_print {m : Member} (h : m.IsPrintable) : IsWhole m.print := by
  cases m with
  | field f =>
    have hend : IsWhole [';', '\n'] := .plain (by decide)
    have hvalue := h.isWhole.append hend (.cons (by decide) (by decide) _)
    show IsWhole (fieldLine f)
    rw [fieldLine_eq]
    exact .plain_append (isPlainCode_naming h.name) hvalue
  | method m =>
    have hend : IsWhole ['\n'] := .plain (by decide)
    have hbody := h.isWhole.braced.append hend (.cons (by decide) (by decide) _)
    show IsWhole (methodLines m)
    rw [methodLines_eq]
    rw [List.cons_append, List.append_assoc] at hbody
    exact .plain_append (isPlainCode_opening h.name) hbody

theorem isWhole_print {ms : List Member} (h : ∀ m ∈ ms, m.IsPrintable) : IsWhole (print ms) := by
  induction ms with
  | nil => exact .nil
  | cons m ms ih =>
    have hm := h m List.mem_cons_self
    exact hm.isWhole_print.append (ih fun m' hm' => h m' (List.mem_cons_of_mem m hm')) (calm_print ms)

/-! ### Masking -/

/-- The member with what masking leaves of its value or body. -/
def Member.masked : Member → Member
  | field f => field ⟨f.name, mask f.value⟩
  | method m => method ⟨m.name, maskFrom .code 1 m.body, m.isAsync⟩

theorem mask_print_member {m : Member} (h : m.IsPrintable) : mask m.print = m.masked.print := by
  unfold mask
  cases m with
  | field f =>
    have hend : maskFrom .code 0 [';', '\n'] = [';', '\n'] := by decide
    show maskFrom .code 0 (Member.fieldLine f) = Member.fieldLine ⟨f.name, mask f.value⟩
    rw [Member.fieldLine_eq, Member.fieldLine_eq, maskFrom_plain (Member.isPlainCode_naming h.name),
      h.isWhole.maskFrom_append (.cons (by decide) (by decide) _), hend]
    rfl
  | method m =>
    have hend : maskFrom .code 1 ['\x7d', '\n'] = ['\x7d', '\n'] := by decide
    have hbody : maskFrom .code 0 ('\x7b' :: (m.body ++ ['\x7d', '\n']))
        = '\x7b' :: (maskFrom .code 1 m.body ++ ['\x7d', '\n']) := by
      rw [maskFrom_code_cons]
      show '\x7b' :: maskFrom .code 1 (m.body ++ ['\x7d', '\n']) = _
      rw [h.isWhole.maskFrom_append (.cons (by decide) (by decide) _), hend]
    show maskFrom .code 0 (Member.methodLines m) = Member.methodLines ⟨m.name, maskFrom .code 1 m.body, m.isAsync⟩
    rw [Member.methodLines_eq, Member.methodLines_eq, maskFrom_plain (Member.isPlainCode_opening h.name), hbody]
    rfl

/-- A printed class body is masked member by member. -/
theorem mask_print {ms : List Member} (h : ∀ m ∈ ms, m.IsPrintable) :
    mask (print ms) = print (ms.map Member.masked) := by
  induction ms with
  | nil => rfl
  | cons m ms ih =>
    have hm := h m List.mem_cons_self
    have hms := ih fun m' hm' => h m' (List.mem_cons_of_mem m hm')
    show mask (m.print ++ print ms) = m.masked.print ++ print (ms.map Member.masked)
    rw [← hms, ← mask_print_member hm]
    exact hm.isWhole_print.maskFrom_append (calm_print ms) 0

theorem byteSize_print_masked {m : Member} (h : m.IsPrintable) :
    Text.byteSize m.masked.print = Text.byteSize m.print := by
  rw [← mask_print_member h, byteSize_mask]

/-- The masked body of a method is blank. -/
theorem Method.IsPrintable.blank {m : Method} (h : m.IsPrintable) :
    ∀ c ∈ maskFrom .code 1 m.body, c = ' ' ∨ c = '\n' := maskFrom_nested h.isWhole.nested

/-- Masking blanks out the contents of string literals. -/
theorem not_mem_mask_of_isQuoted {c : Char} (hb : c ≠ ' ') (hl : c ≠ '\n') (hcalm : ∀ y, Calm (c :: y)) {t : Text}
    (h : IsQuoted c t) : c ∉ mask t := by
  intro hmem
  obtain ⟨u, w, huw⟩ := List.append_of_mem hmem
  obtain ⟨x, y, rfl, -, hmode⟩ := exists_cut_of_mask hb hl hcalm huw
  obtain ⟨r, hr, hstart, hstop⟩ := h x y rfl
  have hinside := mode_of_mem_strings (hcalm y) (Nat.le_refl 0) hr (by omega) (by omega)
  exact hinside.2 (hmode hinside.1)

/-- The masked value of a field is on one line and has no semicolons. -/
theorem Field.IsPrintable.line_mask {f : Field} (h : f.IsPrintable) :
    (mask f.value).all (charNotOf ";\n") = true := by
  have hline : '\n' ∉ mask f.value := not_mem_maskFrom (by decide) h.line _ _
  have hsemicolon : ';' ∉ mask f.value :=
    not_mem_mask_of_isQuoted (by decide) (by decide) (fun y => .cons (by decide) (by decide) y) h.semicolons
  refine List.all_eq_true.2 fun c hc => ?_
  have hne : c ≠ ';' ∧ c ≠ '\n' := ⟨fun h => hsemicolon (h ▸ hc), fun h => hline (h ▸ hc)⟩
  simp [charNotOf, hne.1, hne.2]

theorem head?_mask (t : Text) : (mask t).head? = t.head? := by
  cases t with
  | nil => rfl
  | cons c t =>
    unfold mask
    rw [maskFrom_code_cons]
    rfl

/-- The masked value of a field does not start with a blank. -/
theorem Field.IsPrintable.isBlank_head?_mask {f : Field} (h : f.IsPrintable) (z : Text) :
    (mask f.value ++ z).head?.any isBlank = false := by
  have hhead : f.value.head?.any isBlank = false := by
    rw [← h.trim]
    exact Text.isBlank_head?_trim f.value
  obtain ⟨c, t, hct⟩ := List.exists_cons_of_ne_nil h.ne_nil
  rw [List.head?_append, head?_mask]
  rw [hct] at hhead ⊢
  exact hhead

end SnippetPreview.Script
