import SnippetPreview.Proofs.Script.FieldLines

/-!
# Fields with a string literal

* `IsLiteral`: the closed string literals on one line, as a grammar;
* `IsContent.mask`: masking leaves the quotes of a literal;
* `contributes_literal`: the line of a literal contributes the field, unless the text of the literal has an arrow or
  brackets that do not balance. These two are looked for in the value as it stands, strings and all.
-/

namespace SnippetPreview.Script

/-- The contents of a string literal in these quotes, on one line. -/
inductive IsContent (quote : Char) : Text → Prop where
  | nil : IsContent quote []
  | plain {c : Char} {t : Text} (hquote : c ≠ quote) (hslash : c ≠ '\\') (hline : c ≠ '\n') :
      IsContent quote t → IsContent quote (c :: t)
  | escape {c : Char} {t : Text} (hline : c ≠ '\n') : IsContent quote t → IsContent quote ('\\' :: c :: t)

/-- A closed string literal on one line, in single or double quotes. -/
inductive IsLiteral : Text → Prop where
  | single {t : Text} (h : IsContent '\'' t) : IsLiteral ('\'' :: (t ++ ['\'']))
  | double {t : Text} (h : IsContent '"' t) : IsLiteral ('"' :: (t ++ ['"']))

/-! ### Contents -/

namespace IsContent

variable {quote : Char} {t : Text}

theorem next_plain {c : Char} (hquote : c ≠ quote) (hslash : c ≠ '\\') (hline : c ≠ '\n') (ahead : Option Char) :
    (Mode.quoted quote).next c ahead = .quoted quote := by
  simp [Mode.next, hquote, hslash, hline]

/-- The contents of a literal stay within the literal. -/
theorem behind (h : IsContent quote t) : (Mode.quoted quote).behind t = .quoted quote := by
  induction h with
  | nil => rfl
  | plain hquote hslash hline _ ih => rw [Mode.behind, next_plain hquote hslash hline, ih]
  | escape _ _ ih => exact ih

theorem isOpen_braces (h : IsContent quote t) (pos : Nat) :
    (bracesFrom (.quoted quote) pos t).map Brace.isOpen = [] := by
  induction h generalizing pos with
  | nil => rfl
  | plain hquote hslash hline _ ih =>
    rw [isOpen_bracesFrom_cons, next_plain hquote hslash hline, ih]
    rfl
  | @escape c t _ _ ih =>
    rw [isOpen_bracesFrom_cons, isOpen_bracesFrom_cons]
    exact ih _

/-- A character within a literal that does not close it leaves blanks. -/
theorem maskFrom_cons_quoted {m : Mode} {c : Char} (hm : m.isString = true) (hnext : m.next c t.head? = .quoted quote)
    (hline : c ≠ '\n') :
    Script.maskFrom m 0 (c :: t) = List.replicate c.utf8Size ' ' ++ Script.maskFrom (.quoted quote) 0 t := by
  have hcode : m ≠ .code := by
    rintro rfl
    exact absurd hm nofun
  have hhidden : remains m 0 c t.head? = List.replicate c.utf8Size ' ' := by
    unfold remains isHidden
    rw [hm, hnext]
    exact if_pos (by simpa using hline)
  rw [maskFrom_cons, hhidden, hnext, bracesAt_of_ne hcode]
  rfl

theorem maskFrom (h : IsContent quote t) :
    maskFrom (.quoted quote) 0 t = List.replicate (Text.byteSize t) ' ' := by
  induction h with
  | nil => rfl
  | plain hquote hslash hline _ ih =>
    rw [maskFrom_cons_quoted rfl (next_plain hquote hslash hline _) hline, ih, Text.byteSize_cons, List.replicate_add]
  | @escape c t hline _ ih =>
    have hslash : Script.maskFrom (.quoted quote) 0 ('\\' :: c :: t)
        = List.replicate 1 ' ' ++ Script.maskFrom (.escaped quote) 0 (c :: t) := rfl
    rw [hslash, maskFrom_cons_quoted rfl rfl hline, ih, Text.byteSize_cons, Text.byteSize_cons, List.replicate_add,
      List.replicate_add]
    rfl

end IsContent

/-! ### Literals -/

theorem IsLiteral.exists_content {s : Text} (h : IsLiteral s) :
    ∃ quote t, (quote = '\'' ∨ quote = '"') ∧ IsContent quote t ∧ s = quote :: (t ++ [quote]) := by
  cases h with
  | @single t h => exact ⟨'\'', t, .inl rfl, h, rfl⟩
  | @double t h => exact ⟨'"', t, .inr rfl, h, rfl⟩

section Literal

variable {quote : Char} {t : Text}

theorem next_quote (hquote : quote = '\'' ∨ quote = '"') (ahead : Option Char) :
    Mode.code.next quote ahead = .quoted quote ∧ (Mode.quoted quote).next quote ahead = .code := by
  rcases hquote with rfl | rfl <;> exact ⟨rfl, rfl⟩

theorem calm_quote (hquote : quote = '\'' ∨ quote = '"') : Calm [quote] := by
  rcases hquote with rfl | rfl <;> exact .cons (by decide) (by decide) []

theorem bracesAt_quote (hquote : quote = '\'' ∨ quote = '"') (m : Mode) : bracesAt m quote = [] := by
  refine if_neg ?_
  rcases hquote with rfl | rfl <;> simp

/-- A literal is whole: it ends in code and has no braces there. -/
theorem IsContent.isWhole (hquote : quote = '\'' ∨ quote = '"') (h : IsContent quote t) :
    IsWhole (quote :: (t ++ [quote])) := by
  have hcalm := calm_quote hquote
  constructor
  · rw [Mode.behind, (next_quote hquote _).1, Mode.behind_append hcalm, h.behind]
    exact (next_quote hquote none).2
  · rw [isOpen_bracesFrom_cons, bracesAt_quote hquote, (next_quote hquote _).1, bracesFrom_append hcalm,
      List.map_append, h.isOpen_braces, h.behind, isOpen_bracesFrom_cons, bracesAt_quote hquote]
    rfl

/-- Masking leaves the quotes of a literal. -/
theorem IsContent.mask (hquote : quote = '\'' ∨ quote = '"') (h : IsContent quote t) :
    mask (quote :: (t ++ [quote])) = quote :: (List.replicate (Text.byteSize t) ' ' ++ [quote]) := by
  have hcalm := calm_quote hquote
  have hdepth : depthBehind 0 ((bracesFrom (.quoted quote) 0 t).map Brace.isOpen) = 0 := by
    rw [h.isOpen_braces]
    rfl
  have hend : Script.maskFrom (.quoted quote) 0 [quote] = [quote] := by
    rcases hquote with rfl | rfl <;> rfl
  unfold Script.mask
  rw [maskFrom_code_cons, bracesAt_quote hquote, (next_quote hquote _).1]
  show quote :: Script.maskFrom (.quoted quote) 0 (t ++ [quote]) = _
  rw [maskFrom_append hcalm, h.maskFrom, h.behind, hdepth, hend]

end Literal

/-- A literal does not lose anything when it is trimmed. -/
theorem IsLiteral.trim {s : Text} (h : IsLiteral s) : s.trim = s := by
  obtain ⟨quote, t, hquote, -, rfl⟩ := h.exists_content
  have hblank : isBlank quote = false := by rcases hquote with rfl | rfl <;> decide
  have hpadded := Text.trim_padded (a := []) (b := []) (t := quote :: (t ++ [quote])) rfl rfl hblank
    (by
      rw [← List.cons_append, List.getLast?_concat]
      exact hblank)
  rwa [List.nil_append, List.append_nil] at hpadded

/-- What decides whether a literal is taken for a value: arrows and brackets, although they are in a string. -/
theorem IsLiteral.isCompleteValue {s : Text} (h : IsLiteral s) :
    isCompleteValue s = (!s.contains "=>" && isBalanced s) := by
  have hclosed : quotesClosed s = true := by
    obtain ⟨quote, t, hquote, ht, rfl⟩ := h.exists_content
    rw [quotesClosed, final_scan, (ht.isWhole hquote).final]
    rfl
  have hempty : s.isEmpty = false := by
    obtain ⟨quote, t, -, -, rfl⟩ := h.exists_content
    rfl
  rw [Script.isCompleteValue, hempty, hclosed, Bool.not_false, Bool.true_and, Bool.and_true]

/-! ### Lines -/

section Line

variable {name s : Text} (hname : isIdentifier name = true) (hs : IsLiteral s)

include hs

/-- The literal is the value of its line, as masking shows it. -/
theorem isSignedLine_literal (hname : isIdentifier name = true) :
    IsSignedLine "  " name (" = ".toList ++ s) " = " (mask s) := by
  obtain ⟨quote, t, hquote, ht, hst⟩ := hs.exists_content
  have hwhole : IsWhole s := by
    rw [hst]
    exact ht.isWhole hquote
  have hmask : mask s = quote :: (List.replicate (Text.byteSize t) ' ' ++ [quote]) := by
    rw [hst]
    exact ht.mask hquote
  have hlegible : charNotOf ";\n" quote = true ∧ isBlank quote = false := by
    rcases hquote with rfl | rfl <;> decide
  refine ⟨by decide, hname, .plain_append (by decide) hwhole, maskFrom_plain (by decide) s,
    ⟨[' '], [], [' '], rfl, by decide, .inl rfl, by decide⟩, ?_, ?_⟩
  · have hblanks : (List.replicate (Text.byteSize t) ' ').all (charNotOf ";\n") = true :=
      List.all_eq_true.2 fun c hc => by
        rw [List.eq_of_mem_replicate hc]
        decide
    rw [hmask]
    simp only [List.all_cons, List.all_append, hlegible.1, hblanks, List.all_nil, Bool.and_self]
  · rw [hmask]
    exact hlegible.2

theorem given?_literal (name : Text) :
    (Field.given? name s).toList = if s.contains "=>" = false ∧ isBalanced s = true then [⟨name, s⟩] else [] := by
  have hcomplete : isCompleteValue s = true ↔ s.contains "=>" = false ∧ isBalanced s = true := by
    rw [hs.isCompleteValue, Bool.and_eq_true, Bool.not_eq_true']
  unfold Field.given?
  rw [hs.trim]
  simp only [hcomplete]
  split <;> rfl

include hname

/-- The line of a literal contributes the field or nothing, as the text of the literal has it. -/
theorem contributes_literal : Contributes ("  " ++ name ++ " = " ++ s ++ ";")
    (if s.contains "=>" = false ∧ isBalanced s = true then [⟨name, s⟩] else []) := by
  have hline := contributes_signed (isSignedLine_literal hs hname)
  have hvalue : Text.slice (" = ".toList ++ s) (Text.byteSize " = ") (Text.byteSize (" = ".toList ++ s)) = s :=
    Text.slice_to_end " = " s
  have htext : ("  " ++ name ++ " = " ++ s ++ ";" : Text) = "  ".toList ++ (name ++ (" = ".toList ++ s ++ [';'])) := by
    simp only [List.append_assoc]
    rfl
  rw [hvalue, given?_literal hs name] at hline
  rw [htext]
  exact hline

end Line

/-- **A string literal in a field** is read as it stands, unless it holds an arrow or brackets that do not balance: then
the field is lost. -/
theorem ofBody_literal {name s : Text} (hname : isIdentifier name = true) (hs : IsLiteral s) :
    Field.ofBody ("  " ++ name ++ " = " ++ s ++ ";")
      = if s.contains "=>" = false ∧ isBalanced s = true then [⟨name, s⟩] else [] := by
  have h := contributes_literal hname hs [] (.inl rfl)
  rwa [ofBody_nil, List.append_nil, List.append_nil] at h

theorem ofBody_literal_parenthesis :
    isIdentifier "open".toList = true ∧ IsLiteral "'('".toList ∧ Field.ofBody "  open = '(';".toList = [] := by
  have hname : isIdentifier "open".toList = true := by decide
  have hs : IsLiteral "'('".toList := .single (.plain (by decide) (by decide) (by decide) .nil)
  exact ⟨hname, hs, (ofBody_literal hname hs).trans (if_neg (by decide))⟩

end SnippetPreview.Script
