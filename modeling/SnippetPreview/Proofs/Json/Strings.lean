import SnippetPreview.Json.Lexical

/-!
# Strings of JSON there and back

* `stringWithin?_escapeChar`: a character inside a string is read as what was written, whichever way it is escaped;
* `string?_quoted`: so is a whole string behind its opening quote, whatever follows it.
-/

namespace SnippetPreview.Json

/-! ### Escapes -/

theorem hexValue?_hexDigit {n : Nat} (h : n < 16) : hexValue? (hexDigit n) = some n := by
  have hall : ∀ k < 16, hexValue? (hexDigit k) = some k := by decide
  exact hall n h

/-- A control character is taken back from its code. -/
theorem unicodeEscape?_control {c : Char} (h : c.toNat < 0x20) (rest : Text) :
    unicodeEscape? ('0' :: '0' :: hexDigit (c.toNat / 16) :: hexDigit (c.toNat % 16) :: rest) = some (c, rest) := by
  have hzero : hexValue? '0' = some 0 := rfl
  have hcode : hex4? ('0' :: '0' :: hexDigit (c.toNat / 16) :: hexDigit (c.toNat % 16) :: rest)
      = some (c.toNat, rest) := by
    rw [hex4?, hzero, hexValue?_hexDigit (by omega), hexValue?_hexDigit (by omega)]
    show some (0 + c.toNat / 16 * 16 + c.toNat % 16, rest) = some (c.toNat, rest)
    rw [Nat.zero_add, Nat.div_add_mod']
  rw [unicodeEscape?, hcode]
  show (if _ then _ else _) = _
  rw [if_neg (by omega), if_neg (by omega), Char.ofNat_toNat]
  rfl

/-- A character is escaped by a letter, by its code, or not at all. -/
theorem escapeChar_cases (c : Char) :
    (∃ d, escapeChar c = ['\\', d] ∧ d ≠ 'u' ∧ simpleEscape? d = some c) ∨
    (escapeChar c = ['\\', 'u', '0', '0', hexDigit (c.toNat / 16), hexDigit (c.toNat % 16)] ∧ c.toNat < 0x20) ∨
    (escapeChar c = [c] ∧ c ≠ '"' ∧ c ≠ '\\' ∧ ¬ c.toNat < 0x20) := by
  by_cases hletter : c ∈ ['"', '\\', '\n', '\r', '\t', '\x08', '\x0c']
  · simp only [List.mem_cons, List.not_mem_nil, or_false] at hletter
    rcases hletter with rfl | rfl | rfl | rfl | rfl | rfl | rfl <;> exact .inl ⟨_, rfl, by decide, rfl⟩
  · simp only [List.mem_cons, List.not_mem_nil, or_false, not_or] at hletter
    by_cases hcontrol : c.toNat < 0x20
    · exact .inr (.inl ⟨by simp [escapeChar, hletter, hcontrol], hcontrol⟩)
    · exact .inr (.inr ⟨by simp [escapeChar, hletter, hcontrol], hletter.1, hletter.2.1, hcontrol⟩)

/-! ### Strings -/

theorem stringWithin?_backslash {c : Char} {t t' : Text} (h : escape? t = some (c, t')) (n : Nat) :
    stringWithin? (n + 1) ('\\' :: t) = (stringWithin? n t').map fun found => (c :: found.1, found.2) := by
  rw [stringWithin?, if_neg (by decide), if_pos rfl, h, Option.bind_eq_bind, Option.bind_some]
  dsimp only
  cases stringWithin? n t' <;> rfl

/-- A character inside a string is read as what was written. -/
theorem stringWithin?_escapeChar (c : Char) (n : Nat) (t : Text) :
    stringWithin? (n + 1) (escapeChar c ++ t) = (stringWithin? n t).map fun found => (c :: found.1, found.2) := by
  rcases escapeChar_cases c with ⟨d, hc, hu, hd⟩ | ⟨hc, hcontrol⟩ | ⟨hc, hquote, hbackslash, hcontrol⟩
  · have hescape : escape? (d :: t) = some (c, t) := by
      rw [escape?, hd]
      · rfl
      · exact hu
    rw [hc]
    exact stringWithin?_backslash hescape n
  · have hescape : escape? ('u' :: '0' :: '0' :: hexDigit (c.toNat / 16) :: hexDigit (c.toNat % 16) :: t) = some (c, t) :=
      unicodeEscape?_control hcontrol t
    rw [hc]
    exact stringWithin?_backslash hescape n
  · rw [hc, List.singleton_append, stringWithin?, if_neg hquote, if_neg hbackslash, if_neg hcontrol]
    cases stringWithin? n t <;> rfl

theorem stringWithin?_flatMap (t rest : Text) {n : Nat} (hn : t.length < n) :
    stringWithin? n (t.flatMap escapeChar ++ '"' :: rest) = some (t, rest) := by
  induction t generalizing n with
  | nil =>
    obtain ⟨n, rfl⟩ := Nat.exists_eq_add_one.2 (Nat.zero_lt_of_lt hn)
    rfl
  | cons c t ih =>
    obtain ⟨n, rfl⟩ := Nat.exists_eq_add_one.2 (Nat.zero_lt_of_lt hn)
    rw [List.flatMap_cons, List.append_assoc, stringWithin?_escapeChar, ih (Nat.lt_of_succ_lt_succ hn)]
    rfl

theorem length_le_length_flatMap_escapeChar (t : Text) : t.length ≤ (t.flatMap escapeChar).length := by
  induction t with
  | nil => exact Nat.le_refl 0
  | cons c t ih =>
    have hchar : 1 ≤ (escapeChar c).length := by
      rcases escapeChar_cases c with ⟨d, hc, -⟩ | ⟨hc, -⟩ | ⟨hc, -⟩ <;> simp [hc]
    rw [List.flatMap_cons, List.length_append, List.length_cons]
    omega

/-- A string is read as what was written, whatever follows it. -/
theorem string?_quoted (t rest : Text) : string? (t.flatMap escapeChar ++ '"' :: rest) = some (t, rest) := by
  have hlength := length_le_length_flatMap_escapeChar t
  refine stringWithin?_flatMap t rest ?_
  rw [List.length_append]
  omega

end SnippetPreview.Json
