import SnippetPreview.Proofs.Script.Bodies
import SnippetPreview.Proofs.Script.Legible

/-!
# Slices of a class body

* `IsBoundary`, `IsSlice`: the offsets that a text can be cut at without cutting a character;
* `isBoundary_of_legible`, `isBoundary_behind_sign`: where a mask is legible, its offsets are such offsets of the text;
* `exists_isSlice_of_mem_fields`, `isSlice_of_mem_methods`: so are those of the values and bodies that are found in it;
* `mask_keeps_slices`: a class body is cut at such offsets only, though there are more of them in its mask.
-/

namespace SnippetPreview.Script

open Pattern

/-! ### Offsets to cut at -/

/-- The offset is in front of a character or at the end of the text. -/
def IsBoundary (t : Text) (n : Nat) : Prop := ∃ x y, t = x ++ y ∧ Text.byteSize x = n

/-- The offsets are in order and within the text, and neither is inside a character. -/
structure IsSlice (t : Text) (start stop : Nat) : Prop where
  ordered : start ≤ stop
  inRange : stop ≤ Text.byteSize t
  isBoundary_start : IsBoundary t start
  isBoundary_stop : IsBoundary t stop

theorem IsBoundary.le {t : Text} {n : Nat} (h : IsBoundary t n) : n ≤ Text.byteSize t := by
  obtain ⟨x, y, rfl, rfl⟩ := h
  rw [Text.byteSize_append]
  exact Nat.le_add_right _ _

theorem IsSlice.of_isBoundary {t : Text} {start stop : Nat} (hle : start ≤ stop) (hstart : IsBoundary t start)
    (hstop : IsBoundary t stop) : IsSlice t start stop := ⟨hle, hstop.le, hstart, hstop⟩

/-! ### Offsets of a mask -/

/-- The end of a mask and the places where it has a line feed or a semicolon are places of the text. -/
theorem isBoundary_of_legible {t u w : Text} (h : mask t = u ++ w) (hw : w.head?.any (charNotOf ";\n") = false) :
    IsBoundary t (Text.byteSize u) := by
  cases w with
  | nil =>
    refine ⟨t, [], (List.append_nil t).symm, ?_⟩
    rw [← byteSize_mask t, h, List.append_nil]
  | cons c w =>
    have hc : c = ';' ∨ c = '\n' := by
      rw [List.head?_cons, Option.any_some, charNotOf, Bool.not_eq_false'] at hw
      simpa using hw
    have hcalm : ∀ y, Calm (c :: y) := by
      rcases hc with rfl | rfl <;> exact .cons (by decide) (by decide)
    have hblank : c ≠ ' ' := by
      rcases hc with rfl | rfl <;> decide
    obtain ⟨x, y, rfl, rfl, -, -⟩ := exists_cut_of_maskFrom hblank hcalm h
    exact ⟨x, c :: y, rfl, (byteSize_maskFrom ..).symm⟩

/-- So are the places behind an equals sign and blanks in a mask. -/
theorem isBoundary_behind_sign {t u w q : Text} (h : mask t = u ++ '=' :: (w ++ q)) (hw : w.all isBlank = true) :
    IsBoundary t (Text.byteSize (u ++ '=' :: w)) := by
  obtain ⟨x, y, rfl, rfl, hstring, -, hy⟩ :=
    exists_cut_of_bare (by decide) (by decide) (by decide) (fun z => .cons (by decide) (by decide) z) h
  have hbare : ('=' :: w).all isBare = true := by
    rw [List.all_cons, Bool.and_eq_true]
    exact ⟨by decide, all_mono (fun _ => isBare_of_isBlank) hw⟩
  obtain ⟨z, -, hz, -, -⟩ := exists_of_maskFrom_bare (w := '=' :: w) hstring hbare hy
  refine ⟨x ++ '=' :: w, z, by rw [hz, List.append_assoc], ?_⟩
  rw [Text.byteSize_append, Text.byteSize_append, byteSize_mask]

/-! ### Values and bodies -/

/-- The parts of a field in front of its value. -/
def fieldSigns : List Pattern :=
  fieldLead ++ [group 1 ident, Pattern.optional (one (charOf "?!")), many isBlank,
    Pattern.optional (chain [":", many (charNotOf "=;\n")])]

/-- The value of a field is a slice of the class body. -/
theorem exists_isSlice_of_mem_fields {body : Text} {m : Match} (hm : m ∈ fieldPattern.finds (mask body)) :
    ∃ s, m.group? 2 = some s ∧ IsSlice body s.start.offset s.stop.offset := by
  have hm' : m ∈ (chain ((fieldSigns ++ [text "=", many isBlank]) ++ [group 2 (many (charNotOf ";\n"))])).finds
      (mask body) := hm
  obtain ⟨x, u, v, y, hmask, hu, hy, hgroup⟩ := exists_lastGroup? hm'
  -- the value is between the blanks behind the sign and what the run in its group does not take
  obtain ⟨signs, w, rfl, -, hw⟩ := reads_chain_append_iff.1 hu
  obtain ⟨w, rfl, hrest⟩ := reads_text_seq_iff.1 hw
  have hblank : w.all isBlank = true := reads_run_iff.1 (reads_last_iff.1 hrest)
  have hfront : x ++ (signs ++ ("=".toList ++ w)) = x ++ signs ++ '=' :: w := by simp
  have hvalue : x ++ (signs ++ ("=".toList ++ w) ++ v) = x ++ signs ++ '=' :: w ++ v := by simp
  rw [hfront, hvalue] at hgroup
  have hsign : mask body = x ++ signs ++ '=' :: (w ++ (v ++ y)) := by
    rw [hmask]
    simp
  have hlast : mask body = x ++ signs ++ '=' :: w ++ v ++ y := by
    rw [hsign]
    simp
  refine ⟨_, hgroup, ?_⟩
  show IsSlice body (0 + Text.byteSize (x ++ signs ++ '=' :: w)) (0 + Text.byteSize (x ++ signs ++ '=' :: w ++ v))
  rw [Nat.zero_add, Nat.zero_add]
  apply IsSlice.of_isBoundary
  · rw [Text.byteSize_append _ v]
    exact Nat.le_add_right _ _
  · exact isBoundary_behind_sign hsign hblank
  · exact isBoundary_of_legible hlast hy

/-- The body of a method is a slice of the class body. -/
theorem isSlice_of_mem_methods {body : Text} {m : Match} (hm : m ∈ methodPattern.finds (mask body)) :
    0 < m.span.stop.offset ∧ charAt? body (m.span.stop.offset - 1) = some '\x7b' ∧
      ∀ close, matchingBrace? body (m.span.stop.offset - 1) = some close →
        IsSlice body (m.span.stop.offset - 1 + 1) close := by
  obtain ⟨⟨x, y, rfl, hstop, -⟩, -⟩ := exists_cut_of_mem_methods hm
  rw [hstop, Nat.add_sub_cancel]
  refine ⟨Nat.succ_pos _, charAt?_append x _ y, ?_⟩
  intro close hclose
  obtain ⟨hmem, hlt⟩ := mem_of_matchingBrace? hclose
  obtain ⟨front, back, hcut, hpos⟩ := charAt?_eq_some_iff.1 (charAt?_of_mem_braces hmem)
  apply IsSlice.of_isBoundary hlt
  · refine ⟨x ++ ['\x7b'], y, ?_, ?_⟩
    · rw [List.append_assoc]
      rfl
    · rw [Text.byteSize_append]
      rfl
  · exact ⟨front, _, hcut, hpos⟩

/-- **A mask keeps the offsets of a class body**: it has the length and the lines of the body, is blank within string
literals and braces, and says elsewhere what the body says; and the values and bodies of the fields and methods that are
found in it are slices of the class body, so that cutting them out never cuts a character. -/
theorem mask_keeps_slices (body : Text) :
    Masks body (mask body) ∧
      (∀ m ∈ fieldPattern.finds (mask body), ∃ value, m.group? 2 = some value ∧
        IsSlice body value.start.offset value.stop.offset) ∧
      ∀ m ∈ methodPattern.finds (mask body), 0 < m.span.stop.offset ∧
        charAt? body (m.span.stop.offset - 1) = some '\x7b' ∧
        ∀ close, matchingBrace? body (m.span.stop.offset - 1) = some close →
          IsSlice body (m.span.stop.offset - 1 + 1) close := by
  refine ⟨masks_mask body, ?_, ?_⟩
  · intro m hm
    exact exists_isSlice_of_mem_fields hm
  · intro m hm
    exact isSlice_of_mem_methods hm

/-- A class body with letters of two bytes in a string, in a comment and in braces. -/
def accents : Text := "  a = 'é\x7b'; // ü\n  run() \x7b é \x7d"

theorem mask_keeps_slices_accents :
    mask accents = "  a = '   '; // ü\n  run() \x7b    \x7d" ∧ Masks accents (mask accents) ∧
      (∃ m ∈ fieldPattern.finds (mask accents), ∃ value, m.group? 2 = some value ∧
        IsSlice accents value.start.offset value.stop.offset) ∧
      ∃ m ∈ methodPattern.finds (mask accents), ∃ close, matchingBrace? accents (m.span.stop.offset - 1) = some close ∧
        IsSlice accents (m.span.stop.offset - 1 + 1) close := by
  obtain ⟨hmasks, hfields, hmethods⟩ := mask_keeps_slices accents
  have hfield : fieldPattern.finds (mask accents) ≠ [] := by decide +kernel
  have hmethod : ∃ m ∈ methodPattern.finds (mask accents),
      (matchingBrace? accents (m.span.stop.offset - 1)).isSome = true := by decide +kernel
  obtain ⟨m, hm⟩ := List.exists_mem_of_ne_nil _ hfield
  obtain ⟨m', hm', hfound⟩ := hmethod
  obtain ⟨close, hclose⟩ := Option.isSome_iff_exists.1 hfound
  exact ⟨by decide +kernel, hmasks, ⟨m, hm, hfields m hm⟩, m', hm', close, hclose, (hmethods m' hm').2.2 close hclose⟩

end SnippetPreview.Script
