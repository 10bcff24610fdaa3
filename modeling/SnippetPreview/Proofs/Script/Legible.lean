import Mathlib.Data.List.Induction
import SnippetPreview.Proofs.Script.Masking
import SnippetPreview.Proofs.Script.Pairs

/-!
# What a mask leaves legible

* `InString`, `InBraces`: the places within string literals, and those behind a brace that is still open;
* `Progress`, `Passed`: what a scan and a mask have made of a text up to a place. `Passed.step`: one character further on.
  `exists_passed`: so they pass every place;
* `Passed.inString_iff`, `Passed.inBraces_iff`: the places that are hidden are the ones within string literals and braces;
* `Masks`, `masks_mask`: a mask has the length and the lines of its text, is blank in such places, and says elsewhere what
  the text says.
-/

namespace SnippetPreview.Script

/-! ### Characters and their places -/

theorem charAt?_eq_some_iff {t : Text} {n : Nat} {c : Char} :
    charAt? t n = some c ↔ ∃ x y, t = x ++ c :: y ∧ Text.byteSize x = n := by
  constructor
  · intro h
    induction t generalizing n with
    | nil => cases h
    | cons d t ih =>
      rw [charAt?] at h
      split at h
      · next hn =>
        obtain rfl := Option.some.inj h
        exact ⟨[], t, rfl, hn.symm⟩
      · split at h
        · cases h
        · obtain ⟨x, y, rfl, hx⟩ := ih h
          refine ⟨d :: x, y, rfl, ?_⟩
          rw [Text.byteSize_cons]
          omega
  · rintro ⟨x, y, rfl, rfl⟩
    exact charAt?_append x c y

/-- The place is within the contents of a string literal. -/
def InString (t : Text) (n : Nat) : Prop := ∃ r ∈ (scan t).strings, r.1 ≤ n ∧ n < r.2

/-- The place is behind an opening brace in code and in front of the brace that closes it, if there is one. -/
def InBraces (t : Text) (n : Nat) : Prop :=
  ∃ o, ⟨o, true⟩ ∈ (scan t).braces ∧ o < n ∧ ∀ c, matchingBrace? t o = some c → n < c

/-! ### Open braces -/

/-- Where braces are open, the first of them that is still open has the other ones behind it. -/
theorem exists_cut_of_depthBehind {bs : List Brace} {d : Nat} (h : depthBehind 0 (bs.map Brace.isOpen) = d + 1) :
    ∃ front o back, bs = front ++ ⟨o, true⟩ :: back ∧ nesting? 0 (back.map Brace.isOpen) = some d := by
  induction bs using List.reverseRecOn generalizing d with
  | nil => exact absurd h nofun
  | append_singleton bs b ih =>
    obtain ⟨pos, isOpen⟩ := b
    rw [List.map_append, depthBehind, List.foldl_append] at h
    have hmore {d' : Nat} (hd' : depthBehind 0 (bs.map Brace.isOpen) = d' + 1) (hstep : nesting? d' [isOpen] = some d) :
        ∃ front o back, bs ++ [⟨pos, isOpen⟩] = front ++ ⟨o, true⟩ :: back ∧
          nesting? 0 (back.map Brace.isOpen) = some d := by
      obtain ⟨front, o, back, rfl, hback⟩ := ih hd'
      refine ⟨front, o, back ++ [⟨pos, isOpen⟩], by rw [List.append_assoc]; rfl, ?_⟩
      rw [List.map_append, nesting?_append, hback]
      exact hstep
    cases isOpen with
    | true =>
      cases d with
      | zero => exact ⟨bs, pos, [], rfl, rfl⟩
      | succ d => exact hmore (Nat.succ.inj h) rfl
    | false =>
      have hclosed : depthBehind 0 (bs.map Brace.isOpen) - 1 = d + 1 := h
      have hdepth : depthBehind 0 (bs.map Brace.isOpen) = d + 1 + 1 := by omega
      exact hmore hdepth rfl

/-- Such a brace counts with those in front of it and behind it. -/
theorem depthBehind_of_cut {front back : List Brace} {o d : Nat} (h : nesting? 0 (back.map Brace.isOpen) = some d) :
    depthBehind 0 ((front ++ ⟨o, true⟩ :: back).map Brace.isOpen)
      = d + (depthBehind 0 (front.map Brace.isOpen) + 1) := by
  rw [← depthBehind_of_nesting h, Nat.zero_add, List.map_append, depthBehind, List.foldl_append]
  rfl

/-- A brace is found further on, unless the character at the place closes the last one that is open. -/
theorem lt_of_closing? {m : Mode} {pos d close : Nat} {c : Char} {t : Text}
    (hlast : ¬ (m = .code ∧ c = '\x7d' ∧ d = 0)) (h : closing? (d + 1) (bracesFrom m pos (c :: t)) = some close) :
    pos < close := by
  have hlater {d' : Nat}
      (hd' : closing? (d' + 1) (bracesFrom (m.next c t.head?) (pos + c.utf8Size) t) = some close) : pos < close := by
    have hle : pos + c.utf8Size ≤ close := (pos_of_mem_bracesFrom (mem_of_closing? hd')).1
    exact Nat.lt_of_lt_of_le (Nat.lt_add_of_pos_right c.utf8Size_pos) hle
  rw [bracesFrom_cons] at h
  by_cases hbrace : m = .code ∧ (c = '\x7b' ∨ c = '\x7d')
  · rw [if_pos hbrace] at h
    obtain ⟨hcode, rfl | rfl⟩ := hbrace
    · exact hlater h
    · cases d with
      | zero => exact absurd ⟨hcode, rfl, rfl⟩ hlast
      | succ d => exact hlater h
  · rw [if_neg hbrace] at h
    exact hlater h

/-! ### Open strings -/

theorem Mode.next_eq_code_or_isString {m : Mode} (hm : m.isString = true) (c : Char) (ahead : Option Char) :
    m.next c ahead = code ∨ (m.next c ahead).isString = true := by
  cases m with
  | quoted q =>
    simp only [next]
    split
    · exact .inr rfl
    · split
      · exact .inl rfl
      · exact .inr rfl
  | escaped q => exact .inr rfl
  | code | lineComment | blockOpening | blockComment | blockClosing => exact absurd hm Bool.false_ne_true

/-- A string literal that is open is found further on. -/
theorem exists_mem_strings {m : Mode} (hm : m.isString = true) (opened pos : Nat) (t : Text) :
    ∃ stop, pos ≤ stop ∧ (opened, stop) ∈ (scanFrom m opened pos t).strings := by
  induction t generalizing m pos with
  | nil =>
    refine ⟨pos, Nat.le_refl _, ?_⟩
    rw [scanFrom, if_pos hm]
    exact List.mem_singleton_self _
  | cons c t ih =>
    rw [strings_cons]
    rcases Mode.next_eq_code_or_isString hm c t.head? with hcode | hstring
    · refine ⟨pos, Nat.le_refl _, ?_⟩
      rw [if_pos ⟨hm, hcode⟩]
      exact List.mem_append_left _ (List.mem_singleton_self _)
    · obtain ⟨stop, hstop, hmem⟩ := ih hstring (pos + c.utf8Size)
      have hne : m ≠ .code := by
        rintro rfl
        exact absurd hm Bool.false_ne_true
      refine ⟨stop, by omega, ?_⟩
      rw [if_neg hne]
      exact List.mem_append_right _ hmem

/-! ### Passing a text -/

/-- What a scan knows at a place: the mode, where the string literal that is open has been opened, and the braces and string
literals found in front of the place. -/
structure Progress where
  mode : Mode
  opened : Nat
  braces : List Brace
  strings : List (Nat × Nat)

namespace Progress

/-- Behind the character `c` at the offset `pos`, when `ahead` follows it. -/
def step (s : Progress) (pos : Nat) (c : Char) (ahead : Option Char) : Progress where
  mode := s.mode.next c ahead
  opened := if s.mode = .code then pos + c.utf8Size else s.opened
  braces := s.braces ++ if s.mode = .code ∧ (c = '\x7b' ∨ c = '\x7d') then [⟨pos, c = '\x7b'⟩] else []
  strings := s.strings ++ if s.mode.isString ∧ s.mode.next c ahead = .code then [(s.opened, pos)] else []

/-- How many braces are open. -/
def depth (s : Progress) : Nat := depthBehind 0 (s.braces.map Brace.isOpen)

theorem depth_step (s : Progress) (pos : Nat) (c : Char) (ahead : Option Char) :
    (s.step pos c ahead).depth = depthBehind s.depth (bracesAt s.mode c) := by
  have hat : (if s.mode = .code ∧ (c = '\x7b' ∨ c = '\x7d') then [(⟨pos, c = '\x7b'⟩ : Brace)] else []).map Brace.isOpen
      = bracesAt s.mode c := by
    unfold bracesAt
    split <;> rfl
  unfold depth step
  rw [List.map_append, hat]
  exact List.foldl_append

end Progress

/-- In the text `t`, a scan and a mask have passed `x`, and `y` follows. -/
structure Passed (t x y : Text) (s : Progress) : Prop where
  opened_le : s.opened ≤ Text.byteSize x
  braces : (scan t).braces = s.braces ++ bracesFrom s.mode (Text.byteSize x) y
  strings : (scan t).strings = s.strings ++ (scanFrom s.mode s.opened (Text.byteSize x) y).strings
  braces_lt : ∀ b ∈ s.braces, b.pos < Text.byteSize x
  strings_le : ∀ r ∈ s.strings, r.2 ≤ Text.byteSize x
  masked : ∃ u, Text.byteSize u = Text.byteSize x ∧ mask t = u ++ maskFrom s.mode s.depth y

namespace Passed

variable {t x y : Text} {s : Progress} {c : Char}

theorem start (t : Text) : Passed t [] t ⟨.code, 0, [], []⟩ where
  opened_le := Nat.le_refl _
  braces := rfl
  strings := rfl
  braces_lt := List.forall_mem_nil _
  strings_le := List.forall_mem_nil _
  masked := ⟨[], rfl, rfl⟩

theorem step (h : Passed t x (c :: y) s) : Passed t (x ++ [c]) y (s.step (Text.byteSize x) c y.head?) := by
  have hsize : Text.byteSize (x ++ [c]) = Text.byteSize x + c.utf8Size := Text.byteSize_append x [c]
  have hc := c.utf8Size_pos
  have hopened := h.opened_le
  constructor
  · rw [hsize, Progress.step]
    dsimp only
    split <;> omega
  · rw [h.braces, bracesFrom_cons, ← List.append_assoc, hsize]
    rfl
  · rw [h.strings, strings_cons, ← List.append_assoc, hsize]
    rfl
  · intro b hb
    rw [hsize]
    rcases List.mem_append.1 hb with hb | hb
    · exact Nat.lt_add_right _ (h.braces_lt b hb)
    · split at hb
      · obtain rfl := List.mem_singleton.1 hb
        exact Nat.lt_add_of_pos_right hc
      · exact absurd hb List.not_mem_nil
  · intro r hr
    rw [hsize]
    rcases List.mem_append.1 hr with hr | hr
    · exact Nat.le_add_right_of_le (h.strings_le r hr)
    · split at hr
      · obtain rfl := List.mem_singleton.1 hr
        exact Nat.le_add_right _ _
      · exact absurd hr List.not_mem_nil
  · obtain ⟨u, hu, hmask⟩ := h.masked
    refine ⟨u ++ remains s.mode s.depth c y.head?, ?_, ?_⟩
    · rw [hsize, Text.byteSize_append, hu]
      unfold remains
      split
      · rw [byteSize_replicate_blank]
      · rfl
    · rw [hmask, maskFrom_cons, Progress.depth_step, List.append_assoc]
      rfl

end Passed

/-- A text is passed from its start on: what a character does depends on what follows it, so parts of a text do not add up. -/
theorem exists_passed (x y : Text) : ∃ s, Passed (x ++ y) x y s := by
  induction x using List.reverseRecOn generalizing y with
  | nil => exact ⟨_, .start y⟩
  | append_singleton x c ih =>
    obtain ⟨s, hs⟩ := ih (c :: y)
    rw [List.append_assoc]
    exact ⟨_, hs.step⟩

namespace Passed

variable {t x y : Text} {s : Progress} {c : Char}

/-- Within a string literal are the characters that are read as part of it and do not close it. -/
theorem inString_iff (h : Passed t x (c :: y) s) :
    InString t (Text.byteSize x) ↔ s.mode.isString = true ∧ s.mode.next c y.head? ≠ .code := by
  constructor
  · rintro ⟨r, hr, hstart, hstop⟩
    rw [h.strings, List.mem_append] at hr
    rcases hr with hr | hr
    · exact absurd (h.strings_le r hr) (Nat.not_le_of_lt hstop)
    · exact mode_of_mem_strings_cons h.opened_le hr hstart hstop
  · rintro ⟨hstring, hopen⟩
    have hc := c.utf8Size_pos
    have hne : s.mode ≠ .code := by
      intro hcode
      rw [hcode] at hstring
      exact absurd hstring nofun
    obtain ⟨stop, hstop, hmem⟩ := exists_mem_strings
      ((Mode.next_eq_code_or_isString hstring c y.head?).resolve_left hopen) s.opened (Text.byteSize x + c.utf8Size) y
    refine ⟨(s.opened, stop), ?_, h.opened_le, by dsimp only; omega⟩
    rw [h.strings, strings_cons, if_neg hne]
    exact List.mem_append_right _ (List.mem_append_right _ hmem)

/-- Behind a brace that is still open are the characters that open braces are around, the last closing one excluded. -/
theorem inBraces_iff (h : Passed t x (c :: y) s) :
    InBraces t (Text.byteSize x) ↔ 0 < s.depth ∧ ¬ (s.mode = .code ∧ c = '\x7d' ∧ s.depth = 1) := by
  have hbraces := h.braces
  constructor
  · rintro ⟨o, ho, hlt, hclose⟩
    have hmem : ⟨o, true⟩ ∈ s.braces := by
      rw [hbraces, List.mem_append] at ho
      exact ho.resolve_right fun ho => Nat.not_le_of_lt hlt (pos_of_mem_bracesFrom ho).1
    obtain ⟨front, back, hcut⟩ := List.append_of_mem hmem
    rw [hcut, List.append_assoc, List.cons_append] at hbraces
    rw [matchingBrace?_eq_closing? hbraces] at hclose
    cases hback : nesting? 0 (back.map Brace.isOpen) with
    | none =>
      -- what does not balance closes the opening brace in front of the place
      obtain ⟨close, hmem, hfound⟩ := exists_closing?_of_nesting?_eq_none hback
      have hpast := h.braces_lt ⟨close, false⟩ (by rw [hcut]; exact List.mem_append_right _ (List.mem_cons_of_mem _ hmem))
      exact absurd (hclose close (hfound _)) (Nat.lt_asymm hpast)
    | some d =>
      have hdepth : s.depth = d + (depthBehind 0 (front.map Brace.isOpen) + 1) := by
        rw [Progress.depth, hcut, depthBehind_of_cut hback]
      refine ⟨by omega, ?_⟩
      rintro ⟨hcode, rfl, hone⟩
      obtain rfl : d = 0 := by omega
      rw [closing?_append hback, bracesFrom_cons, if_pos ⟨hcode, .inr rfl⟩] at hclose
      exact Nat.lt_irrefl _ (hclose _ rfl)
  · rintro ⟨hpos, hlast⟩
    obtain ⟨d, hd⟩ := Nat.exists_eq_add_one_of_ne_zero (Nat.ne_of_gt hpos)
    obtain ⟨front, o, back, hcut, hback⟩ := exists_cut_of_depthBehind hd
    have hmem : ⟨o, true⟩ ∈ s.braces := by
      rw [hcut]
      exact List.mem_append_right _ List.mem_cons_self
    refine ⟨o, by rw [hbraces]; exact List.mem_append_left _ hmem, h.braces_lt _ hmem, ?_⟩
    intro close hclose
    rw [hcut, List.append_assoc, List.cons_append] at hbraces
    rw [matchingBrace?_eq_closing? hbraces, closing?_append hback] at hclose
    apply lt_of_closing? _ hclose
    rintro ⟨hcode, hc, rfl⟩
    exact hlast ⟨hcode, hc, hd⟩

theorem isHidden_iff (h : Passed t x (c :: y) s) :
    isHidden s.mode s.depth c y.head? = true ↔ InString t (Text.byteSize x) ∨ InBraces t (Text.byteSize x) := by
  rw [h.inString_iff, h.inBraces_iff, isHidden, Bool.or_eq_true, Bool.and_eq_true, bne_iff_ne, Bool.and_eq_true,
    decide_eq_true_eq, Bool.not_eq_true', ← Bool.not_eq_true, Bool.and_eq_true, Bool.and_eq_true, beq_iff_eq, beq_iff_eq,
    beq_iff_eq, and_assoc]

end Passed

/-! ### Masks -/

/-- The text has the length and the lines of `t`, is blank within the string literals and braces of `t`, and says elsewhere
what `t` says. -/
structure Masks (t masked : Text) : Prop where
  size : Text.byteSize masked = Text.byteSize t
  newline : ∀ n, charAt? masked n = some '\n' ↔ charAt? t n = some '\n'
  outside : ∀ n c, charAt? t n = some c → ¬ InString t n → ¬ InBraces t n → charAt? masked n = some c
  inside : ∀ n c, charAt? t n = some c → c ≠ '\n' → InString t n ∨ InBraces t n →
    ∀ i < c.utf8Size, charAt? masked (n + i) = some ' '

/-- What is left of a character stands at its place. -/
theorem exists_cut_of_charAt? {t : Text} {n : Nat} {c : Char} (h : charAt? t n = some c) :
    ∃ u w, mask t = u ++ w ∧ Text.byteSize u = n ∧
      (c = '\n' ∨ ¬ InString t n ∧ ¬ InBraces t n → ∃ w', w = c :: w') ∧
      (c ≠ '\n' → InString t n ∨ InBraces t n → ∃ w', w = List.replicate c.utf8Size ' ' ++ w') := by
  obtain ⟨x, y, rfl, rfl⟩ := charAt?_eq_some_iff.1 h
  obtain ⟨s, hs⟩ := exists_passed x (c :: y)
  obtain ⟨u, hu, hmask⟩ := hs.masked
  rw [maskFrom_cons, remains] at hmask
  have hblanked : (isHidden s.mode s.depth c y.head? && c != '\n') = true
      ↔ (InString (x ++ c :: y) (Text.byteSize x) ∨ InBraces (x ++ c :: y) (Text.byteSize x)) ∧ c ≠ '\n' := by
    rw [Bool.and_eq_true, hs.isHidden_iff, bne_iff_ne]
  refine ⟨u, _, hmask, hu, ?_, ?_⟩
  · intro hshown
    have hleft : ¬ (isHidden s.mode s.depth c y.head? && c != '\n') = true := by
      rw [hblanked]
      rintro ⟨hhidden, hne⟩
      obtain ⟨hstring, hbraces⟩ := hshown.resolve_left hne
      exact hhidden.elim hstring hbraces
    rw [if_neg hleft]
    exact ⟨_, rfl⟩
  · intro hne hhidden
    rw [if_pos (hblanked.2 ⟨hhidden, hne⟩)]
    exact ⟨_, rfl⟩

theorem masks_mask (t : Text) : Masks t (mask t) where
  size := byteSize_mask t
  newline := by
    intro n
    constructor
    · intro h
      obtain ⟨u, w, hmask, rfl⟩ := charAt?_eq_some_iff.1 h
      obtain ⟨x, y, rfl, rfl, -, -⟩ := exists_cut_of_maskFrom (by decide) (fun z => .cons (by decide) (by decide) z) hmask
      exact charAt?_eq_some_iff.2 ⟨x, y, rfl, (byteSize_maskFrom ..).symm⟩
    · intro h
      obtain ⟨u, w, hmask, hu, hshown, -⟩ := exists_cut_of_charAt? h
      obtain ⟨w, rfl⟩ := hshown (.inl rfl)
      exact charAt?_eq_some_iff.2 ⟨u, w, hmask, hu⟩
  outside := by
    intro n c h hstring hbraces
    obtain ⟨u, w, hmask, hu, hshown, -⟩ := exists_cut_of_charAt? h
    obtain ⟨w, rfl⟩ := hshown (.inr ⟨hstring, hbraces⟩)
    exact charAt?_eq_some_iff.2 ⟨u, w, hmask, hu⟩
  inside := by
    intro n c h hne hhidden i hi
    obtain ⟨u, w, hmask, rfl, -, hblank⟩ := exists_cut_of_charAt? h
    obtain ⟨w, rfl⟩ := hblank hne hhidden
    obtain ⟨k, hk⟩ : ∃ k, c.utf8Size = i + (k + 1) := ⟨c.utf8Size - i - 1, by omega⟩
    refine charAt?_eq_some_iff.2 ⟨u ++ List.replicate i ' ', List.replicate k ' ' ++ w, ?_, ?_⟩
    · rw [hmask, hk, ← List.replicate_append_replicate, List.replicate_succ]
      simp
    · rw [Text.byteSize_append, byteSize_replicate_blank]

end SnippetPreview.Script
