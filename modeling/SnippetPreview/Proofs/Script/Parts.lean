import SnippetPreview.Script.Mask

/-!
# Script code in parts

* `Mode.behind`: the mode behind a text; `Calm`: texts that the mode of what is in front of them does not depend on;
* `bracesFrom_append`: the braces of a text in two parts;
* `nesting?`: how many braces are open behind a text. `closing?_append`: a balanced text is skipped in search of a brace;
* `matchingBrace?_of_nested`: the brace behind a balanced text is the one that closes the brace in front of it;
* `mode_of_mem_strings`: inside the contents of a string literal the mode is that of a string.
-/

namespace SnippetPreview.Script

/-! ### Modes -/

/-- The text does not go on with a character that belongs to the sign of a comment. -/
def Calm (y : Text) : Prop := y.head? ≠ some '/' ∧ y.head? ≠ some '*'

theorem Calm.nil : Calm [] := ⟨nofun, nofun⟩

theorem Calm.cons {c : Char} (hs : c ≠ '/') (hb : c ≠ '*') (y : Text) : Calm (c :: y) :=
  ⟨fun h => hs (Option.some.inj h), fun h => hb (Option.some.inj h)⟩

/-- The mode behind a text. -/
def Mode.behind (m : Mode) : Text → Mode
  | [] => m
  | c :: t => behind (m.next c t.head?) t

theorem Mode.next_of_calm {y : Text} (h : Calm y) (c : Char) (m : Mode) : m.next c y.head? = m.next c none := by
  cases m <;> simp [next, h.1, h.2]

theorem Mode.next_head?_append {y : Text} (h : Calm y) (c : Char) (x : Text) (m : Mode) :
    m.next c (x ++ y).head? = m.next c x.head? := by
  cases x with
  | nil => exact m.next_of_calm h c
  | cons d x => rfl

theorem Mode.behind_append {y : Text} (h : Calm y) (m : Mode) (x : Text) :
    m.behind (x ++ y) = (m.behind x).behind y := by
  induction x generalizing m with
  | nil => rfl
  | cons c x ih =>
    rw [List.cons_append, behind, behind, next_head?_append h, ih]

theorem final_scanFrom (m : Mode) (opened pos : Nat) (t : Text) : (scanFrom m opened pos t).final = m.behind t := by
  induction t generalizing m opened pos with
  | nil => rfl
  | cons c t ih =>
    simp only [scanFrom, Mode.behind]
    exact ih _ _ _

theorem final_scan (t : Text) : (scan t).final = Mode.behind .code t := final_scanFrom _ _ _ _

/-- A character of code that neither changes the mode nor is a brace. -/
def isPlainCode (c : Char) : Bool := c ∉ ['\'', '"', '`', '/', '\x7b', '\x7d']

theorem Mode.next_code_of_plain {c : Char} (hc : isPlainCode c = true) (ahead : Option Char) :
    code.next c ahead = code := by
  simp only [isPlainCode, decide_eq_true_eq, List.mem_cons, List.not_mem_nil, or_false, not_or] at hc
  simp [next, hc]

theorem Mode.behind_plain_append {x : Text} (hx : x.all isPlainCode = true) (y : Text) :
    code.behind (x ++ y) = code.behind y := by
  induction x with
  | nil => rfl
  | cons c x ih =>
    rw [List.all_cons, Bool.and_eq_true] at hx
    rw [List.cons_append, behind, next_code_of_plain hx.1, ih hx.2]

/-! ### Braces -/

/-- Where a string literal has been opened does not matter to the braces. -/
theorem braces_opened (m : Mode) (opened opened' pos : Nat) (t : Text) :
    (scanFrom m opened pos t).braces = (scanFrom m opened' pos t).braces := by
  induction t generalizing m opened opened' pos with
  | nil => rfl
  | cons c t ih =>
    simp only [scanFrom]
    rw [ih _ _ (if m = .code then pos + c.utf8Size else opened') _]

/-- The braces of a text from the offset `pos` on. -/
def bracesFrom (m : Mode) (pos : Nat) (t : Text) : List Brace := (scanFrom m pos pos t).braces

theorem braces_scan (t : Text) : (scan t).braces = bracesFrom .code 0 t := rfl

theorem bracesFrom_cons (m : Mode) (pos : Nat) (c : Char) (t : Text) :
    bracesFrom m pos (c :: t)
      = (if m = .code ∧ (c = '\x7b' ∨ c = '\x7d') then [⟨pos, c = '\x7b'⟩] else [])
        ++ bracesFrom (m.next c t.head?) (pos + c.utf8Size) t := by
  unfold bracesFrom
  rw [scanFrom]
  dsimp only
  rw [braces_opened _ _ (pos + c.utf8Size)]
  split <;> rfl

theorem bracesFrom_append {y : Text} (h : Calm y) (m : Mode) (pos : Nat) (x : Text) :
    bracesFrom m pos (x ++ y) = bracesFrom m pos x ++ bracesFrom (m.behind x) (pos + Text.byteSize x) y := by
  induction x generalizing m pos with
  | nil => rfl
  | cons c x ih =>
    rw [List.cons_append, bracesFrom_cons, bracesFrom_cons, Mode.next_head?_append h, ih, Mode.behind,
      Text.byteSize_cons, ← Nat.add_assoc, List.append_assoc]

theorem bracesFrom_plain {x : Text} (hx : x.all isPlainCode = true) (pos : Nat) (y : Text) :
    bracesFrom .code pos (x ++ y) = bracesFrom .code (pos + Text.byteSize x) y := by
  induction x generalizing pos with
  | nil => rfl
  | cons c x ih =>
    rw [List.all_cons, Bool.and_eq_true] at hx
    have hbrace : ¬ (Mode.code = .code ∧ (c = '\x7b' ∨ c = '\x7d')) := by
      rintro ⟨-, rfl | rfl⟩ <;> exact absurd hx.1 (by decide)
    rw [List.cons_append, bracesFrom_cons, if_neg hbrace, List.nil_append, Mode.next_code_of_plain hx.1, ih hx.2,
      Text.byteSize_cons, ← Nat.add_assoc]

theorem pos_of_mem_bracesFrom {m : Mode} {pos : Nat} {t : Text} {b : Brace} (h : b ∈ bracesFrom m pos t) :
    pos ≤ b.pos ∧ b.pos < pos + Text.byteSize t := by
  induction t generalizing m pos with
  | nil => exact absurd h List.not_mem_nil
  | cons c t ih =>
    have hc := c.utf8Size_pos
    rw [Text.byteSize_cons]
    rw [bracesFrom_cons, List.mem_append] at h
    rcases h with h | h
    · split at h
      · obtain rfl := List.mem_singleton.1 h
        dsimp only
        omega
      · exact absurd h List.not_mem_nil
    · have := ih h
      omega

/-- Which braces there are does not depend on where the text stands. -/
theorem isOpen_bracesFrom (m : Mode) (pos pos' : Nat) (t : Text) :
    (bracesFrom m pos t).map Brace.isOpen = (bracesFrom m pos' t).map Brace.isOpen := by
  induction t generalizing m pos pos' with
  | nil => rfl
  | cons c t ih =>
    rw [bracesFrom_cons, bracesFrom_cons, List.map_append, List.map_append, ih _ (pos + c.utf8Size) (pos' + c.utf8Size)]
    split <;> rfl

/-! ### Nesting -/

/-- How many braces are open behind these opening and closing ones, when `depth` were open in front of them; nothing when
a closing brace has no partner among them. -/
def nesting? (depth : Nat) : List Bool → Option Nat
  | [] => some depth
  | true :: braces => nesting? (depth + 1) braces
  | false :: braces =>
    match depth with
    | 0 => none
    | d + 1 => nesting? d braces

/-- The braces of the text that stand in code are balanced. -/
def isNested (t : Text) : Bool := nesting? 0 ((scan t).braces.map Brace.isOpen) == some 0

theorem nesting?_append (depth : Nat) (bs cs : List Bool) :
    nesting? depth (bs ++ cs) = (nesting? depth bs).bind fun d => nesting? d cs := by
  induction bs generalizing depth with
  | nil => rfl
  | cons b bs ih =>
    cases b with
    | true => exact ih (depth + 1)
    | false =>
      cases depth with
      | zero => rfl
      | succ d => exact ih d

/-- Braces that are balanced by themselves are balanced inside others. -/
theorem nesting?_of_balanced {bs : List Bool} {depth depth' : Nat} (h : nesting? depth bs = some depth') (n : Nat) :
    nesting? (depth + n) bs = some (depth' + n) := by
  induction bs generalizing depth with
  | nil =>
    obtain rfl := Option.some.inj h
    rfl
  | cons b bs ih =>
    cases b with
    | true =>
      have hrest := ih h
      rw [Nat.add_right_comm] at hrest
      exact hrest
    | false =>
      cases depth with
      | zero => exact absurd h nofun
      | succ d =>
        have hrest := ih h
        rw [Nat.add_right_comm]
        exact hrest

/-- Braces that are balanced are skipped in search of the one that closes an earlier one. -/
theorem closing?_append {depth depth' : Nat} {bs : List Brace} (h : nesting? depth (bs.map Brace.isOpen) = some depth')
    (rest : List Brace) : closing? (depth + 1) (bs ++ rest) = closing? (depth' + 1) rest := by
  induction bs generalizing depth with
  | nil =>
    obtain rfl := Option.some.inj h
    rfl
  | cons b bs ih =>
    obtain ⟨pos, isOpen⟩ := b
    cases isOpen with
    | true => exact ih h
    | false =>
      cases depth with
      | zero => exact absurd h nofun
      | succ d => exact ih h

theorem charAt?_append (x : Text) (c : Char) (y : Text) : charAt? (x ++ c :: y) (Text.byteSize x) = some c := by
  induction x with
  | nil => rfl
  | cons d x ih =>
    have hd := d.utf8Size_pos
    rw [List.cons_append, charAt?, Text.byteSize_cons, if_neg (by omega), if_neg (by omega), Nat.add_sub_cancel_left, ih]

theorem filter_braces_append {x y : Text} (hy : Calm y) {n : Nat} (hn : n ≤ Text.byteSize x)
    (hx : ∀ b ∈ bracesFrom .code 0 x, b.pos < n) :
    (scan (x ++ y)).braces.filter (n ≤ ·.pos) = bracesFrom (Mode.behind .code x) (Text.byteSize x) y := by
  rw [braces_scan, bracesFrom_append hy, List.filter_append, Nat.zero_add]
  have hfront : (bracesFrom .code 0 x).filter (n ≤ ·.pos) = [] := by
    refine List.filter_eq_nil_iff.2 fun b hb => ?_
    have := hx b hb
    simp only [decide_eq_true_eq]
    omega
  rw [hfront, List.nil_append]
  refine List.filter_eq_self.2 fun b hb => ?_
  have := (pos_of_mem_bracesFrom hb).1
  simp only [decide_eq_true_eq]
  omega

/-- The brace behind a balanced text is the first to leave no brace open. -/
theorem closing?_braced {b : Text} (hb : Mode.behind .code b = .code) (hnested : isNested b = true) (pos : Nat)
    (y : Text) :
    closing? 0 (bracesFrom .code pos ('\x7b' :: (b ++ '\x7d' :: y))) = some (pos + 1 + Text.byteSize b) := by
  have hclose : Calm ('\x7d' :: y) := .cons (by decide) (by decide) _
  have hbalanced : nesting? 0 ((bracesFrom .code (pos + 1) b).map Brace.isOpen) = some 0 := by
    rw [isOpen_bracesFrom .code _ 0]
    exact beq_iff_eq.1 hnested
  rw [bracesFrom_cons, if_pos ⟨rfl, .inl rfl⟩]
  show closing? 1 (bracesFrom .code (pos + 1) (b ++ '\x7d' :: y)) = _
  rw [bracesFrom_append hclose, closing?_append hbalanced, hb, bracesFrom_cons, if_pos ⟨rfl, .inr rfl⟩]
  rfl

/-- The brace behind a balanced text closes the one in front of it. -/
theorem matchingBrace?_of_nested {x b y : Text} (hx : Mode.behind .code x = .code) (hb : Mode.behind .code b = .code)
    (hnested : isNested b = true) :
    matchingBrace? (x ++ '\x7b' :: (b ++ '\x7d' :: y)) (Text.byteSize x)
      = some (Text.byteSize x + 1 + Text.byteSize b) := by
  unfold matchingBrace?
  have hopen : Calm ('\x7b' :: (b ++ '\x7d' :: y)) := .cons (by decide) (by decide) _
  have hfront : ∀ brace ∈ bracesFrom .code 0 x, brace.pos < Text.byteSize x := by
    intro brace hbrace
    have := (pos_of_mem_bracesFrom hbrace).2
    omega
  rw [if_pos (charAt?_append x _ _), filter_braces_append hopen (Nat.le_refl _) hfront, hx]
  exact closing?_braced hb hnested _ y

/-! ### String literals -/

/-- No string literal starts inside a comment. -/
theorem Mode.isString_next_eq_false {m : Mode} (hm : m.isString = false) (hcode : m ≠ .code) (c : Char)
    (ahead : Option Char) : (m.next c ahead).isString = false := by
  cases m with
  | code => exact absurd rfl hcode
  | quoted q => exact absurd hm nofun
  | escaped q => exact absurd hm nofun
  | lineComment =>
    simp only [next]
    split <;> rfl
  | blockOpening => rfl
  | blockComment =>
    simp only [next]
    split <;> rfl
  | blockClosing => rfl

theorem strings_cons (m : Mode) (opened pos : Nat) (c : Char) (t : Text) :
    (scanFrom m opened pos (c :: t)).strings
      = (if m.isString ∧ m.next c t.head? = .code then [(opened, pos)] else [])
        ++ (scanFrom (m.next c t.head?) (if m = .code then pos + c.utf8Size else opened) (pos + c.utf8Size) t).strings := by
  rw [scanFrom]
  dsimp only
  split <;> rfl

theorem mem_strings_cons {m : Mode} {opened pos : Nat} {c : Char} {t : Text} {r : Nat × Nat}
    (h : r ∈ (scanFrom m opened pos (c :: t)).strings) :
    m.isString = true ∧ r = (opened, pos) ∨
      r ∈ (scanFrom (m.next c t.head?) (if m = .code then pos + c.utf8Size else opened) (pos + c.utf8Size)
        t).strings := by
  rw [strings_cons] at h
  rcases List.mem_append.1 h with h | h
  · split at h
    · next hm => exact .inl ⟨hm.1, List.mem_singleton.1 h⟩
    · exact absurd h List.not_mem_nil
  · exact .inr h

/-- The contents of a string literal start where the literal has been opened or, outside of literals, further behind. -/
theorem start_of_mem_strings {m : Mode} {opened pos : Nat} {t : Text} {r : Nat × Nat} (ho : opened ≤ pos)
    (h : r ∈ (scanFrom m opened pos t).strings) :
    (m.isString = true → opened ≤ r.1) ∧ (m.isString = false → pos < r.1) := by
  induction t generalizing m opened pos with
  | nil =>
    rw [scanFrom] at h
    dsimp only at h
    split at h
    · next hm =>
      obtain rfl := List.mem_singleton.1 h
      exact ⟨fun _ => Nat.le_refl _, fun hm' => absurd hm (by rw [hm']; exact Bool.false_ne_true)⟩
    · exact absurd h List.not_mem_nil
  | cons c t ih =>
    have hc := c.utf8Size_pos
    rcases mem_strings_cons h with ⟨hm, rfl⟩ | h
    · exact ⟨fun _ => Nat.le_refl _, fun hm' => absurd hm (by rw [hm']; exact Bool.false_ne_true)⟩
    · have hrest := ih (by split <;> omega) h
      constructor
      -- inside of a literal, the next one cannot start before it is closed
      · intro hm
        have hcode : m ≠ .code := by
          rintro rfl
          exact absurd hm nofun
        rw [if_neg hcode] at hrest
        cases hafter : (m.next c t.head?).isString with
        | true => exact hrest.1 hafter
        | false =>
          have := hrest.2 hafter
          omega
      · intro hm
        cases hafter : (m.next c t.head?).isString with
        | true =>
          have hcode : m = .code := by
            refine Classical.byContradiction fun hcode => ?_
            rw [Mode.isString_next_eq_false hm hcode] at hafter
            exact Bool.false_ne_true hafter
          rw [if_pos hcode] at hrest
          have := hrest.1 hafter
          omega
        | false =>
          have := hrest.2 hafter
          omega

/-- The first character inside the contents of a string literal is read as part of the literal, which it does not close. -/
theorem mode_of_mem_strings_cons {m : Mode} {opened pos : Nat} {c : Char} {t : Text} {r : Nat × Nat} (ho : opened ≤ pos)
    (h : r ∈ (scanFrom m opened pos (c :: t)).strings) (hstart : r.1 ≤ pos) (hstop : pos < r.2) :
    m.isString = true ∧ m.next c t.head? ≠ .code := by
  have hc := c.utf8Size_pos
  constructor
  · cases hm : m.isString with
    | true => rfl
    | false =>
      have := (start_of_mem_strings ho h).2 hm
      omega
  · intro hafter
    -- a character that closes the literal is in front of all contents that are found behind it
    rcases mem_strings_cons h with ⟨-, rfl⟩ | h
    · exact absurd hstop (Nat.lt_irrefl _)
    · rw [hafter] at h
      have := (start_of_mem_strings (by split <;> omega) h).2 rfl
      omega

/-- So is any character inside of them. -/
theorem mode_of_mem_strings {m : Mode} {opened pos : Nat} {x y : Text} {c : Char} {r : Nat × Nat}
    (hcalm : Calm (c :: y)) (ho : opened ≤ pos) (h : r ∈ (scanFrom m opened pos (x ++ c :: y)).strings)
    (hstart : r.1 ≤ pos + Text.byteSize x) (hstop : pos + Text.byteSize x < r.2) :
    (m.behind x).isString = true ∧ (m.behind x).next c y.head? ≠ .code := by
  induction x generalizing m opened pos with
  | nil =>
    rw [Text.byteSize_nil, Nat.add_zero] at hstart hstop
    exact mode_of_mem_strings_cons ho h hstart hstop
  | cons d x ih =>
    have hd := d.utf8Size_pos
    rw [Text.byteSize_cons] at hstart hstop
    rcases mem_strings_cons h with ⟨-, rfl⟩ | h
    · dsimp only at hstop
      omega
    · change r ∈ (scanFrom (m.next d (x ++ c :: y).head?) _ _ (x ++ c :: y)).strings at h
      rw [Mode.next_head?_append hcalm] at h
      exact ih (by split <;> omega) h (by omega) (by omega)

end SnippetPreview.Script
