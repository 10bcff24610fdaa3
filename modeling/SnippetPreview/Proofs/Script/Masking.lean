import SnippetPreview.Proofs.Script.Parts
import SnippetPreview.Text.Blank

/-!
# Masked code in parts

* `maskFrom_append`: a text in two parts is masked part by part;
* `maskFrom_nested`: behind an opening brace, nothing but blanks and line feeds is left up to the closing one;
* `exists_cut_of_maskFrom`: what is left of a masked text stands at the same place in the text itself, where it is not
  hidden; `exists_cut_of_mask`: so it is outside of the contents of string literals;
* `exists_of_maskFrom_bare`: outside of strings and braces, a text is left as it is up to the next quote or brace;
* `exists_cut_of_bare`: what is legible and neither a quote nor a brace stands outside of strings and braces.
-/

namespace SnippetPreview.Script

/-! ### Depth -/

/-- How many braces are open behind these opening and closing ones, when surplus closing braces do not count. -/
def depthBehind (depth : Nat) (braces : List Bool) : Nat :=
  braces.foldl (fun d isOpen => if isOpen then d + 1 else d - 1) depth

theorem depthBehind_of_nesting {depth depth' : Nat} {bs : List Bool} (h : nesting? depth bs = some depth') (n : Nat) :
    depthBehind (depth + n) bs = depth' + n := by
  induction bs generalizing depth with
  | nil =>
    obtain rfl := Option.some.inj h
    rfl
  | cons b bs ih =>
    cases b with
    | true =>
      have hrest := ih h
      rw [Nat.add_right_comm] at hrest
      exact hrest
    | false =>
      cases depth with
      | zero => exact absurd h nofun
      | succ d =>
        have hrest := ih h
        rw [← hrest]
        show depthBehind (d + 1 + n - 1) bs = _
        rw [Nat.add_right_comm, Nat.add_sub_cancel]

/-! ### Parts -/

/-- The brace that a character is, if it is one in code. -/
def bracesAt (m : Mode) (c : Char) : List Bool := if m = .code ∧ (c = '\x7b' ∨ c = '\x7d') then [c == '\x7b'] else []

theorem bracesAt_of_ne {m : Mode} (h : m ≠ .code) (c : Char) : bracesAt m c = [] := if_neg fun hat => h hat.1

theorem isOpen_bracesFrom_cons (m : Mode) (pos : Nat) (c : Char) (t : Text) :
    (bracesFrom m pos (c :: t)).map Brace.isOpen
      = bracesAt m c ++ (bracesFrom (m.next c t.head?) (pos + c.utf8Size) t).map Brace.isOpen := by
  rw [bracesFrom_cons, List.map_append]
  unfold bracesAt
  split <;> rfl

/-- The character is inside a string literal or inside braces. -/
def isHidden (m : Mode) (depth : Nat) (c : Char) (ahead : Option Char) : Bool :=
  m.isString && m.next c ahead != .code || 0 < depth && !((m == .code && c == '\x7d') && depth == 1)

def remains (m : Mode) (depth : Nat) (c : Char) (ahead : Option Char) : Text :=
  if isHidden m depth c ahead && c != '\n' then List.replicate c.utf8Size ' ' else [c]

theorem maskFrom_cons (m : Mode) (depth : Nat) (c : Char) (t : Text) :
    maskFrom m depth (c :: t)
      = remains m depth c t.head? ++ maskFrom (m.next c t.head?) (depthBehind depth (bracesAt m c)) t := by
  have hdepth : depthBehind depth (bracesAt m c)
      = if m == .code && c == '\x7b' then depth + 1 else if m == .code && c == '\x7d' then depth - 1 else depth := by
    unfold bracesAt depthBehind
    by_cases hm : m = .code
    · by_cases hopen : c = '\x7b'
      · simp [hm, hopen]
      · by_cases hclose : c = '\x7d' <;> simp [hm, hopen, hclose]
    · simp [hm]
  rw [hdepth]
  rfl

theorem maskFrom_append {y : Text} (h : Calm y) (m : Mode) (depth : Nat) (x : Text) :
    maskFrom m depth (x ++ y) = maskFrom m depth x
      ++ maskFrom (m.behind x) (depthBehind depth ((bracesFrom m 0 x).map Brace.isOpen)) y := by
  induction x generalizing m depth with
  | nil => rfl
  | cons c x ih =>
    have hremains : remains m depth c (x ++ y).head? = remains m depth c x.head? := by
      unfold remains isHidden
      rw [Mode.next_head?_append h]
    rw [List.cons_append, maskFrom_cons, maskFrom_cons, hremains, Mode.next_head?_append h, ih, List.append_assoc,
      isOpen_bracesFrom_cons, isOpen_bracesFrom _ (0 + c.utf8Size) 0]
    unfold depthBehind
    rw [List.foldl_append]
    rfl

/-- At the outermost level of code every character is left. -/
theorem maskFrom_code_cons (c : Char) (t : Text) :
    maskFrom .code 0 (c :: t) = c :: maskFrom (Mode.code.next c t.head?) (depthBehind 0 (bracesAt .code c)) t :=
  maskFrom_cons ..

theorem maskFrom_plain {x : Text} (hx : x.all isPlainCode = true) (y : Text) :
    maskFrom .code 0 (x ++ y) = x ++ maskFrom .code 0 y := by
  induction x with
  | nil => rfl
  | cons c x ih =>
    rw [List.all_cons, Bool.and_eq_true] at hx
    have hbrace : bracesAt .code c = [] := by
      refine if_neg ?_
      rintro ⟨-, rfl | rfl⟩ <;> exact absurd hx.1 (by decide)
    rw [List.cons_append, maskFrom_code_cons, Mode.next_code_of_plain hx.1, hbrace]
    exact congrArg (c :: ·) (ih hx.2)

/-! ### What is left -/

/-- Behind an opening brace, nothing but blanks and line feeds is left of a text whose braces are balanced. -/
theorem maskFrom_nested {m : Mode} {depth depth' : Nat} {t : Text}
    (h : nesting? depth ((bracesFrom m 0 t).map Brace.isOpen) = some depth') :
    ∀ c ∈ maskFrom m (depth + 1) t, c = ' ' ∨ c = '\n' := by
  induction t generalizing m depth with
  | nil => exact fun c hc => absurd hc List.not_mem_nil
  | cons e t ih =>
    rw [isOpen_bracesFrom_cons, isOpen_bracesFrom _ _ 0] at h
    -- a hidden character leaves blanks or itself, and what is behind it is still inside the braces
    have hrest : ∀ {d : Nat}, nesting? d ((bracesFrom (m.next e t.head?) 0 t).map Brace.isOpen) = some depth' →
        depthBehind (depth + 1) (bracesAt m e) = d + 1 → isHidden m (depth + 1) e t.head? = true →
        ∀ c ∈ maskFrom m (depth + 1) (e :: t), c = ' ' ∨ c = '\n' := by
      intro d hd hdepth hhidden c hc
      rw [maskFrom_cons, hdepth, List.mem_append] at hc
      rcases hc with hc | hc
      · unfold remains at hc
        rw [hhidden, Bool.true_and] at hc
        split at hc
        · exact .inl (List.mem_replicate.1 hc).2
        · next hline =>
          obtain rfl := List.mem_singleton.1 hc
          exact .inr (by simpa using hline)
      · exact ih hd c hc
    by_cases hbrace : m = .code ∧ (e = '\x7b' ∨ e = '\x7d')
    · have hat : bracesAt m e = [e == '\x7b'] := if_pos hbrace
      obtain ⟨rfl, rfl | rfl⟩ := hbrace
      · exact hrest h rfl (by simp [isHidden])
      · rw [hat] at h
        cases depth with
        | zero => exact absurd h nofun
        | succ d => exact hrest h rfl (by simp [isHidden])
    · have hat : bracesAt m e = [] := if_neg hbrace
      rw [hat] at h
      refine hrest h (by rw [hat]; rfl) ?_
      have hclose : (m == .code && e == '\x7d') = false := by
        rw [Bool.and_eq_false_iff]
        by_cases hm : m = .code
        · right
          exact beq_eq_false_iff_ne.2 fun he => hbrace ⟨hm, .inr he⟩
        · left
          exact beq_eq_false_iff_ne.2 hm
      unfold isHidden
      rw [hclose]
      simp

theorem not_mem_maskFrom {c : Char} (hc : c ≠ ' ') {t : Text} (h : c ∉ t) (m : Mode) (depth : Nat) :
    c ∉ maskFrom m depth t := by
  induction t generalizing m depth with
  | nil => exact List.not_mem_nil
  | cons e t ih =>
    rw [List.mem_cons, not_or] at h
    rw [maskFrom_cons, List.mem_append, not_or]
    refine ⟨?_, ih h.2 _ _⟩
    unfold remains
    split
    · exact fun hmem => hc (List.mem_replicate.1 hmem).2
    · exact fun hmem => h.1 (List.mem_singleton.1 hmem)

/-- How many braces are open behind a text. -/
def depthAfter (m : Mode) (depth : Nat) (x : Text) : Nat := depthBehind depth ((bracesFrom m 0 x).map Brace.isOpen)

theorem depthAfter_cons (m : Mode) (depth : Nat) (c : Char) (x : Text) :
    depthAfter m depth (c :: x) = depthAfter (m.next c x.head?) (depthBehind depth (bracesAt m c)) x := by
  unfold depthAfter
  rw [isOpen_bracesFrom_cons, isOpen_bracesFrom _ (0 + c.utf8Size) 0]
  unfold depthBehind
  rw [List.foldl_append]

theorem depthAfter_append {y : Text} (h : Calm y) (m : Mode) (depth : Nat) (x : Text) :
    depthAfter m depth (x ++ y) = depthAfter (m.behind x) (depthAfter m depth x) y := by
  induction x generalizing m depth with
  | nil => rfl
  | cons c x ih =>
    rw [List.cons_append, depthAfter_cons, depthAfter_cons, Mode.next_head?_append h, ih]
    rfl

/-- What is left of a masked text cuts the text at the same place, where it is not hidden or a line ends. -/
theorem exists_cut_of_maskFrom {m : Mode} {depth : Nat} {t u w : Text} {c : Char} (hb : c ≠ ' ')
    (hcalm : ∀ y, Calm (c :: y)) (h : maskFrom m depth t = u ++ c :: w) :
    ∃ x y, t = x ++ c :: y ∧ maskFrom m depth x = u ∧
      (c ≠ '\n' → isHidden (m.behind x) (depthAfter m depth x) c y.head? = false) ∧
      maskFrom ((m.behind x).next c y.head?) (depthBehind (depthAfter m depth x) (bracesAt (m.behind x) c)) y = w := by
  induction t generalizing m depth u with
  | nil => exact absurd h (by simp [maskFrom])
  | cons e t ih =>
    rw [maskFrom_cons] at h
    -- either the character is behind what is left of `e`, or it is `e` itself and not one of the blanks
    have hrest : ∀ {v : Text}, u = remains m depth e t.head? ++ v →
        maskFrom (m.next e t.head?) (depthBehind depth (bracesAt m e)) t = v ++ c :: w →
        ∃ x y, e :: t = x ++ c :: y ∧ maskFrom m depth x = u ∧
          (c ≠ '\n' → isHidden (m.behind x) (depthAfter m depth x) c y.head? = false) ∧
          maskFrom ((m.behind x).next c y.head?) (depthBehind (depthAfter m depth x) (bracesAt (m.behind x) c)) y
            = w := by
      intro v hu hv
      obtain ⟨x, y, rfl, hx, hhidden, hw⟩ := ih hv
      have hremains : remains m depth e (x ++ c :: y).head? = remains m depth e x.head? := by
        unfold remains isHidden
        rw [Mode.next_head?_append (hcalm y)]
      rw [Mode.next_head?_append (hcalm y)] at hx hhidden hw
      rw [hremains] at hu
      refine ⟨e :: x, y, rfl, ?_, ?_, ?_⟩
      · rw [maskFrom_cons, hx, hu]
      · rw [depthAfter_cons]
        exact hhidden
      · rw [depthAfter_cons]
        exact hw
    rcases List.append_eq_append_iff.1 h with ⟨v, hu, hv⟩ | ⟨v, hv, hw⟩
    · exact hrest hu hv
    · cases v with
      | nil => exact @hrest [] (by rw [hv, List.append_nil, List.append_nil]) hw.symm
      | cons d v =>
        obtain ⟨rfl, htail⟩ := List.cons.inj hw
        unfold remains at hv
        split at hv
        · have hmem : c ∈ List.replicate e.utf8Size ' ' := by
            rw [hv]
            exact List.mem_append_right u List.mem_cons_self
          exact absurd (List.mem_replicate.1 hmem).2 hb
        · next hshown =>
          obtain ⟨rfl, hce⟩ : u = [] ∧ c :: v = [e] := by
            cases u with
            | nil => exact ⟨rfl, hv.symm⟩
            | cons a u => simp at hv
          obtain ⟨rfl, rfl⟩ := List.cons.inj hce
          refine ⟨[], t, rfl, rfl, fun hl => ?_, htail.symm⟩
          refine Bool.eq_false_iff.2 fun hhidden => hshown ?_
          rw [Bool.and_eq_true, bne_iff_ne]
          exact ⟨hhidden, hl⟩

/-- What is left of a masked text stands at the same offset in the text, outside of the contents of string literals. -/
theorem exists_cut_of_mask {m : Mode} {depth : Nat} {t u w : Text} {c : Char} (hb : c ≠ ' ') (hl : c ≠ '\n')
    (hcalm : ∀ y, Calm (c :: y)) (h : maskFrom m depth t = u ++ c :: w) :
    ∃ x y, t = x ++ c :: y ∧ Text.byteSize x = Text.byteSize u ∧
      ((m.behind x).isString = true → (m.behind x).next c y.head? = .code) := by
  obtain ⟨x, y, rfl, hx, hhidden, -⟩ := exists_cut_of_maskFrom hb hcalm h
  refine ⟨x, y, rfl, by rw [← hx, byteSize_maskFrom], fun hstring => ?_⟩
  have hshown := hhidden hl
  simp only [isHidden, hstring, Bool.true_and, Bool.or_eq_false_iff, bne_eq_false_iff_eq] at hshown
  exact hshown.1

/-- A character that is neither a quote nor a brace. -/
def isBare (c : Char) : Bool := c ∉ ['\'', '"', '`', '\x7b', '\x7d']

theorem isBare_of_isPlainCode {c : Char} (h : isPlainCode c = true) : isBare c = true := by
  simp only [isPlainCode, isBare, decide_eq_true_eq, List.mem_cons, List.not_mem_nil, or_false, not_or] at h ⊢
  exact ⟨h.1, h.2.1, h.2.2.1, h.2.2.2.2⟩

theorem isBare_of_isBlank {c : Char} (h : isBlank c = true) : isBare c = true := by
  unfold isBare
  rw [decide_eq_true_eq]
  simp only [List.mem_cons, List.not_mem_nil, or_false]
  rintro (rfl | rfl | rfl | rfl | rfl) <;> exact absurd h (by decide)

theorem isString_next_of_isBare {m : Mode} {c : Char} (hm : m.isString = false) (hc : isBare c = true)
    (ahead : Option Char) : (m.next c ahead).isString = false := by
  by_cases hcode : m = .code
  · subst hcode
    simp only [isBare, decide_eq_true_eq, List.mem_cons, List.not_mem_nil, or_false, not_or] at hc
    simp only [Mode.next, hc, or_self, if_false]
    split
    · rfl
    · split <;> rfl
  · exact Mode.isString_next_eq_false hm hcode c ahead

theorem bracesAt_of_isBare {c : Char} (hc : isBare c = true) (m : Mode) : bracesAt m c = [] := by
  refine if_neg ?_
  rintro ⟨-, rfl | rfl⟩ <;> exact absurd hc (by decide)

/-- Outside of strings and braces a character is left as it is. -/
theorem remains_zero {m : Mode} (hm : m.isString = false) (c : Char) (ahead : Option Char) :
    remains m 0 c ahead = [c] := by
  unfold remains isHidden
  rw [hm]
  rfl

/-- So are such characters one after the other, and what follows them is outside, too. -/
theorem exists_of_maskFrom_bare {m : Mode} {t w q : Text} (hm : m.isString = false) (hw : w.all isBare = true)
    (h : maskFrom m 0 t = w ++ q) :
    ∃ y m', t = w ++ y ∧ m'.isString = false ∧ maskFrom m' 0 y = q := by
  induction w generalizing m t with
  | nil => exact ⟨t, m, rfl, hm, h⟩
  | cons c w ih =>
    rw [List.all_cons, Bool.and_eq_true] at hw
    cases t with
    | nil => exact absurd h nofun
    | cons e t =>
      rw [maskFrom_cons, remains_zero hm] at h
      obtain ⟨rfl, hrest⟩ := List.cons.inj h
      have hdepth : depthBehind 0 (bracesAt m e) = 0 := by
        rw [bracesAt_of_isBare hw.1]
        rfl
      rw [hdepth] at hrest
      obtain ⟨y, m', rfl, hm', hy⟩ := ih (isString_next_of_isBare hm hw.1 _) hw.2 hrest
      exact ⟨y, m', rfl, hm', hy⟩

/-! ### Outside of strings and braces -/

/-- The string literal that is open, if any, is one in quotes. -/
def Mode.isProper : Mode → Bool
  | quoted q | escaped q => q ∈ ['\'', '"', '`']
  | _ => true

theorem Mode.isProper_next {m : Mode} (h : m.isProper = true) (c : Char) (ahead : Option Char) :
    (m.next c ahead).isProper = true := by
  cases m with
  | code =>
    simp only [next]
    split
    · next hc => simpa [isProper] using hc
    · split
      · rfl
      · split <;> rfl
  | quoted q =>
    simp only [next]
    split
    · exact h
    · split
      · rfl
      · exact h
  | escaped q => exact h
  | lineComment =>
    simp only [next]
    split <;> rfl
  | blockOpening => rfl
  | blockComment =>
    simp only [next]
    split <;> rfl
  | blockClosing => rfl

theorem Mode.isProper_behind {m : Mode} (h : m.isProper = true) (x : Text) : (m.behind x).isProper = true := by
  induction x generalizing m with
  | nil => exact h
  | cons c x ih => exact ih (isProper_next h c x.head?)

/-- A character that is legible and neither a quote, a brace nor a line feed stands outside of strings and braces. -/
theorem outside_of_isHidden_eq_false {m : Mode} {depth : Nat} {c : Char} {ahead : Option Char}
    (hm : m.isProper = true) (hc : isBare c = true) (hl : c ≠ '\n') (h : isHidden m depth c ahead = false) :
    m.isString = false ∧ depth = 0 := by
  rw [isHidden, Bool.or_eq_false_iff] at h
  constructor
  · refine Bool.eq_false_iff.2 fun hstring => ?_
    rw [hstring, Bool.true_and, bne_eq_false_iff_eq] at h
    cases m with
    | quoted q =>
      have hne : c ≠ q := by
        rintro rfl
        simp only [isBare, Mode.isProper, decide_eq_true_eq, List.mem_cons, List.not_mem_nil, or_false] at hm hc
        exact hc (by rcases hm with rfl | rfl | rfl <;> simp)
      have hnext : (Mode.quoted q).next c ahead = if c = '\\' then .escaped q else .quoted q := by
        simp [Mode.next, hne, hl]
      rw [hnext] at h
      split at h <;> cases h.1
    | escaped q => cases h.1
    | code | lineComment | blockOpening | blockComment | blockClosing => exact absurd hstring Bool.false_ne_true
  · have hclose : (m == .code && c == '\x7d') = false := by
      have hne : c ≠ '\x7d' := by
        rintro rfl
        exact absurd hc (by decide)
      rw [beq_eq_false_iff_ne.2 hne, Bool.and_false]
    rw [hclose, Bool.false_and, Bool.not_false, Bool.and_true, decide_eq_false_iff_not] at h
    omega

/-- So it cuts the text at a place outside of strings and braces. -/
theorem exists_cut_of_bare {t u w : Text} {c : Char} (hb : c ≠ ' ') (hl : c ≠ '\n') (hc : isBare c = true)
    (hcalm : ∀ y, Calm (c :: y)) (h : mask t = u ++ c :: w) :
    ∃ x y, t = x ++ c :: y ∧ mask x = u ∧ (Mode.code.behind x).isString = false ∧ depthAfter .code 0 x = 0 ∧
      maskFrom (Mode.code.behind x) 0 (c :: y) = c :: w := by
  obtain ⟨x, y, rfl, hx, hhidden, hw⟩ := exists_cut_of_maskFrom hb hcalm h
  obtain ⟨hstring, hdepth⟩ := outside_of_isHidden_eq_false (Mode.isProper_behind rfl x) hc hl (hhidden hl)
  refine ⟨x, y, rfl, hx, hstring, hdepth, ?_⟩
  rw [maskFrom_cons, remains_zero hstring, ← hw, hdepth]
  rfl

end SnippetPreview.Script
