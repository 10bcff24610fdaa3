import SnippetPreview.Proofs.Pattern.Reads

/-!
# Patterns in longer texts

* `reads_seq_iff`, `reads_alt_iff`, `reads_run_iff` and so on: what each kind of pattern reads;
* `isMatch_text`, `isMatch_anyCase`: a fixed text is found in another iff it is an infix, up to case if need be;
* `infix_append_cons`: an infix without the character `c` lies on one side of it;
* `Reads.congr`: of its surroundings, a reading sees only whether a line starts and whether words reach up to its ends;
* `Pattern.consumes`, `Pattern.freeStart`, `Pattern.freeEnd`: shapes of patterns that read something, that do not look
  back and that do not look ahead;
* `isMatch_of_isInfix`: a pattern that looks neither back nor ahead is found in every longer text, too;
* `SetApart`, `SetApart.isMatch`: any pattern is found in a longer text that adds whole lines only.
-/

namespace SnippetPreview

open Pattern

/-! ### Inversion -/

theorem reads_empty_iff {b : Option Char} {u y : Text} : Reads .empty b u y ↔ u = [] := by
  constructor
  · rintro ⟨⟩
    rfl
  · rintro rfl
    exact .empty b y

theorem reads_one_iff {holds : Char → Bool} {b : Option Char} {u y : Text} :
    Reads (.one holds) b u y ↔ ∃ c, u = [c] ∧ holds c = true := by
  constructor
  · rintro ⟨⟩
    exact ⟨_, rfl, ‹_›⟩
  · rintro ⟨c, rfl, h⟩
    exact .one b y h

theorem reads_seq_iff {p q : Pattern} {b : Option Char} {w y : Text} :
    Reads (.seq p q) b w y ↔ ∃ u v, w = u ++ v ∧ Reads p b u (v ++ y) ∧ Reads q (lastOf b u) v y := by
  constructor
  · rintro ⟨⟩
    exact ⟨_, _, rfl, ‹_›, ‹_›⟩
  · rintro ⟨u, v, rfl, hp, hq⟩
    exact .seq hp hq

theorem reads_run_iff {greedy : Bool} {holds : Char → Bool} {b : Option Char} {u y : Text} :
    Reads (.run greedy holds) b u y ↔ u.all holds = true := by
  constructor
  · rintro ⟨⟩
    assumption
  · exact .run b y

theorem reads_many1_iff {holds : Char → Bool} {b : Option Char} {u y : Text} :
    Reads (many1 holds) b u y ↔ u ≠ [] ∧ u.all holds = true := by
  constructor
  · intro h
    obtain ⟨v, w, rfl, hone, hrun⟩ := reads_seq_iff.1 h
    obtain ⟨c, rfl, hc⟩ := reads_one_iff.1 hone
    refine ⟨List.cons_ne_nil c w, ?_⟩
    rw [List.singleton_append, List.all_cons, hc, reads_run_iff.1 hrun, Bool.and_self]
  · rintro ⟨hne, h⟩
    obtain ⟨c, u, rfl⟩ := List.exists_cons_of_ne_nil hne
    rw [List.all_cons, Bool.and_eq_true] at h
    exact .seq (u := [c]) (.one _ _ h.1) (.run _ _ h.2)

/-- The end of a chain reads nothing. -/
theorem reads_last_iff {p : Pattern} {b : Option Char} {u y : Text} : Reads (.seq p .empty) b u y ↔ Reads p b u y := by
  constructor
  · intro h
    obtain ⟨v, w, rfl, hp, hend⟩ := reads_seq_iff.1 h
    obtain rfl := reads_empty_iff.1 hend
    rwa [List.append_nil]
  · intro h
    have hend := Reads.seq (v := []) h (.empty _ y)
    rwa [List.append_nil] at hend

/-- Nor does the start of a line. -/
theorem reads_lineStart_seq_iff {p : Pattern} {b : Option Char} {u y : Text} :
    Reads (.seq .lineStart p) b u y ↔ b.all (· == '\n') = true ∧ Reads p b u y := by
  constructor
  · intro h
    obtain ⟨v, w, rfl, hline, hp⟩ := reads_seq_iff.1 h
    cases hline with
    | lineStart _ hline => exact ⟨hline, hp⟩
  · rintro ⟨hline, hp⟩
    exact .seq (u := []) (.lineStart _ hline) hp

/-- A chain of patterns is read as its first part and then the rest of it. -/
theorem reads_chain_append_iff {ps qs : List Pattern} {b : Option Char} {w y : Text} :
    Reads (chain (ps ++ qs)) b w y ↔
      ∃ u v, w = u ++ v ∧ Reads (chain ps) b u (v ++ y) ∧ Reads (chain qs) (lastOf b u) v y := by
  induction ps generalizing b w with
  | nil =>
    constructor
    · exact fun h => ⟨[], w, rfl, .empty _ _, h⟩
    · rintro ⟨u, v, rfl, hempty, hqs⟩
      obtain rfl := reads_empty_iff.1 hempty
      exact hqs
  | cons p ps ih =>
    constructor
    · intro h
      obtain ⟨u, v, rfl, hp, hrest⟩ := reads_seq_iff.1 h
      obtain ⟨v, z, rfl, hps, hqs⟩ := ih.1 hrest
      rw [← lastOf_append] at hqs
      rw [List.append_assoc] at hp
      exact ⟨u ++ v, z, (List.append_assoc ..).symm, .seq hp hps, hqs⟩
    · rintro ⟨u, v, rfl, hps, hqs⟩
      obtain ⟨u, z, rfl, hp, hps⟩ := reads_seq_iff.1 hps
      rw [lastOf_append] at hqs
      rw [← List.append_assoc] at hp
      rw [List.append_assoc]
      exact .seq hp (ih.2 ⟨z, v, rfl, hps, hqs⟩)

theorem reads_alt_iff {p q : Pattern} {b : Option Char} {u y : Text} :
    Reads (.alt p q) b u y ↔ Reads p b u y ∨ Reads q b u y := by
  constructor
  · rintro (_ | _)
    · exact .inl ‹_›
    · exact .inr ‹_›
  · rintro (h | h)
    · exact .altLeft q h
    · exact .altRight p h

theorem reads_group_iff {i : Nat} {p : Pattern} {b : Option Char} {u y : Text} :
    Reads (group i p) b u y ↔ Reads p b u y := by
  constructor
  · intro h
    obtain ⟨v, w, rfl, hstart, h⟩ := reads_seq_iff.1 h
    cases hstart
    obtain ⟨v, w, rfl, hp, hstop⟩ := reads_seq_iff.1 h
    cases hstop
    rwa [List.nil_append, List.append_nil]
  · intro h
    have hrest : Reads (.seq p (.mark (2 * i + 1))) b (u ++ []) y := .seq h (.mark _ _ _)
    rw [List.append_nil] at hrest
    exact .seq (u := []) (.mark _ _ _) hrest

theorem isMatch_alt {p q : Pattern} {t : Text} : (alt p q).isMatch t = (p.isMatch t || q.isMatch t) := by
  rw [Bool.eq_iff_iff, Bool.or_eq_true, isMatch_iff, isMatch_iff, isMatch_iff]
  constructor
  · rintro ⟨x, u, y, ht, h⟩
    rcases reads_alt_iff.1 h with h | h
    · exact .inl ⟨x, u, y, ht, h⟩
    · exact .inr ⟨x, u, y, ht, h⟩
  · rintro (⟨x, u, y, ht, h⟩ | ⟨x, u, y, ht, h⟩)
    · exact ⟨x, u, y, ht, .altLeft q h⟩
    · exact ⟨x, u, y, ht, .altRight p h⟩

/-! ### Fixed texts -/

section Letters

variable {matches? : Char → Char → Bool} {fold : Char → Char}

/-- A text is read character by character, each one up to `fold`. -/
theorem reads_letters_iff (h : ∀ c d, matches? c d = true ↔ fold d = fold c) {w : Text} {b : Option Char} {u y : Text} :
    Reads (chain (w.map fun c => .one (matches? c))) b u y ↔ u.map fold = w.map fold := by
  induction w generalizing b u with
  | nil => rw [List.map_nil, chain, reads_empty_iff, List.map_nil, List.map_eq_nil_iff]
  | cons c w ih =>
    rw [List.map_cons, chain, reads_seq_iff]
    constructor
    · rintro ⟨v, v', rfl, hc, hw⟩
      obtain ⟨d, rfl, hd⟩ := reads_one_iff.1 hc
      rw [List.map_append, List.map_cons, List.map_cons, ih.1 hw, (h c d).1 hd]
      rfl
    · intro hu
      rw [List.map_cons] at hu
      obtain ⟨d, v, rfl, hd, hv⟩ := List.map_eq_cons_iff.1 hu
      exact ⟨[d], v, rfl, reads_one_iff.2 ⟨d, rfl, (h c d).2 hd⟩, ih.2 hv⟩

/-- A text is found in another iff it is an infix of it, up to `fold`. -/
theorem isMatch_letters_iff (h : ∀ c d, matches? c d = true ↔ fold d = fold c) {w t : Text} :
    (chain (w.map fun c => .one (matches? c))).isMatch t = true ↔ w.map fold <:+: t.map fold := by
  rw [isMatch_iff]
  constructor
  · rintro ⟨x, u, y, rfl, hu⟩
    rw [List.map_append, List.map_append, (reads_letters_iff h).1 hu]
    exact List.infix_append _ _ _
  · rintro ⟨x', y', hxy⟩
    obtain ⟨xu, y, rfl, hxu, -⟩ := List.map_eq_append_iff.1 hxy.symm
    obtain ⟨x, u, rfl, -, hu⟩ := List.map_eq_append_iff.1 hxu
    exact ⟨x, u, y, rfl, (reads_letters_iff h).2 hu⟩

end Letters

theorem isMatch_text {w t : Text} : (text w).isMatch t = true ↔ w <:+: t := by
  have h : ∀ c d : Char, (d == c) = true ↔ id d = id c := fun c d => beq_iff_eq
  have := isMatch_letters_iff (w := w) (t := t) h
  rwa [List.map_id, List.map_id] at this

theorem sameLetter_iff (c d : Char) : sameLetter c d = true ↔ foldCase d = foldCase c := by
  rw [sameLetter, beq_iff_eq]
  exact eq_comm

theorem isMatch_anyCase {w t : Text} : (anyCase w).isMatch t = true ↔ w.map foldCase <:+: t.map foldCase :=
  isMatch_letters_iff sameLetter_iff

theorem reads_anyCase_iff {w : Text} {b : Option Char} {u y : Text} :
    Reads (anyCase w) b u y ↔ u.map foldCase = w.map foldCase :=
  reads_letters_iff sameLetter_iff

theorem eq_nil_of_prefix_cons {w y : Text} {c : Char} (hc : c ∉ w) (h : w <+: c :: y) : w = [] := by
  rcases List.prefix_cons_iff.1 h with h | ⟨v, rfl, -⟩
  · exact h
  · exact absurd List.mem_cons_self hc

theorem reads_text_iff {w : Text} {b : Option Char} {u y : Text} : Reads (text w) b u y ↔ u = w := by
  have hsame : ∀ c d : Char, (d == c) = true ↔ id d = id c := fun c d => beq_iff_eq
  have h := reads_letters_iff (w := w) (b := b) (u := u) (y := y) hsame
  rwa [List.map_id, List.map_id] at h

/-- What begins with a fixed text. -/
theorem reads_text_seq_iff {w : Text} {p : Pattern} {b : Option Char} {u y : Text} :
    Reads (.seq (text w) p) b u y ↔ ∃ v, u = w ++ v ∧ Reads p (lastOf b w) v y := by
  constructor
  · intro h
    obtain ⟨w, v, rfl, hw, hp⟩ := reads_seq_iff.1 h
    obtain rfl := reads_text_iff.1 hw
    exact ⟨v, rfl, hp⟩
  · rintro ⟨v, rfl, hp⟩
    exact .seq (reads_text_iff.2 rfl) hp

/-- An infix without the character `c` lies on one side of it. -/
theorem infix_append_cons {w x y : Text} {c : Char} (hc : c ∉ w) : w <:+: x ++ c :: y ↔ w <:+: x ∨ w <:+: y := by
  constructor
  · intro h
    rcases List.infix_append_iff.1 h with h | h | ⟨v, v', rfl, hv, hv'⟩
    · exact .inl h
    · rcases List.infix_cons_iff.1 h with h | h
      · rw [eq_nil_of_prefix_cons hc h]
        exact .inl (List.nil_infix)
      · exact .inr h
    · obtain rfl := eq_nil_of_prefix_cons (fun hmem => hc (List.mem_append_right v hmem)) hv'
      rw [List.append_nil]
      exact .inl hv.isInfix
  · rintro (h | h)
    · exact List.infix_append_of_infix_left h
    · exact List.infix_append_of_infix_right (h.trans (List.suffix_cons c y).isInfix)

/-! ### Surroundings -/

/-- Two places where lines and words start alike. -/
def SameBefore (b b' : Option Char) : Prop := b.all (· == '\n') = b'.all (· == '\n') ∧ b.any isWord = b'.any isWord

/-- Two texts behind a place that go on with a word alike. -/
def SameAfter (y y' : Text) : Prop := y.head?.any isWord = y'.head?.any isWord

theorem SameBefore.lastOf {b b' : Option Char} (h : SameBefore b b') (u : Text) :
    SameBefore (lastOf b u) (SnippetPreview.lastOf b' u) := by
  cases u with
  | nil => exact h
  | cons c u => exact ⟨rfl, rfl⟩

/-- The start of a line is like the start of a text. -/
theorem sameBefore_of_atLineStart {k : Cursor} (h : k.atLineStart = true) : SameBefore k.before none := by
  unfold Cursor.atLineStart at h
  refine ⟨h, ?_⟩
  cases hb : k.before with
  | none => rfl
  | some c =>
    rw [hb, Option.all_some, beq_iff_eq] at h
    rw [h]
    decide

theorem SameAfter.append {y y' : Text} (h : SameAfter y y') (v : Text) : SameAfter (v ++ y) (v ++ y') := by
  cases v with
  | nil => exact h
  | cons c v => rfl

/-- Of its surroundings, a reading sees only whether a line starts and whether words reach up to its ends. -/
theorem Reads.congr {p : Pattern} {b b' : Option Char} {u y y' : Text} (h : Reads p b u y) (hb : SameBefore b b')
    (hy : SameAfter y y') : Reads p b' u y' := by
  induction h generalizing b' y' with
  | empty => exact .empty _ _
  | lineStart y h => exact .lineStart _ (hb.1 ▸ h)
  | wordEdge h =>
    rw [hb.2, hy] at h
    exact .wordEdge h
  | mark i => exact .mark i _ _
  | one b y h => exact .one _ _ h
  | run b y h => exact .run _ _ h
  | seq _ _ ihp ihq => exact .seq (ihp hb (hy.append _)) (ihq (hb.lastOf _) hy)
  | altLeft q _ ih => exact .altLeft q (ih hb hy)
  | altRight p _ ih => exact .altRight p (ih hb hy)
  | starNil p => exact .starNil p _ _
  | starCons hu _ _ ihp ihs => exact .starCons hu (ihp hb (hy.append _)) (ihs (hb.lastOf _) hy)

/-! ### Patterns that do not look around -/

namespace Pattern

/-- Every reading of the pattern reads some character. -/
def consumes : Pattern → Bool
  | one _ => true
  | seq p q => p.consumes || q.consumes
  | alt p q => p.consumes && q.consumes
  | empty | lineStart | wordEdge | mark _ | run _ _ | star _ => false

/-- What can be read does not depend on what stands in front. -/
def freeStart : Pattern → Bool
  | empty | mark _ | one _ | run _ _ => true
  | lineStart | wordEdge => false
  | seq p q => p.freeStart && (p.consumes || q.freeStart)
  | alt p q => p.freeStart && q.freeStart
  | star p => p.freeStart

/-- What can be read does not depend on what follows. -/
def freeEnd : Pattern → Bool
  | empty | lineStart | mark _ | one _ | run _ _ => true
  | wordEdge => false
  | seq p q => (q.consumes || p.freeEnd) && q.freeEnd
  | alt p q => p.freeEnd && q.freeEnd
  | star p => p.freeEnd

end Pattern

theorem Reads.ne_nil {p : Pattern} {b : Option Char} {u y : Text} (h : Reads p b u y) (hp : p.consumes = true) :
    u ≠ [] := by
  induction h with
  | empty | lineStart | wordEdge | mark | run | starNil | starCons => exact absurd hp Bool.false_ne_true
  | one => exact List.cons_ne_nil _ _
  | seq _ _ ihp ihq =>
    rw [Pattern.consumes, Bool.or_eq_true] at hp
    rcases hp with hp | hq
    · exact List.append_ne_nil_of_left_ne_nil (ihp hp) _
    · exact List.append_ne_nil_of_right_ne_nil _ (ihq hq)
  | altLeft q _ ih =>
    rw [Pattern.consumes, Bool.and_eq_true] at hp
    exact ih hp.1
  | altRight p _ ih =>
    rw [Pattern.consumes, Bool.and_eq_true] at hp
    exact ih hp.2

theorem Reads.of_freeStart {p : Pattern} {b : Option Char} {u y : Text} (h : Reads p b u y)
    (hp : p.freeStart = true) (b' : Option Char) : Reads p b' u y := by
  induction h generalizing b' with
  | empty => exact .empty _ _
  | lineStart | wordEdge => exact absurd hp Bool.false_ne_true
  | mark i => exact .mark i _ _
  | one b y h => exact .one _ _ h
  | run b y h => exact .run _ _ h
  | @seq p q b u v y hr hr' ihp ihq =>
    rw [freeStart, Bool.and_eq_true, Bool.or_eq_true] at hp
    refine .seq (ihp hp.1 b') ?_
    rcases hp.2 with hc | hq
    · rwa [lastOf_of_ne_nil (hr.ne_nil hc) b' b]
    · exact ihq hq _
  | altLeft q _ ih =>
    rw [freeStart, Bool.and_eq_true] at hp
    exact .altLeft q (ih hp.1 b')
  | altRight p _ ih =>
    rw [freeStart, Bool.and_eq_true] at hp
    exact .altRight p (ih hp.2 b')
  | starNil p => exact .starNil p _ _
  | @starCons p b u v y hu _ hs ihp _ =>
    refine .starCons hu (ihp hp b') ?_
    rwa [lastOf_of_ne_nil hu b' b]

theorem Reads.of_freeEnd {p : Pattern} {b : Option Char} {u y : Text} (h : Reads p b u y)
    (hp : p.freeEnd = true) (y' : Text) : Reads p b u y' := by
  induction h generalizing y' with
  | empty => exact .empty _ _
  | lineStart y h => exact .lineStart _ h
  | wordEdge => exact absurd hp Bool.false_ne_true
  | mark i => exact .mark i _ _
  | one b y h => exact .one _ _ h
  | run b y h => exact .run _ _ h
  | @seq p q b u v y hr hr' ihp ihq =>
    rw [freeEnd, Bool.and_eq_true, Bool.or_eq_true] at hp
    refine .seq ?_ (ihq hp.2 y')
    rcases hp.1 with hc | hp
    · -- the first part ends in front of a character that both texts share
      refine hr.congr ⟨rfl, rfl⟩ ?_
      obtain ⟨c, w, rfl⟩ := List.exists_cons_of_ne_nil (hr'.ne_nil hc)
      rfl
    · exact ihp hp _
  | altLeft q _ ih =>
    rw [freeEnd, Bool.and_eq_true] at hp
    exact .altLeft q (ih hp.1 y')
  | altRight p _ ih =>
    rw [freeEnd, Bool.and_eq_true] at hp
    exact .altRight p (ih hp.2 y')
  | starNil p => exact .starNil p _ _
  | starCons hu _ _ ihp ihs => exact .starCons hu (ihp hp _) (ihs hp y')

/-- A pattern that looks neither back nor ahead is found in every longer text, too. -/
theorem isMatch_of_isInfix {p : Pattern} {t t' : Text} (hs : p.freeStart = true) (he : p.freeEnd = true)
    (h : p.isMatch t = true) (ht : t <:+: t') : p.isMatch t' = true := by
  obtain ⟨x', u, y', rfl, hu⟩ := isMatch_iff.1 h
  obtain ⟨x, y, rfl⟩ := ht
  refine isMatch_iff.2 ⟨x ++ x', u, y' ++ y, ?_, (hu.of_freeStart hs _).of_freeEnd he _⟩
  simp only [List.append_assoc]

/-! ### Texts set apart -/

/-- The text stands in a longer one as it would stand alone: a line starts with it, and no word reaches across its ends. -/
def SetApart (t t' : Text) : Prop := ∃ x y, t' = x ++ t ++ y ∧ SameBefore none (lastOf none x) ∧ SameAfter [] y

namespace SetApart

variable {t t' : Text}

theorem isInfix : SetApart t t' → t <:+: t' := by
  rintro ⟨x, y, rfl, -, -⟩
  exact List.infix_append x t y

theorem in_front (a b : Text) : SetApart a (a ++ '\n' :: b) :=
  ⟨[], '\n' :: b, rfl, ⟨rfl, rfl⟩, rfl⟩

theorem behind (a b : Text) : SetApart b (a ++ '\n' :: b) := by
  refine ⟨a ++ ['\n'], [], by simp, ?_, rfl⟩
  rw [lastOf_append]
  exact ⟨rfl, rfl⟩

/-- Whatever a pattern may ask of the surroundings of what it reads, lines that are added do not change the answer. -/
theorem isMatch (h : SetApart t t') {p : Pattern} (hp : p.isMatch t = true) : p.isMatch t' = true := by
  obtain ⟨x, y, rfl, hx, hy⟩ := h
  obtain ⟨x', u, y', rfl, hu⟩ := isMatch_iff.1 hp
  refine isMatch_iff.2 ⟨x ++ x', u, y' ++ y, by simp only [List.append_assoc], ?_⟩
  rw [lastOf_append]
  have hafter : SameAfter y' (y' ++ y) := by simpa using hy.append y'
  exact hu.congr (hx.lastOf x') hafter

end SetApart

end SnippetPreview
