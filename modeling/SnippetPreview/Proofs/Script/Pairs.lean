import Mathlib.Order.Bounds.Basic
import SnippetPreview.Proofs.Script.Parts

/-!
# Braces in pairs

* `IsSorted`: braces that stand one behind the other, as those of a text do, so that a place cuts their list;
* `exists_cut_of_closing?_eq`, `exists_closing?_of_nesting?_eq_none`: the brace that a search ends with has balanced braces
  in front of it, and the search ends with one as soon as the braces do not balance;
* `matchingBrace?_eq_closing?`: an opening brace in code is closed by what the search finds among the braces behind it;
  `mem_of_matchingBrace?`: this is a closing brace in code;
* `EvensOut`: from an opening brace to a closing one, as many braces are opened as closed;
* `braces_in_pairs`: a brace is closed by the first brace that evens out, and two pairs are nested or apart.
-/

namespace SnippetPreview.Script

/-! ### Places of braces -/

/-- Each brace stands behind those in front of it. -/
def IsSorted (bs : List Brace) : Prop := bs.Pairwise fun b b' => b.pos < b'.pos

theorem isSorted_bracesFrom (m : Mode) (pos : Nat) (t : Text) : IsSorted (bracesFrom m pos t) := by
  induction t generalizing m pos with
  | nil => exact List.Pairwise.nil
  | cons c t ih =>
    have hc := c.utf8Size_pos
    rw [bracesFrom_cons]
    split
    · refine List.Pairwise.cons ?_ (ih _ _)
      intro b hb
      have := (pos_of_mem_bracesFrom hb).1
      dsimp only
      omega
    · exact ih _ _

theorem isSorted_scan (t : Text) : IsSorted (scan t).braces := isSorted_bracesFrom .code 0 t

namespace IsSorted

variable {bs front back : List Brace} {b : Brace}

/-- What is in front of a brace in the list stands in front of it, and what is behind it stands behind it. -/
theorem cut (h : IsSorted (front ++ b :: back)) :
    IsSorted front ∧ IsSorted back ∧ (∀ d ∈ front, d.pos < b.pos) ∧ ∀ d ∈ back, b.pos < d.pos := by
  obtain ⟨hfront, hback, hcross⟩ := List.pairwise_append.1 h
  obtain ⟨hb, hback⟩ := List.pairwise_cons.1 hback
  exact ⟨hfront, hback, fun d hd => hcross d hd b List.mem_cons_self, hb⟩

/-- A place cuts the list. -/
theorem exists_cut (h : IsSorted bs) (n : Nat) :
    ∃ front back, bs = front ++ back ∧ (∀ b ∈ front, b.pos < n) ∧ ∀ b ∈ back, n ≤ b.pos := by
  induction bs with
  | nil => exact ⟨[], [], rfl, List.forall_mem_nil _, List.forall_mem_nil _⟩
  | cons b bs ih =>
    obtain ⟨hb, hbs⟩ := List.pairwise_cons.1 h
    by_cases hn : b.pos < n
    · obtain ⟨front, back, rfl, hfront, hback⟩ := ih hbs
      exact ⟨b :: front, back, rfl, List.forall_mem_cons.2 ⟨hn, hfront⟩, hback⟩
    · refine ⟨[], b :: bs, rfl, List.forall_mem_nil _, ?_⟩
      intro d hd
      rcases List.mem_cons.1 hd with rfl | hd
      · omega
      · have := hb d hd
        omega

end IsSorted

/-- A brace in code is a character of the text. -/
theorem exists_cut_of_mem_bracesFrom {m : Mode} {pos : Nat} {t : Text} {b : Brace} (h : b ∈ bracesFrom m pos t) :
    ∃ x y, t = x ++ (if b.isOpen then '\x7b' else '\x7d') :: y ∧ b.pos = pos + Text.byteSize x := by
  induction t generalizing m pos with
  | nil => exact absurd h List.not_mem_nil
  | cons c t ih =>
    rw [bracesFrom_cons, List.mem_append] at h
    rcases h with h | h
    · split at h
      · next hc =>
        obtain rfl := List.mem_singleton.1 h
        refine ⟨[], t, ?_, rfl⟩
        obtain rfl | rfl := hc.2 <;> rfl
      · exact absurd h List.not_mem_nil
    · obtain ⟨x, y, rfl, hpos⟩ := ih h
      exact ⟨c :: x, y, rfl, by rw [hpos, Text.byteSize_cons, Nat.add_assoc]⟩

theorem charAt?_of_mem_braces {t : Text} {b : Brace} (h : b ∈ (scan t).braces) :
    charAt? t b.pos = some (if b.isOpen then '\x7b' else '\x7d') := by
  obtain ⟨x, y, ht, hpos⟩ := exists_cut_of_mem_bracesFrom h
  rw [hpos, Nat.zero_add]
  conv_lhs => rw [ht]
  exact charAt?_append x _ y

/-! ### Counting -/

/-- How many braces are open behind others is the balance of what these open and close. -/
theorem count_of_nesting? {depth depth' : Nat} {bs : List Bool} (h : nesting? depth bs = some depth') :
    depth + bs.count true = depth' + bs.count false := by
  induction bs generalizing depth with
  | nil =>
    obtain rfl := Option.some.inj h
    rfl
  | cons b bs ih =>
    cases b with
    | true =>
      have := ih h
      rw [List.count_cons_self, List.count_cons_of_ne (by decide)]
      omega
    | false =>
      cases depth with
      | zero => exact absurd h nofun
      | succ d =>
        have := ih h
        rw [List.count_cons_self, List.count_cons_of_ne (by decide)]
        omega

/-- The braces in front of the one that closes are balanced. -/
theorem exists_cut_of_closing?_eq {depth c : Nat} {bs : List Brace} (h : closing? (depth + 1) bs = some c) :
    ∃ inner outer, bs = inner ++ ⟨c, false⟩ :: outer ∧ nesting? depth (inner.map Brace.isOpen) = some 0 := by
  induction bs generalizing depth with
  | nil => exact absurd h nofun
  | cons b bs ih =>
    obtain ⟨pos, isOpen⟩ := b
    cases isOpen with
    | true =>
      obtain ⟨inner, outer, rfl, hinner⟩ := ih h
      exact ⟨⟨pos, true⟩ :: inner, outer, rfl, hinner⟩
    | false =>
      cases depth with
      | zero =>
        obtain rfl := Option.some.inj h
        exact ⟨[], bs, rfl, rfl⟩
      | succ d =>
        obtain ⟨inner, outer, rfl, hinner⟩ := ih h
        exact ⟨⟨pos, false⟩ :: inner, outer, rfl, hinner⟩

theorem mem_of_closing? {depth c : Nat} {bs : List Brace} (h : closing? depth bs = some c) : ⟨c, false⟩ ∈ bs := by
  cases bs with
  | nil => exact absurd h nofun
  | cons b bs =>
    cases depth with
    | succ d =>
      obtain ⟨inner, outer, hcut, -⟩ := exists_cut_of_closing?_eq h
      rw [hcut]
      exact List.mem_append_right _ List.mem_cons_self
    | zero =>
      rw [closing?] at h
      split at h
      · obtain ⟨inner, outer, hcut, -⟩ := exists_cut_of_closing?_eq h
        rw [hcut]
        exact List.mem_cons_of_mem _ (List.mem_append_right _ List.mem_cons_self)
      · exact absurd h nofun

/-- Where a brace closes what was open in front, it is the one that is found, whatever follows. -/
theorem exists_closing?_of_nesting?_eq_none {depth : Nat} {bs : List Brace}
    (h : nesting? depth (bs.map Brace.isOpen) = none) :
    ∃ c, ⟨c, false⟩ ∈ bs ∧ ∀ rest, closing? (depth + 1) (bs ++ rest) = some c := by
  induction bs generalizing depth with
  | nil => exact absurd h nofun
  | cons b bs ih =>
    obtain ⟨pos, isOpen⟩ := b
    cases isOpen with
    | true =>
      obtain ⟨c, hc, hclosing⟩ := ih h
      exact ⟨c, List.mem_cons_of_mem _ hc, hclosing⟩
    | false =>
      cases depth with
      | zero => exact ⟨pos, List.mem_cons_self, fun rest => rfl⟩
      | succ d =>
        obtain ⟨c, hc, hclosing⟩ := ih h
        exact ⟨c, List.mem_cons_of_mem _ hc, hclosing⟩

/-- So it is where more braces are closed than opened. -/
theorem exists_closing?_of_lt {depth : Nat} {bs : List Brace}
    (h : depth + (bs.map Brace.isOpen).count true < (bs.map Brace.isOpen).count false) :
    ∃ c, ⟨c, false⟩ ∈ bs ∧ ∀ rest, closing? (depth + 1) (bs ++ rest) = some c := by
  apply exists_closing?_of_nesting?_eq_none
  rw [Option.eq_none_iff_forall_ne_some]
  intro depth' hdepth
  have := count_of_nesting? hdepth
  omega

/-! ### The brace that closes -/

/-- What closes a brace is a closing brace in code behind it. -/
theorem mem_of_matchingBrace? {t : Text} {o c : Nat} (h : matchingBrace? t o = some c) :
    ⟨c, false⟩ ∈ (scan t).braces ∧ o < c := by
  unfold matchingBrace? at h
  split at h
  · next hopen =>
    obtain ⟨hmem, hle⟩ := List.mem_filter.1 (mem_of_closing? h)
    refine ⟨hmem, Nat.lt_of_le_of_ne (of_decide_eq_true hle) ?_⟩
    rintro rfl
    exact absurd ((charAt?_of_mem_braces hmem).symm.trans hopen) (by simp)
  · exact absurd h nofun

/-- The braces in code from a place to another, both included. -/
def bracesBetween (t : Text) (o c : Nat) : List Bool :=
  ((scan t).braces.filter fun b => o ≤ b.pos && b.pos ≤ c).map Brace.isOpen

/-- There is a closing brace in code at `c` behind `o`, and as many braces are opened from `o` to `c` as closed. -/
structure EvensOut (t : Text) (o c : Nat) : Prop where
  mem : ⟨c, false⟩ ∈ (scan t).braces
  behind : o < c
  even : (bracesBetween t o c).count true = (bracesBetween t o c).count false

section Pair

variable {t : Text} {o c : Nat} {front rest within further : List Brace}

/-- An opening brace in code is closed by what is found among the braces behind it. -/
theorem matchingBrace?_eq_closing? (h : (scan t).braces = front ++ ⟨o, true⟩ :: rest) :
    matchingBrace? t o = closing? 1 rest := by
  obtain ⟨-, -, hfront, hrest⟩ := (h ▸ isSorted_scan t).cut
  have hchar : charAt? t o = some '\x7b' := by
    apply charAt?_of_mem_braces (b := ⟨o, true⟩)
    rw [h]
    exact List.mem_append_right _ List.mem_cons_self
  have hnil : front.filter (o ≤ ·.pos) = [] := by
    rw [List.filter_eq_nil_iff]
    intro b hb
    simpa using hfront b hb
  have hall : rest.filter (o ≤ ·.pos) = rest := by
    rw [List.filter_eq_self]
    intro b hb
    simpa using Nat.le_of_lt (hrest b hb)
  rw [matchingBrace?, if_pos hchar, h, List.filter_append, hnil, List.nil_append, List.filter_cons_of_pos (by simp), hall]
  rfl

/-- The braces from an opening one to a place behind it. -/
theorem bracesBetween_eq (h : (scan t).braces = front ++ ⟨o, true⟩ :: (within ++ further)) (hc : o ≤ c)
    (hwithin : ∀ b ∈ within, b.pos ≤ c) (hfurther : ∀ b ∈ further, c < b.pos) :
    bracesBetween t o c = true :: within.map Brace.isOpen := by
  obtain ⟨-, -, hfront, hrest⟩ := (h ▸ isSorted_scan t).cut
  have hnil : front.filter (fun b => o ≤ b.pos && b.pos ≤ c) = [] := by
    rw [List.filter_eq_nil_iff]
    intro b hb
    have hlt : b.pos < o := hfront b hb
    simp only [Bool.and_eq_true, decide_eq_true_eq]
    omega
  have hall : within.filter (fun b => o ≤ b.pos && b.pos ≤ c) = within := by
    rw [List.filter_eq_self]
    intro b hb
    rw [Bool.and_eq_true, decide_eq_true_eq, decide_eq_true_eq]
    exact ⟨Nat.le_of_lt (hrest b (List.mem_append_left _ hb)), hwithin b hb⟩
  have hnone : further.filter (fun b => o ≤ b.pos && b.pos ≤ c) = [] := by
    rw [List.filter_eq_nil_iff]
    intro b hb
    have := hfurther b hb
    simp only [Bool.and_eq_true, decide_eq_true_eq]
    omega
  rw [bracesBetween, h, List.filter_append, hnil, List.nil_append, List.filter_cons_of_pos (by simp [hc]),
    List.filter_append, hall, hnone, List.append_nil, List.map_cons]

/-- They even out when the braces behind the opening one close one more than they open. -/
theorem even_bracesBetween_iff (h : (scan t).braces = front ++ ⟨o, true⟩ :: (within ++ further)) (hc : o ≤ c)
    (hwithin : ∀ b ∈ within, b.pos ≤ c) (hfurther : ∀ b ∈ further, c < b.pos) :
    (bracesBetween t o c).count true = (bracesBetween t o c).count false
      ↔ (within.map Brace.isOpen).count true + 1 = (within.map Brace.isOpen).count false := by
  rw [bracesBetween_eq h hc hwithin hfurther, List.count_cons_self, List.count_cons_of_ne (by decide)]

/-- The brace that is found evens out, and none in front of it does. -/
theorem isLeast_of_closing? (h : (scan t).braces = front ++ ⟨o, true⟩ :: rest) (hc : closing? 1 rest = some c) :
    IsLeast {c | EvensOut t o c} c := by
  obtain ⟨inner, outer, rfl, hinner⟩ := exists_cut_of_closing?_eq hc
  obtain ⟨-, hsorted, -, hrest⟩ := (h ▸ isSorted_scan t).cut
  obtain ⟨hsorted, -, hbefore, hafter⟩ := hsorted.cut
  have hoc : o < c := hrest ⟨c, false⟩ (List.mem_append_right _ List.mem_cons_self)
  constructor
  · refine ⟨?_, hoc, ?_⟩
    · rw [h]
      simp
    · have hsplit : (scan t).braces = front ++ ⟨o, true⟩ :: ((inner ++ [⟨c, false⟩]) ++ outer) := by
        rw [h, List.append_cons inner]
      have hupto : ∀ b ∈ inner ++ [⟨c, false⟩], b.pos ≤ c := by
        intro b hb
        rcases List.mem_append.1 hb with hb | hb
        · exact Nat.le_of_lt (hbefore b hb)
        · obtain rfl := List.mem_singleton.1 hb
          exact Nat.le_refl _
      have hcount := count_of_nesting? hinner
      rw [even_bracesBetween_iff hsplit (Nat.le_of_lt hoc) hupto hafter, List.map_append, List.count_append,
        List.count_append]
      show _ + 0 + 1 = _ + 1
      omega
  · intro c' hc'
    by_contra hlt
    -- up to an earlier place the braces are a part of what is balanced, so the first one is still open
    obtain ⟨within, further, rfl, hwithin, hfurther⟩ := hsorted.exists_cut (c' + 1)
    rw [List.map_append, nesting?_append] at hinner
    obtain ⟨depth, hdepth, -⟩ := Option.bind_eq_some_iff.1 hinner
    have hbehind : ∀ b ∈ further ++ ⟨c, false⟩ :: outer, c' < b.pos := by
      intro b hb
      rcases List.mem_append.1 hb with hb | hb
      · exact hfurther b hb
      · rcases List.mem_cons.1 hb with rfl | hb
        · exact Nat.lt_of_not_le hlt
        · exact Nat.lt_trans (Nat.lt_of_not_le hlt) (hafter b hb)
    rw [List.append_assoc] at h
    have hcount := count_of_nesting? hdepth
    have heven := (even_bracesBetween_iff h (Nat.le_of_lt hc'.behind) (fun b hb => Nat.le_of_lt_succ (hwithin b hb))
      hbehind).1 hc'.even
    omega

/-- Where a brace evens out, one is found. -/
theorem EvensOut.exists_closing? (hc : EvensOut t o c) (h : (scan t).braces = front ++ ⟨o, true⟩ :: rest) :
    ∃ c', closing? 1 rest = some c' := by
  obtain ⟨-, hsorted, -, -⟩ := (h ▸ isSorted_scan t).cut
  obtain ⟨within, further, rfl, hwithin, hfurther⟩ := hsorted.exists_cut (c + 1)
  have heven := (even_bracesBetween_iff h (Nat.le_of_lt hc.behind) (fun b hb => Nat.le_of_lt_succ (hwithin b hb))
    hfurther).1 hc.even
  have hlt : 0 + (within.map Brace.isOpen).count true < (within.map Brace.isOpen).count false := by omega
  obtain ⟨c', -, hclosing⟩ := exists_closing?_of_lt hlt
  exact ⟨c', hclosing further⟩

/-- A pair of braces that opens behind an opening brace is behind the pair of that one or within it. -/
theorem behind_or_within {o' c' : Nat} (h : (scan t).braces = front ++ ⟨o, true⟩ :: rest) (ho' : ⟨o', true⟩ ∈ rest)
    (hc : closing? 1 rest = some c) (hc' : matchingBrace? t o' = some c') : c < o' ∨ c' < c := by
  obtain ⟨inner, outer, rfl, hinner⟩ := exists_cut_of_closing?_eq hc
  obtain ⟨-, hsorted, -, -⟩ := (h ▸ isSorted_scan t).cut
  obtain ⟨-, -, hbefore, hafter⟩ := hsorted.cut
  rw [List.mem_append, List.mem_cons] at ho'
  rcases ho' with ho' | ho' | ho'
  · -- what follows the brace within the outer pair closes more than it opens
    right
    obtain ⟨before, after, rfl⟩ := List.append_of_mem ho'
    rw [List.map_append, nesting?_append] at hinner
    obtain ⟨depth, -, hdepth⟩ := Option.bind_eq_some_iff.1 hinner
    have hcount : depth + 1 + (after.map Brace.isOpen).count true = 0 + (after.map Brace.isOpen).count false :=
      count_of_nesting? hdepth
    have hlt : 0 + (after.map Brace.isOpen).count true < (after.map Brace.isOpen).count false := by omega
    obtain ⟨d, hd, hclosing⟩ := exists_closing?_of_lt hlt
    have hsplit : (scan t).braces
        = (front ++ ⟨o, true⟩ :: before) ++ ⟨o', true⟩ :: (after ++ ⟨c, false⟩ :: outer) := by
      rw [h]
      simp
    rw [matchingBrace?_eq_closing? hsplit, hclosing] at hc'
    obtain rfl := Option.some.inj hc'
    apply hbefore ⟨d, false⟩
    exact List.mem_append_right _ (List.mem_cons_of_mem _ hd)
  · exact absurd ho' (by simp)
  · exact .inl (hafter _ ho')

end Pair

/-- **Braces in code are closed in pairs**: an opening brace is closed by the first closing brace behind it up to which as
many braces have been closed as opened, and by none when there is none; and of two pairs the one that opens further on is
either behind the other or within it. -/
theorem braces_in_pairs {t : Text} {o : Nat} (ho : ⟨o, true⟩ ∈ (scan t).braces) :
    (∀ c, matchingBrace? t o = some c ↔ IsLeast {c | EvensOut t o c} c) ∧
      (matchingBrace? t o = none ↔ ∀ c, ¬ EvensOut t o c) ∧
      ∀ o' c c', ⟨o', true⟩ ∈ (scan t).braces → o < o' → matchingBrace? t o = some c → matchingBrace? t o' = some c' →
        c < o' ∨ c' < c := by
  obtain ⟨front, rest, h⟩ := List.append_of_mem ho
  rw [matchingBrace?_eq_closing? h]
  have hfound {c : Nat} (hc : EvensOut t o c) : closing? 1 rest ≠ none := by
    obtain ⟨c', hc'⟩ := hc.exists_closing? h
    rw [hc']
    exact Option.some_ne_none c'
  refine ⟨fun c => ⟨isLeast_of_closing? h, fun hc => ?_⟩, ⟨fun hnone c hc => hfound hc hnone, fun hnone => ?_⟩, ?_⟩
  · obtain ⟨c', hc'⟩ := Option.ne_none_iff_exists'.1 (hfound hc.1)
    rw [hc', (isLeast_of_closing? h hc').unique hc]
  · rw [Option.eq_none_iff_forall_ne_some]
    intro c hc
    exact hnone c (isLeast_of_closing? h hc).1
  · intro o' c c' ho' hlt hc hc'
    apply behind_or_within h ?_ hc hc'
    obtain ⟨-, -, hfront, -⟩ := (h ▸ isSorted_scan t).cut
    rw [h, List.mem_append, List.mem_cons] at ho'
    rcases ho' with ho' | ho' | ho'
    · exact absurd hlt (Nat.lt_asymm (hfront _ ho'))
    · rw [Brace.mk.injEq] at ho'
      omega
    · exact ho'

/-- A closing brace in a string, a pair within another one and an opening brace in a comment. -/
def nestedPairs : Text := "\x7b a = '\x7d'; \x7b b \x7d // \x7b\n \x7d"

theorem braces_in_pairs_nested :
    IsLeast {c | EvensOut nestedPairs 0 c} 23 ∧ IsLeast {c | EvensOut nestedPairs 11 c} 15 ∧ (23 < 11 ∨ 15 < 23) := by
  have houter : ⟨0, true⟩ ∈ (scan nestedPairs).braces := by decide +kernel
  have hinner : ⟨11, true⟩ ∈ (scan nestedPairs).braces := by decide +kernel
  have hclose : matchingBrace? nestedPairs 0 = some 23 := by decide +kernel
  have hclose' : matchingBrace? nestedPairs 11 = some 15 := by decide +kernel
  obtain ⟨hleast, -, hpairs⟩ := braces_in_pairs houter
  refine ⟨(hleast 23).1 hclose, ?_, hpairs 11 23 15 hinner (by decide) hclose hclose'⟩
  exact ((braces_in_pairs hinner).1 15).1 hclose'

end SnippetPreview.Script
