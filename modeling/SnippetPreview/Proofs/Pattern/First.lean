import SnippetPreview.Proofs.Pattern.Context
import SnippetPreview.Proofs.Pattern.Finds

/-!
# The reading that a search takes

* `First.seq`, `first_many` and the like: one rule for each way to write a pattern. A greedy part takes the longest
  stretch when the rest of the pattern can be read behind it;
* `first_seq_star`: a repetition takes nothing when the rest cannot be read behind anything that it could take;
* `Pattern.starts`, `Pattern.ends`: what the first and the last character of a reading can be;
* `Pattern.Within`, `Pattern.Needs`: what all characters of a reading are, and what one of them is;
* `reads_seq_within`: a pattern for characters of one class cannot read beyond a character of another one.
-/

namespace SnippetPreview

namespace Pattern

variable {p q : Pattern} {k d : Cursor} {r s : Reading} {holds : Char → Bool}

/-! ### Rules -/

theorem first_empty (k : Cursor) : First empty k (.nothing k) := rfl

theorem first_lineStart (h : k.atLineStart = true) : First lineStart k (.nothing k) := by
  unfold First
  rw [readings_lineStart, if_pos h]
  rfl

theorem first_wordEdge (h : k.atWordEdge = true) : First wordEdge k (.nothing k) := by
  unfold First
  rw [readings_wordEdge, if_pos h]
  rfl

theorem first_mark (i : Nat) (k : Cursor) : First (mark i) k ⟨k, [(i, k)]⟩ := rfl

theorem first_one {c : Char} {y : Text} (hk : k.after = c :: y) (h : holds c = true) :
    First (one holds) k (.nothing (k.behind [c] y)) := by
  unfold First
  simp only [readings_one, hk, h, if_true]
  rfl

theorem First.seq (hp : First p k r) (hq : First q r.stop s) : First (seq p q) k (r.andThen s) := by
  unfold First at *
  obtain ⟨rs, hrs⟩ := List.head?_eq_some_iff.1 hp
  obtain ⟨ss, hss⟩ := List.head?_eq_some_iff.1 hq
  rw [readings_seq, hrs, List.flatMap_cons, hss]
  rfl

/-- The same behind a part that marks nothing. -/
theorem First.andThen (hp : First p k (.nothing d)) (hq : First q d s) : First (.seq p q) k s := by
  have h := hp.seq hq
  rwa [nothing_andThen] at h

theorem First.altLeft (hp : First p k r) (q : Pattern) : First (alt p q) k r := by
  unfold First at *
  obtain ⟨rs, hrs⟩ := List.head?_eq_some_iff.1 hp
  rw [readings_alt, hrs]
  rfl

theorem First.altRight (hp : p.readings k = []) (hq : First q k r) : First (alt p q) k r := by
  unfold First at *
  rw [readings_alt, hp, List.nil_append, hq]

theorem first_optional (hp : p.readings k = []) : First (optional p) k (.nothing k) := .altRight hp (first_empty k)

theorem first_group (i : Nat) (hp : First p k (.nothing d)) :
    First (group i p) k ⟨d, [(2 * i, k), (2 * i + 1, d)]⟩ :=
  (first_mark (2 * i) k).seq (hp.andThen (first_mark (2 * i + 1) d))

/-- A text is read character by character, each one up to `fold`. -/
theorem first_letters {matches? : Char → Char → Bool} (fold : Char → Char)
    (h : ∀ c d, matches? c d = true ↔ fold d = fold c) {w u y : Text} (hk : k.after = u ++ y)
    (hu : u.map fold = w.map fold) : First (chain (w.map fun c => .one (matches? c))) k (.nothing (k.behind u y)) := by
  induction w generalizing k u with
  | nil =>
    obtain rfl := List.map_eq_nil_iff.1 hu
    rw [List.nil_append] at hk
    rw [← hk]
    exact first_empty k
  | cons c w ih =>
    rw [List.map_cons] at hu
    obtain ⟨d, u, rfl, hd, hu⟩ := List.map_eq_cons_iff.1 hu
    have hw := ih (k := k.behind [d] (u ++ y)) rfl hu
    rw [Cursor.behind_behind] at hw
    exact (first_one hk ((h c d).2 hd)).andThen hw

theorem first_text {w y : Text} (hk : k.after = w ++ y) : First (text w) k (.nothing (k.behind w y)) :=
  first_letters id (fun _ _ => beq_iff_eq) hk rfl

theorem first_anyCase {w u y : Text} (hk : k.after = u ++ y) (hu : u.map foldCase = w.map foldCase) :
    First (anyCase w) k (.nothing (k.behind u y)) :=
  first_letters foldCase sameLetter_iff hk hu

theorem getLast?_stops_go {v y : Text} (hv : v.all holds = true) (hy : y.head?.any holds = false) (o : Nat)
    (b : Option Char) :
    (Cursor.stops.go holds o b (v ++ y)).getLast? = some (Cursor.behind ⟨o, b, v ++ y⟩ v y) := by
  induction v generalizing o b with
  | nil =>
    cases y with
    | nil => rfl
    | cons c y =>
      have hc : holds c = false := hy
      rw [List.nil_append, Cursor.stops.go, hc]
      rfl
  | cons c v ih =>
    rw [List.all_cons, Bool.and_eq_true] at hv
    rw [List.cons_append, Cursor.stops.go, if_pos hv.1, List.getLast?_cons, ih hv.2]
    exact congrArg some (Cursor.past_behind ⟨o, b, c :: (v ++ y)⟩ c v (v ++ y) y)

/-- A greedy run takes all that it can. -/
theorem first_many {v y : Text} (hk : k.after = v ++ y) (hv : v.all holds = true) (hy : y.head?.any holds = false) :
    First (many holds) k (.nothing (k.behind v y)) := by
  obtain ⟨o, b, a⟩ := k
  dsimp only at hk
  subst hk
  unfold First many
  rw [readings_run, if_pos rfl, List.head?_map, List.head?_reverse]
  exact congrArg (Option.map Reading.nothing) (getLast?_stops_go hv hy o b)

theorem first_many1 {c : Char} {v y : Text} (hk : k.after = c :: v ++ y) (hc : holds c = true) (hv : v.all holds = true)
    (hy : y.head?.any holds = false) : First (many1 holds) k (.nothing (k.behind (c :: v) y)) := by
  have hmany := first_many (k := k.behind [c] (v ++ y)) rfl hv hy
  rw [Cursor.behind_behind] at hmany
  exact (first_one hk hc).andThen hmany

/-- A repetition takes nothing when the rest cannot be read behind anything that it could take. -/
theorem first_seq_star (h : ∀ u y, k.after = u ++ y → u ≠ [] → Reads (star p) k.before u y →
      q.readings (k.behind u y) = []) (hq : First q k s) : First (seq (star p) q) k s := by
  unfold First
  rw [← best?_nothing, best?_seq, best?_star]
  have hmore : p.best? (onlyBehind k ((star p).best? (q.best? fun d => some (.nothing d)))) k = none := by
    unfold best?
    refine List.findSome?_eq_none_iff.2 fun r hr => Option.map_eq_none_iff.2 ?_
    unfold onlyBehind
    split
    case isFalse => rfl
    case isTrue hlt =>
      -- a turn that reads something, and all turns behind it, are what the rest cannot be read behind
      refine List.findSome?_eq_none_iff.2 fun t ht => Option.map_eq_none_iff.2 ?_
      obtain ⟨u, hu, hru, hp⟩ := readsTo_of_mem_readings p k r hr
      obtain ⟨v, hv, htv, hs⟩ := readsTo_of_mem_readings (star p) r.stop t ht
      have hne : u ≠ [] := by
        rintro rfl
        rw [hu] at hlt
        exact Nat.lt_irrefl _ hlt
      rw [hv] at hu hp
      rw [hru] at hs htv
      have hnone := h (u ++ v) t.stop.after (by rw [hu, List.append_assoc])
        (List.append_ne_nil_of_left_ne_nil hne v) (.starCons hne hp hs)
      rw [Cursor.behind_behind] at htv
      rw [← htv] at hnone
      rw [hnone]
      rfl
  rw [hmore, Option.none_or, best?_nothing]
  exact hq

/-- A repetition of something that cannot be read takes nothing. -/
theorem first_star (h : p.readings k = []) : First (star p) k (.nothing k) := by
  unfold First
  rw [← best?_nothing, best?_star]
  unfold best?
  rw [h]
  rfl

/-! ### First characters -/

/-- A reading that is not empty may start with this character. -/
def starts : Pattern → Char → Bool
  | empty, _ | lineStart, _ | wordEdge, _ | mark _, _ => false
  | one holds, c | run _ holds, c => holds c
  | seq p q, c => p.starts c || !p.consumes && q.starts c
  | alt p q, c => p.starts c || q.starts c
  | star p, c => p.starts c

end Pattern

open Pattern

theorem Reads.starts {p : Pattern} {b : Option Char} {u y : Text} (h : Reads p b u y) {c : Char} {v : Text}
    (hu : u = c :: v) : p.starts c = true := by
  induction h generalizing v with
  | empty | lineStart | wordEdge | mark | starNil => exact absurd hu (List.cons_ne_nil _ _).symm
  | one b y h =>
    obtain ⟨rfl, -⟩ := List.cons.inj hu
    exact h
  | run b y h =>
    subst hu
    rw [List.all_cons, Bool.and_eq_true] at h
    exact h.1
  | @seq p q b w w' y hp hq ihp ihq =>
    rw [Pattern.starts, Bool.or_eq_true, Bool.and_eq_true]
    cases w with
    | nil =>
      refine .inr ⟨?_, ihq hu⟩
      rw [Bool.not_eq_true']
      cases hc : p.consumes with
      | false => rfl
      | true => exact absurd rfl (hp.ne_nil hc)
    | cons d w =>
      obtain ⟨rfl, -⟩ := List.cons.inj hu
      exact .inl (ihp rfl)
  | altLeft q _ ih =>
    rw [Pattern.starts, Bool.or_eq_true]
    exact .inl (ih hu)
  | altRight p _ ih =>
    rw [Pattern.starts, Bool.or_eq_true]
    exact .inr (ih hu)
  | @starCons p b w w' y hw _ _ ihp _ =>
    obtain ⟨d, w, rfl⟩ := List.exists_cons_of_ne_nil hw
    obtain ⟨rfl, -⟩ := List.cons.inj hu
    exact ihp rfl

/-- A pattern that consumes something reads a first character that it may start with. -/
theorem Reads.exists_first {p : Pattern} {b : Option Char} {u y : Text} (h : Reads p b u y) (hp : p.consumes = true) :
    ∃ c v, u = c :: v ∧ p.starts c = true := by
  obtain ⟨c, v, hu⟩ := List.exists_cons_of_ne_nil (h.ne_nil hp)
  exact ⟨c, v, hu, h.starts hu⟩

theorem readings_eq_nil_iff {p : Pattern} {k : Cursor} :
    p.readings k = [] ↔ ∀ u y, k.after = u ++ y → ¬ Reads p k.before u y := by
  constructor
  · intro h u y hk hr
    exact readings_ne_nil_iff.2 ⟨u, y, hk, hr⟩ h
  · intro h
    refine Classical.byContradiction fun hne => ?_
    obtain ⟨u, y, hk, hr⟩ := readings_ne_nil_iff.1 hne
    exact h u y hk hr

/-- Nothing is read where what follows starts with no character that the pattern starts with. -/
theorem readings_eq_nil_of_head? {p : Pattern} {k : Cursor} (hp : p.consumes = true)
    (h : k.after.head?.any p.starts = false) : p.readings k = [] := by
  refine readings_eq_nil_iff.2 fun u y hk hr => ?_
  obtain ⟨c, v, rfl, hc⟩ := hr.exists_first hp
  rw [hk] at h
  exact Bool.false_ne_true (h.symm.trans hc)

/-- Nothing is read in front of a character that no reading starts with. -/
theorem readings_eq_nil_of_starts {p : Pattern} {k : Cursor} {c : Char} {t : Text} (hk : k.after = c :: t)
    (hp : p.consumes = true) (hc : p.starts c = false) : p.readings k = [] :=
  readings_eq_nil_of_head? hp (by rw [hk]; exact hc)

/-- A letter is not read where the text ends or goes on with another one. -/
theorem readings_letter_eq_nil {c : Char} {k : Cursor} (h : k.after.head?.any (· == c) = false) :
    (text [c]).readings k = [] := by
  refine readings_eq_nil_iff.2 fun u y hk hr => ?_
  obtain ⟨v, w, rfl, hletter, -⟩ := reads_seq_iff.1 hr
  cases hletter with
  | one _ _ hd =>
    rw [hk] at h
    exact Bool.false_ne_true (h.symm.trans hd)

/-! ### Last characters -/

/-- A reading that is not empty may end with this character. -/
def Pattern.ends : Pattern → Char → Bool
  | empty, _ | lineStart, _ | wordEdge, _ | mark _, _ => false
  | one holds, c | run _ holds, c => holds c
  | seq p q, c => q.ends c || !q.consumes && p.ends c
  | alt p q, c => p.ends c || q.ends c
  | star p, c => p.ends c

theorem Reads.ends {p : Pattern} {b : Option Char} {u y : Text} (h : Reads p b u y) {c : Char}
    (hu : u.getLast? = some c) : p.ends c = true := by
  induction h with
  | empty | lineStart | wordEdge | mark | starNil => exact absurd hu nofun
  | one b y h =>
    obtain rfl := Option.some.inj hu
    exact h
  | run b y h => exact List.all_eq_true.1 h c (List.mem_of_getLast? hu)
  | @seq p q b w w' y hp hq ihp ihq =>
    rw [Pattern.ends, Bool.or_eq_true, Bool.and_eq_true]
    rw [List.getLast?_append] at hu
    cases hd : w'.getLast? with
    | none =>
      obtain rfl := List.getLast?_eq_none_iff.1 hd
      refine .inr ⟨?_, ihp hu⟩
      rw [Bool.not_eq_true']
      cases hc : q.consumes with
      | false => rfl
      | true => exact absurd rfl (hq.ne_nil hc)
    | some d =>
      rw [hd] at hu
      obtain rfl := Option.some.inj hu
      exact .inl (ihq hd)
  | altLeft q _ ih =>
    rw [Pattern.ends, Bool.or_eq_true]
    exact .inl (ih hu)
  | altRight p _ ih =>
    rw [Pattern.ends, Bool.or_eq_true]
    exact .inr (ih hu)
  | @starCons p b w w' y hw _ _ ihp ihs =>
    rw [List.getLast?_append] at hu
    cases hd : w'.getLast? with
    | none =>
      rw [hd] at hu
      exact ihp hu
    | some d =>
      rw [hd] at hu
      obtain rfl := Option.some.inj hu
      exact ihs hd

/-! ### All characters -/

/-- All characters of a reading are of a class. -/
def Pattern.Within (S : Char → Bool) : Pattern → Prop
  | empty | lineStart | wordEdge | mark _ => True
  | one holds | run _ holds => ∀ c, holds c = true → S c = true
  | seq p q | alt p q => p.Within S ∧ q.Within S
  | star p => p.Within S

theorem Reads.all {p : Pattern} {b : Option Char} {u y : Text} (h : Reads p b u y) {S : Char → Bool}
    (hp : p.Within S) : u.all S = true := by
  induction h with
  | empty | lineStart | wordEdge | mark | starNil => rfl
  | one b y h =>
    rw [List.all_cons, hp _ h]
    rfl
  | run b y h => exact List.all_eq_true.2 fun c hc => hp c (List.all_eq_true.1 h c hc)
  | seq _ _ ihp ihq => rw [List.all_append, ihp hp.1, ihq hp.2, Bool.and_self]
  | altLeft q _ ih => exact ih hp.1
  | altRight p _ ih => exact ih hp.2
  | starCons _ _ _ ihp ihs => rw [List.all_append, ihp hp, ihs hp, Bool.and_self]

theorem Pattern.Within.mono {p : Pattern} {S S' : Char → Bool} (h : p.Within S) (hS : ∀ c, S c = true → S' c = true) :
    p.Within S' := by
  induction p with
  | empty | lineStart | wordEdge | mark => trivial
  | one | run => exact fun c hc => hS c (h c hc)
  | seq p q ihp ihq => exact ⟨ihp h.1, ihq h.2⟩
  | alt p q ihp ihq => exact ⟨ihp h.1, ihq h.2⟩
  | star p ih => exact ih h

theorem within_text {S : Char → Bool} {w : Text} (h : w.all S = true) : (text w).Within S := by
  induction w with
  | nil => trivial
  | cons c w ih =>
    rw [List.all_cons, Bool.and_eq_true] at h
    exact ⟨fun d hd => (beq_iff_eq.1 hd) ▸ h.1, ih h.2⟩

/-- Some character of every reading is of a class. -/
def Pattern.Needs (S : Char → Bool) : Pattern → Prop
  | one holds => ∀ c, holds c = true → S c = true
  | seq p q => p.Needs S ∨ q.Needs S
  | alt p q => p.Needs S ∧ q.Needs S
  | empty | lineStart | wordEdge | mark _ | run _ _ | star _ => False

theorem Reads.exists_mem {p : Pattern} {b : Option Char} {u y : Text} (h : Reads p b u y) {S : Char → Bool}
    (hp : p.Needs S) : ∃ c ∈ u, S c = true := by
  induction h with
  | empty | lineStart | wordEdge | mark | run | starNil | starCons => exact hp.elim
  | one b y h => exact ⟨_, List.mem_singleton_self _, hp _ h⟩
  | seq _ _ ihp ihq =>
    rcases hp with hp | hq
    · obtain ⟨c, hc, hS⟩ := ihp hp
      exact ⟨c, List.mem_append_left _ hc, hS⟩
    · obtain ⟨c, hc, hS⟩ := ihq hq
      exact ⟨c, List.mem_append_right _ hc, hS⟩
  | altLeft q _ ih => exact ih hp.1
  | altRight p _ ih => exact ih hp.2

/-- A repetition that reads anything reads its body at least once. -/
theorem Reads.exists_mem_of_star {p : Pattern} {b : Option Char} {u y : Text} (h : Reads (.star p) b u y) (hu : u ≠ [])
    {S : Char → Bool} (hp : p.Needs S) : ∃ c ∈ u, S c = true := by
  cases h with
  | starNil => exact absurd rfl hu
  | starCons _ hr _ =>
    obtain ⟨c, hc, hS⟩ := hr.exists_mem hp
    exact ⟨c, List.mem_append_left _ hc, hS⟩

/-- A text of one class in front of a character of another one ends there or before. -/
theorem eq_append_of_append_eq {S : Char → Bool} {u y w z : Text} {c : Char} (hu : u.all S = true) (hc : S c = false)
    (h : u ++ y = w ++ c :: z) : ∃ w', w = u ++ w' ∧ y = w' ++ c :: z := by
  rcases List.append_eq_append_iff.1 h with ⟨w', hw, hy⟩ | ⟨v, hv, hy⟩
  · exact ⟨w', hw, hy⟩
  · cases v with
    | nil => exact ⟨[], by rw [hv, List.append_nil, List.append_nil], hy.symm⟩
    | cons d v =>
      obtain ⟨rfl, -⟩ := List.cons.inj hy
      rw [hv, List.all_append, List.all_cons, hc, Bool.false_and, Bool.and_false] at hu
      exact absurd hu Bool.false_ne_true

/-- Two cuts at the first character of another class are one. -/
theorem eq_of_append_eq {S : Char → Bool} {u w y z : Text} {c d : Char} (hu : u.all S = true) (hw : w.all S = true)
    (hc : S c = false) (hd : S d = false) (h : u ++ c :: y = w ++ d :: z) : u = w ∧ c :: y = d :: z := by
  obtain ⟨v, rfl, hv⟩ := eq_append_of_append_eq hu hd h
  cases v with
  | nil => exact ⟨(List.append_nil u).symm, hv⟩
  | cons e v =>
    obtain ⟨rfl, -⟩ := List.cons.inj hv
    rw [List.all_append, List.all_cons, hc, Bool.false_and, Bool.and_false] at hw
    exact absurd hw Bool.false_ne_true

/-- The first part of a pattern cannot read beyond a character that is not of its class. -/
theorem reads_seq_within {p q : Pattern} {S : Char → Bool} {b : Option Char} {u y w z : Text} {c : Char}
    (h : Reads (.seq p q) b u y) (hp : p.Within S) (hc : S c = false) (ht : u ++ y = w ++ c :: z) :
    ∃ w₁ w₂ v b', w = w₁ ++ w₂ ∧ v ++ y = w₂ ++ c :: z ∧ Reads q b' v y := by
  obtain ⟨u₁, u₂, rfl, h₁, h₂⟩ := reads_seq_iff.1 h
  rw [List.append_assoc] at ht
  obtain ⟨w₂, hw, hy⟩ := eq_append_of_append_eq (h₁.all hp) hc ht
  exact ⟨u₁, w₂, u₂, _, hw, hy, h₂⟩

end SnippetPreview
