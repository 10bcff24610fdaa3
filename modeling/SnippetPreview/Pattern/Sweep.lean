import SnippetPreview.Pattern.Basic

/-!
# Reading a pattern at all places at once

* `Pattern.best?`: the best way to read a pattern and to go on behind it, when `behind` says what comes of going on at each
  place;
* `Pattern.Ahead`, `Pattern.kept`: what is worth knowing about the next place when a text is read from right to left;
* `Pattern.step`: the best reading at a place from what is known about the next one;
* `Pattern.sweep`: the best reading at every place, in one pass from the end of the text to its start. The pass takes as
  many steps as there are characters, however many readings there are;
* `Pattern.sweep_eq`: it finds the first one of the `readings` at each place.
-/

namespace SnippetPreview

namespace Cursor

/-- The place described by the first two arguments and those behind each further character. -/
def placesFrom (offset : Nat) (before : Option Char) : Text → List Cursor
  | [] => [⟨offset, before, []⟩]
  | c :: r => ⟨offset, before, c :: r⟩ :: placesFrom (offset + c.utf8Size) (some c) r

def places (k : Cursor) : List Cursor := placesFrom k.offset k.before k.after

/-- The same places, last one first, in front of `found`. -/
def placesBackFrom (found : List Cursor) (offset : Nat) (before : Option Char) : Text → List Cursor
  | [] => ⟨offset, before, []⟩ :: found
  | c :: r => placesBackFrom (⟨offset, before, c :: r⟩ :: found) (offset + c.utf8Size) (some c) r

/-- The place `k` and all behind it, last one first. -/
def placesBack (k : Cursor) : List Cursor := placesBackFrom [] k.offset k.before k.after

theorem placesBackFrom_eq (found : List Cursor) (offset : Nat) (before : Option Char) (t : Text) :
    placesBackFrom found offset before t = (placesFrom offset before t).reverse ++ found := by
  induction t generalizing found offset before with
  | nil => simp [placesBackFrom, placesFrom]
  | cons c r ih => simp [placesBackFrom, placesFrom, ih]

theorem placesBack_eq (k : Cursor) : k.placesBack = k.places.reverse := by
  simp [placesBack, places, placesBackFrom_eq]

end Cursor

namespace Pattern

/-! ## Going on behind a pattern -/

/-- The best way to read the pattern from `k` on and to go on behind it. -/
def best? (p : Pattern) (behind : Cursor → Option Reading) (k : Cursor) : Option Reading :=
  (p.readings k).findSome? fun r => (behind r.stop).map r.andThen

/-- Going on only where a text gets shorter. -/
def onlyBehind (k : Cursor) (behind : Cursor → Option Reading) (d : Cursor) : Option Reading :=
  if d.after.length < k.after.length then behind d else none

/-- Going on only matters where the pattern can end. -/
theorem best?_congr {p : Pattern} {behind behind' : Cursor → Option Reading} {k : Cursor}
    (h : ∀ d : Cursor, d.after.length ≤ k.after.length → behind d = behind' d) :
    p.best? behind k = p.best? behind' k := by
  have all : ∀ rs : List Reading, (∀ r ∈ rs, r.stop.after <:+ k.after) →
      rs.findSome? (fun r => (behind r.stop).map r.andThen)
        = rs.findSome? (fun r => (behind' r.stop).map r.andThen) := by
    intro rs hrs
    induction rs with
    | nil => rfl
    | cons r rs ih =>
      have hr := h r.stop (hrs r (by simp)).length_le
      simp only [List.findSome?_cons, hr, ih fun s hs => hrs s (by simp [hs])]
  exact all _ (p.readings_after_suffix k)

theorem nothing_andThen (k : Cursor) (s : Reading) : (Reading.nothing k).andThen s = s := by
  simp [Reading.nothing, Reading.andThen]

theorem andThen_assoc (r s u : Reading) : (r.andThen s).andThen u = r.andThen (s.andThen u) := by
  simp [Reading.andThen]

theorem best?_empty (behind : Cursor → Option Reading) (k : Cursor) : empty.best? behind k = behind k := by
  simp only [best?, readings_empty, List.findSome?_cons, List.findSome?_nil, Reading.nothing]
  cases behind k <;> rfl

theorem findSome?_nothing (behind : Cursor → Option Reading) (k : Cursor) :
    [Reading.nothing k].findSome? (fun r => (behind r.stop).map r.andThen) = behind k := best?_empty behind k

theorem best?_lineStart (behind : Cursor → Option Reading) (k : Cursor) :
    lineStart.best? behind k = if k.atLineStart then behind k else none := by
  simp only [best?, readings_lineStart]
  split
  · exact findSome?_nothing behind k
  · rfl

theorem best?_wordEdge (behind : Cursor → Option Reading) (k : Cursor) :
    wordEdge.best? behind k = if k.atWordEdge then behind k else none := by
  simp only [best?, readings_wordEdge]
  split
  · exact findSome?_nothing behind k
  · rfl

theorem best?_mark (i : Nat) (behind : Cursor → Option Reading) (k : Cursor) :
    (mark i).best? behind k = (behind k).map fun s => ⟨s.stop, (i, k) :: s.marks⟩ := by
  simp only [best?, readings_mark, List.findSome?_cons, List.findSome?_nil]
  cases behind k <;> rfl

theorem best?_one (holds : Char → Bool) (behind : Cursor → Option Reading) (k : Cursor) :
    (one holds).best? behind k = if k.after.head?.any holds then k.next?.bind behind else none := by
  simp only [best?, readings_one, Cursor.next?]
  cases k.after with
  | nil => rfl
  | cons c rest =>
    by_cases h : holds c
    · simpa [h] using findSome?_nothing behind (k.past c rest)
    · simp [h]

/-- Going on behind two readings is going on behind the second one. -/
theorem findSome?_map_andThen (behind : Cursor → Option Reading) (r : Reading) (rs : List Reading) :
    (rs.map r.andThen).findSome? (fun s => (behind s.stop).map s.andThen)
      = (rs.findSome? fun s => (behind s.stop).map s.andThen).map r.andThen := by
  induction rs with
  | nil => rfl
  | cons s rs ih =>
    have : (r.andThen s).stop = s.stop := rfl
    simp only [List.map_cons, List.findSome?_cons, ih, this]
    cases behind s.stop <;> simp [andThen_assoc]

theorem best?_seq (p q : Pattern) (behind : Cursor → Option Reading) (k : Cursor) :
    (seq p q).best? behind k = p.best? (q.best? behind) k := by
  simp only [best?, readings_seq]
  induction p.readings k with
  | nil => rfl
  | cons r rs ih =>
    simp only [List.flatMap_cons, List.findSome?_append, List.findSome?_cons, ih, findSome?_map_andThen]
    cases (q.readings r.stop).findSome? (fun s => (behind s.stop).map s.andThen) <;> rfl

theorem best?_alt (p q : Pattern) (behind : Cursor → Option Reading) (k : Cursor) :
    (alt p q).best? behind k = (p.best? behind k).or (q.best? behind k) := by
  simp [best?, readings_alt, List.findSome?_append]

/-- The places where a run can end are here and those where it can end from the next place on. -/
theorem stops_eq (holds : Char → Bool) (k : Cursor) :
    k.stops holds = k :: if k.after.head?.any holds then (k.next?.map (Cursor.stops holds)).getD [] else [] := by
  obtain ⟨offset, before, after⟩ := k
  cases after with
  | nil => rfl
  | cons c rest => by_cases h : holds c <;> simp [Cursor.stops, Cursor.stops.go, Cursor.next?, Cursor.past, h]

theorem best?_run (greedy : Bool) (holds : Char → Bool) (behind : Cursor → Option Reading) (k : Cursor) :
    (run greedy holds).best? behind k =
      let more := if k.after.head?.any holds then k.next?.bind ((run greedy holds).best? behind) else none
      if greedy then more.or (behind k) else (behind k).or more := by
  have one := findSome?_nothing behind k
  simp only [best?, readings_run]
  rw [stops_eq]
  by_cases h : k.after.head?.any holds
  · cases hk : k.next? with
    | none => cases greedy <;> simp [h] <;> simpa using one
    | some d =>
      cases greedy
      · simp only [h, ↓reduceIte, Bool.false_eq_true, Option.map_some, Option.getD_some, List.map_cons, Option.bind_some]
        rw [← List.singleton_append, List.findSome?_append, one]
        rfl
      · simp only [h, ↓reduceIte, Option.map_some, Option.getD_some, List.reverse_cons, List.map_append,
          Option.bind_some, List.findSome?_append, List.map_cons, List.map_nil, one]
        rfl
  · cases greedy <;> simp [h] <;> simpa using one

theorem best?_star (p : Pattern) (behind : Cursor → Option Reading) (k : Cursor) :
    (star p).best? behind k = (p.best? (onlyBehind k ((star p).best? behind)) k).or (behind k) := by
  have more : (((p.readings k).filter fun r => r.stop.after.length < k.after.length).flatMap
        (fun r => ((star p).readings r.stop).map r.andThen)).findSome? (fun r => (behind r.stop).map r.andThen)
      = p.best? (onlyBehind k ((star p).best? behind)) k := by
    simp only [best?]
    induction p.readings k with
    | nil => rfl
    | cons r rs ih =>
      by_cases h : r.stop.after.length < k.after.length
      · have here : onlyBehind k ((star p).best? behind) r.stop = (star p).best? behind r.stop := if_pos h
        simp only [List.filter_cons, h, decide_true, ↓reduceIte, List.flatMap_cons, List.findSome?_append,
          List.findSome?_cons, ih, findSome?_map_andThen, here]
        change (((star p).best? behind r.stop).map r.andThen).or _ = _
        cases (star p).best? behind r.stop <;> rfl
      · have here : onlyBehind k ((star p).best? behind) r.stop = none := if_neg h
        simp only [List.filter_cons, h, decide_false, Bool.false_eq_true, ↓reduceIte, List.findSome?_cons, ih, here,
          Option.map_none]
  rw [best?, readings_star_step, List.findSome?_append, more, findSome?_nothing]

/-! ## One step to the left -/

/-- What is worth knowing about the next place. -/
def Ahead : Pattern → Type
  | empty | lineStart | wordEdge | mark _ => Unit
  | one _ | run _ _ => Option Reading
  | seq p q | alt p q => Ahead p × Ahead q
  | star p => Ahead p

/-- Nothing is known behind the end of a text. -/
def blank : (p : Pattern) → Ahead p
  | empty | lineStart | wordEdge | mark _ => ()
  | one _ | run _ _ => none
  | seq p q | alt p q => (blank p, blank q)
  | star p => blank p

/-- What is to be known about the place `k`, when `behind` says what comes of going on behind the pattern. -/
def kept : (p : Pattern) → (behind : Cursor → Option Reading) → (k : Cursor) → Ahead p
  | empty, _, _ | lineStart, _, _ | wordEdge, _, _ | mark _, _, _ => ()
  | one _, behind, k => behind k
  | run greedy holds, behind, k => (run greedy holds).best? behind k
  | seq p q, behind, k => (kept p (q.best? behind) k, kept q behind k)
  | alt p q, behind, k => (kept p behind k, kept q behind k)
  | star p, behind, k => kept p ((star p).best? behind) k

/-- The best reading at the place `k` and what is to be known about it, from what is known about the next place and from
what comes of going on at `k`. -/
def step : (p : Pattern) → Ahead p → Cursor → Option Reading → Option Reading × Ahead p
  | empty, a, _, here => (here, a)
  | lineStart, a, k, here => (if k.atLineStart then here else none, a)
  | wordEdge, a, k, here => (if k.atWordEdge then here else none, a)
  | mark i, a, k, here => (here.map fun s => ⟨s.stop, (i, k) :: s.marks⟩, a)
  | one holds, a, k, here => (if k.after.head?.any holds then a else none, here)
  | run greedy holds, a, k, here =>
    let more := if k.after.head?.any holds then a else none
    let found := if greedy then more.or here else here.or more
    (found, found)
  | seq p q, (a, b), k, here =>
    let (second, b) := q.step b k here
    let (first, a) := p.step a k second
    (first, (a, b))
  | alt p q, (a, b), k, here =>
    let (left, a) := p.step a k here
    let (right, b) := q.step b k here
    (left.or right, (a, b))
  | star p, a, k, here =>
    let found := (p.step a k none).1.or here
    (found, (p.step a k found).2)

theorem kept_congr {p : Pattern} {behind behind' : Cursor → Option Reading} {k : Cursor}
    (h : ∀ d : Cursor, d.after.length ≤ k.after.length → behind d = behind' d) : kept p behind k = kept p behind' k := by
  induction p generalizing behind behind' with
  | empty | lineStart | wordEdge | mark => rfl
  | one holds => exact h k (Nat.le_refl _)
  | run greedy holds => exact best?_congr h
  | seq p q ihp ihq =>
    exact Prod.ext (ihp fun d hd => best?_congr fun e he => h e (Nat.le_trans he hd)) (ihq h)
  | alt p q ihp ihq => exact Prod.ext (ihp h) (ihq h)
  | star p ih => exact ih fun d hd => best?_congr fun e he => h e (Nat.le_trans he hd)

theorem next?_length {k d : Cursor} (h : k.next? = some d) : d.after.length < k.after.length := by
  unfold Cursor.next? at h
  split at h
  · simp at h
  · next c rest heq =>
    obtain rfl := Option.some.inj h
    simp [Cursor.past, heq]

theorem after_eq_nil {k : Cursor} (h : k.next? = none) : k.after = [] := by
  unfold Cursor.next? at h
  split at h
  · assumption
  · simp at h

/-- What is kept of the next place leads to the best reading at this one. -/
theorem step_eq (p : Pattern) (behind : Cursor → Option Reading) (k : Cursor) (a : Ahead p)
    (ha : ∀ d, k.next? = some d → a = kept p behind d) :
    p.step a k (behind k) = (p.best? behind k, kept p behind k) := by
  induction p generalizing behind with
  | empty => rw [best?_empty]; rfl
  | lineStart => rw [best?_lineStart]; rfl
  | wordEdge => rw [best?_wordEdge]; rfl
  | mark i => rw [best?_mark]; rfl
  | one holds =>
    rw [best?_one]
    cases hk : k.next? with
    | none => simp [step, kept, after_eq_nil hk]
    | some d => simp [step, kept, ha d hk]
  | run greedy holds =>
    change Option Reading at a
    have ha : ∀ d, k.next? = some d → a = (run greedy holds).best? behind d := ha
    have found : (if k.after.head?.any holds then a else none)
        = if k.after.head?.any holds then k.next?.bind ((run greedy holds).best? behind) else none := by
      cases hk : k.next? with
      | none => simp [after_eq_nil hk]
      | some d => simp [ha d hk]
    have both := best?_run greedy holds behind k
    rw [← found] at both
    exact Prod.ext both.symm both.symm
  | seq p q ihp ihq =>
    obtain ⟨a, b⟩ := a
    have hq := ihq behind b fun d hd => (Prod.mk.inj (ha d hd)).2
    have hp := ihp (q.best? behind) a fun d hd => (Prod.mk.inj (ha d hd)).1
    simp only [step, hq, hp, kept, best?_seq]
  | alt p q ihp ihq =>
    obtain ⟨a, b⟩ := a
    have hq := ihq behind b fun d hd => (Prod.mk.inj (ha d hd)).2
    have hp := ihp behind a fun d hd => (Prod.mk.inj (ha d hd)).1
    simp only [step, hq, hp, kept, best?_alt]
  | star p ih =>
    -- a first step, with nothing here, finds the turns that get further, and a second one keeps what they have found
    have inner := ih (onlyBehind k ((star p).best? behind)) a fun d hd => by
      refine (ha d hd).trans (@kept_congr p _ _ d fun e he => ?_)
      have := next?_length hd
      rw [onlyBehind, if_pos (by omega)]
    have none_here : onlyBehind k ((star p).best? behind) k = none := by simp [onlyBehind]
    rw [none_here] at inner
    have outer := ih ((star p).best? behind) a ha
    simp only [step, inner, kept]
    rw [← best?_star, outer]

/-! ## A pass over a text -/

/-- The best reading at the place `k` and at each one behind it. -/
def sweep (p : Pattern) (k : Cursor) : List (Cursor × Option Reading) :=
  (k.placesBack.foldl (fun (found, a) d =>
    let (here, a) := p.step a d (some (.nothing d))
    ((d, here) :: found, a)) ([], blank p)).1

theorem best?_nothing (p : Pattern) (k : Cursor) :
    p.best? (fun d => some (.nothing d)) k = (p.readings k).head? := by
  simp only [best?]
  cases p.readings k with
  | nil => rfl
  | cons r rs => simp [Reading.andThen, Reading.nothing]

/-- A pass over a text finds the first one of the readings at each place. -/
theorem sweep_eq (p : Pattern) (k : Cursor) : p.sweep k = k.places.map fun d => (d, (p.readings d).head?) := by
  have all : ∀ (t : Text) (offset : Nat) (before : Option Char),
      (Cursor.placesFrom offset before t).foldr (fun d (s : List (Cursor × Option Reading) × Ahead p) =>
          let (here, a) := p.step s.2 d (some (.nothing d))
          ((d, here) :: s.1, a)) ([], blank p)
        = ((Cursor.placesFrom offset before t).map fun d => (d, (p.readings d).head?),
            kept p (fun d => some (.nothing d)) ⟨offset, before, t⟩) := by
    intro t
    induction t with
    | nil =>
      intro offset before
      have := step_eq p (fun d => some (.nothing d)) ⟨offset, before, []⟩ (blank p) (by simp [Cursor.next?])
      simp only [Cursor.placesFrom, List.foldr_cons, List.foldr_nil, this, best?_nothing, List.map_cons, List.map_nil]
    | cons c r ih =>
      intro offset before
      have := step_eq p (fun d => some (.nothing d)) ⟨offset, before, c :: r⟩
        (kept p (fun d => some (.nothing d)) ⟨offset + c.utf8Size, some c, r⟩)
        (by intro d hd; obtain rfl := Option.some.inj hd; rfl)
      simp only [Cursor.placesFrom, List.foldr_cons, ih, this, best?_nothing, List.map_cons]
  have := all k.after k.offset k.before
  simp only [sweep, Cursor.placesBack_eq, List.foldl_reverse, Cursor.places]
  exact congrArg Prod.fst this

end Pattern

end SnippetPreview
