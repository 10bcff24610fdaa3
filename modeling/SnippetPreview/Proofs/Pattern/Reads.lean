import SnippetPreview.Pattern.Search

/-!
# What a pattern reads

* `Reads p b u y`: the pattern `p` can read `u` when `b` is the character in front and `y` follows. The relation has one
  rule for each way to write a pattern and no order of preference;
* `readsTo_of_mem_readings`, `exists_mem_readings`: the readings at a place lead exactly to the places that the pattern
  can read to;
* `isMatch_iff`: a pattern is found in a text iff the text can be cut so that the pattern reads the middle.
-/

namespace SnippetPreview

/-! ### Places behind a text -/

/-- The last character of `u`, and `b` when there is none. -/
def lastOf (b : Option Char) : Text → Option Char
  | [] => b
  | c :: u => lastOf (some c) u

@[simp] theorem lastOf_cons (b : Option Char) (c : Char) (u : Text) : lastOf b (c :: u) = lastOf (some c) u := rfl

@[simp] theorem lastOf_append (b : Option Char) (u v : Text) : lastOf b (u ++ v) = lastOf (lastOf b u) v := by
  induction u generalizing b with
  | nil => rfl
  | cons c u ih => exact ih (some c)

theorem lastOf_of_ne_nil {u : Text} (h : u ≠ []) (b b' : Option Char) : lastOf b u = lastOf b' u := by
  cases u with
  | nil => exact absurd rfl h
  | cons c u => rfl

namespace Cursor

/-- The place behind `u`, when `y` follows it. -/
def behind (k : Cursor) (u y : Text) : Cursor := ⟨k.offset + Text.byteSize u, lastOf k.before u, y⟩

@[simp] theorem behind_nil (k : Cursor) : k.behind [] k.after = k := rfl

@[simp] theorem after_behind (k : Cursor) (u y : Text) : (k.behind u y).after = y := rfl

@[simp] theorem before_behind (k : Cursor) (u y : Text) : (k.behind u y).before = lastOf k.before u := rfl

@[simp] theorem offset_behind (k : Cursor) (u y : Text) : (k.behind u y).offset = k.offset + Text.byteSize u := rfl

theorem behind_behind (k : Cursor) (u v y z : Text) : (k.behind u y).behind v z = k.behind (u ++ v) z := by
  simp only [behind, Text.byteSize_append, lastOf_append, Nat.add_assoc]

theorem past_eq_behind (k : Cursor) (c : Char) (y : Text) : k.past c y = k.behind [c] y := rfl

theorem past_behind (k : Cursor) (c : Char) (u y z : Text) : (k.past c y).behind u z = k.behind (c :: u) z := by
  rw [past_eq_behind, behind_behind]
  rfl

theorem mem_stops_go {holds : Char → Bool} {o : Nat} {b : Option Char} {t : Text} {d : Cursor} :
    d ∈ stops.go holds o b t ↔ ∃ u, u.all holds ∧ t = u ++ d.after ∧ d = behind ⟨o, b, t⟩ u d.after := by
  induction t generalizing o b with
  | nil =>
    simp only [stops.go, List.mem_singleton]
    constructor
    · rintro rfl
      exact ⟨[], rfl, rfl, rfl⟩
    · rintro ⟨u, -, h, hd⟩
      obtain ⟨rfl, hy⟩ := List.append_eq_nil_iff.1 h.symm
      rw [hd, hy]
      rfl
  | cons c t ih =>
    simp only [stops.go, List.mem_cons]
    constructor
    · rintro (rfl | h)
      · exact ⟨[], rfl, rfl, rfl⟩
      · split at h
        · next hc =>
          obtain ⟨u, hu, ht, hd⟩ := ih.1 h
          refine ⟨c :: u, by simp [hc, hu], by rw [ht]; simp, ?_⟩
          rw [hd]
          exact past_behind ⟨o, b, c :: t⟩ c u t _
        · simp at h
    · rintro ⟨u, hu, ht, hd⟩
      cases u with
      | nil =>
        left
        rw [hd, ← List.nil_append d.after, ← ht]
        rfl
      | cons e u =>
        obtain ⟨rfl, htail⟩ := List.cons.inj ht
        simp only [List.all_cons, Bool.and_eq_true] at hu
        right
        rw [if_pos hu.1]
        refine ih.2 ⟨u, hu.2, htail, ?_⟩
        rw [hd]
        exact (past_behind ⟨o, b, c :: t⟩ c u t _).symm

theorem mem_stops {holds : Char → Bool} {k d : Cursor} :
    d ∈ k.stops holds ↔ ∃ u, u.all holds ∧ k.after = u ++ d.after ∧ d = k.behind u d.after :=
  mem_stops_go

/-- Every place is a stop of a run that takes any character. -/
theorem placesFrom_eq_go (o : Nat) (b : Option Char) (t : Text) : placesFrom o b t = stops.go (fun _ => true) o b t := by
  induction t generalizing o b with
  | nil => rfl
  | cons c t ih => rw [placesFrom, stops.go, if_pos rfl, ih]

theorem mem_placesFrom {o : Nat} {b : Option Char} {t : Text} {d : Cursor} :
    d ∈ placesFrom o b t ↔ ∃ x, t = x ++ d.after ∧ d = behind ⟨o, b, t⟩ x d.after := by
  rw [placesFrom_eq_go, mem_stops_go]
  simp only [List.all_eq_true, implies_true, true_and]

end Cursor

/-! ### The relation -/

open Pattern

/-- The pattern can read the text, between the character in front and the text that follows. -/
inductive Reads : Pattern → Option Char → Text → Text → Prop
  | empty (b : Option Char) (y : Text) : Reads .empty b [] y
  | lineStart {b : Option Char} (y : Text) (h : b.all (· == '\n') = true) : Reads .lineStart b [] y
  | wordEdge {b : Option Char} {y : Text} (h : (b.any isWord != y.head?.any isWord) = true) : Reads .wordEdge b [] y
  | mark (i : Nat) (b : Option Char) (y : Text) : Reads (.mark i) b [] y
  | one {holds : Char → Bool} {c : Char} (b : Option Char) (y : Text) (h : holds c = true) : Reads (.one holds) b [c] y
  | run {greedy : Bool} {holds : Char → Bool} {u : Text} (b : Option Char) (y : Text) (h : u.all holds = true) :
      Reads (.run greedy holds) b u y
  | seq {p q : Pattern} {b : Option Char} {u v y : Text} (hp : Reads p b u (v ++ y)) (hq : Reads q (lastOf b u) v y) :
      Reads (.seq p q) b (u ++ v) y
  | altLeft {p : Pattern} (q : Pattern) {b : Option Char} {u y : Text} (h : Reads p b u y) : Reads (.alt p q) b u y
  | altRight (p : Pattern) {q : Pattern} {b : Option Char} {u y : Text} (h : Reads q b u y) : Reads (.alt p q) b u y
  | starNil (p : Pattern) (b : Option Char) (y : Text) : Reads (.star p) b [] y
  | starCons {p : Pattern} {b : Option Char} {u v y : Text} (hu : u ≠ []) (hp : Reads p b u (v ++ y))
      (hs : Reads (.star p) (lastOf b u) v y) : Reads (.star p) b (u ++ v) y

/-- The pattern can read from the place `k` to the place `d`. -/
def ReadsTo (p : Pattern) (k d : Cursor) : Prop :=
  ∃ u, k.after = u ++ d.after ∧ d = k.behind u d.after ∧ Reads p k.before u d.after

theorem ReadsTo.nothing {p : Pattern} {k : Cursor} (h : Reads p k.before [] k.after) : ReadsTo p k k :=
  ⟨[], rfl, rfl, h⟩

/-- Two readings one after the other read their texts one after the other. -/
theorem ReadsTo.trans {p q r : Pattern} {k d e : Cursor} (hp : ReadsTo p k d) (hq : ReadsTo q d e)
    (h : ∀ u v, k.after = u ++ d.after → Reads p k.before u (v ++ e.after) → Reads q (lastOf k.before u) v e.after →
      Reads r k.before (u ++ v) e.after) : ReadsTo r k e := by
  obtain ⟨u, hu, hd, hp⟩ := hp
  obtain ⟨v, hv, he, hq⟩ := hq
  refine ⟨u ++ v, ?_, ?_, ?_⟩
  · rw [hu, hv, List.append_assoc]
  · rw [he, hd, Cursor.behind_behind]
    rfl
  · rw [hv] at hp
    rw [hd] at hq
    exact h u v hu hp hq

/-! ### Readings are related -/

theorem Pattern.Yields.readsTo {p : Pattern} {k : Cursor} {r : Reading} (h : p.Yields k r) : ReadsTo p k r.stop := by
  induction h with
  | empty k => exact .nothing (.empty _ _)
  | lineStart h => exact .nothing (.lineStart _ h)
  | wordEdge h => exact .nothing (.wordEdge h)
  | mark i k => exact .nothing (.mark i _ _)
  | @one holds k c rest hk h => exact ⟨[c], hk, rfl, .one _ _ h⟩
  | run hd =>
    obtain ⟨u, hu, hk, hdu⟩ := Cursor.mem_stops.1 hd
    exact ⟨u, hk, hdu, .run _ _ hu⟩
  | seq _ _ ihr ihs => exact ihr.trans ihs fun u v _ hr hs => .seq hr hs
  | altLeft q _ ih =>
    obtain ⟨u, hu, hru, h⟩ := ih
    exact ⟨u, hu, hru, .altLeft q h⟩
  | altRight p _ ih =>
    obtain ⟨u, hu, hru, h⟩ := ih
    exact ⟨u, hu, hru, .altRight p h⟩
  | starNil p k => exact .nothing (.starNil p _ _)
  | starCons _ hlt _ ihr ihs =>
    refine ihr.trans ihs fun u v hu hr hs => .starCons ?_ hr hs
    rintro rfl
    rw [hu] at hlt
    exact Nat.lt_irrefl _ hlt

/-- Every reading leads to a place that the pattern can read to. -/
theorem readsTo_of_mem_readings (p : Pattern) (k : Cursor) : ∀ r ∈ p.readings k, ReadsTo p k r.stop :=
  fun _ hr => (mem_readings_iff.1 hr).readsTo

/-! ### What is related is read -/

/-- Some reading leads to each place that the pattern can read to. -/
theorem Reads.exists_yields {p : Pattern} {b : Option Char} {u y : Text} (h : Reads p b u y) :
    ∀ k : Cursor, k.before = b → k.after = u ++ y → ∃ r, p.Yields k r ∧ r.stop = k.behind u y := by
  induction h with
  | empty b y =>
    rintro k - rfl
    exact ⟨_, .empty k, rfl⟩
  | lineStart y h =>
    rintro k rfl rfl
    exact ⟨_, .lineStart h, rfl⟩
  | @wordEdge b y h =>
    rintro k rfl rfl
    exact ⟨_, .wordEdge h, rfl⟩
  | mark i b y =>
    rintro k - rfl
    exact ⟨_, .mark i k, rfl⟩
  | one b y h =>
    rintro k - hk
    exact ⟨_, .one hk h, rfl⟩
  | run b y h =>
    rintro k - hk
    exact ⟨_, .run (Cursor.mem_stops.2 ⟨_, h, hk, rfl⟩), rfl⟩
  | @seq p q b u v y _ _ ihp ihq =>
    rintro k rfl hk
    obtain ⟨r, hr, hru⟩ := ihp k rfl (by rw [hk, List.append_assoc])
    obtain ⟨s, hs, hsv⟩ := ihq r.stop (by rw [hru]; rfl) (by rw [hru]; rfl)
    exact ⟨_, .seq hr hs, by rw [Reading.andThen, hsv, hru, Cursor.behind_behind]⟩
  | altLeft q _ ih =>
    intro k hb hk
    obtain ⟨r, hr, hru⟩ := ih k hb hk
    exact ⟨r, .altLeft q hr, hru⟩
  | altRight p _ ih =>
    intro k hb hk
    obtain ⟨r, hr, hru⟩ := ih k hb hk
    exact ⟨r, .altRight p hr, hru⟩
  | starNil p b y =>
    rintro k - rfl
    exact ⟨_, .starNil p k, rfl⟩
  | @starCons p b u v y hu _ _ ihp ihs =>
    rintro k rfl hk
    obtain ⟨r, hr, hru⟩ := ihp k rfl (by rw [hk, List.append_assoc])
    obtain ⟨s, hs, hsv⟩ := ihs r.stop (by rw [hru]; rfl) (by rw [hru]; rfl)
    have hlt : r.stop.after.length < k.after.length := by
      have hpos := List.length_pos_iff.2 hu
      rw [hru, hk]
      simp only [Cursor.after_behind, List.length_append]
      omega
    exact ⟨_, .starCons hr hlt hs, by rw [Reading.andThen, hsv, hru, Cursor.behind_behind]⟩

theorem exists_mem_readings {p : Pattern} {b : Option Char} {u y : Text} (h : Reads p b u y) (k : Cursor)
    (hb : k.before = b) (hk : k.after = u ++ y) : ∃ r ∈ p.readings k, r.stop = k.behind u y := by
  obtain ⟨r, hr, hstop⟩ := h.exists_yields k hb hk
  exact ⟨r, mem_readings_iff.2 hr, hstop⟩

theorem readings_ne_nil_iff {p : Pattern} {k : Cursor} :
    p.readings k ≠ [] ↔ ∃ u y, k.after = u ++ y ∧ Reads p k.before u y := by
  constructor
  · intro h
    obtain ⟨r, hr⟩ := List.exists_mem_of_ne_nil _ h
    obtain ⟨u, hu, -, hp⟩ := readsTo_of_mem_readings p k r hr
    exact ⟨u, _, hu, hp⟩
  · rintro ⟨u, y, hu, hp⟩
    obtain ⟨r, hr, -⟩ := exists_mem_readings hp k rfl hu
    exact List.ne_nil_of_mem hr

/-- A pattern is found in a text iff it reads the middle of a cut of the text. -/
theorem isMatch_iff {p : Pattern} {t : Text} :
    p.isMatch t = true ↔ ∃ x u y, t = x ++ u ++ y ∧ Reads p (lastOf none x) u y := by
  rw [isMatch, find?_eq, List.findSome?_isSome_iff]
  constructor
  · rintro ⟨d, hd, h⟩
    obtain ⟨x, hx, hdx⟩ := Cursor.mem_placesFrom.1 hd
    have hne : p.readings d ≠ [] := by
      intro hnil
      rw [hnil] at h
      simp at h
    obtain ⟨u, y, hu, hp⟩ := readings_ne_nil_iff.1 hne
    refine ⟨x, u, y, ?_, ?_⟩
    · rw [List.append_assoc, ← hu]
      exact hx
    · rw [hdx] at hp
      exact hp
  · rintro ⟨x, u, y, rfl, hp⟩
    refine ⟨(Cursor.start (x ++ u ++ y)).behind x (u ++ y), ?_, ?_⟩
    · exact Cursor.mem_placesFrom.2 ⟨x, by simp [Cursor.start], rfl⟩
    · have hne : p.readings ((Cursor.start (x ++ u ++ y)).behind x (u ++ y)) ≠ [] :=
        readings_ne_nil_iff.2 ⟨u, y, rfl, hp⟩
      rw [Option.isSome_map, List.isSome_head?]
      exact hne

end SnippetPreview
