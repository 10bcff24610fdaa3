import SnippetPreview.Text.Word
import SnippetPreview.Text.Blank
import SnippetPreview.Text.Fold

/-!
# Text patterns

* `Pattern`: regular patterns with marked places, line starts and word edges;
* `Cursor`: a place in a text, which knows its byte offset, the character before it and all that follows;
* `Reading`: where a pattern ends and the places that it has marked, from which groups are read off;
* `Pattern.readings`: every way to read a pattern at a place, best first. The order is that of a backtracking search: the
  left alternative before the right one, a greedy repetition longest first, a lazy one shortest first;
* `Pattern.Yields`: the same without the order, one rule for each way to write a pattern (`Pattern.mem_readings_iff`);
* `Pattern.readings_after_suffix`: what a reading leaves is a suffix of what it was given.
-/

namespace SnippetPreview

/-! ## Places in a text -/

/-- A place in a text. -/
structure Cursor where
  /-- Bytes before the place. -/
  offset : Nat
  /-- The character just before the place. -/
  before : Option Char
  /-- All that follows. -/
  after : Text
deriving DecidableEq, Repr

namespace Cursor

def start (t : Text) : Cursor := ⟨0, none, t⟩

/-- The place behind `c`, when `rest` follows it. -/
def past (k : Cursor) (c : Char) (rest : Text) : Cursor := ⟨k.offset + c.utf8Size, some c, rest⟩

/-- The start of the text, or just behind a line feed. -/
def atLineStart (k : Cursor) : Bool := k.before.all (· == '\n')

/-- Exactly one neighbour is a word character. -/
def atWordEdge (k : Cursor) : Bool := k.before.any isWord != k.after.head?.any isWord

/-- The places behind `k` and behind each further character, as long as the characters satisfy `holds`; nearest first. -/
def stops (holds : Char → Bool) (k : Cursor) : List Cursor := go k.offset k.before k.after
where
  /-- The places from the one described by the three arguments on. -/
  go (offset : Nat) (before : Option Char) : Text → List Cursor
    | [] => [⟨offset, before, []⟩]
    | c :: r =>
      ⟨offset, before, c :: r⟩ :: if holds c then go (offset + c.utf8Size) (some c) r else []

def next? (k : Cursor) : Option Cursor :=
  match k.after with
  | [] => none
  | c :: rest => some (k.past c rest)

end Cursor

/-- A stretch of a text between two places. -/
structure Span where
  start : Cursor
  stop : Cursor
deriving DecidableEq, Repr

def Span.text (s : Span) : Text := s.start.after.slice 0 (s.stop.offset - s.start.offset)

/-! ## Patterns and their readings -/

/-- A regular pattern over characters. -/
inductive Pattern where
  /-- Reads nothing. -/
  | empty
  /-- Reads nothing, at the start of a line. -/
  | lineStart
  /-- Reads nothing, where a word starts or ends. -/
  | wordEdge
  /-- Reads nothing and remembers the place under a number. -/
  | mark (slot : Nat)
  /-- Reads one character of a class. -/
  | one (holds : Char → Bool)
  /-- Reads any number of characters of a class, as many as possible when greedy, as few as possible otherwise. -/
  | run (greedy : Bool) (holds : Char → Bool)
  /-- Reads two patterns one after the other. -/
  | seq (first second : Pattern)
  /-- Reads either pattern, the left one if possible. -/
  | alt (left right : Pattern)
  /-- Reads a pattern as often as possible, each time at least one character. -/
  | star (body : Pattern)

/-- A way to read a pattern: where it ends and the marks it has passed, first one first. -/
structure Reading where
  stop : Cursor
  marks : List (Nat × Cursor)
deriving DecidableEq, Repr

def Reading.nothing (k : Cursor) : Reading := ⟨k, []⟩

/-- The reading together with the one behind it. -/
def Reading.andThen (r s : Reading) : Reading := ⟨s.stop, r.marks ++ s.marks⟩

namespace Pattern

/-- Reads with `body` at most `n` times, each time at least one character, most often first. -/
def repeated (body : Cursor → List Reading) : Nat → Cursor → List Reading
  | 0, k => [.nothing k]
  | n + 1, k =>
    ((body k).filter fun r => r.stop.after.length < k.after.length).flatMap
        (fun r => (repeated body n r.stop).map r.andThen)
      ++ [.nothing k]

/-- All ways to read the pattern from a place on, best first. -/
def readings : Pattern → Cursor → List Reading
  | empty, k => [.nothing k]
  | lineStart, k => if k.atLineStart then [.nothing k] else []
  | wordEdge, k => if k.atWordEdge then [.nothing k] else []
  | mark i, k => [⟨k, [(i, k)]⟩]
  | one holds, k =>
    match k.after with
    | [] => []
    | c :: rest => if holds c then [.nothing (k.past c rest)] else []
  | run greedy holds, k =>
    let stops := k.stops holds
    (if greedy then stops.reverse else stops).map .nothing
  | seq p q, k => (p.readings k).flatMap fun r => (q.readings r.stop).map r.andThen
  | alt p q, k => p.readings k ++ q.readings k
  | star p, k => repeated p.readings k.after.length k

section Equations

variable (p q : Pattern) (k : Cursor)

theorem repeated_zero (body : Cursor → List Reading) : repeated body 0 k = [.nothing k] := rfl

theorem repeated_succ (body : Cursor → List Reading) (n : Nat) :
    repeated body (n + 1) k
      = ((body k).filter fun r => r.stop.after.length < k.after.length).flatMap
          (fun r => (repeated body n r.stop).map r.andThen)
        ++ [.nothing k] := rfl

theorem readings_empty : empty.readings k = [.nothing k] := rfl

theorem readings_lineStart : lineStart.readings k = if k.atLineStart then [.nothing k] else [] := rfl

theorem readings_wordEdge : wordEdge.readings k = if k.atWordEdge then [.nothing k] else [] := rfl

theorem readings_mark (i : Nat) : (mark i).readings k = [⟨k, [(i, k)]⟩] := rfl

theorem readings_one (holds : Char → Bool) :
    (one holds).readings k
      = match k.after with
        | [] => []
        | c :: rest => if holds c then [.nothing (k.past c rest)] else [] := rfl

theorem readings_run (greedy : Bool) (holds : Char → Bool) :
    (run greedy holds).readings k
      = (if greedy then (k.stops holds).reverse else k.stops holds).map .nothing := rfl

theorem readings_seq :
    (seq p q).readings k = (p.readings k).flatMap fun r => (q.readings r.stop).map r.andThen := rfl

theorem readings_alt : (alt p q).readings k = p.readings k ++ q.readings k := rfl

theorem readings_star : (star p).readings k = repeated p.readings k.after.length k := rfl

end Equations

/-! ## Readings as a relation -/

/-- Two functions that agree on a list have the same pieces there. -/
theorem flatMap_congr {α β : Type} {f g : α → List β} {xs : List α} (h : ∀ x ∈ xs, f x = g x) :
    xs.flatMap f = xs.flatMap g := by
  simp only [List.flatMap_def, List.map_congr_left h]

/-- More repetitions than characters are never used. -/
theorem repeated_eq {body : Cursor → List Reading} {n m : Nat} {k : Cursor} (hn : k.after.length ≤ n)
    (hm : k.after.length ≤ m) : repeated body n k = repeated body m k := by
  induction n generalizing m k with
  | zero =>
    cases m with
    | zero => rfl
    | succ m =>
      have : (body k).filter (fun r => r.stop.after.length < k.after.length) = [] := by
        simp [Nat.le_zero.1 hn]
      simp [repeated_zero, repeated_succ, this]
  | succ n ih =>
    cases m with
    | zero =>
      have : (body k).filter (fun r => r.stop.after.length < k.after.length) = [] := by
        simp [Nat.le_zero.1 hm]
      simp [repeated_zero, repeated_succ, this]
    | succ m =>
      simp only [repeated_succ]
      congr 1
      refine flatMap_congr fun r hr => ?_
      have hlt : r.stop.after.length < k.after.length := by simpa using (List.mem_filter.1 hr).2
      rw [@ih m r.stop (by omega) (by omega)]

/-- A repetition reads its pattern and goes on behind it, or reads nothing. -/
theorem readings_star_step (p : Pattern) (k : Cursor) :
    (star p).readings k
      = ((p.readings k).filter fun r => r.stop.after.length < k.after.length).flatMap
          (fun r => ((star p).readings r.stop).map r.andThen) ++ [.nothing k] := by
  rw [readings_star, repeated_eq (Nat.le_refl _) (Nat.le_succ _), repeated_succ]
  congr 1
  refine flatMap_congr fun r hr => ?_
  have hlt : r.stop.after.length < k.after.length := by simpa using (List.mem_filter.1 hr).2
  rw [readings_star, @repeated_eq _ _ r.stop.after.length _ (by omega) (Nat.le_refl _)]

/-- The pattern can be read like this at a place, with one rule for each way to write a pattern. -/
inductive Yields : Pattern → Cursor → Reading → Prop
  | empty (k : Cursor) : Yields .empty k (.nothing k)
  | lineStart {k : Cursor} (h : k.atLineStart = true) : Yields .lineStart k (.nothing k)
  | wordEdge {k : Cursor} (h : k.atWordEdge = true) : Yields .wordEdge k (.nothing k)
  | mark (i : Nat) (k : Cursor) : Yields (.mark i) k ⟨k, [(i, k)]⟩
  | one {holds : Char → Bool} {k : Cursor} {c : Char} {rest : Text} (hk : k.after = c :: rest) (h : holds c = true) :
      Yields (.one holds) k (.nothing (k.past c rest))
  | run {greedy : Bool} {holds : Char → Bool} {k d : Cursor} (hd : d ∈ k.stops holds) :
      Yields (.run greedy holds) k (.nothing d)
  | seq {p q : Pattern} {k : Cursor} {r s : Reading} (hr : Yields p k r) (hs : Yields q r.stop s) :
      Yields (.seq p q) k (r.andThen s)
  | altLeft {p : Pattern} (q : Pattern) {k : Cursor} {r : Reading} (h : Yields p k r) : Yields (.alt p q) k r
  | altRight (p : Pattern) {q : Pattern} {k : Cursor} {r : Reading} (h : Yields q k r) : Yields (.alt p q) k r
  | starNil (p : Pattern) (k : Cursor) : Yields (.star p) k (.nothing k)
  | starCons {p : Pattern} {k : Cursor} {r s : Reading} (hr : Yields p k r)
      (hlt : r.stop.after.length < k.after.length) (hs : Yields (.star p) r.stop s) :
      Yields (.star p) k (r.andThen s)

/-- A repetition of a pattern, by induction on what is left to be read. -/
theorem Yields.of_mem_star {p : Pattern} (hp : ∀ k, ∀ r ∈ p.readings k, Yields p k r) :
    ∀ (n : Nat) (k : Cursor), k.after.length ≤ n → ∀ r ∈ (star p).readings k, Yields (.star p) k r := by
  intro n
  induction n with
  | zero =>
    intro k hk r hr
    rw [readings_star, Nat.le_zero.1 hk, repeated_zero, List.mem_singleton] at hr
    exact hr ▸ .starNil p k
  | succ n ih =>
    intro k hk r hr
    rw [readings_star_step, List.mem_append, List.mem_flatMap, List.mem_singleton] at hr
    rcases hr with ⟨m, hm, hr⟩ | rfl
    · obtain ⟨hm, hlt⟩ := List.mem_filter.1 hm
      have hlt := of_decide_eq_true hlt
      obtain ⟨s, hs, rfl⟩ := List.mem_map.1 hr
      exact .starCons (hp k m hm) hlt (ih m.stop (by omega) s hs)
    · exact .starNil p k

theorem yields_of_mem_readings (p : Pattern) (k : Cursor) : ∀ r ∈ p.readings k, Yields p k r := by
  induction p generalizing k with
  | empty =>
    intro r hr
    obtain rfl := List.mem_singleton.1 hr
    exact .empty k
  | lineStart =>
    intro r hr
    rw [readings_lineStart] at hr
    split at hr
    · next h =>
      obtain rfl := List.mem_singleton.1 hr
      exact .lineStart h
    · exact absurd hr List.not_mem_nil
  | wordEdge =>
    intro r hr
    rw [readings_wordEdge] at hr
    split at hr
    · next h =>
      obtain rfl := List.mem_singleton.1 hr
      exact .wordEdge h
    · exact absurd hr List.not_mem_nil
  | mark i =>
    intro r hr
    obtain rfl := List.mem_singleton.1 hr
    exact .mark i k
  | one holds =>
    intro r hr
    rw [readings_one] at hr
    split at hr
    · exact absurd hr List.not_mem_nil
    · next c rest hk =>
      split at hr
      · next h =>
        obtain rfl := List.mem_singleton.1 hr
        exact .one hk h
      · exact absurd hr List.not_mem_nil
  | run greedy holds =>
    intro r hr
    rw [readings_run] at hr
    obtain ⟨d, hd, rfl⟩ := List.mem_map.1 hr
    exact .run (by cases greedy <;> simpa using hd)
  | seq p q ihp ihq =>
    intro r hr
    rw [readings_seq, List.mem_flatMap] at hr
    obtain ⟨m, hm, hr⟩ := hr
    obtain ⟨s, hs, rfl⟩ := List.mem_map.1 hr
    exact .seq (ihp k m hm) (ihq m.stop s hs)
  | alt p q ihp ihq =>
    intro r hr
    rw [readings_alt, List.mem_append] at hr
    exact hr.elim (fun hr => .altLeft q (ihp k r hr)) (fun hr => .altRight p (ihq k r hr))
  | star p ih => exact Yields.of_mem_star ih _ k (Nat.le_refl _)

/-- The readings of a pattern are all the ways in which it can be read. -/
theorem mem_readings_iff {p : Pattern} {k : Cursor} {r : Reading} : r ∈ p.readings k ↔ Yields p k r := by
  refine ⟨yields_of_mem_readings p k r, fun h => ?_⟩
  induction h with
  | empty | mark => exact List.mem_singleton.2 rfl
  | lineStart h =>
    rw [readings_lineStart, if_pos h]
    exact List.mem_singleton.2 rfl
  | wordEdge h =>
    rw [readings_wordEdge, if_pos h]
    exact List.mem_singleton.2 rfl
  | one hk h =>
    simp only [readings_one, hk, h, if_true]
    exact List.mem_singleton.2 rfl
  | @run greedy holds k d hd =>
    rw [readings_run]
    exact List.mem_map.2 ⟨d, by cases greedy <;> simpa using hd, rfl⟩
  | @seq p q k r s _ _ ihr ihs =>
    rw [readings_seq]
    exact List.mem_flatMap.2 ⟨r, ihr, List.mem_map.2 ⟨s, ihs, rfl⟩⟩
  | altLeft q _ ih => exact List.mem_append_left _ ih
  | altRight p _ ih => exact List.mem_append_right _ ih
  | starNil p k =>
    rw [readings_star_step]
    exact List.mem_append_right _ (List.mem_singleton.2 rfl)
  | @starCons p k r s _ hlt _ ihr ihs =>
    rw [readings_star_step]
    refine List.mem_append_left _ (List.mem_flatMap.2 ⟨r, ?_, List.mem_map.2 ⟨s, ihs, rfl⟩⟩)
    exact List.mem_filter.2 ⟨ihr, decide_eq_true hlt⟩

/-! ## Writing patterns -/

def chain : List Pattern → Pattern
  | [] => empty
  | p :: ps => seq p (chain ps)

/-- The first of the patterns that can be read. -/
def oneOf : List Pattern → Pattern
  | [] => one fun _ => false
  | [p] => p
  | p :: ps => alt p (oneOf ps)

def text (t : Text) : Pattern := chain (t.map fun c => one (· == c))

/-- This text up to the case of ASCII letters. -/
def anyCase (t : Text) : Pattern := chain (t.map fun c => one (sameLetter c))

/-- The pattern or nothing, rather the pattern. -/
def optional (p : Pattern) : Pattern := alt p empty

def many (holds : Char → Bool) : Pattern := run true holds

/-- As many characters of the class as possible, at least one. -/
def many1 (holds : Char → Bool) : Pattern := seq (one holds) (run true holds)

def fewest (holds : Char → Bool) : Pattern := run false holds

/-- As few characters of the class as possible, at least one. -/
def fewest1 (holds : Char → Bool) : Pattern := seq (one holds) (run false holds)

/-- The pattern, with the stretch that it reads under the number `i`. -/
def group (i : Nat) (p : Pattern) : Pattern := seq (mark (2 * i)) (seq p (mark (2 * i + 1)))

/-- A string literal is a pattern for its text. -/
instance : Coe String Pattern := ⟨fun s => text s.toList⟩

end Pattern

def anyChar : Char → Bool := fun _ => true

def charOf (t : Text) (c : Char) : Bool := t.elem c

def charNotOf (t : Text) (c : Char) : Bool := !t.elem c

/-! ## Readings leave a suffix -/

theorem Cursor.stops_go_after_suffix {holds : Char → Bool} {offset : Nat} {before : Option Char} {t : Text}
    {k : Cursor} (h : k ∈ Cursor.stops.go holds offset before t) : k.after <:+ t := by
  induction t generalizing offset before with
  | nil => simp_all [stops.go]
  | cons c r ih =>
    simp only [stops.go, List.mem_cons] at h
    rcases h with rfl | h
    · exact List.suffix_refl _
    · split at h
      · exact (ih h).trans (List.suffix_cons c r)
      · simp at h

theorem Pattern.Yields.after_suffix {p : Pattern} {k : Cursor} {r : Reading} (h : p.Yields k r) :
    r.stop.after <:+ k.after := by
  induction h with
  | empty | lineStart | wordEdge | mark | starNil => exact List.suffix_refl _
  | one hk =>
    rw [hk]
    exact List.suffix_cons _ _
  | run hd => exact Cursor.stops_go_after_suffix hd
  | altLeft _ _ ih | altRight _ _ ih => exact ih
  | seq _ _ ihr ihs | starCons _ _ _ ihr ihs => exact ihs.trans ihr

/-- What a reading leaves is a suffix of what it was given. -/
theorem Pattern.readings_after_suffix (p : Pattern) (k : Cursor) :
    ∀ r ∈ p.readings k, r.stop.after <:+ k.after := fun _ hr => (mem_readings_iff.1 hr).after_suffix

end SnippetPreview
