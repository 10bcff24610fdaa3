import SnippetPreview.Proofs.Pattern.Reads

/-!
# Matches one after the other

* `Pattern.findsFrom`: the matches from a place on;
* `findsFrom_skip`, `findsFrom_match`: a place without a reading is passed over, and behind a match the search goes on as
  if the text started there;
* `exists_first_of_mem_findsFrom`: a match is the best reading at a place further on;
* `exists_cut_of_mem_findsFrom`: a match cuts the text into what is in front of it, what it reads and what follows;
* `Pattern.First`: the reading that a search takes.
-/

namespace SnippetPreview

open Pattern

/-! ### Walking over a text -/

theorem Cursor.places_cons {k : Cursor} {c : Char} {t : Text} (h : k.after = c :: t) :
    k.places = k :: (k.past c t).places := by
  obtain ⟨o, b, a⟩ := k
  subst h
  rfl

theorem Cursor.places_nil {k : Cursor} (h : k.after = []) : k.places = [k] := by
  obtain ⟨o, b, a⟩ := k
  subst h
  rfl

theorem Cursor.offset_le_of_mem_places {k d : Cursor} (h : d ∈ k.places) : k.offset ≤ d.offset := by
  obtain ⟨x, -, hd⟩ := Cursor.mem_placesFrom.1 h
  rw [hd]
  exact Nat.le_add_right _ _

theorem pick_none (free : Nat) (k : Cursor) (rows : List (Cursor × Option Reading)) :
    Match.pick free ((k, none) :: rows) = Match.pick free rows := rfl

theorem pick_some (free : Nat) (k : Cursor) (r : Reading) (rows : List (Cursor × Option Reading)) :
    Match.pick free ((k, some r) :: rows)
      = if k.offset < free then Match.pick free rows else Match.ofReading k r :: Match.pick r.stop.offset rows := rfl

/-- Where the search is free to start does not matter as long as all places are behind it. -/
theorem pick_eq_pick {free free' : Nat} {rows : List (Cursor × Option Reading)}
    (h : ∀ row ∈ rows, free ≤ row.1.offset ∧ free' ≤ row.1.offset) : Match.pick free rows = Match.pick free' rows := by
  induction rows with
  | nil => rfl
  | cons row rows ih =>
    obtain ⟨k, best⟩ := row
    have hk := h _ List.mem_cons_self
    have ih := ih fun row hrow => h row (List.mem_cons_of_mem _ hrow)
    dsimp only at hk
    cases best with
    | none => exact ih
    | some r => rw [pick_some, pick_some, if_neg (by omega), if_neg (by omega)]

/-- A stretch between two places has the text between them. -/
theorem Span.text_behind (k : Cursor) (u v y z : Text) :
    Span.text ⟨k.behind u (v ++ y), k.behind (u ++ v) z⟩ = v := by
  unfold Span.text
  have hsize : (k.behind (u ++ v) z).offset - (k.behind u (v ++ y)).offset = Text.byteSize v := by
    simp only [Cursor.offset_behind, Text.byteSize_append]
    omega
  dsimp only
  rw [hsize]
  exact Text.slice_zero_append v y

namespace Pattern

/-- The matches from the place `k` on. -/
def findsFrom (p : Pattern) (k : Cursor) : List Match := Match.pick k.offset (p.sweep k)

theorem finds_eq_findsFrom (p : Pattern) (t : Text) : p.finds t = p.findsFrom (.start t) := rfl

/-- The reading that a search takes. -/
def First (p : Pattern) (k : Cursor) (r : Reading) : Prop := (p.readings k).head? = some r

variable {p : Pattern} {k : Cursor} {r : Reading}

theorem finds_eq_nil {t : Text} (h : p.isMatch t = false) : p.finds t = [] := by
  rw [isMatch, find?, Option.isSome_eq_false_iff, Option.isNone_iff_eq_none] at h
  exact List.head?_eq_none_iff.1 h

theorem sweep_cons (p : Pattern) {c : Char} {t : Text} (hk : k.after = c :: t) :
    p.sweep k = (k, (p.readings k).head?) :: p.sweep (k.past c t) := by
  rw [sweep_eq, sweep_eq, Cursor.places_cons hk, List.map_cons]

theorem le_offset_of_mem_sweep {row : Cursor × Option Reading} (h : row ∈ p.sweep k) : k.offset ≤ row.1.offset := by
  rw [sweep_eq] at h
  obtain ⟨d, hd, rfl⟩ := List.mem_map.1 h
  exact Cursor.offset_le_of_mem_places hd

/-- All places from `k` on are behind `k`. -/
theorem pick_sweep_eq_findsFrom {free : Nat} (h : free ≤ k.offset) : Match.pick free (p.sweep k) = p.findsFrom k := by
  refine pick_eq_pick fun row hrow => ?_
  have hle := le_offset_of_mem_sweep hrow
  exact ⟨Nat.le_trans h hle, hle⟩

/-- Places that lie before the one where the search is free to start do not count. -/
theorem pick_sweep_of_le (p : Pattern) {k : Cursor} {u y : Text} {free : Nat} (hk : k.after = u ++ y)
    (hfree : k.offset + Text.byteSize u ≤ free) :
    Match.pick free (p.sweep k) = Match.pick free (p.sweep (k.behind u y)) := by
  induction u generalizing k with
  | nil =>
    rw [List.nil_append] at hk
    rw [← hk, Cursor.behind_nil]
  | cons c u ih =>
    rw [Text.byteSize_cons] at hfree
    have hc := c.utf8Size_pos
    have htail : Match.pick free (p.sweep k) = Match.pick free (p.sweep (k.past c (u ++ y))) := by
      rw [List.cons_append] at hk
      rw [sweep_cons p hk]
      cases (p.readings k).head? with
      | none => rfl
      | some r => rw [pick_some, if_pos (by omega)]
    rw [htail, ih (k := k.past c (u ++ y)) rfl (by simp only [Cursor.past]; omega), Cursor.past_behind]

theorem findsFrom_skip {c : Char} {t : Text} (hk : k.after = c :: t) (h : p.readings k = []) :
    p.findsFrom k = p.findsFrom (k.past c t) := by
  have hstep : p.findsFrom k = Match.pick k.offset (p.sweep (k.past c t)) := by
    unfold findsFrom
    rw [sweep_cons p hk, h, List.head?_nil, pick_none]
  rw [hstep]
  exact pick_sweep_eq_findsFrom (Nat.le_add_right _ _)

theorem findsFrom_nil (hk : k.after = []) (h : p.readings k = []) : p.findsFrom k = [] := by
  unfold findsFrom
  rw [sweep_eq, Cursor.places_nil hk, List.map_cons, h]
  rfl

/-- Behind a match the search goes on as if the text started there. -/
theorem findsFrom_match {u y : Text} (hk : k.after = u ++ y) (hu : u ≠ []) (h : p.First k r)
    (hr : r.stop = k.behind u y) : p.findsFrom k = Match.ofReading k r :: p.findsFrom (k.behind u y) := by
  obtain ⟨c, v, rfl⟩ := List.exists_cons_of_ne_nil hu
  have hc := c.utf8Size_pos
  have hstep : p.findsFrom k = Match.ofReading k r :: Match.pick r.stop.offset (p.sweep (k.past c (v ++ y))) := by
    unfold findsFrom
    rw [List.cons_append] at hk
    rw [sweep_cons p hk, h, pick_some, if_neg (Nat.lt_irrefl _)]
  rw [hstep, pick_sweep_of_le p (u := v) (y := y) rfl, hr, Cursor.past_behind]
  · rfl
  · rw [hr]
    simp only [Cursor.past, Cursor.offset_behind, Text.byteSize_cons]
    omega

theorem mem_pick {p : Pattern} {rows : List Cursor} {free : Nat} {m : Match}
    (h : m ∈ Match.pick free (rows.map fun d => (d, (p.readings d).head?))) :
    ∃ d ∈ rows, ∃ r, p.First d r ∧ m = Match.ofReading d r := by
  induction rows generalizing free with
  | nil => exact absurd h List.not_mem_nil
  | cons d rows ih =>
    rw [List.map_cons] at h
    have hrest : ∀ g, m ∈ Match.pick g (rows.map fun d => (d, (p.readings d).head?)) →
        ∃ e ∈ d :: rows, ∃ r, p.First e r ∧ m = Match.ofReading e r := by
      intro g hm
      obtain ⟨e, he, hr⟩ := ih hm
      exact ⟨e, List.mem_cons_of_mem d he, hr⟩
    cases hd : (p.readings d).head? with
    | none =>
      rw [hd, pick_none] at h
      exact hrest _ h
    | some r =>
      rw [hd, pick_some] at h
      split at h
      · exact hrest _ h
      · rcases List.mem_cons.1 h with rfl | h
        · exact ⟨d, List.mem_cons_self, r, hd, rfl⟩
        · exact hrest _ h

/-- A match is the reading that a search takes at a place further on. -/
theorem exists_first_of_mem_findsFrom {m : Match} (h : m ∈ p.findsFrom k) :
    ∃ x y r, k.after = x ++ y ∧ p.First (k.behind x y) r ∧ m = .ofReading (k.behind x y) r := by
  unfold findsFrom at h
  rw [sweep_eq] at h
  obtain ⟨d, hd, r, hr, rfl⟩ := mem_pick h
  obtain ⟨x, hx, hdx⟩ := Cursor.mem_placesFrom.1 hd
  have hplace : d = k.behind x d.after := hdx
  exact ⟨x, d.after, r, hx, hplace ▸ hr, congrArg (Match.ofReading · r) hplace⟩

/-- A match cuts the text behind the place into what is in front of it, what it reads and what follows. -/
theorem exists_cut_of_mem_findsFrom {m : Match} (h : m ∈ p.findsFrom k) :
    ∃ x u y, k.after = x ++ (u ++ y) ∧ m.span.start = k.behind x (u ++ y) ∧ m.span.stop = k.behind (x ++ u) y ∧
      Reads p (lastOf k.before x) u y := by
  obtain ⟨x, z, r, hk, hr, rfl⟩ := exists_first_of_mem_findsFrom h
  obtain ⟨u, hu, hstop, hp⟩ := readsTo_of_mem_readings p _ r (List.mem_of_mem_head? hr)
  rw [Cursor.after_behind] at hu
  subst hu
  exact ⟨x, u, r.stop.after, hk, rfl, hstop.trans (Cursor.behind_behind ..), hp⟩

/-- The leftmost match cuts the text into what is in front of it, what it reads and what follows. -/
theorem exists_cut_of_find? {t : Text} {m : Match} (h : p.find? t = some m) :
    ∃ x u y, t = x ++ u ++ y ∧ m.span.start = (Cursor.start t).behind x (u ++ y) ∧
      m.span.stop = (Cursor.start t).behind (x ++ u) y ∧ Reads p (lastOf none x) u y := by
  have hm : m ∈ p.findsFrom (.start t) := List.mem_of_mem_head? h
  obtain ⟨x, u, y, ht, hstart, hstop, hp⟩ := exists_cut_of_mem_findsFrom hm
  exact ⟨x, u, y, ht.trans (List.append_assoc ..).symm, hstart, hstop, hp⟩

end Pattern

end SnippetPreview
