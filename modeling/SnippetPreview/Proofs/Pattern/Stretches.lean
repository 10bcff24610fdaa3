import SnippetPreview.Proofs.Pattern.Leads

/-!
# How far a run reaches

* `best?_fewest`, `best?_many`: a lazy run ends at the first place that the rest can be read behind, a greedy one at the last;
* `first_seq_fewest`, `first_seq_many`: the same for the reading that a search takes, with the stretch of the run as a group;
* `findsFrom_of_silent`, `finds_of_first`: what is in front of the first match, and the match itself.
-/

namespace SnippetPreview.Pattern

variable {p q : Pattern} {k : Cursor} {r s : Reading} {holds : Char → Bool} {behind : Cursor → Option Reading}

/-! ### Runs -/

/-- Nothing comes of a run when nothing comes of going on at any place. -/
theorem best?_run_eq_none {greedy : Bool} (h : ∀ u z, k.after = u ++ z → behind (k.behind u z) = none) :
    (run greedy holds).best? behind k = none := by
  refine List.findSome?_eq_none_iff.2 ?_
  intro r hr
  obtain ⟨u, hu, hru, -⟩ := readsTo_of_mem_readings _ k r hr
  rw [hru, h u r.stop.after hu]
  rfl

/-- A lazy run ends at the first place that something comes of going on at. -/
theorem best?_fewest {v y : Text} (hk : k.after = v ++ y) (hv : v.all holds = true)
    (hshort : ∀ u z, v = u ++ z → z ≠ [] → behind (k.behind u (z ++ y)) = none) (hs : behind (k.behind v y) = some s) :
    (fewest holds).best? behind k = some s := by
  induction v generalizing k with
  | nil =>
    rw [List.nil_append] at hk
    subst hk
    rw [Cursor.behind_nil] at hs
    rw [fewest, best?_run, hs]
    rfl
  | cons c v ih =>
    rw [List.all_cons, Bool.and_eq_true] at hv
    have hhere : behind k = none := by
      have h := hshort [] (c :: v) rfl (List.cons_ne_nil c v)
      rwa [← hk, Cursor.behind_nil] at h
    have hmore : (fewest holds).best? behind (k.past c (v ++ y)) = some s := by
      refine ih rfl hv.2 ?_ ?_
      · intro u z hvuz hz
        rw [Cursor.past_behind]
        exact hshort (c :: u) z (by rw [hvuz, List.cons_append]) hz
      · rwa [Cursor.past_behind]
    rw [fewest, best?_run, hhere]
    simp only [Cursor.next?, hk, List.cons_append, List.head?_cons, Option.any_some, hv.1, if_true, Option.bind_some]
    exact hmore

/-- A greedy run ends at the last place that something comes of going on at. -/
theorem best?_many {v y : Text} (hk : k.after = v ++ y) (hv : v.all holds = true)
    (hlong : ∀ u z, y = u ++ z → u ≠ [] → behind (k.behind (v ++ u) z) = none) (hs : behind (k.behind v y) = some s) :
    (many holds).best? behind k = some s := by
  induction v generalizing k with
  | nil =>
    rw [List.nil_append] at hk
    subst hk
    rw [Cursor.behind_nil] at hs
    have hmore : (if k.after.head?.any holds then k.next?.bind ((many holds).best? behind) else none) = none := by
      cases hk : k.after with
      | nil => rfl
      | cons c t =>
        have hnone : (many holds).best? behind (k.past c t) = none := by
          refine best?_run_eq_none ?_
          intro u z htuz
          rw [Cursor.past_behind]
          exact hlong (c :: u) z (hk.trans (congrArg (c :: ·) htuz)) (List.cons_ne_nil c u)
        simp [Cursor.next?, hk, hnone]
    rw [many] at hmore ⊢
    rw [best?_run, hmore, hs]
    rfl
  | cons c v ih =>
    rw [List.all_cons, Bool.and_eq_true] at hv
    have hmore : (many holds).best? behind (k.past c (v ++ y)) = some s := by
      refine ih rfl hv.2 ?_ ?_
      · intro u z hyuz hu
        rw [Cursor.past_behind]
        exact hlong u z hyuz hu
      · rwa [Cursor.past_behind]
    rw [many] at hmore ⊢
    rw [best?_run]
    simp only [Cursor.next?, hk, List.cons_append, List.head?_cons, Option.any_some, hv.1, if_true, Option.bind_some, hmore,
      Option.some_or]

/-! ### Groups -/

theorem first_seq_iff_best? : First (seq p q) k r ↔ p.best? (fun d => (q.readings d).head?) k = some r := by
  have hrest : q.best? (fun d => some (.nothing d)) = fun d => (q.readings d).head? := funext fun d => best?_nothing q d
  rw [First, ← best?_nothing, best?_seq, hrest]

theorem best?_group (i : Nat) (p : Pattern) (behind : Cursor → Option Reading) (k : Cursor) :
    (group i p).best? behind k
      = (p.best? (fun d => (behind d).map fun s => ⟨s.stop, (2 * i + 1, d) :: s.marks⟩) k).map
        fun s => ⟨s.stop, (2 * i, k) :: s.marks⟩ := by
  have hmark : (mark (2 * i + 1)).best? behind = fun d => (behind d).map fun s => ⟨s.stop, (2 * i + 1, d) :: s.marks⟩ :=
    funext fun d => best?_mark _ behind d
  rw [group, best?_seq, best?_mark, best?_seq, hmark]

theorem all_anyChar (t : Text) : t.all anyChar = true := List.all_eq_true.2 fun _ _ => rfl

/-- A group with a lazy run takes the shortest stretch that the rest can be read behind. -/
theorem first_seq_fewest (i : Nat) {v y : Text} (hk : k.after = v ++ y) (hv : v.all holds = true)
    (hshort : ∀ u z, v = u ++ z → z ≠ [] → q.readings (k.behind u (z ++ y)) = []) (hq : First q (k.behind v y) s) :
    First (seq (group i (fewest holds)) q) k ⟨s.stop, (2 * i, k) :: (2 * i + 1, k.behind v y) :: s.marks⟩ := by
  rw [first_seq_iff_best?, best?_group]
  have hrun : (fewest holds).best?
      (fun d => (q.readings d).head?.map fun s => ⟨s.stop, (2 * i + 1, d) :: s.marks⟩) k
        = some ⟨s.stop, (2 * i + 1, k.behind v y) :: s.marks⟩ := by
    refine best?_fewest hk hv (fun u z hvuz hz => ?_) ?_
    · rw [hshort u z hvuz hz]
      rfl
    · rw [hq]
      rfl
  rw [hrun]
  rfl

/-- A group with a greedy run takes the longest stretch that the rest can be read behind. -/
theorem first_seq_many (i : Nat) {v y : Text} (hk : k.after = v ++ y) (hv : v.all holds = true)
    (hlong : ∀ u z, y = u ++ z → u ≠ [] → q.readings (k.behind (v ++ u) z) = []) (hq : First q (k.behind v y) s) :
    First (seq (group i (many holds)) q) k ⟨s.stop, (2 * i, k) :: (2 * i + 1, k.behind v y) :: s.marks⟩ := by
  rw [first_seq_iff_best?, best?_group]
  have hrun : (many holds).best?
      (fun d => (q.readings d).head?.map fun s => ⟨s.stop, (2 * i + 1, d) :: s.marks⟩) k
        = some ⟨s.stop, (2 * i + 1, k.behind v y) :: s.marks⟩ := by
    refine best?_many hk hv (fun u z hyuz hu => ?_) ?_
    · rw [hlong u z hyuz hu]
      rfl
    · rw [hq]
      rfl
  rw [hrun]
  rfl

/-! ### The first match -/

theorem readings_seq_eq_nil (h : p.readings k = []) (q : Pattern) : (seq p q).readings k = [] := by
  rw [readings_seq, h]
  rfl

/-- A text that nothing can be read in is passed over. -/
theorem findsFrom_of_silent {x y : Text} (hk : k.after = x ++ y)
    (h : ∀ u v, x = u ++ v → v ≠ [] → p.readings (k.behind u (v ++ y)) = []) :
    p.findsFrom k = p.findsFrom (k.behind x y) := by
  induction x generalizing k with
  | nil =>
    rw [List.nil_append] at hk
    rw [← hk, Cursor.behind_nil]
  | cons c x ih =>
    have hhere : p.readings k = [] := by
      have hread := h [] (c :: x) rfl (List.cons_ne_nil c x)
      rwa [← hk, Cursor.behind_nil] at hread
    have hrest : p.findsFrom (k.past c (x ++ y)) = p.findsFrom ((k.past c (x ++ y)).behind x y) := by
      refine ih rfl ?_
      intro u v hxuv hv
      rw [Cursor.past_behind]
      exact h (c :: u) v (by rw [hxuv, List.cons_append]) hv
    rw [findsFrom_skip (t := x ++ y) hk hhere, hrest, Cursor.past_behind]

/-- The first match behind a text that nothing can be read in. -/
theorem finds_of_first {t x u y : Text} (ht : t = x ++ (u ++ y))
    (h : ∀ v w, x = v ++ w → w ≠ [] → p.readings ((Cursor.start t).behind v (w ++ (u ++ y))) = [])
    (hfirst : First p ((Cursor.start t).behind x (u ++ y)) r) (hu : u ≠ [])
    (hr : r.stop = ((Cursor.start t).behind x (u ++ y)).behind u y) :
    ∃ ms, p.finds t = Match.ofReading ((Cursor.start t).behind x (u ++ y)) r :: ms := by
  have hmatch := findsFrom_match rfl hu hfirst hr
  rw [← findsFrom_of_silent (k := .start t) ht h] at hmatch
  exact ⟨_, hmatch⟩

end SnippetPreview.Pattern
