import SnippetPreview.Proofs.Pattern.Leads
import SnippetPreview.Proofs.Pattern.Twins

/-!
# What a match has read

* `Cursor.LeadsTo`: a place further on in the same text;
* `Pattern.Yields.marksWithin`: the places that a reading has marked lie between its start and its end;
* `Pattern.exists_group`: a group cuts what its match has read; `Pattern.exists_lastGroup?`: a greedy run at the end goes as
  far as it can;
* `Pattern.all_groupText`: all that a group reads is of the class of its pattern;
* `Match.Cuts`, `Pattern.exists_cuts`: a match cuts its text, and all its groups are parts of what it reads;
* `Pattern.replaceAll_run`, `Pattern.replaceAll_invariant`: what holds between the text up to a place and the text that has
  been put out so far;
* `Pattern.exists_cut_replaceFirst`: the first match of a text gives way to another text.
-/

namespace SnippetPreview

/-! ### Slices -/

namespace Text

theorem slice_go_isPrefix {start stop pos : Nat} (h : start ≤ pos) (t : Text) : slice.go start stop pos t <+: t := by
  induction t generalizing pos with
  | nil => exact List.prefix_rfl
  | cons c t ih =>
    rw [slice.go, if_pos h]
    split
    · exact List.nil_prefix
    · exact List.cons_prefix_cons.2 ⟨rfl, ih (Nat.le_add_right_of_le h)⟩

theorem slice_go_isInfix (start stop pos : Nat) (t : Text) : slice.go start stop pos t <:+: t := by
  induction t generalizing pos with
  | nil => exact List.infix_rfl
  | cons c t ih =>
    by_cases h : start ≤ pos
    · exact (slice_go_isPrefix h (c :: t)).isInfix
    · rw [slice.go, if_neg h]
      split
      · exact List.nil_infix
      · exact (ih _).trans (List.suffix_cons c t).isInfix

theorem slice_isInfix (t : Text) (start stop : Nat) : t.slice start stop <:+: t := slice_go_isInfix start stop 0 t

end Text

/-! ### Places further on -/

/-- The place `d` is the place `k` or lies behind it. -/
def Cursor.LeadsTo (k d : Cursor) : Prop := ∃ u, k.after = u ++ d.after ∧ d = k.behind u d.after

namespace Cursor.LeadsTo

variable {k d e : Cursor}

theorem refl (k : Cursor) : k.LeadsTo k := ⟨[], rfl, rfl⟩

theorem trans (h : k.LeadsTo d) (h' : d.LeadsTo e) : k.LeadsTo e := by
  obtain ⟨u, hk, hd⟩ := h
  obtain ⟨v, hv, he⟩ := h'
  refine ⟨u ++ v, by rw [hk, hv, List.append_assoc], ?_⟩
  rw [hd, behind_behind] at he
  exact he

theorem offset_eq (h : k.LeadsTo d) : ∃ u, k.after = u ++ d.after ∧ d.offset = k.offset + Text.byteSize u := by
  obtain ⟨u, hk, hd⟩ := h
  exact ⟨u, hk, congrArg Cursor.offset hd⟩

end Cursor.LeadsTo

open Pattern

theorem Pattern.Yields.leadsTo {p : Pattern} {k : Cursor} {r : Reading} (h : p.Yields k r) : k.LeadsTo r.stop := by
  obtain ⟨u, hk, hstop, -⟩ := h.readsTo
  exact ⟨u, hk, hstop⟩

/-- The marks of a reading at a place lie between its start and its end. -/
def Reading.MarksWithin (k : Cursor) (r : Reading) : Prop := ∀ e ∈ r.marks, k.LeadsTo e.2 ∧ e.2.LeadsTo r.stop

theorem Reading.marksWithin_nothing (k d : Cursor) : (Reading.nothing d).MarksWithin k := List.forall_mem_nil _

theorem Reading.MarksWithin.andThen {k : Cursor} {r s : Reading} (hr : r.MarksWithin k) (hs : s.MarksWithin r.stop)
    (hk : k.LeadsTo r.stop) (hstop : r.stop.LeadsTo s.stop) : (r.andThen s).MarksWithin k := by
  intro e he
  rcases List.mem_append.1 he with he | he
  · exact ⟨(hr e he).1, (hr e he).2.trans hstop⟩
  · exact ⟨hk.trans (hs e he).1, (hs e he).2⟩

theorem Pattern.Yields.marksWithin {p : Pattern} {k : Cursor} {r : Reading} (h : p.Yields k r) : r.MarksWithin k := by
  induction h with
  | empty | lineStart | wordEdge | one | run | starNil => exact Reading.marksWithin_nothing _ _
  | mark i k =>
    intro e he
    obtain rfl := List.mem_singleton.1 he
    exact ⟨.refl k, .refl k⟩
  | altLeft _ _ ih | altRight _ _ ih => exact ih
  | seq hr hs ihr ihs | starCons hr _ hs ihr ihs => exact ihr.andThen ihs hr.leadsTo hs.leadsTo

/-! ### Groups -/

theorem mem_marks_of_lastMark? {m : Match} {slot : Nat} {d : Cursor} (h : m.lastMark? slot = some d) :
    (slot, d) ∈ m.marks := by
  obtain ⟨front, back, hmarks, -⟩ := List.lookup_eq_some_iff.1 h
  rw [← List.mem_reverse, hmarks]
  exact List.mem_append_right _ List.mem_cons_self

/-- What a group has read is a part of what its match has read. -/
theorem groupText_ofReading_isInfix {p : Pattern} {k : Cursor} {r : Reading} (hr : r ∈ p.readings k) {u y : Text}
    (hk : k.after = u ++ y) (hstop : r.stop = k.behind u y) (i : Nat) : (Match.ofReading k r).groupText i <:+: u := by
  unfold Match.groupText
  cases hgroup : (Match.ofReading k r).group? i with
  | none => exact List.nil_infix
  | some s =>
    unfold Match.group? at hgroup
    obtain ⟨a, ha, hgroup⟩ := Option.bind_eq_some_iff.1 hgroup
    obtain ⟨b, hb, hgroup⟩ := Option.bind_eq_some_iff.1 hgroup
    obtain rfl := Option.some.inj hgroup
    have hwithin := (mem_readings_iff.1 hr).marksWithin
    obtain ⟨hka, has⟩ := hwithin _ (mem_marks_of_lastMark? ha)
    obtain ⟨-, hbs⟩ := hwithin _ (mem_marks_of_lastMark? hb)
    obtain ⟨v, hv, -⟩ := hka.offset_eq
    obtain ⟨w, hw, hwsize⟩ : ∃ w, a.after = w ++ r.stop.after ∧ r.stop.offset = a.offset + Text.byteSize w :=
      has.offset_eq
    obtain ⟨z, -, hzsize⟩ : ∃ z, b.after = z ++ r.stop.after ∧ r.stop.offset = b.offset + Text.byteSize z :=
      hbs.offset_eq
    have hsize : b.offset - a.offset ≤ Text.byteSize w := by omega
    have hu : u = v ++ w := by
      have hsplit := hk.symm.trans hv
      rw [hw, hstop, Cursor.after_behind, ← List.append_assoc] at hsplit
      exact List.append_cancel_right hsplit
    have htext : Span.text ⟨a, b⟩ = w.slice 0 (b.offset - a.offset) := by
      unfold Span.text
      rw [hw]
      exact Text.slice_append_of_le _ hsize
    show Span.text ⟨a, b⟩ <:+: u
    rw [htext, hu]
    exact List.infix_append_of_infix_right (Text.slice_isInfix _ _ _)

/-- The match cuts the text into what stands in front of it, what it reads and what follows. -/
structure Match.Cuts (m : Match) (p : Pattern) (t x u y : Text) : Prop where
  text_eq : t = x ++ (u ++ y)
  start : m.span.start = (Cursor.start t).behind x (u ++ y)
  stop : m.span.stop = (Cursor.start t).behind (x ++ u) y
  reads : Reads p (lastOf none x) u y
  groups : ∀ i, m.groupText i <:+: u

namespace Pattern

/-- A reading at a place of a text cuts the text. -/
theorem cuts_ofReading {p : Pattern} {t x u y : Text} {r : Reading} (ht : t = x ++ (u ++ y))
    (hr : r ∈ p.readings ((Cursor.start t).behind x (u ++ y)))
    (hstop : r.stop = ((Cursor.start t).behind x (u ++ y)).behind u y) :
    (Match.ofReading ((Cursor.start t).behind x (u ++ y)) r).Cuts p t x u y := by
  obtain ⟨u', hu, -, hreads⟩ := readsTo_of_mem_readings p _ r hr
  have hafter : r.stop.after = y := by rw [hstop, Cursor.after_behind]
  rw [hafter] at hu hreads
  obtain rfl := List.append_cancel_right hu
  refine ⟨ht, rfl, ?_, hreads, groupText_ofReading_isInfix hr rfl hstop⟩
  rw [← Cursor.behind_behind _ x u (u ++ y)]
  exact hstop

theorem exists_cuts {p : Pattern} {t : Text} {m : Match} (h : m ∈ p.finds t) : ∃ x u y, m.Cuts p t x u y := by
  obtain ⟨x, z, r, ht, hr, rfl⟩ := exists_first_of_mem_findsFrom (k := .start t) h
  have hmem := List.mem_of_mem_head? hr
  obtain ⟨u, hu, hstop, -⟩ := readsTo_of_mem_readings p _ r hmem
  rw [Cursor.after_behind] at hu
  subst hu
  exact ⟨x, u, r.stop.after, cuts_ofReading ht hmem hstop⟩

end Pattern

namespace Match.Cuts

variable {m : Match} {p : Pattern} {t x u y : Text}

theorem text (h : m.Cuts p t x u y) : m.text = u := by
  unfold Match.text
  have hspan : m.span = ⟨(Cursor.start t).behind x (u ++ y), (Cursor.start t).behind (x ++ u) y⟩ := by
    rw [← h.start, ← h.stop]
  rw [hspan]
  exact Span.text_behind _ x u y y

/-- What stands in front of the match. -/
theorem front (h : m.Cuts p t x u y) : Span.text ⟨.start t, m.span.start⟩ = x := by
  have hfront := Span.text_behind (Cursor.start t) [] x (u ++ y) (u ++ y)
  rwa [List.nil_append, ← h.start, ← h.text_eq, show (Cursor.start t).behind [] t = .start t from rfl] at hfront

theorem isInfix (h : m.Cuts p t x u y) : u <:+: t := by
  rw [h.text_eq]
  exact List.infix_append_of_infix_right List.infix_append_left

theorem groupText_isInfix (h : m.Cuts p t x u y) (i : Nat) : m.groupText i <:+: t := (h.groups i).trans h.isInfix

/-- A match of a pattern that never reads a character has groups without it. -/
theorem not_mem_groupText (h : m.Cuts p t x u y) {c : Char} (hc : p.avoids c = true) (i : Nat) :
    c ∉ m.groupText i := fun hmem => h.reads.not_mem_of_avoids hc ((h.groups i).subset hmem)

end Match.Cuts

theorem Match.groupText_of_group? {m : Match} {i : Nat} {s : Span} (h : m.group? i = some s) :
    m.groupText i = s.text := by
  rw [Match.groupText, h, Option.elim_some]

theorem Pattern.groupText_isInfix {p : Pattern} {t : Text} {m : Match} (h : m ∈ p.finds t) (i : Nat) :
    m.groupText i <:+: t := by
  obtain ⟨x, u, y, hcuts⟩ := exists_cuts h
  exact hcuts.groupText_isInfix i

theorem Pattern.groupText_isInfix_of_find? {p : Pattern} {t : Text} {m : Match} (h : p.find? t = some m) (i : Nat) :
    m.groupText i <:+: t := p.groupText_isInfix (List.mem_of_mem_head? h) i

/-! ### Groups in a chain -/

theorem lookup_marks_of_leaves {p : Pattern} {slot : Nat} (hp : p.leaves slot = true) {k : Cursor} {r : Reading}
    (hr : r ∈ p.readings k) : r.marks.reverse.lookup slot = none := by
  refine List.lookup_eq_none_iff.2 fun e he => bne_iff_ne.2 ?_
  rintro rfl
  exact (mem_readings_iff.1 hr).not_mem_marks hp e.2 (List.mem_reverse.1 he)

/-- A group that is not read again further on cuts a reading. -/
theorem Pattern.exists_group?_of_mem_readings {ps qs : List Pattern} {q : Pattern} {i : Nat}
    (hmarkless : q.isMarkless = true) (hstart : (chain qs).leaves (2 * i) = true)
    (hstop : (chain qs).leaves (2 * i + 1) = true) {k : Cursor} {r : Reading}
    (hr : r ∈ (chain (ps ++ group i q :: qs)).readings k) :
    ∃ u v w y, k.after = u ++ (v ++ (w ++ y)) ∧ r.stop = k.behind (u ++ (v ++ w)) y ∧
      Reads (chain ps) k.before u (v ++ (w ++ y)) ∧ Reads q (lastOf k.before u) v (w ++ y) ∧
      Reads (chain qs) (lastOf k.before (u ++ v)) w y ∧
      (Match.ofReading k r).group? i = some ⟨k.behind u (v ++ (w ++ y)), k.behind (u ++ v) (w ++ y)⟩ := by
  rw [readings_chain_append] at hr
  obtain ⟨r₁, hr₁, hr⟩ := List.mem_flatMap.1 hr
  obtain ⟨r', hr', rfl⟩ := List.mem_map.1 hr
  obtain ⟨r₂, hr₂, hr'⟩ := List.mem_flatMap.1 hr'
  obtain ⟨r₃, hr₃, rfl⟩ := List.mem_map.1 hr'
  obtain ⟨a, ha, hr₂⟩ := List.mem_flatMap.1 hr₂
  obtain rfl := List.mem_singleton.1 ha
  obtain ⟨s, hs, rfl⟩ := List.mem_map.1 hr₂
  obtain ⟨b, hb, hs⟩ := List.mem_flatMap.1 hs
  obtain ⟨d, hd, rfl⟩ := List.mem_map.1 hs
  obtain rfl := List.mem_singleton.1 hd
  obtain ⟨u, hu, hustop, hureads⟩ := readsTo_of_mem_readings _ k _ hr₁
  obtain ⟨v, hv, hvstop, hvreads⟩ := readsTo_of_mem_readings q r₁.stop b hb
  obtain ⟨w, hw, hwstop, hwreads⟩ := readsTo_of_mem_readings _ b.stop r₃ hr₃
  have hne : (2 * i == 2 * i + 1) = false := beq_eq_false_iff_ne.2 (by omega)
  have hmarks : b.marks = [] := marks_of_isMarkless hmarkless hb
  have hstart : (Match.ofReading k (r₁.andThen ((Reading.andThen ⟨r₁.stop, [(2 * i, r₁.stop)]⟩
      (b.andThen ⟨b.stop, [(2 * i + 1, b.stop)]⟩)).andThen r₃))).lastMark? (2 * i) = some r₁.stop := by
    have hnone := lookup_marks_of_leaves hstart hr₃
    simp [Match.lastMark?, Match.ofReading, Reading.andThen, List.lookup_append, hnone, hmarks, List.lookup_cons, hne]
  have hstop : (Match.ofReading k (r₁.andThen ((Reading.andThen ⟨r₁.stop, [(2 * i, r₁.stop)]⟩
      (b.andThen ⟨b.stop, [(2 * i + 1, b.stop)]⟩)).andThen r₃))).lastMark? (2 * i + 1) = some b.stop := by
    have hnone := lookup_marks_of_leaves hstop hr₃
    simp [Match.lastMark?, Match.ofReading, Reading.andThen, List.lookup_append, hnone, hmarks]
  rw [hv, hw] at hureads hu hustop
  rw [hw] at hvstop
  rw [hustop, Cursor.before_behind, hw] at hvreads
  rw [hvstop, hustop, Cursor.before_behind, Cursor.before_behind, ← lastOf_append] at hwreads
  rw [hustop, Cursor.behind_behind] at hvstop
  refine ⟨u, v, w, r₃.stop.after, hu, ?_, hureads, hvreads, hwreads, ?_⟩
  · refine hwstop.trans ?_
    rw [hvstop, Cursor.behind_behind, List.append_assoc]
  · unfold Match.group?
    rw [hstart, hstop, hustop, hvstop]
    rfl

/-- So does its text. -/
theorem Pattern.exists_group_of_mem_readings {ps qs : List Pattern} {q : Pattern} {i : Nat}
    (hmarkless : q.isMarkless = true) (hstart : (chain qs).leaves (2 * i) = true)
    (hstop : (chain qs).leaves (2 * i + 1) = true) {k : Cursor} {r : Reading}
    (hr : r ∈ (chain (ps ++ group i q :: qs)).readings k) :
    ∃ u v w y, k.after = u ++ (v ++ (w ++ y)) ∧ r.stop = k.behind (u ++ (v ++ w)) y ∧
      Reads (chain ps) k.before u (v ++ (w ++ y)) ∧ Reads q (lastOf k.before u) v (w ++ y) ∧
      Reads (chain qs) (lastOf k.before (u ++ v)) w y ∧ (Match.ofReading k r).groupText i = v := by
  obtain ⟨u, v, w, y, hafter, hend, hu, hv, hw, hgroup⟩ := exists_group?_of_mem_readings hmarkless hstart hstop hr
  refine ⟨u, v, w, y, hafter, hend, hu, hv, hw, ?_⟩
  rw [Match.groupText_of_group? hgroup]
  exact Span.text_behind k u v (w ++ y) (w ++ y)

/-- The same for a match. -/
theorem Pattern.exists_group? {ps qs : List Pattern} {q : Pattern} {i : Nat} (hmarkless : q.isMarkless = true)
    (hstart : (chain qs).leaves (2 * i) = true) (hstop : (chain qs).leaves (2 * i + 1) = true) {t : Text} {m : Match}
    (hm : m ∈ (chain (ps ++ group i q :: qs)).finds t) :
    ∃ x u v w y, m.Cuts (chain (ps ++ group i q :: qs)) t x (u ++ (v ++ w)) y ∧
      Reads (chain ps) (lastOf none x) u (v ++ (w ++ y)) ∧ Reads q (lastOf none (x ++ u)) v (w ++ y) ∧
      Reads (chain qs) (lastOf none (x ++ (u ++ v))) w y ∧
      m.group? i = some ⟨(Cursor.start t).behind (x ++ u) (v ++ (w ++ y)),
        (Cursor.start t).behind (x ++ u ++ v) (w ++ y)⟩ := by
  obtain ⟨x, z, r, ht, hr, rfl⟩ := exists_first_of_mem_findsFrom (k := .start t) hm
  have hmem := List.mem_of_mem_head? hr
  obtain ⟨u, v, w, y, hz, hend, hu, hv, hw, hgroup⟩ := exists_group?_of_mem_readings hmarkless hstart hstop hmem
  obtain rfl : z = u ++ (v ++ w) ++ y := by
    simp only [List.append_assoc]
    exact hz
  rw [Cursor.before_behind, ← lastOf_append] at hv hw
  refine ⟨x, u, v, w, y, cuts_ofReading ht hmem hend, hu, hv, hw, ?_⟩
  rw [hgroup]
  exact congrArg some (congrArg₂ Span.mk (Cursor.behind_behind (.start t) x u _ _)
    ((Cursor.behind_behind (.start t) x (u ++ v) _ _).trans (by rw [List.append_assoc])))

theorem Pattern.exists_group {ps qs : List Pattern} {q : Pattern} {i : Nat} (hmarkless : q.isMarkless = true)
    (hstart : (chain qs).leaves (2 * i) = true) (hstop : (chain qs).leaves (2 * i + 1) = true) {t : Text} {m : Match}
    (hm : m ∈ (chain (ps ++ group i q :: qs)).finds t) :
    ∃ x u v w y, m.Cuts (chain (ps ++ group i q :: qs)) t x (u ++ (v ++ w)) y ∧
      Reads (chain ps) (lastOf none x) u (v ++ (w ++ y)) ∧ Reads q (lastOf none (x ++ u)) v (w ++ y) ∧
      Reads (chain qs) (lastOf none (x ++ (u ++ v))) w y ∧ m.groupText i = v := by
  obtain ⟨x, u, v, w, y, hcuts, hu, hv, hw, hgroup⟩ := exists_group? hmarkless hstart hstop hm
  refine ⟨x, u, v, w, y, hcuts, hu, hv, hw, ?_⟩
  rw [Match.groupText_of_group? hgroup]
  exact Span.text_behind (.start t) (x ++ u) v (w ++ y) (w ++ y)

/-- The reading that a search takes is the best one behind some reading of the first part. -/
theorem Pattern.First.exists_seq {p q : Pattern} {k : Cursor} {r : Reading} (h : First (.seq p q) k r) :
    ∃ r₁ r₂, r₁ ∈ p.readings k ∧ First q r₁.stop r₂ ∧ r = r₁.andThen r₂ := by
  rw [First, readings_seq, List.head?_flatMap] at h
  obtain ⟨r₁, hr₁, hbest⟩ := List.exists_of_findSome?_eq_some h
  rw [List.head?_map, Option.map_eq_some_iff] at hbest
  obtain ⟨r₂, hr₂, rfl⟩ := hbest
  exact ⟨r₁, r₂, hr₁, hr₂, rfl⟩

/-- A greedy run that ends a pattern as a group goes up to the end of the text or to a character of another class. -/
theorem Pattern.First.exists_lastGroup? {ps : List Pattern} {holds : Char → Bool} {i : Nat} {k : Cursor} {r : Reading}
    (hr : First (chain (ps ++ [group i (many holds)])) k r) :
    ∃ u v y, k.after = u ++ (v ++ y) ∧ Reads (chain ps) k.before u (v ++ y) ∧ y.head?.any holds = false ∧
      (Match.ofReading k r).group? i = some ⟨k.behind u (v ++ y), k.behind (u ++ v) y⟩ := by
  obtain ⟨r₁, r₂, hr₁, hr₂, rfl⟩ := (first_chain_append.1 hr).exists_seq
  obtain ⟨u, hu, hstop, hreads⟩ := readsTo_of_mem_readings _ k r₁ hr₁
  obtain ⟨v, y, hcut, hv, hy⟩ : ∃ v y, r₁.stop.after = v ++ y ∧ v.all holds = true ∧ y.head?.any holds = false := by
    refine ⟨_, _, List.takeWhile_append_dropWhile.symm, List.all_takeWhile, ?_⟩
    have hhead := List.head?_dropWhile_not holds r₁.stop.after
    cases hd : (r₁.stop.after.dropWhile holds).head? with
    | none => rfl
    | some c =>
      rw [hd] at hhead
      simpa using hhead
  have hgroup := (first_group i (first_many hcut hv hy)).last
  obtain rfl := Option.some.inj (hr₂.symm.trans hgroup)
  rw [hcut] at hu hreads hstop
  refine ⟨u, v, y, hu, hreads, hy, ?_⟩
  have hne : (2 * i == 2 * i + 1) = false := beq_eq_false_iff_ne.2 (by omega)
  rw [← Cursor.behind_behind k u v (v ++ y), ← hstop]
  simp [Match.group?, Match.lastMark?, Match.ofReading, Reading.andThen, List.lookup_cons, hne]

theorem Pattern.exists_lastGroup? {ps : List Pattern} {holds : Char → Bool} {i : Nat} {t : Text} {m : Match}
    (hm : m ∈ (chain (ps ++ [group i (many holds)])).finds t) :
    ∃ x u v y, t = x ++ (u ++ (v ++ y)) ∧ Reads (chain ps) (lastOf none x) u (v ++ y) ∧ y.head?.any holds = false ∧
      m.group? i = some ⟨(Cursor.start t).behind (x ++ u) (v ++ y), (Cursor.start t).behind (x ++ (u ++ v)) y⟩ := by
  obtain ⟨x, z, r, ht, hr, rfl⟩ := exists_first_of_mem_findsFrom (k := .start t) hm
  obtain ⟨u, v, y, rfl, hu, hy, hgroup⟩ := hr.exists_lastGroup?
  refine ⟨x, u, v, y, ht, hu, hy, ?_⟩
  rw [hgroup, Cursor.behind_behind, Cursor.behind_behind]

/-- What a group reads is of the class of its pattern, if the group is not read again further on. -/
theorem Pattern.all_groupText (ps : List Pattern) (q : Pattern) (qs : List Pattern) {i : Nat} {S : Char → Bool}
    (hq : q.Within S) (hmarkless : q.isMarkless = true) (hstart : (chain qs).leaves (2 * i) = true)
    (hstop : (chain qs).leaves (2 * i + 1) = true) {t : Text} {m : Match}
    (hm : m ∈ (chain (ps ++ group i q :: qs)).finds t) : (m.groupText i).all S = true := by
  obtain ⟨x, u, v, w, y, -, -, hreads, -, hgroup⟩ := exists_group hmarkless hstart hstop hm
  rw [hgroup]
  exact hreads.all hq

/-! ### Replacement as a run -/

/-- What holds between the matches up to a place, the text up to there and the text put out so far holds in the end when
each character where nothing is read and each match that is replaced preserves it. -/
theorem Pattern.replaceAll_walk {p : Pattern} (hp : p.consumes = true) {f : Match → Text} {t : Text}
    {motive : List Match → Text → Text → Prop} (start : motive [] [] [])
    (keep : ∀ ms x c y out, t = x ++ c :: y → p.readings ((Cursor.start t).behind x (c :: y)) = [] → motive ms x out →
      motive ms (x ++ [c]) (out ++ [c]))
    (replace : ∀ ms, ∀ m ∈ p.finds t, ∀ x u y out, m.Cuts p t x u y → motive ms x out →
      motive (ms ++ [m]) (x ++ u) (out ++ f m)) :
    motive (p.finds t) t (p.replaceAll f t) := by
  have hfrom : ∀ ms x y out, t = x ++ y → p.finds t = ms ++ p.findsFrom ((Cursor.start t).behind x y) →
      motive ms x out → motive (p.finds t) t (out ++ p.replacedFrom f ((Cursor.start t).behind x y)) := by
    intro ms x y
    -- what is left of the text gets shorter with each step
    induction hn : y.length using Nat.strongRecOn generalizing ms x y with
    | ind n ih =>
      intro out hxy hfinds hout
      rcases replacedFrom_cases hp f ((Cursor.start t).behind x y) with
        ⟨hy, hend⟩ | ⟨c, y', hy, hnone, hskip, hreplaced⟩ | ⟨r, u, y', hu, hy, hfirst, hstop, hmatch, hreplaced⟩
      · rw [Cursor.after_behind] at hy
        subst hy
        have hnone : p.findsFrom ((Cursor.start t).behind x []) = [] := by
          refine findsFrom_nil rfl (readings_eq_nil_iff.2 fun u y hu hreads => hreads.ne_nil hp ?_)
          exact (List.append_eq_nil_iff.1 hu.symm).1
        rw [List.append_nil] at hxy
        rw [hnone, List.append_nil] at hfinds
        rw [hend, List.append_nil, hfinds, hxy]
        exact hout
      · rw [Cursor.after_behind] at hy
        subst hy
        rw [Cursor.past_eq_behind, Cursor.behind_behind] at hskip hreplaced
        have hlt : y'.length < n := by
          rw [← hn]
          exact Nat.lt_succ_self _
        rw [hreplaced, List.append_cons]
        refine ih _ hlt ms (x ++ [c]) y' rfl _ ?_ (hskip ▸ hfinds) (keep ms x c y' out hxy hnone hout)
        rw [hxy, List.append_assoc]
        rfl
      · rw [Cursor.after_behind] at hy
        subst hy
        have hcuts := cuts_ofReading hxy (List.mem_of_mem_head? hfirst) hstop
        rw [hmatch] at hfinds
        rw [Cursor.behind_behind] at hreplaced hfinds
        have hmem : Match.ofReading ((Cursor.start t).behind x (u ++ y')) r ∈ p.finds t := by
          rw [hfinds]
          exact List.mem_append_right _ List.mem_cons_self
        have hlt : y'.length < n := by
          have hpos := List.length_pos_iff.2 hu
          rw [← hn, List.length_append]
          omega
        rw [hreplaced, ← List.append_assoc]
        refine ih _ hlt _ (x ++ u) y' rfl _ ?_ ?_ (replace ms _ hmem x u y' out hcuts hout)
        · rw [hxy, List.append_assoc]
        · rw [hfinds, List.append_assoc]
          rfl
  exact hfrom [] [] t [] rfl rfl start

/-- The same when all that matters of a character that is kept is that it is kept. -/
theorem Pattern.replaceAll_run {p : Pattern} (hp : p.consumes = true) {f : Match → Text} {t : Text}
    {motive : List Match → Text → Text → Prop} (start : motive [] [] [])
    (keep : ∀ ms x c y out, t = x ++ c :: y → motive ms x out → motive ms (x ++ [c]) (out ++ [c]))
    (replace : ∀ ms, ∀ m ∈ p.finds t, ∀ x u y out, m.Cuts p t x u y → motive ms x out →
      motive (ms ++ [m]) (x ++ u) (out ++ f m)) :
    motive (p.finds t) t (p.replaceAll f t) :=
  replaceAll_walk hp start (fun ms x c y out ht _ => keep ms x c y out ht) replace

/-- The same for what does not depend on the matches so far. -/
theorem Pattern.replaceAll_invariant {p : Pattern} (hp : p.consumes = true) {f : Match → Text} {t : Text}
    {motive : Text → Text → Prop} (start : motive [] [])
    (keep : ∀ x c y out, t = x ++ c :: y → motive x out → motive (x ++ [c]) (out ++ [c]))
    (replace : ∀ m ∈ p.finds t, ∀ x u y out, m.Cuts p t x u y → motive x out → motive (x ++ u) (out ++ f m)) :
    motive t (p.replaceAll f t) :=
  replaceAll_run hp (motive := fun _ => motive) start (fun _ => keep) fun _ => replace

/-- The first match of a text gives way to another text. -/
theorem Pattern.exists_cut_replaceFirst {p : Pattern} {t : Text} {m : Match} (h : p.find? t = some m) (new : Text) :
    ∃ x u y, m.Cuts p t x u y ∧ p.replaceFirst new t = x ++ (new ++ y) := by
  obtain ⟨x, u, y, hcuts⟩ := exists_cuts (List.mem_of_mem_head? h)
  refine ⟨x, u, y, hcuts, ?_⟩
  rw [replaceFirst, h]
  show Span.text ⟨.start t, m.span.start⟩ ++ new ++ m.span.stop.after = _
  rw [hcuts.front, hcuts.stop, List.append_assoc]
  rfl

end SnippetPreview
