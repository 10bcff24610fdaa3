import Mathlib.Data.List.Forall2
import SnippetPreview.Proofs.Pattern.First

/-!
# The same text in two surroundings

* `Pattern.isBlind`: patterns that ask neither for the start of a line nor for the edge of a word;
* `Twin`: two places with the same text behind them, up to the place where the two surroundings begin. Patterns that are
  not blind look at what stands in front of it, too;
* `best?_twin`: a pattern that cannot read the character where they begin takes the same reading at both places;
* `findsFrom_twin`: then the matches up to there are the same, too;
* `TwinMatch.text_group?`: and so are the texts of their groups;
* `Twin.findsFrom`: so a text has the same matches wherever it stands.
-/

namespace SnippetPreview

open Pattern

/-- The pattern asks neither for the start of a line nor for the edge of a word. -/
def Pattern.isBlind : Pattern → Bool
  | lineStart | wordEdge => false
  | empty | mark _ | one _ | run _ _ => true
  | seq p q | alt p q => p.isBlind && q.isBlind
  | star p => p.isBlind

/-- Two places with the same text before the offsets `e` and `e'`, where `z` and `z'` follow. With `look`, lines and words
start at both alike. -/
structure Twin (look : Bool) (e e' : Nat) (z z' : Text) (k k' : Cursor) : Prop where
  before : look = true → SameBefore k.before k'.before
  text : ∃ x, k.after = x ++ z ∧ k'.after = x ++ z' ∧ k.offset + Text.byteSize x = e ∧ k'.offset + Text.byteSize x = e'

/-- The same reading in two surroundings. -/
structure TwinReading (look : Bool) (e e' : Nat) (z z' : Text) (r r' : Reading) : Prop where
  stop : Twin look e e' z z' r.stop r'.stop
  marks : List.Forall₂ (fun m m' => m.1 = m'.1 ∧ Twin look e e' z z' m.2 m'.2) r.marks r'.marks

/-- The same match in two surroundings. -/
structure TwinMatch (look : Bool) (e e' : Nat) (z z' : Text) (m m' : Match) : Prop where
  start : Twin look e e' z z' m.span.start m'.span.start
  stop : Twin look e e' z z' m.span.stop m'.span.stop
  marks : List.Forall₂ (fun i i' => i.1 = i'.1 ∧ Twin look e e' z z' i.2 i'.2) m.marks m'.marks

/-- The pattern never reads this character. -/
def Pattern.avoids (c : Char) : Pattern → Bool
  | empty | lineStart | wordEdge | mark _ => true
  | one holds | run _ holds => !holds c
  | seq p q | alt p q => p.avoids c && q.avoids c
  | star p => p.avoids c

theorem Reads.not_mem_of_avoids {p : Pattern} {b : Option Char} {u y : Text} (h : Reads p b u y) {c : Char}
    (hc : p.avoids c = true) : c ∉ u := by
  induction h with
  | empty | lineStart | wordEdge | mark | starNil => exact List.not_mem_nil
  | one b y h =>
    rw [Pattern.avoids, Bool.not_eq_true'] at hc
    rw [List.mem_singleton]
    rintro rfl
    exact absurd (h.symm.trans hc) nofun
  | run b y h =>
    rw [Pattern.avoids, Bool.not_eq_true'] at hc
    exact fun hmem => absurd ((List.all_eq_true.1 h c hmem).symm.trans hc) nofun
  | seq _ _ ihp ihq =>
    rw [Pattern.avoids, Bool.and_eq_true] at hc
    exact fun hmem => (List.mem_append.1 hmem).elim (ihp hc.1) (ihq hc.2)
  | altLeft q _ ih => exact ih (Bool.and_eq_true_iff.1 hc).1
  | altRight p _ ih => exact ih (Bool.and_eq_true_iff.1 hc).2
  | starCons _ _ _ ihp ihs => exact fun hmem => (List.mem_append.1 hmem).elim (ihp hc) (ihs hc)

section Twins

variable {look : Bool} {e e' : Nat} {z z' : Text} {k k' : Cursor}

/-! ### Places -/

theorem Twin.length_lt_iff (h : Twin look e e' z z' k k') {d d' : Cursor} (hd : Twin look e e' z z' d d') :
    d.after.length < k.after.length ↔ d'.after.length < k'.after.length := by
  obtain ⟨x, hk, hk', -, -⟩ := h.text
  obtain ⟨w, hd, hd', -, -⟩ := hd.text
  rw [hk, hk', hd, hd']
  simp only [List.length_append]
  omega

theorem Twin.offset_lt_iff {free free' : Nat} (h : Twin look e e' z z' k k') (hfree : free + e' = free' + e) :
    k.offset < free ↔ k'.offset < free' := by
  obtain ⟨x, -, -, he, he'⟩ := h.text
  omega

/-- The places behind a further character. -/
theorem Twin.past {d : Char} {w : Text} (h : Twin look e e' z z' k k') (hk : k.after = d :: w ++ z) :
    Twin look e e' z z' (k.past d (w ++ z)) (k'.past d (w ++ z')) := by
  obtain ⟨x, hx, -, he, he'⟩ := h.text
  obtain rfl : d :: w = x := List.append_cancel_right (hk.symm.trans hx)
  rw [Text.byteSize_cons] at he he'
  refine ⟨fun _ => ⟨rfl, rfl⟩, w, rfl, rfl, ?_, ?_⟩
  · simp only [Cursor.past]
    omega
  · simp only [Cursor.past]
    omega

/-! ### Readings -/

/-- Readings that are twins, or both missing. -/
def TwinOption (look : Bool) (e e' : Nat) (z z' : Text) : Option Reading → Option Reading → Prop :=
  Option.Rel (TwinReading look e e' z z')

theorem TwinOption.or {o o' u u' : Option Reading} (h : TwinOption look e e' z z' o o')
    (hu : TwinOption look e e' z z' u u') : TwinOption look e e' z z' (o.or u) (o'.or u') := by
  cases h with
  | some h => exact .some h
  | none => exact hu

theorem TwinOption.ite {o o' : Option Reading} {P P' : Prop} [Decidable P] [Decidable P'] (hP : P ↔ P')
    (h : P → TwinOption look e e' z z' o o') :
    TwinOption look e e' z z' (if P then o else none) (if P' then o' else none) := by
  by_cases hp : P
  · rw [if_pos hp, if_pos (hP.1 hp)]
    exact h hp
  · rw [if_neg hp, if_neg fun hp' => hp (hP.2 hp')]
    exact .none

/-- No character of the class stands where the surroundings begin. -/
def NoneAhead (holds : Char → Bool) (z z' : Text) : Prop := z.head?.any holds = false ∧ z'.head?.any holds = false

/-- A class has the next character at both places, unless the surroundings begin there. -/
theorem Twin.any_head?_eq (h : Twin look e e' z z' k k') {holds : Char → Bool}
    (hz : z.head?.any holds = z'.head?.any holds ∨ k.after ≠ z) : k.after.head?.any holds = k'.after.head?.any holds := by
  obtain ⟨x, hk, hk', -, -⟩ := h.text
  rw [hk, hk']
  cases x with
  | nil => exact hz.resolve_right fun hne => hne hk
  | cons c x => rfl

/-- A pattern for one character other than those where the surroundings begin. -/
theorem best?_one_twin {holds : Char → Bool} {f f' : Cursor → Option Reading} (h : Twin look e e' z z' k k')
    (hf : ∀ d d', Twin look e e' z z' d d' → TwinOption look e e' z z' (f d) (f' d'))
    (hc : NoneAhead holds z z' ∨ k.after ≠ z) :
    TwinOption look e e' z z' ((one holds).best? f k) ((one holds).best? f' k') := by
  rw [best?_one, best?_one]
  refine .ite (by rw [h.any_head?_eq (hc.imp_left fun hc => hc.1.trans hc.2.symm)]) fun hhead => ?_
  obtain ⟨x, hk, hk', -, -⟩ := h.text
  cases x with
  | nil =>
    rcases hc with hc | hc
    · rw [hk, List.nil_append, hc.1] at hhead
      exact absurd hhead Bool.false_ne_true
    · exact absurd hk hc
  | cons d w =>
    have hpast := hf _ _ (h.past hk)
    unfold Cursor.next?
    rw [hk, hk']
    exact hpast

theorem best?_run_twin {greedy : Bool} {holds : Char → Bool} {f f' : Cursor → Option Reading}
    (hc : NoneAhead holds z z') (h : Twin look e e' z z' k k')
    (hf : ∀ d d', Twin look e e' z z' d d' → TwinOption look e e' z z' (f d) (f' d')) :
    TwinOption look e e' z z' ((run greedy holds).best? f k) ((run greedy holds).best? f' k') := by
  obtain ⟨x, hk, hk', -, -⟩ := h.text
  have hhere := hf k k' h
  induction x generalizing k k' with
  | nil =>
    -- where the surroundings begin, a run stops in both
    have hnone : k.after.head?.any holds = false := by rw [hk, List.nil_append, hc.1]
    have hnone' : k'.after.head?.any holds = false := by rw [hk', List.nil_append, hc.2]
    rw [best?_run, best?_run, hnone, hnone']
    cases greedy
    · exact hhere.or .none
    · exact hhere
  | cons d w ih =>
    have hpast := h.past hk
    have hmore : TwinOption look e e' z z'
        (if k.after.head?.any holds then k.next?.bind ((run greedy holds).best? f) else none)
        (if k'.after.head?.any holds then k'.next?.bind ((run greedy holds).best? f') else none) := by
      refine .ite (by rw [h.any_head?_eq (.inl (hc.1.trans hc.2.symm))]) fun _ => ?_
      unfold Cursor.next?
      rw [hk, hk']
      exact ih hpast rfl rfl (hf _ _ hpast)
    rw [best?_run, best?_run]
    cases greedy
    · exact hhere.or hmore
    · exact hmore.or hhere

theorem best?_star_twin {p : Pattern} {f f' : Cursor → Option Reading}
    (hp : ∀ {g g' : Cursor → Option Reading} {d d' : Cursor}, Twin look e e' z z' d d' →
      (∀ a a', Twin look e e' z z' a a' → TwinOption look e e' z z' (g a) (g' a')) →
      TwinOption look e e' z z' (p.best? g d) (p.best? g' d'))
    (h : Twin look e e' z z' k k') (hf : ∀ d d', Twin look e e' z z' d d' → TwinOption look e e' z z' (f d) (f' d')) :
    TwinOption look e e' z z' ((star p).best? f k) ((star p).best? f' k') := by
  -- each turn shortens what is left, by the same length in both surroundings
  induction hn : k.after.length using Nat.strongRecOn generalizing k k' with
  | ind n ih =>
    rw [best?_star, best?_star]
    refine TwinOption.or (hp h fun d d' hd => ?_) (hf k k' h)
    unfold onlyBehind
    exact .ite (h.length_lt_iff hd) fun hlt => ih _ (hn ▸ hlt) hd rfl

/-- The pattern reads no character that the text begins with. -/
def Pattern.Stops (p : Pattern) (z : Text) : Prop := ∀ c, z.head? = some c → p.avoids c = true

theorem Pattern.stops_nil (p : Pattern) : p.Stops [] := fun c hc => absurd hc.symm (Option.some_ne_none c)

theorem Pattern.stops_cons {p : Pattern} {c : Char} {t : Text} (h : p.avoids c = true) : p.Stops (c :: t) := by
  rintro d ⟨⟩
  exact h

theorem Pattern.Stops.mono {p q : Pattern} {z : Text} (h : p.Stops z)
    (hq : ∀ c, p.avoids c = true → q.avoids c = true) : q.Stops z := fun c hc => hq c (h c hc)

theorem any_head?_of_stops {z : Text} {holds : Char → Bool} (h : ∀ c, z.head? = some c → (!holds c) = true) :
    z.head?.any holds = false := by
  cases hc : z.head? with
  | none => rfl
  | some c => exact Bool.not_eq_true' _ ▸ h c hc

/-- A pattern that cannot read the characters where the surroundings begin takes the same reading in both. -/
theorem best?_twin {p : Pattern} (hz : look = true → SameAfter z z') (hlook : (look || p.isBlind) = true)
    (hp : p.Stops z) (hp' : p.Stops z') {f f' : Cursor → Option Reading} (h : Twin look e e' z z' k k')
    (hf : ∀ d d', Twin look e e' z z' d d' → TwinOption look e e' z z' (f d) (f' d')) :
    TwinOption look e e' z z' (p.best? f k) (p.best? f' k') := by
  have hparts {p q : Pattern} (h : (look || p.isBlind && q.isBlind) = true) :
      (look || p.isBlind) = true ∧ (look || q.isBlind) = true := by
    rwa [Bool.or_and_distrib_left, Bool.and_eq_true] at h
  induction p generalizing f f' k k' with
  | empty =>
    rw [best?_empty, best?_empty]
    exact hf k k' h
  | lineStart =>
    rw [best?_lineStart, best?_lineStart]
    refine .ite ?_ fun _ => hf k k' h
    unfold Cursor.atLineStart
    rw [(h.before ((Bool.or_false look).symm.trans hlook)).1]
  | wordEdge =>
    have hlook : look = true := (Bool.or_false look).symm.trans hlook
    rw [best?_wordEdge, best?_wordEdge]
    refine .ite ?_ fun _ => hf k k' h
    unfold Cursor.atWordEdge
    rw [(h.before hlook).2, h.any_head?_eq (.inl (hz hlook))]
  | mark i =>
    rw [best?_mark, best?_mark]
    have hk := hf k k' h
    generalize f k = o at hk
    generalize f' k' = o' at hk
    cases hk with
    | some hr => exact .some ⟨hr.stop, .cons ⟨rfl, h⟩ hr.marks⟩
    | none => exact .none
  | one holds => exact best?_one_twin h hf (.inl ⟨any_head?_of_stops hp, any_head?_of_stops hp'⟩)
  | run greedy holds => exact best?_run_twin ⟨any_head?_of_stops hp, any_head?_of_stops hp'⟩ h hf
  | seq p q ihp ihq =>
    rw [best?_seq, best?_seq]
    have hfirst (c : Char) (hc : (seq p q).avoids c = true) := (Bool.and_eq_true_iff.1 hc).1
    have hsecond (c : Char) (hc : (seq p q).avoids c = true) := (Bool.and_eq_true_iff.1 hc).2
    exact ihp (hparts hlook).1 (hp.mono hfirst) (hp'.mono hfirst) h fun d d' hd =>
      ihq (hparts hlook).2 (hp.mono hsecond) (hp'.mono hsecond) hd hf
  | alt p q ihp ihq =>
    rw [best?_alt, best?_alt]
    have hleft (c : Char) (hc : (alt p q).avoids c = true) := (Bool.and_eq_true_iff.1 hc).1
    have hright (c : Char) (hc : (alt p q).avoids c = true) := (Bool.and_eq_true_iff.1 hc).2
    exact (ihp (hparts hlook).1 (hp.mono hleft) (hp'.mono hleft) h hf).or
      (ihq (hparts hlook).2 (hp.mono hright) (hp'.mono hright) h hf)
  | star p ih => exact best?_star_twin (fun hd hg => ih hlook hp hp' hd hg) h hf

/-! ### Matches -/

variable {p : Pattern}

/-- The best readings, when nothing is to be read behind them. -/
theorem readings_twin (hz : look = true → SameAfter z z') (hlook : (look || p.isBlind) = true) (hp : p.Stops z)
    (hp' : p.Stops z') (h : Twin look e e' z z' k k') :
    TwinOption look e e' z z' (p.readings k).head? (p.readings k').head? := by
  rw [← best?_nothing, ← best?_nothing]
  exact best?_twin hz hlook hp hp' h fun _ _ hd => .some ⟨hd, .nil⟩

theorem pick_twin (hp : ∀ d d', Twin look e e' z z' d d' → d.after ≠ z →
      TwinOption look e e' z z' (p.readings d).head? (p.readings d').head?)
    {x : Text} (hk : k.after = x ++ z) (hk' : k'.after = x ++ z') (h : Twin look e e' z z' k k')
    {free free' : Nat} (hfree : free + e' = free' + e) (hle : free ≤ e) :
    ∃ ms ms' g g', List.Forall₂ (TwinMatch look e e' z z') ms ms' ∧ g ≤ e ∧ g' ≤ e' ∧
      Match.pick free (p.sweep k) = ms ++ Match.pick g (p.sweep (k.behind x z)) ∧
      Match.pick free' (p.sweep k') = ms' ++ Match.pick g' (p.sweep (k'.behind x z')) := by
  induction x generalizing k k' free free' with
  | nil =>
    rw [List.nil_append] at hk hk'
    refine ⟨[], [], free, free', .nil, hle, by omega, ?_, ?_⟩
    · rw [← hk]
      rfl
    · rw [← hk']
      rfl
  | cons d w ih =>
    have hne : k.after ≠ z := by
      intro heq
      have hlen := congrArg List.length (hk.symm.trans heq)
      simp only [List.cons_append, List.length_cons, List.length_append] at hlen
      omega
    have hhere := hp k k' h hne
    have hpast := h.past hk
    rw [List.cons_append] at hk hk'
    rw [sweep_cons p hk, sweep_cons p hk']
    generalize (p.readings k).head? = o at hhere
    generalize (p.readings k').head? = o' at hhere
    have hskip := @ih (k.past d (w ++ z)) (k'.past d (w ++ z')) rfl rfl hpast
    simp only [Cursor.past_behind] at hskip
    cases hhere with
    | none => exact hskip hfree hle
    | @some r r' hr =>
      rw [pick_some, pick_some]
      by_cases hlt : k.offset < free
      · rw [if_pos hlt, if_pos ((h.offset_lt_iff hfree).1 hlt)]
        exact hskip hfree hle
      · rw [if_neg hlt, if_neg fun hlt' => hlt ((h.offset_lt_iff hfree).2 hlt')]
        obtain ⟨w', -, -, he, he'⟩ := hr.stop.text
        obtain ⟨ms, ms', g, g', hms, hg, hg', hpick, hpick'⟩ :=
          @hskip r.stop.offset r'.stop.offset (by omega) (by omega)
        have hmatch : TwinMatch look e e' z z' (Match.ofReading k r) (Match.ofReading k' r') := ⟨h, hr.stop, hr.marks⟩
        refine ⟨_, _, g, g', .cons hmatch hms, hg, hg', ?_, ?_⟩
        · rw [hpick]
          rfl
        · rw [hpick']
          rfl

/-- The matches are the same in two surroundings, up to the place where these begin. -/
theorem findsFrom_twin (hp : ∀ d d', Twin look e e' z z' d d' → d.after ≠ z →
      TwinOption look e e' z z' (p.readings d).head? (p.readings d').head?)
    {x : Text} (hk : k.after = x ++ z) (hk' : k'.after = x ++ z') (h : Twin look e e' z z' k k') :
    ∃ ms ms', List.Forall₂ (TwinMatch look e e' z z') ms ms' ∧
      p.findsFrom k = ms ++ p.findsFrom (k.behind x z) ∧
      p.findsFrom k' = ms' ++ p.findsFrom (k'.behind x z') := by
  obtain ⟨w, hw, -, he, he'⟩ := h.text
  obtain rfl : x = w := List.append_cancel_right (hk.symm.trans hw)
  have hfree : k.offset + e' = k'.offset + e := by omega
  obtain ⟨ms, ms', g, g', hms, hg, hg', hpick, hpick'⟩ := pick_twin hp hk hk' h hfree (by omega)
  have hoffset : g ≤ (k.behind x z).offset := by
    rw [Cursor.offset_behind]
    omega
  have hoffset' : g' ≤ (k'.behind x z').offset := by
    rw [Cursor.offset_behind]
    omega
  rw [pick_sweep_eq_findsFrom hoffset] at hpick
  rw [pick_sweep_eq_findsFrom hoffset'] at hpick'
  exact ⟨ms, ms', hms, hpick, hpick'⟩

/-! ### Groups -/

variable {m m' : Match}

/-- A stretch between twins is the same text. -/
theorem text_span_twin {a a' d d' : Cursor} (ha : Twin look e e' z z' a a') (hd : Twin look e e' z z' d d') :
    Span.text ⟨a, d⟩ = Span.text ⟨a', d'⟩ := by
  obtain ⟨x, hx, hx', he, he'⟩ := ha.text
  obtain ⟨w, -, -, hw, hw'⟩ := hd.text
  unfold Span.text
  dsimp only
  rw [hx, hx', Text.slice_append_of_le z (by omega), Text.slice_append_of_le z' (by omega)]
  congr 1
  omega

theorem TwinMatch.lastMark? (h : TwinMatch look e e' z z' m m') (slot : Nat) :
    Option.Rel (Twin look e e' z z') (m.lastMark? slot) (m'.lastMark? slot) := by
  have hlookup : ∀ {xs ys : List (Nat × Cursor)},
      List.Forall₂ (fun i i' => i.1 = i'.1 ∧ Twin look e e' z z' i.2 i'.2) xs ys →
      Option.Rel (Twin look e e' z z') (xs.lookup slot) (ys.lookup slot) := by
    intro xs ys hxs
    induction hxs with
    | nil => exact .none
    | @cons i i' xs ys hi _ ih =>
      obtain ⟨n, d⟩ := i
      obtain ⟨n', d'⟩ := i'
      obtain ⟨rfl, hd⟩ : n = n' ∧ Twin look e e' z z' d d' := hi
      rw [List.lookup_cons, List.lookup_cons]
      split
      · exact .some hd
      · exact ih
  exact hlookup (List.forall₂_reverse_iff.2 h.marks)

/-- The stretches lie between twins. -/
structure TwinSpan (look : Bool) (e e' : Nat) (z z' : Text) (s s' : Span) : Prop where
  start : Twin look e e' z z' s.start s'.start
  stop : Twin look e e' z z' s.stop s'.stop

theorem TwinMatch.group? (h : TwinMatch look e e' z z' m m') (i : Nat) :
    Option.Rel (TwinSpan look e e' z z') (m.group? i) (m'.group? i) := by
  have hstart := h.lastMark? (2 * i)
  have hstop := h.lastMark? (2 * i + 1)
  unfold Match.group?
  generalize m.lastMark? (2 * i) = a at hstart
  generalize m'.lastMark? (2 * i) = a' at hstart
  generalize m.lastMark? (2 * i + 1) = d at hstop
  generalize m'.lastMark? (2 * i + 1) = d' at hstop
  cases hstart with
  | none => exact .none
  | some ha =>
    cases hstop with
    | none => exact .none
    | some hd => exact .some ⟨ha, hd⟩

theorem TwinSpan.text {s s' : Span} (h : TwinSpan look e e' z z' s s') : s.text = s'.text := text_span_twin h.start h.stop

/-- The groups have the same texts. -/
theorem TwinMatch.text_group? (h : TwinMatch look e e' z z' m m') (i : Nat) :
    (m.group? i).map Span.text = (m'.group? i).map Span.text := by
  have hgroup := h.group? i
  generalize m.group? i = o at hgroup
  generalize m'.group? i = o' at hgroup
  cases hgroup with
  | none => rfl
  | some hs => exact congrArg some hs.text

end Twins

/-! ### The same text elsewhere -/

/-- Two matches with the same texts. -/
structure Match.Alike (m m' : Match) : Prop where
  text : m.text = m'.text
  groups : ∀ i, m.groupText i = m'.groupText i

theorem TwinMatch.alike {look : Bool} {e e' : Nat} {z z' : Text} {m m' : Match} (h : TwinMatch look e e' z z' m m') :
    m.Alike m' := by
  refine ⟨text_span_twin h.start h.stop, fun i => ?_⟩
  have htext := congrArg (Option.getD · []) (h.text_group? i)
  have hgetD (o : Option Span) : (o.map Span.text).getD [] = o.elim [] Span.text := by cases o <;> rfl
  rwa [hgetD, hgetD] at htext

/-- Where the same text follows, and nothing else, the matches are the same. -/
theorem Twin.findsFrom {p : Pattern} (hp : p.consumes = true) {look : Bool} (hlook : (look || p.isBlind) = true)
    {e e' : Nat} {k k' : Cursor} (h : Twin look e e' [] [] k k') :
    List.Forall₂ (TwinMatch look e e' [] []) (p.findsFrom k) (p.findsFrom k') := by
  have hend (d : Cursor) (hd : d.after = []) : p.findsFrom d = [] :=
    findsFrom_nil hd (readings_eq_nil_of_head? hp (by rw [hd]; rfl))
  obtain ⟨x, hk, hk', -, -⟩ := h.text
  obtain ⟨ms, ms', hms, hfinds, hfinds'⟩ :=
    findsFrom_twin (fun _ _ hd _ => readings_twin (fun _ => rfl) hlook p.stops_nil p.stops_nil hd) hk hk' h
  rw [hend (k.behind x []) rfl, List.append_nil] at hfinds
  rw [hend (k'.behind x []) rfl, List.append_nil] at hfinds'
  rw [hfinds, hfinds']
  exact hms

end SnippetPreview
