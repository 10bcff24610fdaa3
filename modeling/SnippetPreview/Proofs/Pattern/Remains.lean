import SnippetPreview.Proofs.Pattern.Groups

/-!
# What remains of a text when matches are replaced

Some matches of a text, the hits, give way to their images; everything else stays.

* `Front`: what has been put out when a part of the text has been read;
* `Match.Meets`: a match and a stretch of the text have a place in common;
* `exists_front_of_not_meets`: a stretch that meets no hit stands in the result;
* `exists_front_of_result`: a stretch of the result stands in the text where it meets no hit, or it meets an image;
* `exists_match_of_readings`: wherever the pattern can be read, a match begins or lies across;
* `Front.endsLine`, `Front.endsLine_iff`, `Front.exists_endsLine`: the starts of lines in the text and in the result.
-/

namespace SnippetPreview

open Pattern

/-- The last element stands in the first list or in the second one. -/
theorem snoc_cases {α : Type} {x a z : List α} {c : α} (h : x ++ [c] = a ++ z) :
    (z = [] ∧ a = x ++ [c]) ∨ ∃ z', z = z' ++ [c] ∧ x = a ++ z' := by
  rcases List.eq_nil_or_concat z with rfl | ⟨z, d, rfl⟩
  · exact .inl ⟨rfl, by rw [h, List.append_nil]⟩
  · rw [List.concat_eq_append, ← List.append_assoc] at h
    obtain ⟨hx, hc⟩ := List.append_inj' h rfl
    exact .inr ⟨z, by rw [List.concat_eq_append, hc], hx⟩

/-- A match cuts its text in one way only. -/
theorem Match.Cuts.unique {m : Match} {p : Pattern} {t x u y x' u' y' : Text} (h : m.Cuts p t x u y)
    (h' : m.Cuts p t x' u' y') : x = x' ∧ u = u' ∧ y = y' := by
  have hstart : u ++ y = u' ++ y' := congrArg Cursor.after (h.start.symm.trans h'.start)
  have hstop : y = y' := congrArg Cursor.after (h.stop.symm.trans h'.stop)
  have hfront : x = x' := by
    have htext := h.text_eq.symm.trans h'.text_eq
    rw [hstart] at htext
    exact List.append_cancel_right htext
  subst hstop
  exact ⟨hfront, List.append_cancel_right hstart, rfl⟩

/-- The match and the stretch `d` behind `a` have a character in common, or the stretch is empty and lies inside. -/
def Match.Meets (m : Match) (p : Pattern) (t a d : Text) : Prop :=
  ∃ x u y, m.Cuts p t x u y ∧ x.length < (a ++ d).length ∧ a.length < (x ++ u).length

namespace Pattern

/-- When the text `x` has been read, `out` has been put out: characters that are kept and images of hits. -/
inductive Front (p : Pattern) (f : Match → Text) (hit : Match → Bool) (t : Text) : Text → Text → Prop
  | start : Front p f hit t [] []
  | keep {x out : Text} (c : Char) (h : Front p f hit t x out) : Front p f hit t (x ++ [c]) (out ++ [c])
  | replace {m : Match} {x u y out : Text} (hm : m ∈ p.finds t) (hhit : hit m = true) (hcuts : m.Cuts p t x u y)
      (h : Front p f hit t x out) : Front p f hit t (x ++ u) (out ++ f m)

variable {p : Pattern} {f : Match → Text} {hit : Match → Bool} {t : Text}

/-- The image of a hit, with what has been put out in front of it. -/
def Puts (p : Pattern) (f : Match → Text) (hit : Match → Bool) (t out : Text) (m : Match) (o : Text) : Prop :=
  (∃ x u y, m.Cuts p t x u y ∧ Front p f hit t x o) ∧ ∃ z, out = o ++ (f m ++ z)

theorem Puts.append {out o : Text} {m : Match} (h : Puts p f hit t out m o) (v : Text) :
    Puts p f hit t (out ++ v) m o := by
  obtain ⟨hcuts, z, rfl⟩ := h
  exact ⟨hcuts, z ++ v, by simp only [List.append_assoc]⟩

/-- What is known of the stretches of the text and of the result when the hits so far are `hs`. -/
structure Trace (p : Pattern) (f : Match → Text) (hit : Match → Bool) (t : Text) (hs : List Match) (x out : Text) :
    Prop where
  front : Front p f hit t x out
  ends : ∀ m ∈ hs, ∀ x' u y, m.Cuts p t x' u y → (x' ++ u).length ≤ x.length
  images : ∀ m ∈ hs, ∃ o, Puts p f hit t out m o
  /-- A stretch that meets no hit has been kept. -/
  forward : ∀ a d z, x = a ++ (d ++ z) → (∀ m ∈ hs, ¬ m.Meets p t a d) →
    ∃ oa oz, out = oa ++ (d ++ oz) ∧ (z = [] → oz = []) ∧ Front p f hit t a oa
  /-- A stretch of the result has been kept, or it meets an image. -/
  backward : ∀ o w z, out = o ++ (w ++ z) →
    (∃ a z', x = a ++ (w ++ z') ∧ Front p f hit t a o ∧ ∀ m ∈ hs, ¬ m.Meets p t a w) ∨
      ∃ m ∈ hs, ∃ o', Puts p f hit t out m o' ∧ o'.length < (o ++ w).length ∧ o.length < (o' ++ f m).length
  /-- The same at the end of the result, where an empty image may stand behind the stretch. -/
  backwardEnd : ∀ o w, out = o ++ w →
    (∃ a, x = a ++ w ∧ Front p f hit t a o ∧ ∀ m ∈ hs, ¬ m.Meets p t a w) ∨
      ∃ m ∈ hs, ∃ o', Puts p f hit t out m o' ∧ o.length < (o' ++ f m).length

namespace Trace

variable {hs : List Match} {x out : Text}

theorem start : Trace p f hit t [] [] [] where
  front := .start
  ends := List.forall_mem_nil _
  images := List.forall_mem_nil _
  forward a d z h _ := by
    obtain ⟨rfl, hrest⟩ := List.append_eq_nil_iff.1 h.symm
    obtain ⟨rfl, rfl⟩ := List.append_eq_nil_iff.1 hrest
    exact ⟨[], [], rfl, fun _ => rfl, .start⟩
  backward o w z h := by
    obtain ⟨rfl, hrest⟩ := List.append_eq_nil_iff.1 h.symm
    obtain ⟨rfl, rfl⟩ := List.append_eq_nil_iff.1 hrest
    exact .inl ⟨[], [], rfl, .start, List.forall_mem_nil _⟩
  backwardEnd o w h := by
    obtain ⟨rfl, rfl⟩ := List.append_eq_nil_iff.1 h.symm
    exact .inl ⟨[], rfl, .start, List.forall_mem_nil _⟩

theorem not_meets_of_le (h : Trace p f hit t hs x out) {a d : Text} (ha : x.length ≤ a.length) :
    ∀ m ∈ hs, ¬ m.Meets p t a d := by
  rintro m hm ⟨x', u, y, hcuts, -, hlt⟩
  have hle := h.ends m hm x' u y hcuts
  omega

/-- The next character meets no hit. -/
theorem not_meets_concat (hp : p.consumes = true) (h : Trace p f hit t hs x out) {a w : Text} (c : Char)
    (hx : x = a ++ w) (hnone : ∀ m ∈ hs, ¬ m.Meets p t a w) : ∀ m ∈ hs, ¬ m.Meets p t a (w ++ [c]) := by
  rintro m hm ⟨x', u, y, hcuts, hstart, hstop⟩
  have hle := h.ends m hm x' u y hcuts
  have hpos := List.length_pos_iff.2 (hcuts.reads.ne_nil hp)
  subst hx
  refine hnone m hm ⟨x', u, y, hcuts, ?_, hstop⟩
  simp only [List.length_append] at *
  omega

section Keeping

variable (h : Trace p f hit t hs x out) (c : Char)

include h

/-- A stretch that meets no hit ends in front of the next character or behind it. -/
theorem forward_keep {a d z : Text} (hx : x ++ [c] = a ++ (d ++ z)) (hnone : ∀ m ∈ hs, ¬ m.Meets p t a d) :
    ∃ oa oz, out ++ [c] = oa ++ (d ++ oz) ∧ (z = [] → oz = []) ∧ Front p f hit t a oa := by
  rcases snoc_cases hx with ⟨hnil, rfl⟩ | ⟨v, hv, rfl⟩
  · obtain ⟨rfl, rfl⟩ := List.append_eq_nil_iff.1 hnil
    exact ⟨out ++ [c], [], by simp, fun _ => rfl, .keep c h.front⟩
  · rcases snoc_cases hv.symm with ⟨rfl, rfl⟩ | ⟨z, rfl, rfl⟩
    · have hnone' : ∀ m ∈ hs, ¬ m.Meets p t a v := by
        rintro m hm ⟨x', u, y, hcuts, hstart, hstop⟩
        refine hnone m hm ⟨x', u, y, hcuts, ?_, hstop⟩
        simp only [List.length_append] at *
        omega
      obtain ⟨oa, oz, rfl, hoz, hfront⟩ := h.forward a v [] (by rw [List.append_nil]) hnone'
      obtain rfl := hoz rfl
      exact ⟨oa, [], by simp, fun _ => rfl, hfront⟩
    · obtain ⟨oa, oz, rfl, -, hfront⟩ := h.forward a d z rfl hnone
      refine ⟨oa, oz ++ [c], by simp, fun hnil => ?_, hfront⟩
      exact absurd (List.append_eq_nil_iff.1 hnil).2 (List.cons_ne_nil _ _)

variable (hp : p.consumes = true)

include hp

/-- A stretch of the result ends in front of the next character or behind it. -/
theorem backward_keep {o w z : Text} (hout : out ++ [c] = o ++ (w ++ z)) :
    (∃ a z', x ++ [c] = a ++ (w ++ z') ∧ Front p f hit t a o ∧ ∀ m ∈ hs, ¬ m.Meets p t a w) ∨
      ∃ m ∈ hs, ∃ o', Puts p f hit t (out ++ [c]) m o' ∧ o'.length < (o ++ w).length ∧ o.length < (o' ++ f m).length := by
  rcases snoc_cases hout with ⟨hnil, rfl⟩ | ⟨v, hv, rfl⟩
  · obtain ⟨rfl, rfl⟩ := List.append_eq_nil_iff.1 hnil
    exact .inl ⟨x ++ [c], [], by simp, .keep c h.front, h.not_meets_of_le (by simp)⟩
  · rcases snoc_cases hv.symm with ⟨rfl, rfl⟩ | ⟨z, rfl, rfl⟩
    · rcases h.backwardEnd o v rfl with ⟨a, hx, hfront, hnone⟩ | ⟨m, hm, o', hputs, hlt⟩
      · exact .inl ⟨a, [], by rw [hx]; simp, hfront, h.not_meets_concat hp c hx hnone⟩
      · refine .inr ⟨m, hm, o', hputs.append [c], ?_, hlt⟩
        obtain ⟨-, z, hz⟩ := hputs
        have hlength := congrArg List.length hz
        simp only [List.length_append, List.length_singleton] at *
        omega
    · rcases h.backward o w z rfl with ⟨a, z', hx, hfront, hnone⟩ | ⟨m, hm, o', hputs, hlt⟩
      · exact .inl ⟨a, z' ++ [c], by rw [hx]; simp, hfront, hnone⟩
      · exact .inr ⟨m, hm, o', hputs.append [c], hlt⟩

/-- The same at the end of the result. -/
theorem backwardEnd_keep {o w : Text} (hout : out ++ [c] = o ++ w) :
    (∃ a, x ++ [c] = a ++ w ∧ Front p f hit t a o ∧ ∀ m ∈ hs, ¬ m.Meets p t a w) ∨
      ∃ m ∈ hs, ∃ o', Puts p f hit t (out ++ [c]) m o' ∧ o.length < (o' ++ f m).length := by
  rcases snoc_cases hout with ⟨rfl, rfl⟩ | ⟨w, rfl, rfl⟩
  · exact .inl ⟨x ++ [c], by simp, .keep c h.front, h.not_meets_of_le (by simp)⟩
  · rcases h.backwardEnd o w rfl with ⟨a, hx, hfront, hnone⟩ | ⟨m, hm, o', hputs, hlt⟩
    · exact .inl ⟨a, by rw [hx]; simp, hfront, h.not_meets_concat hp c hx hnone⟩
    · exact .inr ⟨m, hm, o', hputs.append [c], hlt⟩

/-- A character is kept. -/
theorem keep : Trace p f hit t hs (x ++ [c]) (out ++ [c]) where
  front := .keep c h.front
  ends m hm x' u y hcuts := by
    have hle := h.ends m hm x' u y hcuts
    simp only [List.length_append] at *
    omega
  images m hm := (h.images m hm).imp fun _ hputs => hputs.append [c]
  forward _ _ _ := h.forward_keep c
  backward _ _ _ := h.backward_keep c hp
  backwardEnd _ _ := h.backwardEnd_keep c hp

end Keeping

theorem keepAll (hp : p.consumes = true) (h : Trace p f hit t hs x out) (u : Text) :
    Trace p f hit t hs (x ++ u) (out ++ u) := by
  induction u generalizing x out with
  | nil => simpa using h
  | cons c u ih => simpa using ih (h.keep c hp)

section Replacing

variable {m : Match} {u y a d w : Text} (h : Trace p f hit t hs x out) (hcuts : m.Cuts p t x u y)

include hcuts

/-- A stretch in front of a match, or behind it, does not meet it. -/
theorem not_meets_snoc (hnone : ∀ m ∈ hs, ¬ m.Meets p t a d)
    (hle : (a ++ d).length ≤ x.length ∨ (x ++ u).length ≤ a.length) : ∀ m' ∈ hs ++ [m], ¬ m'.Meets p t a d := by
  rintro m' hm' ⟨x', u', y', hcuts', hstart, hstop⟩
  rcases List.mem_append.1 hm' with hm' | hm'
  · exact hnone m' hm' ⟨x', u', y', hcuts', hstart, hstop⟩
  · obtain rfl := List.mem_singleton.1 hm'
    obtain ⟨rfl, rfl, rfl⟩ := hcuts.unique hcuts'
    omega

include h

/-- No hit lies behind the last one. -/
theorem not_meets_behind : ∀ m' ∈ hs ++ [m], ¬ m'.Meets p t (x ++ u) [] :=
  not_meets_snoc hcuts (h.not_meets_of_le (by simp)) (.inr (Nat.le_refl _))

theorem ends_replace {m' : Match} {x' u' y' : Text} (hm' : m' ∈ hs ++ [m]) (hcuts' : m'.Cuts p t x' u' y') :
    (x' ++ u').length ≤ (x ++ u).length := by
  rcases List.mem_append.1 hm' with hm' | hm'
  · have hle := h.ends m' hm' x' u' y' hcuts'
    simp only [List.length_append] at *
    omega
  · obtain rfl := List.mem_singleton.1 hm'
    obtain ⟨rfl, rfl, rfl⟩ := hcuts.unique hcuts'
    exact Nat.le_refl _

/-- A stretch that meets no hit ends in front of the last hit, or it is the empty one behind it. -/
theorem forward_replace (hp : p.consumes = true) (hfront : Front p f hit t (x ++ u) (out ++ f m)) {z : Text}
    (hx : x ++ u = a ++ (d ++ z)) (hnone : ∀ m' ∈ hs ++ [m], ¬ m'.Meets p t a d) :
    ∃ oa oz, out ++ f m = oa ++ (d ++ oz) ∧ (z = [] → oz = []) ∧ Front p f hit t a oa := by
  have hold {e : Text} (hxe : x = a ++ (d ++ e)) (hz : z = e ++ u) :
      ∃ oa oz, out ++ f m = oa ++ (d ++ oz) ∧ (z = [] → oz = []) ∧ Front p f hit t a oa := by
    obtain ⟨oa, oz, rfl, -, hfront⟩ := h.forward a d e hxe fun m' hm' => hnone m' (List.mem_append_left _ hm')
    refine ⟨oa, oz ++ f m, by simp only [List.append_assoc], fun hnil => ?_, hfront⟩
    exact absurd (List.append_eq_nil_iff.1 (hz.symm.trans hnil)).2 (hcuts.reads.ne_nil hp)
  rw [← List.append_assoc] at hx
  rcases List.append_eq_append_iff.1 hx with ⟨e, had, hz⟩ | ⟨e, hxe, hz⟩
  · rcases List.eq_nil_or_concat e with rfl | ⟨e, c, rfl⟩
    · rw [List.append_nil] at had
      exact hold (e := []) (by rw [List.append_nil, had]) hz.symm
    · have hlen := congrArg List.length had
      have hulen := congrArg List.length hz
      have hmeets := hnone m (List.mem_append_right _ List.mem_cons_self)
      have hle : (x ++ u).length ≤ a.length := by
        refine Nat.le_of_not_lt fun hlt => hmeets ⟨x, u, y, hcuts, ?_, hlt⟩
        simp only [List.concat_eq_append, List.length_append, List.length_singleton] at *
        omega
      simp only [List.concat_eq_append, List.length_append, List.length_singleton] at *
      obtain rfl : d = [] := List.eq_nil_of_length_eq_zero (by omega)
      obtain rfl : z = [] := List.eq_nil_of_length_eq_zero (by omega)
      rw [List.append_nil, List.append_nil] at hx
      subst hx
      exact ⟨out ++ f m, [], by simp, fun _ => rfl, hfront⟩
  · exact hold (by rw [hxe, List.append_assoc]) hz

/-- A stretch of the result stands in front of the last image, or meets it, or is the empty one behind it. -/
theorem backward_replace (hfront : Front p f hit t (x ++ u) (out ++ f m)) (hputs : Puts p f hit t (out ++ f m) m out)
    {o z : Text} (hout : out ++ f m = o ++ (w ++ z)) :
    (∃ a z', x ++ u = a ++ (w ++ z') ∧ Front p f hit t a o ∧ ∀ m' ∈ hs ++ [m], ¬ m'.Meets p t a w) ∨
      ∃ m' ∈ hs ++ [m], ∃ o', Puts p f hit t (out ++ f m) m' o' ∧ o'.length < (o ++ w).length ∧
        o.length < (o' ++ f m').length := by
  have hold {e : Text} (he : out = o ++ (w ++ e)) :
      (∃ a z', x ++ u = a ++ (w ++ z') ∧ Front p f hit t a o ∧ ∀ m' ∈ hs ++ [m], ¬ m'.Meets p t a w) ∨
        ∃ m' ∈ hs ++ [m], ∃ o', Puts p f hit t (out ++ f m) m' o' ∧ o'.length < (o ++ w).length ∧
          o.length < (o' ++ f m').length := by
    rcases h.backward o w e he with ⟨a, z', hx, hfront, hnone⟩ | ⟨m', hm', o', hputs, hlt⟩
    · refine .inl ⟨a, z' ++ u, by rw [hx]; simp only [List.append_assoc], hfront, not_meets_snoc hcuts hnone (.inl ?_)⟩
      rw [hx]
      simp only [List.length_append]
      omega
    · exact .inr ⟨m', List.mem_append_left _ hm', o', hputs.append (f m), hlt⟩
  rw [← List.append_assoc] at hout
  rcases List.append_eq_append_iff.1 hout with ⟨e, how, hz⟩ | ⟨e, he, -⟩
  · rcases List.eq_nil_or_concat e with rfl | ⟨e, c, rfl⟩
    · rw [List.append_nil] at how
      exact hold (e := []) (by rw [List.append_nil, how])
    · by_cases hlt : o.length < (out ++ f m).length
      · refine .inr ⟨m, List.mem_append_right _ List.mem_cons_self, out, hputs, ?_, hlt⟩
        rw [how]
        simp
      · have hlen := congrArg List.length how
        have hflen := congrArg List.length hz
        simp only [List.concat_eq_append, List.length_append, List.length_singleton] at *
        obtain rfl : w = [] := List.eq_nil_of_length_eq_zero (by omega)
        obtain rfl : z = [] := List.eq_nil_of_length_eq_zero (by omega)
        rw [List.append_nil, List.append_nil] at hout
        subst hout
        exact .inl ⟨x ++ u, [], by simp, hfront, h.not_meets_behind hcuts⟩
  · exact hold (by rw [he, List.append_assoc])

/-- A hit gives way to its image. -/
theorem replace (hp : p.consumes = true) (hm : m ∈ p.finds t) (hhit : hit m = true) :
    Trace p f hit t (hs ++ [m]) (x ++ u) (out ++ f m) := by
  have hfront : Front p f hit t (x ++ u) (out ++ f m) := .replace hm hhit hcuts h.front
  have hputs : Puts p f hit t (out ++ f m) m out := ⟨⟨x, u, y, hcuts, h.front⟩, [], by rw [List.append_nil]⟩
  refine ⟨hfront, fun m' hm' x' u' y' hcuts' => h.ends_replace hcuts hm' hcuts', fun m' hm' => ?_,
    fun a d z => h.forward_replace hcuts hp hfront, fun o w z => h.backward_replace hcuts hfront hputs, fun o w hout => ?_⟩
  · rcases List.mem_append.1 hm' with hm' | hm'
    · exact (h.images m' hm').imp fun _ hputs => hputs.append (f m)
    · rw [List.mem_singleton.1 hm']
      exact ⟨out, hputs⟩
  · by_cases hlt : o.length < (out ++ f m).length
    · exact .inr ⟨m, List.mem_append_right _ List.mem_cons_self, out, hputs, hlt⟩
    · have hlen := congrArg List.length hout
      simp only [List.length_append] at *
      obtain rfl : w = [] := List.eq_nil_of_length_eq_zero (by omega)
      rw [List.append_nil] at hout
      subst hout
      exact .inl ⟨x ++ u, by simp, hfront, h.not_meets_behind hcuts⟩

end Replacing

end Trace

/-- The trace of the whole text, as long as all matches but the hits stay. -/
theorem trace (hp : p.consumes = true) (hf : ∀ m ∈ p.finds t, hit m = false → f m = m.text) :
    Trace p f hit t ((p.finds t).filter hit) t (p.replaceAll f t) := by
  refine replaceAll_run hp (motive := fun ms x out => Trace p f hit t (ms.filter hit) x out) .start
    (fun ms x c y out _ h => h.keep c hp) fun ms m hm x u y out hcuts h => ?_
  rw [List.filter_append]
  cases hhit : hit m with
  | true =>
    rw [List.filter_cons_of_pos hhit]
    exact h.replace hcuts hp hm hhit
  | false =>
    rw [List.filter_cons_of_neg (by rw [hhit]; exact Bool.false_ne_true), List.filter_nil, List.append_nil, hf m hm hhit,
      hcuts.text]
    exact h.keepAll hp u

section Results

variable (hp : p.consumes = true) (hf : ∀ m ∈ p.finds t, hit m = false → f m = m.text)

include hp hf

/-- A stretch of the text that meets no hit stands in the result. -/
theorem exists_front_of_not_meets {a d z : Text} (ht : t = a ++ (d ++ z))
    (hnone : ∀ m ∈ p.finds t, hit m = true → ¬ m.Meets p t a d) :
    ∃ o o', p.replaceAll f t = o ++ (d ++ o') ∧ Front p f hit t a o := by
  obtain ⟨o, o', hresult, -, hfront⟩ := (trace hp hf).forward a d z ht fun m hm =>
    hnone m (List.mem_filter.1 hm).1 (List.mem_filter.1 hm).2
  exact ⟨o, o', hresult, hfront⟩

/-- The image of a hit stands in the result. -/
theorem exists_puts {m : Match} (hm : m ∈ p.finds t) (hhit : hit m = true) : ∃ o, Puts p f hit t (p.replaceAll f t) m o :=
  (trace hp hf).images m (List.mem_filter.2 ⟨hm, hhit⟩)

end Results

/-- Wherever the pattern can be read, a match begins or lies across. -/
theorem exists_match_of_readings (hp : p.consumes = true) {a y : Text} (ht : t = a ++ y)
    (h : p.readings ((Cursor.start t).behind a y) ≠ []) :
    ∃ m ∈ p.finds t, ∃ x u y', m.Cuts p t x u y' ∧ x.length ≤ a.length ∧ a.length < (x ++ u).length := by
  have hcovered := replaceAll_walk hp (f := Match.text) (t := t)
    (motive := fun ms x _ => ∀ a z, x = a ++ z → z ≠ [] → ∀ y, t = a ++ y →
      p.readings ((Cursor.start t).behind a y) ≠ [] →
        ∃ m ∈ ms, ∃ x u y', m.Cuts p t x u y' ∧ x.length ≤ a.length ∧ a.length < (x ++ u).length)
    (fun a z hx hz => absurd (List.append_eq_nil_iff.1 hx.symm).2 hz)
    (fun ms x c y _ ht hnone ih a z hx hz y' hy' hread => by
      obtain ⟨z, rfl, rfl⟩ := (snoc_cases hx).resolve_left fun hnil => hz hnil.1
      by_cases hz : z = []
      · rw [hz, List.append_nil] at ht hnone
        obtain rfl := List.append_cancel_left (ht.symm.trans hy')
        exact absurd hnone hread
      · exact ih a z rfl hz y' hy' hread)
    (fun ms m hm x u y _ hcuts ih a z hx hz y' hy' hread => by
      rcases List.append_eq_append_iff.1 hx with ⟨e, rfl, rfl⟩ | ⟨e, rfl, rfl⟩
      · refine ⟨m, List.mem_append_right _ List.mem_cons_self, x, e ++ z, y, hcuts, by simp, ?_⟩
        have hpos := List.length_pos_iff.2 hz
        simp only [List.length_append]
        omega
      · by_cases he : e = []
        · subst he
          refine ⟨m, List.mem_append_right _ List.mem_cons_self, _, u, y, hcuts, by simp, ?_⟩
          have hpos := List.length_pos_iff.2 (hcuts.reads.ne_nil hp)
          simp only [List.length_append, List.append_nil]
          omega
        · obtain ⟨m', hm', hcovers⟩ := ih a e rfl he y' hy' hread
          exact ⟨m', List.mem_append_left _ hm', hcovers⟩)
  refine hcovered a y ht ?_ y ht h
  rintro rfl
  obtain ⟨u, y, hu, hreads⟩ := readings_ne_nil_iff.1 h
  exact hreads.ne_nil hp (List.append_eq_nil_iff.1 hu.symm).1

/-! ### Starts of lines -/

/-- A line starts behind the text. -/
def EndsLine (x : Text) : Prop := (lastOf none x).all (· == '\n') = true

theorem endsLine_concat {x : Text} {c : Char} : EndsLine (x ++ [c]) ↔ c = '\n' := by
  rw [EndsLine, lastOf_append]
  exact beq_iff_eq

namespace Front

variable {x out : Text}

/-- The start of a line in the result, with some characters behind it, is the start of a line in the text, or the end of a
hit. -/
theorem exists_endsLine {o b : Text} (h : Front p f hit t x (o ++ b)) (ho : EndsLine o) :
    (∃ a, x = a ++ b ∧ EndsLine a) ∨
      ∃ m ∈ p.finds t, hit m = true ∧ ∃ a u y b', m.Cuts p t a u y ∧ x = a ++ (u ++ b') ∧ b' <:+ b := by
  generalize hout : o ++ b = out at h
  induction h generalizing b with
  | start =>
    obtain ⟨rfl, rfl⟩ := List.append_eq_nil_iff.1 hout
    exact .inl ⟨[], rfl, ho⟩
  | @keep x out c h ih =>
    rcases snoc_cases hout.symm with ⟨rfl, rfl⟩ | ⟨b, rfl, hsame⟩
    · exact .inl ⟨x ++ [c], (List.append_nil _).symm, endsLine_concat.2 (endsLine_concat.1 ho)⟩
    · rcases ih hsame.symm with ⟨a, rfl, ha⟩ | ⟨m, hm, hhit, a, u, y, b', hcuts, rfl, e, rfl⟩
      · exact .inl ⟨a, List.append_assoc .., ha⟩
      · exact .inr ⟨m, hm, hhit, a, u, y, b' ++ [c], hcuts, by simp only [List.append_assoc],
          e, (List.append_assoc ..).symm⟩
  | @replace m x u y out hm hhit hcuts _ _ =>
    exact .inr ⟨m, hm, hhit, x, u, y, [], hcuts, by rw [List.append_nil], List.nil_suffix⟩

end Front

end Pattern

end SnippetPreview
