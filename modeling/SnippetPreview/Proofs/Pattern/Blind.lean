import SnippetPreview.Proofs.Pattern.Groups
import SnippetPreview.Proofs.Pattern.Leads

/-!
# Patterns that do not look around

A blind pattern asks neither for the start of a line nor for the edge of a word. Where its matches are replaced by images
that depend on texts only, the result is a function of the text alone.

* `replacedFrom_eq_replaceAll`: what becomes of a text is the same wherever it stands;
* `replaceAll_cases`: so the text loses a character or a match, and the rest is replaced by itself;
* `replaceAll_append_cons`: at a character that is never read, a text is replaced in two parts;
* `countP_replaceAll`: a character that every match holds and no image does is lost with each match.
-/

namespace SnippetPreview.Pattern

variable {p : Pattern} {f : Match → Text}

/-! ### Texts by themselves -/

theorem replaceAll_nil (hp : p.consumes = true) : p.replaceAll f [] = [] :=
  replacedFrom_nil rfl (readings_eq_nil_of_head? hp rfl)

section Alone

variable (hp : p.consumes = true) (hblind : p.isBlind = true) (hf : ∀ m m', m.Alike m' → f m = f m')

include hp hblind hf

/-- What becomes of a text does not depend on where it stands. -/
theorem replacedFrom_eq_replaceAll (k : Cursor) : p.replacedFrom f k = p.replaceAll f k.after := by
  have htwin : Twin false (k.offset + Text.byteSize k.after) (0 + Text.byteSize k.after) [] [] k (.start k.after) :=
    ⟨fun h => absurd h Bool.false_ne_true, k.after, (List.append_nil _).symm, (List.append_nil _).symm, rfl, rfl⟩
  have hlook : (false || p.isBlind) = true := hblind
  exact replacedFrom_of_twin hf hp hlook htwin

/-- A text ends, keeps its first character or loses a match, and what follows is replaced by itself. -/
theorem replaceAll_cases (t : Text) :
    (t = [] ∧ p.replaceAll f t = []) ∨
    (∃ c r, t = c :: r ∧ p.replaceAll f t = c :: p.replaceAll f r) ∨
    ∃ m ∈ p.finds t, ∃ u y, m.Cuts p t [] u y ∧ p.replaceAll f t = f m ++ p.replaceAll f y := by
  have hbehind (k : Cursor) := replacedFrom_eq_replaceAll hp hblind hf k
  rw [replaceAll_eq_replacedFrom]
  rcases replacedFrom_cases hp f (.start t) with hend | ⟨c, r, ht, -, -, hkeep⟩ |
    ⟨r, u, y, hu, ht, hfirst, hstop, hfinds, hput⟩
  · exact .inl hend
  · exact .inr (.inl ⟨c, r, ht, by rw [hkeep, hbehind]; rfl⟩)
  · have hm : Match.ofReading (.start t) r ∈ p.finds t := by
      rw [finds_eq_findsFrom, hfinds]
      exact List.mem_cons_self
    obtain rfl : t = u ++ y := ht
    have hcuts := cuts_ofReading (p := p) (t := u ++ y) (x := []) rfl (List.mem_of_mem_head? hfirst) hstop
    exact .inr (.inr ⟨_, hm, u, y, hcuts, by rw [hput, hbehind]; rfl⟩)

/-- At a character that the pattern never reads, a text is replaced in two parts. -/
theorem replaceAll_append_cons {c : Char} (hc : p.avoids c = true) (w r : Text) :
    p.replaceAll f (w ++ c :: r) = p.replaceAll f w ++ c :: p.replaceAll f r := by
  have htwin : Twin false (0 + Text.byteSize w) (0 + Text.byteSize w) (c :: r) [] (.start (w ++ c :: r)) (.start w) :=
    ⟨fun h => absurd h Bool.false_ne_true, w, rfl, (List.append_nil w).symm, rfl, rfl⟩
  obtain ⟨out, hout, hout'⟩ := exists_replacedFrom_twin hf
    (fun _ _ hd _ => readings_twin (fun h => absurd h Bool.false_ne_true) hblind (stops_cons hc) p.stops_nil hd)
    rfl (List.append_nil w).symm htwin
  have hnone : p.readings ((Cursor.start (w ++ c :: r)).behind w (c :: r)) = [] := by
    refine readings_eq_nil_iff.2 fun u y hu hreads => ?_
    obtain ⟨d, v, rfl⟩ := List.exists_cons_of_ne_nil (hreads.ne_nil hp)
    obtain ⟨rfl, -⟩ := List.cons.inj hu
    exact hreads.not_mem_of_avoids hc List.mem_cons_self
  have hrest : p.replacedFrom f ((Cursor.start (w ++ c :: r)).behind w (c :: r)) = c :: p.replaceAll f r := by
    rw [replacedFrom_skip rfl hnone, replacedFrom_eq_replaceAll hp hblind hf]
    rfl
  have hend : p.replacedFrom f ((Cursor.start w).behind w []) = [] := by
    rw [replacedFrom_eq_replaceAll hp hblind hf, Cursor.after_behind, replaceAll_nil hp]
  rw [hend, List.append_nil] at hout'
  rw [replaceAll_eq_replacedFrom, hout, hrest, ← hout']
  rfl

end Alone

/-! ### Counting -/

/-- With each match, a character is lost that every match holds and no image does. -/
theorem countP_replaceAll (hp : p.consumes = true) {S : Char → Bool} (hneeds : p.Needs S) {t : Text}
    (himage : ∀ m ∈ p.finds t, ∀ c ∈ f m, S c = false) :
    (p.replaceAll f t).countP S + (p.finds t).length ≤ t.countP S := by
  refine replaceAll_run hp (motive := fun ms x out => out.countP S + ms.length ≤ x.countP S) (Nat.le_refl 0)
    (fun ms x c y out _ h => ?_) fun ms m hm x u y out hcuts h => ?_
  · rw [List.countP_append, List.countP_append]
    omega
  · obtain ⟨c, hc, hS⟩ := hcuts.reads.exists_mem hneeds
    have hpos : 0 < u.countP S := List.countP_pos_iff.2 ⟨c, hc, hS⟩
    have hzero : (f m).countP S = 0 := List.countP_eq_zero.2 fun d hd => by
      rw [himage m hm d hd]
      exact Bool.false_ne_true
    rw [List.countP_append, List.countP_append, List.length_append, List.length_singleton]
    omega

/-- So a text that keeps them all has no match. -/
theorem isMatch_eq_false_of_countP {S : Char → Bool} {t : Text}
    (h : (p.replaceAll f t).countP S + (p.finds t).length ≤ t.countP S)
    (hle : t.countP S ≤ (p.replaceAll f t).countP S) : p.isMatch t = false := by
  have hnil : p.finds t = [] := List.eq_nil_of_length_eq_zero (by omega)
  rw [isMatch, find?, hnil]
  rfl

end SnippetPreview.Pattern
