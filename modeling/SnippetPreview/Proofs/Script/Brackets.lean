import SnippetPreview.Script.Brackets

/-!
# The language of balanced brackets

* `IsNest`: a text whose brackets nest properly, whatever stands between them;
* `Awaits`: what a text has opened and not closed yet: nests, with a bracket that waits for its partner between each and
  the next;
* `HasFault`: a bracket without a partner, or with one of another kind;
* `Awaits.isNest_or_hasFault`: what follows makes a nest of such a text if it closes all that is open, and else shows a
  fault;
* `isBalanced_language`: the balanced texts are the nests, and every other text has a fault.
-/

namespace SnippetPreview.Script

/-! ### Nests -/

theorem isCloser_of_closer? {c d : Char} (h : closer? c = some d) : isCloser d = true := by
  unfold closer? at h
  split at h
  · obtain rfl := Option.some.inj h
    rfl
  · split at h
    · obtain rfl := Option.some.inj h
      rfl
    · split at h
      · obtain rfl := Option.some.inj h
        rfl
      · exact absurd h nofun

theorem closer?_of_isCloser {c : Char} (h : isCloser c = true) : closer? c = none := by
  simp only [isCloser, Bool.or_eq_true, beq_iff_eq] at h
  rcases h with (rfl | rfl) | rfl <;> rfl

theorem Nested.append {s t : Text} (hs : Nested s) (ht : Nested t) : Nested (s ++ t) := by
  induction hs with
  | nil => exact ht
  | @pair c d inner outer h hinner _ _ ih =>
    have hpair := Nested.pair h hinner ih
    rw [List.append_assoc]
    exact hpair

/-- The brackets of the text nest properly. -/
def IsNest (t : Text) : Prop := Nested (t.filter isBracket)

namespace IsNest

variable {s t : Text} {c d : Char}

theorem nil : IsNest [] := Nested.nil

theorem append (hs : IsNest s) (ht : IsNest t) : IsNest (s ++ t) := by
  unfold IsNest
  rw [List.filter_append]
  exact Nested.append hs ht

/-- What is no bracket does not matter. -/
theorem plain (hc : isBracket c = false) : IsNest [c] := by
  unfold IsNest
  rw [List.filter_cons_of_neg (by rw [hc]; exact Bool.false_ne_true)]
  exact Nested.nil

/-- A nest may be put between two brackets of a kind. -/
theorem wrap (h : closer? c = some d) (ht : IsNest t) : IsNest (c :: (t ++ [d])) := by
  have hopen : isBracket c = true := by rw [isBracket, h]; rfl
  have hclose : isBracket d = true := by rw [isBracket, isCloser_of_closer? h, Bool.or_true]
  unfold IsNest
  rw [List.filter_cons_of_pos hopen, List.filter_append, List.filter_cons_of_pos hclose]
  exact Nested.pair h ht Nested.nil

end IsNest

/-! ### Reading on -/

section Equations

variable {c d : Char} (pending : List Char) (rest : Text)

theorem closes_cons (c : Char) :
    closes pending (c :: rest)
      = match closer? c with
        | some d => closes (d :: pending) rest
        | none =>
          if isCloser c then
            match pending with
            | d :: outer => c == d && closes outer rest
            | [] => false
          else closes pending rest := rfl

theorem closes_opener (h : closer? c = some d) : closes pending (c :: rest) = closes (d :: pending) rest := by
  rw [closes_cons, h]

theorem closes_closer (h : isCloser c = true) : closes (d :: pending) (c :: rest) = (c == d && closes pending rest) := by
  rw [closes_cons, closer?_of_isCloser h]
  exact if_pos h

theorem closes_surplus (h : isCloser c = true) : closes [] (c :: rest) = false := by
  rw [closes_cons, closer?_of_isCloser h]
  exact if_pos h

theorem closes_plain (h : isBracket c = false) : closes pending (c :: rest) = closes pending rest := by
  rw [isBracket, Bool.or_eq_false_iff, Option.isSome_eq_false_iff, Option.isNone_iff_eq_none] at h
  rw [closes_cons, h.1]
  exact if_neg (by rw [h.2]; exact Bool.false_ne_true)

end Equations

/-- A text that closes nothing that is pending closes no more with something in front of it. -/
theorem closes_append_eq_false {w : Text} (h : ∀ pending, closes pending w = false) (x : Text) (pending : List Char) :
    closes pending (x ++ w) = false := by
  induction x generalizing pending with
  | nil => exact h pending
  | cons c x ih =>
    rw [List.cons_append, closes_cons]
    split
    · exact ih _
    · split
      · split
        · rw [ih, Bool.and_false]
        · rfl
      · exact ih _

/-- Only the brackets of a text matter to what is pending behind it. -/
theorem closes_filter_append (pending : List Char) (t rest : Text) :
    closes pending (t.filter isBracket ++ rest) = closes pending (t ++ rest) := by
  induction t generalizing pending with
  | nil => rfl
  | cons c t ih =>
    cases hc : isBracket c with
    | false =>
      rw [List.filter_cons_of_neg (by rw [hc]; exact Bool.false_ne_true), List.cons_append, closes_plain _ _ hc, ih]
    | true =>
      rw [List.filter_cons_of_pos hc, List.cons_append, List.cons_append, closes_cons, closes_cons]
      simp only [ih]

theorem Nested.closes_append {t : Text} (h : Nested t) (pending : List Char) (rest : Text) :
    closes pending (t ++ rest) = closes pending rest := by
  induction h generalizing pending rest with
  | nil => rfl
  | @pair c d inner outer h _ _ ihinner ihouter =>
    calc closes pending (c :: inner ++ d :: outer ++ rest)
        = closes (d :: pending) (inner ++ (d :: (outer ++ rest))) := by
          rw [List.append_assoc, List.cons_append, closes_opener _ _ h, List.cons_append]
      _ = closes (d :: pending) (d :: (outer ++ rest)) := ihinner _ _
      _ = closes pending (outer ++ rest) := by
        rw [closes_closer _ _ (isCloser_of_closer? h), beq_self_eq_true, Bool.true_and]
      _ = closes pending rest := ihouter _ _

/-- A nest does not change what is pending. -/
theorem IsNest.closes_append {t : Text} (h : IsNest t) (pending : List Char) (rest : Text) :
    closes pending (t ++ rest) = closes pending rest := by
  rw [← closes_filter_append]
  exact Nested.closes_append h pending rest

/-! ### What is open -/

/-- The text has opened the brackets that wait for these closing ones, innermost first, and closed all others. -/
inductive Awaits : Text → List Char → Prop
  | nest {x : Text} (hx : IsNest x) : Awaits x []
  | opened {x y : Text} {c d : Char} {pending : List Char} (hx : Awaits x pending) (hc : closer? c = some d)
      (hy : IsNest y) : Awaits (x ++ c :: y) (d :: pending)

/-- A bracket of the text has no partner, or one of another kind. -/
inductive HasFault : Text → Prop
  | surplusCloser {x y : Text} {d : Char} (hx : IsNest x) (hd : isCloser d = true) : HasFault (x ++ d :: y)
  | mismatch {x y z : Text} {c d e : Char} (hc : closer? c = some d) (hy : IsNest y) (he : isCloser e = true)
      (hne : e ≠ d) : HasFault (x ++ c :: (y ++ e :: z))
  | surplusOpener {x y : Text} {c d : Char} (hc : closer? c = some d) (hy : IsNest y) : HasFault (x ++ c :: y)

namespace Awaits

variable {x y : Text} {c d : Char} {pending : List Char}

/-- A nest may follow. -/
theorem append (h : Awaits x pending) (hy : IsNest y) : Awaits (x ++ y) pending := by
  cases h with
  | nest hx => exact .nest (hx.append hy)
  | opened hx hc hz =>
    rw [List.append_assoc, List.cons_append]
    exact .opened hx hc (hz.append hy)

/-- The bracket that is awaited first closes the innermost one. -/
theorem close (h : Awaits x (d :: pending)) : Awaits (x ++ [d]) pending := by
  cases h with
  | opened hx hc hy =>
    rw [List.append_assoc, List.cons_append]
    exact hx.append (hy.wrap hc)

/-- Another one than the first that is awaited is a fault. -/
theorem hasFault (h : Awaits x pending) (hc : isCloser c = true) (hne : pending.head? ≠ some c) (rest : Text) :
    HasFault (x ++ c :: rest) := by
  cases h with
  | nest hx => exact .surplusCloser hx hc
  | opened hx hd hy =>
    rw [List.append_assoc, List.cons_append]
    exact .mismatch hd hy hc fun he => hne (congrArg some he.symm)

/-- What follows closes all that is open and makes a nest of the text, or else there is a fault. -/
theorem isNest_or_hasFault (h : Awaits x pending) (rest : Text) :
    (closes pending rest = true ∧ IsNest (x ++ rest)) ∨ (closes pending rest = false ∧ HasFault (x ++ rest)) := by
  induction rest generalizing x pending with
  | nil =>
    rw [List.append_nil]
    cases h with
    | nest hx => exact .inl ⟨rfl, hx⟩
    | opened hx hc hy => exact .inr ⟨rfl, .surplusOpener hc hy⟩
  | cons c rest ih =>
    rw [List.append_cons]
    cases hopener : closer? c with
    | some d =>
      rw [closes_opener _ _ hopener]
      exact ih (.opened h hopener .nil)
    | none =>
      cases hcloser : isCloser c with
      | false =>
        have hplain : isBracket c = false := by rw [isBracket, hopener, hcloser]; rfl
        rw [closes_plain _ _ hplain]
        exact ih (h.append (.plain hplain))
      | true =>
        rw [← List.append_cons]
        cases pending with
        | nil => exact .inr ⟨closes_surplus _ hcloser, h.hasFault hcloser nofun rest⟩
        | cons d outer =>
          rw [closes_closer _ _ hcloser]
          by_cases hd : c = d
          · subst hd
            rw [beq_self_eq_true, Bool.true_and, List.append_cons]
            exact ih h.close
          · rw [beq_eq_false_iff_ne.2 hd, Bool.false_and]
            exact .inr ⟨rfl, h.hasFault hcloser (fun he => hd (Option.some.inj he).symm) rest⟩

end Awaits

/-- No text with a fault closes what is pending in front of it. -/
theorem HasFault.isBalanced_eq_false {t : Text} (h : HasFault t) : isBalanced t = false := by
  cases h with
  | surplusCloser hx hd =>
    rw [isBalanced, hx.closes_append, closes_surplus _ hd]
  | mismatch hc hy he hne =>
    refine closes_append_eq_false (fun pending => ?_) _ _
    rw [closes_opener _ _ hc, hy.closes_append, closes_closer _ _ he,
      beq_eq_false_iff_ne.2 hne, Bool.false_and]
  | @surplusOpener x y c d hc hy =>
    refine closes_append_eq_false (fun pending => ?_) _ _
    have hend := hy.closes_append (d :: pending) []
    rw [List.append_nil] at hend
    rw [closes_opener _ _ hc, hend]
    rfl

/-! ### The language -/

/-- **The balanced texts are the language of nested brackets**: those whose brackets alone, without what stands between
them, are generated by the grammar. They are closed under concatenation and under wrapping in a pair of brackets, and a
text is refused exactly when it has a bracket without a partner or with one of another kind. -/
theorem isBalanced_language :
    (∀ t : Text, isBalanced t = true ↔ Nested (t.filter isBracket)) ∧
      (∀ s t : Text, isBalanced s = true → isBalanced t = true → isBalanced (s ++ t) = true) ∧
      (∀ (c d : Char) (t : Text), closer? c = some d → isBalanced t = true → isBalanced (c :: (t ++ [d])) = true) ∧
      ∀ t : Text, isBalanced t = false ↔ HasFault t := by
  have hrun (t : Text) := (Awaits.nest .nil).isNest_or_hasFault t
  have hnest (t : Text) : isBalanced t = true ↔ IsNest t := by
    refine ⟨fun h => ?_, fun h => ?_⟩
    · rcases hrun t with ⟨-, hnest⟩ | ⟨hfalse, -⟩
      · exact hnest
      · exact absurd (h.symm.trans hfalse) nofun
    · have hend := h.closes_append [] []
      rwa [List.append_nil] at hend
  refine ⟨hnest, ?_, ?_, fun t => ⟨fun h => ?_, HasFault.isBalanced_eq_false⟩⟩
  · intro s t hs ht
    exact (hnest _).2 (((hnest s).1 hs).append ((hnest t).1 ht))
  · intro c d t h ht
    exact (hnest _).2 (((hnest t).1 ht).wrap h)
  · rcases hrun t with ⟨htrue, -⟩ | ⟨-, hfault⟩
    · exact absurd (h.symm.trans htrue) nofun
    · exact hfault

/-- Brackets of three kinds around and beside each other, with other characters between them; and a bracket that another
kind closes. -/
theorem isBalanced_language_kinds :
    isBalanced "f([x]\x7by\x7d)" = true ∧ isBalanced "g(h[i)]" = false := by
  obtain ⟨hnest, happend, hwrap, hfault⟩ := isBalanced_language
  have hsquare : isBalanced ['[', 'x', ']'] = true := hwrap '[' ']' ['x'] rfl ((hnest ['x']).2 .nil)
  have hcurly : isBalanced ['\x7b', 'y', '\x7d'] = true := hwrap '\x7b' '\x7d' ['y'] rfl ((hnest ['y']).2 .nil)
  have hround := hwrap '(' ')' _ rfl (happend _ _ hsquare hcurly)
  refine ⟨happend ['f'] _ ((hnest ['f']).2 .nil) hround, (hfault _).2 ?_⟩
  exact .mismatch (x := ['g', '(', 'h']) (y := ['i']) rfl Nested.nil (by decide) (by decide)

end SnippetPreview.Script
