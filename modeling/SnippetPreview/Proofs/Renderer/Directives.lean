import SnippetPreview.Proofs.Renderer.Templates

/-!
# Bindings that become directives

* `IsPass`: a pass over a template that makes directives of bindings. It reads no sign, and each directive leads with `ng-`;
* `IsPass.piecewise`: a pass works on each text between signs by itself;
* `IsPass.isInfix`, `IsPass.namesRepetition`: no directive makes a `*ngFor`, nor the front of one;
* `IsPass.countP_le`, `IsPass.isMatch_eq_false`: each directive takes away a character that starts a binding, so a text
  that keeps them all has no binding of the pass;
* `isPass_models`, `isPass_conditionals`, `isPass_events`: three of the passes of `translateTemplate` are such.
-/

namespace SnippetPreview.Angular

open Pattern

/-- The pattern finds bindings, and `f` makes directives of them. -/
structure IsPass (p : Pattern) (f : Match → Text) : Prop where
  consumes : p.consumes = true
  blind : p.isBlind = true
  alike : ∀ m m', m.Alike m' → f m = f m'
  starts : ∀ c, p.starts c = true → opensBinding c = true
  needs : p.Needs opensBinding
  avoids : ∀ c ∈ ("<>\"'\x7b\x7d" : Text), p.avoids c = true
  image : ∀ t, ∀ m ∈ p.finds t, ∃ w, f m = "ng-" ++ w ∧ ∀ c ∈ w, isSign c = false ∧ opensBinding c = false

/-- No text that begins with an end of the word begins with the lead of a directive. -/
def clashes (w : Text) : Bool := w.tails.all fun v => v == [] || !(v.isPrefixOf "ng-" || ("ng-" : Text).isPrefixOf v)

namespace IsPass

variable {p : Pattern} {f : Match → Text} (hp : IsPass p f)

include hp

theorem cases (t : Text) :
    (t = [] ∧ p.replaceAll f t = []) ∨
    (∃ c r, t = c :: r ∧ p.replaceAll f t = c :: p.replaceAll f r) ∨
    ∃ c u y w, t = c :: u ++ y ∧ opensBinding c = true ∧ p.replaceAll f t = "ng-" ++ w ++ p.replaceAll f y ∧
      ∀ c ∈ w, isSign c = false ∧ opensBinding c = false := by
  rcases replaceAll_cases hp.consumes hp.blind hp.alike t with hend | hkeep | ⟨m, hm, u, y, hcuts, hput⟩
  · exact .inl hend
  · exact .inr (.inl hkeep)
  · obtain ⟨w, hw, hfree⟩ := hp.image t m hm
    obtain ⟨c, v, rfl, hc⟩ := hcuts.reads.exists_first hp.consumes
    exact .inr (.inr ⟨c, v, y, w, hcuts.text_eq, hp.starts c hc, by rw [hput, hw], hfree⟩)

theorem avoids_of_isSign {c : Char} (hc : isSign c = true) : p.avoids c = true :=
  hp.avoids c (List.elem_iff.1 hc)

/-- A pass works on each text between signs by itself. -/
theorem piecewise : Piecewise (p.replaceAll f) where
  signs w c hc hmem := by
    refine replaceAll_invariant hp.consumes (motive := fun x out => c ∈ out → c ∈ x) id (fun x d y out _ h hd => ?_)
      (fun m hm x u y out _ h hd => ?_) hmem
    · exact (List.mem_append.1 hd).elim (fun hd => List.mem_append_left _ (h hd)) (List.mem_append_right _)
    · refine (List.mem_append.1 hd).elim (fun hd => List.mem_append_left _ (h hd)) fun hd => ?_
      obtain ⟨v, hv, hfree⟩ := hp.image w m hm
      rw [hv] at hd
      rcases List.mem_append.1 hd with hd | hd
      · have hnone : ("ng-" : Text).any isSign = false := by decide
        exact absurd (hc.symm.trans (eq_false_of_any hnone hd)) nofun
      · exact absurd (hc.symm.trans (hfree c hd).1) nofun
  lead t := by
    rcases hp.cases t with ⟨rfl, hnil⟩ | ⟨c, r, rfl, hkeep⟩ | ⟨c, u, y, w, rfl, hc, hput, -⟩
    · exact .inl (by rw [hnil])
    · exact .inl (by rw [hkeep]; rfl)
    · exact .inr ⟨hc, by rw [hput]; rfl⟩
  cut w c t hc := replaceAll_append_cons hp.consumes hp.blind hp.alike (hp.avoids_of_isSign hc) w t

/-! ### Words that no directive makes -/

/-- A word that clashes with the lead of a directive is kept. -/
theorem exists_of_clashes {w z t : Text} (hw : clashes w = true) (h : p.replaceAll f t = w ++ z) :
    ∃ z', t = w ++ z' ∧ z = p.replaceAll f z' := by
  induction w generalizing t with
  | nil => exact ⟨t, rfl, h.symm⟩
  | cons c w ih =>
    have hall := List.all_eq_true.1 hw
    rcases hp.cases t with ⟨-, hnil⟩ | ⟨d, r, rfl, hkeep⟩ | ⟨d, u, y, v, -, -, hput, -⟩
    · exact absurd (hnil.symm.trans h) nofun
    · obtain ⟨rfl, hrest⟩ := List.cons.inj (hkeep.symm.trans h)
      have hw : clashes w = true := List.all_eq_true.2 fun v hv => hall v (by
        rw [List.tails_cons]
        exact List.mem_cons_of_mem _ hv)
      obtain ⟨z', rfl, hz⟩ := ih hw hrest
      exact ⟨z', rfl, hz⟩
    · have hhead := hall (c :: w) (by rw [List.tails_cons]; exact List.mem_cons_self)
      have hboth : "ng-" ++ (v ++ p.replaceAll f y) = (c :: w) ++ z := by rw [← h, hput, List.append_assoc]
      have hprefix := List.prefix_or_prefix_of_prefix (hboth ▸ List.prefix_append _ _) (List.prefix_append (c :: w) z)
      simp only [Bool.or_eq_true, beq_iff_eq, List.cons_ne_nil, false_or, Bool.not_eq_true', Bool.or_eq_false_iff] at hhead
      rcases hprefix with hprefix | hprefix
      · exact absurd (hhead.2.symm.trans (List.isPrefixOf_iff_prefix.2 hprefix)) nofun
      · exact absurd (hhead.1.symm.trans (List.isPrefixOf_iff_prefix.2 hprefix)) nofun

/-- So is a word that starts like a binding and clashes. -/
theorem exists_word {c : Char} {w x z t : Text} (hc : opensBinding c = true) (hw : clashes (c :: w) = true)
    (h : p.replaceAll f t = x ++ (c :: w ++ z)) : ∃ x' z', t = x' ++ (c :: w ++ z') ∧ z = p.replaceAll f z' := by
  induction hn : t.length using Nat.strongRecOn generalizing t x with
  | ind n ih =>
    rcases hp.cases t with ⟨-, hnil⟩ | ⟨d, r, rfl, hkeep⟩ | ⟨d, u, y, v, rfl, -, hput, hfree⟩
    · exact absurd (List.append_eq_nil_iff.1 (h.symm.trans hnil)).2 nofun
    · cases x with
      | nil =>
        obtain ⟨z', ht, hz⟩ := hp.exists_of_clashes hw h
        exact ⟨[], z', ht, hz⟩
      | cons e x =>
        obtain ⟨rfl, hrest⟩ := List.cons.inj (hkeep.symm.trans h)
        obtain ⟨x', z', rfl, hz⟩ := ih _ (by rw [← hn, List.length_cons]; omega) hrest rfl
        exact ⟨d :: x', z', rfl, hz⟩
    · -- the word starts behind the directive, which has no such character
      rw [hput] at h
      have hnone : ("ng-" ++ v).all (!opensBinding ·) = true := by
        rw [List.all_append, Bool.and_eq_true, List.all_eq_true (l := v)]
        exact ⟨by decide, fun d hd => by rw [(hfree d hd).2]; rfl⟩
      obtain ⟨x, rfl, hrest⟩ := eq_append_of_append_eq hnone (by rw [hc]; rfl) h
      obtain ⟨x', z', hy, hz⟩ := ih _ (by rw [← hn, List.length_append, List.length_cons]; omega) hrest rfl
      exact ⟨d :: u ++ x', z', by rw [hy]; simp, hz⟩

/-- A text that comes out without the lead of a directive has been kept. -/
theorem eq_of_not_mem {t : Text} (h : 'n' ∉ p.replaceAll f t) : p.replaceAll f t = t := by
  induction hn : t.length using Nat.strongRecOn generalizing t with
  | ind n ih =>
    rcases hp.cases t with ⟨rfl, hnil⟩ | ⟨d, r, rfl, hkeep⟩ | ⟨d, u, y, v, rfl, -, hput, -⟩
    · exact hnil
    · rw [hkeep] at h ⊢
      rw [ih _ (by rw [← hn, List.length_cons]; omega) (fun hmem => h (List.mem_cons_of_mem d hmem)) rfl]
    · rw [hput] at h
      exact absurd (List.mem_append_left _ List.mem_cons_self) h

theorem isInfix {t : Text} (h : "*ngFor" <:+: p.replaceAll f t) : "*ngFor" <:+: t := by
  obtain ⟨x, z, h⟩ := h
  obtain ⟨x', z', rfl, -⟩ := hp.exists_word (c := '*') (w := "ngFor") (by decide) (by decide)
    (h.symm.trans (List.append_assoc ..))
  exact ⟨x', z', List.append_assoc ..⟩

theorem namesRepetition {t : Text} (h : NamesRepetition (p.replaceAll f t)) : NamesRepetition t := by
  obtain ⟨x, s, s', hs, hs', h⟩ := h
  obtain ⟨x', z', rfl, hz⟩ := hp.exists_word (c := '*') (w := "ngFor") (by decide) (by decide) h
  have hnone {s : Text} (hs : s.all isBlank = true) : 'n' ∉ s := not_mem_of_class (by decide) hs
  have hkept : p.replaceAll f z' = z' := by
    refine hp.eq_of_not_mem ?_
    rw [← hz]
    exact fun hmem => (List.mem_append.1 hmem).elim (hnone hs) fun hmem =>
      (List.mem_cons.1 hmem).elim (by decide) (hnone hs')
  exact ⟨x', s, s', hs, hs', by rw [hz, hkept]; rfl⟩

/-! ### Texts without bindings -/

theorem countP_le {t : Text} : (p.replaceAll f t).countP opensBinding + (p.finds t).length ≤ t.countP opensBinding := by
  refine countP_replaceAll hp.consumes hp.needs fun m hm c hc => ?_
  obtain ⟨w, hw, hfree⟩ := hp.image t m hm
  rw [hw] at hc
  rcases List.mem_append.1 hc with hc | hc
  · have hlead : ("ng-" : Text).any opensBinding = false := by decide
    exact eq_false_of_any hlead hc
  · exact (hfree c hc).2

/-- A text that keeps the characters of its bindings has none, and stays. -/
theorem isMatch_eq_false {t : Text} (h : t.countP opensBinding ≤ (p.replaceAll f t).countP opensBinding) :
    p.isMatch t = false := isMatch_eq_false_of_countP hp.countP_le h

end IsPass

/-! ### The passes -/

/-- The template with its models as directives. -/
def models (t : Text) : Text := modelBinding.replaceAll (fun _ => "ng-model=") t

/-- The template with its conditions as directives. -/
def conditionals (t : Text) : Text := conditional.replaceAll (fun _ => "ng-if=") t

/-- The template with its events as directives. -/
def events (t : Text) : Text := eventBinding.replaceAll (fun m => eventDirective (m.groupText 1)) t

/-- A chain that begins with a text starts with its first character. -/
theorem eq_of_starts {c d : Char} {w : Text} {ps : List Pattern} (h : (chain (text (c :: w) :: ps)).starts d = true) :
    d = c := by
  simpa [chain, text, Pattern.starts, Pattern.consumes] using h

theorem isPass_models : IsPass modelBinding fun _ => "ng-model=" where
  consumes := rfl
  blind := rfl
  alike _ _ _ := rfl
  starts c hc := by
    rw [eq_of_starts (c := '[') (w := "(ngModel)]") hc]
    decide
  needs := .inl (.inl fun c hc => by rw [beq_iff_eq.1 hc]; decide)
  avoids := List.all_eq_true.1 (by decide)
  image _ _ _ := ⟨"model=", rfl, fun _ hc => ⟨eq_false_of_any (by decide) hc, eq_false_of_any (by decide) hc⟩⟩

theorem isPass_conditionals : IsPass conditional fun _ => "ng-if=" where
  consumes := rfl
  blind := rfl
  alike _ _ _ := rfl
  starts c hc := by
    rw [eq_of_starts (c := '*') (w := "ngIf") hc]
    decide
  needs := .inl (.inl fun c hc => by rw [beq_iff_eq.1 hc]; decide)
  avoids := List.all_eq_true.1 (by decide)
  image _ _ _ := ⟨"if=", rfl, fun _ hc => ⟨eq_false_of_any (by decide) hc, eq_false_of_any (by decide) hc⟩⟩

theorem isPass_events : IsPass eventBinding fun m => eventDirective (m.groupText 1) where
  consumes := rfl
  blind := rfl
  alike m m' h := by rw [h.groups 1]
  starts c hc := by
    rw [eq_of_starts (c := '(') (w := "") hc]
    decide
  needs := .inl (.inl fun c hc => by rw [beq_iff_eq.1 hc]; decide)
  avoids := List.all_eq_true.1 (by decide)
  image t m hm := by
    have hword : (m.groupText 1).all isWord = true :=
      all_groupText ["("] (many1 isWord) [")", many isBlank, "="] ⟨fun _ h => h, fun _ h => h⟩ rfl rfl rfl hm
    have hfree (c : Char) (hc : isWord c = true) : isSign c = false ∧ opensBinding c = false :=
      ⟨charOf_eq_false (by decide) hc, charOf_eq_false (by decide) hc⟩
    refine ⟨(if m.groupText 1 = "input" then "change".toList else m.groupText 1) ++ "=", rfl, fun c hc => ?_⟩
    rcases List.mem_append.1 hc with hc | hc
    · split at hc
      · exact hfree c (List.all_eq_true.1 (by decide) c hc)
      · exact hfree c (List.all_eq_true.1 hword c hc)
    · obtain rfl := List.mem_singleton.1 hc
      exact ⟨rfl, rfl⟩

end SnippetPreview.Angular
