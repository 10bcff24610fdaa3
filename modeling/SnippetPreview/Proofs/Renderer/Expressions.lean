import SnippetPreview.Proofs.Renderer.Repetitions

/-!
# The expressions of a translated template

* `IsTame`: `*ngFor` stands only where attributes stand, and the values of repetitions open no interpolation. A template
  without repetitions is tame;
* `hasBinding`: a text has something that the translation takes for a binding;
* `ChangesExpressions`: what becomes of the values of attributes and of interpolations;
* `translateTemplate_eq_self_iff`: a text without repetitions stays iff it has no binding;
* `changesExpressions_translateTemplate`: the translation knows nothing of quotes and braces, so it translates the
  expressions, too, each one by itself. They stay iff none of them has a binding.
-/

namespace SnippetPreview.Angular

open Pattern

/-! ### In front of the repetitions -/

/-- The template as it is searched for repetitions, with its models and conditions as directives. -/
def prepared (t : Text) : Text := conditionals (models t)

theorem translateTemplate_eq (t : Text) : translateTemplate t = events (repetitions (prepared t)) := rfl

theorem piecewise_prepared : Piecewise prepared := isPass_models.piecewise.comp isPass_conditionals.piecewise

theorem piecewise_events : Piecewise events := isPass_events.piecewise

theorem isInfix_of_prepared {t : Text} (h : "*ngFor" <:+: prepared t) : "*ngFor" <:+: t :=
  isPass_models.isInfix (isPass_conditionals.isInfix h)

theorem namesRepetition_of_prepared {t : Text} (h : NamesRepetition (prepared t)) : NamesRepetition t :=
  isPass_models.namesRepetition (isPass_conditionals.namesRepetition h)

theorem TameFrom.prepared {s : Place} {i : Side} {t : Text} (h : TameFrom s i t) : TameFrom s i (prepared t) where
  tags e he hin := by
    rw [markup.stretches_of_piecewise piecewise_prepared] at he
    obtain ⟨d, hd, rfl⟩ := List.mem_map.1 he
    exact h.tags d hd (isInfix_of_prepared hin)
  outside e he hin := by
    rw [braces.stretches_of_piecewise piecewise_prepared] at he
    obtain ⟨d, hd, rfl⟩ := List.mem_map.1 he
    exact h.outside d hd (isInfix_of_prepared hin)
  values a ha hnames := by
    have hmap := attributesOf_map Angular.prepared [] (markup.stretches s t)
    rw [piecewise_prepared.nil] at hmap
    rw [markup.stretches_of_piecewise piecewise_prepared, hmap] at ha
    obtain ⟨d, hd, rfl⟩ := List.mem_map.1 ha
    exact fun hin => h.values d hd (namesRepetition_of_prepared hnames) (piecewise_prepared.opens hin)

/-! ### Texts without repetitions -/

theorem isInfix_of_isMatch {t : Text} (h : repetition.isMatch t = true) : "*ngFor" <:+: t := by
  obtain ⟨x, u, y, rfl, hreads⟩ := isMatch_iff.1 h
  obtain ⟨s, s', v, -, -, -, rfl⟩ := exists_quoted hreads
  have hvalue : "*ngFor" <:+: quoted (repetitionLead s s') v [] := (prefix_lead s s' _).isInfix
  exact hvalue.trans ⟨x, y, rfl⟩

theorem translateTemplate_of_not_isInfix {t : Text} (h : ¬ "*ngFor" <:+: t) :
    translateTemplate t = events (prepared t) := by
  have hnone : repetition.isMatch (prepared t) = false :=
    Bool.eq_false_iff.2 fun hmatch => h (isInfix_of_prepared (isInfix_of_isMatch hmatch))
  rw [translateTemplate_eq, repetitions, replaceAll_eq_self hnone]

/-- The text has a model, a condition or an event, or something that reads like one. -/
def hasBinding (t : Text) : Bool := modelBinding.isMatch t || conditional.isMatch t || eventBinding.isMatch t

/-- A text without repetitions stays iff it has no binding. -/
theorem translateTemplate_eq_self_iff {t : Text} (h : ¬ "*ngFor" <:+: t) :
    translateTemplate t = t ↔ hasBinding t = false := by
  rw [translateTemplate_of_not_isInfix h]
  unfold hasBinding
  simp only [Bool.or_eq_false_iff]
  constructor
  · intro heq
    -- no pass adds one of the characters that start bindings, so each pass has kept them all
    have hmodels := isPass_models.countP_le (t := t)
    have hconditionals := isPass_conditionals.countP_le (t := models t)
    have hevents := isPass_events.countP_le (t := prepared t)
    have hall : (eventBinding.replaceAll (fun m => eventDirective (m.groupText 1)) (prepared t)).countP opensBinding
        = t.countP opensBinding := congrArg (List.countP opensBinding) heq
    change (models t).countP opensBinding + _ ≤ _ at hmodels
    change (prepared t).countP opensBinding + _ ≤ _ at hconditionals
    have hmodel : modelBinding.isMatch t = false := isPass_models.isMatch_eq_false (by
      change _ ≤ (models t).countP opensBinding
      omega)
    have hsame : models t = t := replaceAll_eq_self hmodel
    have hconditional : conditional.isMatch (models t) = false := isPass_conditionals.isMatch_eq_false (by
      change _ ≤ (prepared t).countP opensBinding
      omega)
    have hprepared : prepared t = t := (replaceAll_eq_self hconditional).trans hsame
    have hevent : eventBinding.isMatch (prepared t) = false := isPass_events.isMatch_eq_false (by omega)
    exact ⟨⟨hmodel, hsame ▸ hconditional⟩, hprepared ▸ hevent⟩
  · rintro ⟨⟨hmodel, hconditional⟩, hevent⟩
    have hsame : models t = t := replaceAll_eq_self hmodel
    have hprepared : prepared t = t := by rw [prepared, hsame, conditionals, replaceAll_eq_self hconditional]
    rw [hprepared, events, replaceAll_eq_self hevent]

/-! ### All passes -/

theorem Follows.of_prepared {front : Text} {l l' : List (Place × Text)}
    (h : Follows id (prepared front) (l.map fun e => (e.1, prepared e.2)) l')
    (hl : ∀ e ∈ l, e.1 = .value → ¬ "*ngFor" <:+: e.2) :
    Follows translateTemplate front l (l'.map fun e => (e.1, events e.2)) := by
  induction l generalizing front l' with
  | nil =>
    cases h
    exact .nil front
  | cons e l ih =>
    obtain ⟨s, w⟩ := e
    cases h with
    | cons h hrest =>
      refine .cons (fun hs hnot => ?_) (ih hrest fun e he => hl e (List.mem_cons_of_mem _ he))
      rw [h hs fun hnames => hnot (namesRepetition_of_prepared hnames), id,
        translateTemplate_of_not_isInfix (hl _ List.mem_cons_self hs)]

theorem KeepsInsides.of_prepared {l l' : List (Side × Text)}
    (h : KeepsInsides id (l.map fun e => (e.1, prepared e.2)) l')
    (hl : ∀ e ∈ l, e.1 = .inside → ¬ "*ngFor" <:+: e.2) :
    KeepsInsides translateTemplate l (l'.map fun e => (e.1, events e.2)) := by
  induction l generalizing l' with
  | nil =>
    cases h
    exact .nil
  | cons e l ih =>
    cases h with
    | cons he hrest =>
      refine .cons ⟨he.1, fun hs => ?_⟩ (ih hrest fun e he => hl e (List.mem_cons_of_mem _ he))
      dsimp only
      rw [he.2 hs, id, translateTemplate_of_not_isInfix (hl _ List.mem_cons_self hs)]

/-- `*ngFor` stands only where attributes stand, and the values of repetitions open no interpolation. -/
def IsTame (t : Text) : Prop := TameFrom .text .outside t

/-- A template without `*ngFor` is tame. -/
theorem isTame_of_not_isInfix {t : Text} (h : ¬ "*ngFor" <:+: t) : IsTame t where
  tags e he hin := absurd (hin.trans (Reader.isInfix_of_mem_stretches he)) h
  outside e he hin := absurd (hin.trans (Reader.isInfix_of_mem_stretches he)) h
  values a ha hnames := by
    rcases (mem_of_mem_attributesOf ha).2 with hnil | ⟨s, hs⟩
    · rw [hnil] at hnames
      exact absurd hnames not_namesRepetition_nil
    · exact absurd (hnames.isInfix.trans (Reader.isInfix_of_mem_stretches hs)) h

/-- What becomes of the expressions of a template: the values of attributes, other than those of repetitions, and the
interpolations are the same up to `g`. -/
structure ChangesExpressions (g : Text → Text) (t t' : Text) : Prop where
  values : List.Forall₂ (fun a a' => ¬ NamesRepetition a.front → a'.value = g a.value) (attributes t) (attributes t')
  interpolations : interpolations t' = (interpolations t).map g

/-- The expressions of a tame template are translated, each one by itself. -/
theorem changesExpressions_self {t : Text} (h : IsTame t) :
    ChangesExpressions translateTemplate t (translateTemplate t) := by
  obtain ⟨hfollows, hkeeps⟩ := h.prepared.repetitions
  have hnil := hfollows (prepared [])
  rw [markup.stretches_of_piecewise piecewise_prepared] at hnil
  rw [braces.stretches_of_piecewise piecewise_prepared] at hkeeps
  have hvalues := hnil.of_prepared fun e he hs hin => absurd (hs.symm.trans (h.tags e he hin)) nofun
  have hinsides := hkeeps.of_prepared fun e he hs hin => absurd (hs.symm.trans (h.outside e he hin)) nofun
  rw [← markup.stretches_of_piecewise piecewise_events] at hvalues
  rw [← braces.stretches_of_piecewise piecewise_events] at hinsides
  exact ⟨hvalues.attributes [], hinsides.insidesOf⟩

/-- Of two relations between lists, the second one holds iff it does for each pair that the first one makes. -/
theorem forall₂_iff_of_forall₂ {α β : Type} {P Q : α → β → Prop} {S : α → Prop} {l : List α} {l' : List β}
    (h : List.Forall₂ P l l') (hQ : ∀ a ∈ l, ∀ b, P a b → (Q a b ↔ S a)) : List.Forall₂ Q l l' ↔ ∀ a ∈ l, S a := by
  induction h with
  | nil => simp
  | @cons a b l l' hab _ ih =>
    rw [List.forall₂_cons, List.forall_mem_cons, hQ a List.mem_cons_self b hab,
      ih fun a ha => hQ a (List.mem_cons_of_mem _ ha)]

/-- **The expressions of a tame template** are translated like any text, each one by itself. So they stay iff none of them
has a binding. -/
theorem changesExpressions_translateTemplate {t : Text} (h : IsTame t) :
    ChangesExpressions translateTemplate t (translateTemplate t) ∧
      (ChangesExpressions id t (translateTemplate t) ↔
        (∀ a ∈ attributes t, ¬ NamesRepetition a.front → hasBinding a.value = false) ∧
          ∀ w ∈ interpolations t, hasBinding w = false) := by
  have hchanges := changesExpressions_self h
  have hattribute (a : Attribute) (ha : a ∈ attributes t) : ¬ "*ngFor" <:+: a.value := fun hin =>
    absurd (h.tags _ (mem_of_mem_attributesOf ha).1 hin) nofun
  have hinterpolation (w : Text) (hw : w ∈ interpolations t) : ¬ "*ngFor" <:+: w := fun hin =>
    absurd (h.outside _ (mem_of_mem_insidesOf hw) hin) nofun
  refine ⟨hchanges, ?_⟩
  have hvalues : List.Forall₂ (fun a a' => ¬ NamesRepetition a.front → a'.value = id a.value) (attributes t)
      (attributes (translateTemplate t)) ↔ ∀ a ∈ attributes t, ¬ NamesRepetition a.front → hasBinding a.value = false := by
    refine forall₂_iff_of_forall₂ hchanges.values fun a ha a' ha' => forall_congr' fun hnot => ?_
    rw [ha' hnot]
    exact translateTemplate_eq_self_iff (hattribute a ha)
  have hinsides : interpolations (translateTemplate t) = (interpolations t).map id ↔
      ∀ w ∈ interpolations t, hasBinding w = false := by
    rw [hchanges.interpolations, List.map_inj_left]
    exact forall₂_congr fun w hw => translateTemplate_eq_self_iff (hinterpolation w hw)
  exact ⟨fun hid => ⟨hvalues.1 hid.values, hinsides.1 hid.interpolations⟩,
    fun hnone => ⟨hvalues.2 hnone.1, hinsides.2 hnone.2⟩⟩

/-- A comparison that reads like an event loses its parentheses. -/
theorem changesExpressions_comparison :
    IsTame "<li *ngFor=\"let x of xs\" *ngIf=\"(a) == b\">\x7b\x7b x \x7d\x7d</li>" ∧
      ¬ ChangesExpressions id "<li *ngFor=\"let x of xs\" *ngIf=\"(a) == b\">\x7b\x7b x \x7d\x7d</li>"
        (translateTemplate "<li *ngFor=\"let x of xs\" *ngIf=\"(a) == b\">\x7b\x7b x \x7d\x7d</li>") := by
  have hvalues : ∀ a ∈ attributes "<li *ngFor=\"let x of xs\" *ngIf=\"(a) == b\">\x7b\x7b x \x7d\x7d</li>",
      ¬ "\x7b\x7b" <:+: a.value := by decide
  have htame : IsTame "<li *ngFor=\"let x of xs\" *ngIf=\"(a) == b\">\x7b\x7b x \x7d\x7d</li>" :=
    ⟨by decide, by decide, fun a ha _ => hvalues a ha⟩
  refine ⟨htame, fun hid => ?_⟩
  have hnone := ((changesExpressions_translateTemplate htame).2.1 hid).1 ⟨" *ngIf=", "(a) == b"⟩ (by decide)
    fun hnames => absurd hnames.isInfix (by decide)
  exact absurd hnone (by decide)

end SnippetPreview.Angular
