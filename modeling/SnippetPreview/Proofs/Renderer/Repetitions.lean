import SnippetPreview.Proofs.Renderer.Directives

/-!
# Repetitions that become directives

A repetition is the only binding whose pattern reads signs, the quotes of its value.

* `repetitions_cases`: the pass gives the lead of a repetition and its value way to those of a directive, between the same
  quotes;
* `Follows`, `KeepsInsides`: the stretches of two templates are the same, with values and insides of braces changed in the
  same way;
* `TameFrom`: repetitions stand only where attributes stand, and their values open no interpolation. `TameFrom.tail` and
  `TameFrom.behind` say what is left of it further on in the text;
* `TameFrom.repetitions`: in such a text, only the values of repetitions change.
-/

namespace SnippetPreview.Angular

open Pattern

/-! ### Repetitions -/

def repetitionDirective (m : Match) : Text := "ng-repeat=\"" ++ m.groupText 1 ++ " in " ++ m.groupText 2 ++ "\""

/-- The template with its repetitions as directives. -/
def repetitions (t : Text) : Text := repetition.replaceAll repetitionDirective t

/-- What a repetition begins with, in front of its value. -/
def repetitionLead (s s' : Text) : Text := "*ngFor" ++ (s ++ '=' :: s')

theorem prefix_lead (s s' w : Text) : "*ngFor" <+: repetitionLead s s' ++ w :=
  (List.prefix_append "*ngFor".toList (s ++ '=' :: s')).trans (List.prefix_append _ w)

theorem namesRepetition_lead {s s' : Text} (hs : s.all isBlank = true) (hs' : s'.all isBlank = true) :
    NamesRepetition (repetitionLead s s') := ⟨[], s, s', hs, hs', rfl⟩

/-- A value between double quotes, with what stands in front of it and behind it. -/
def quoted (front value rest : Text) : Text := front ++ '"' :: (value ++ '"' :: rest)

theorem repetitionDirective_append (m : Match) (rest : Text) :
    repetitionDirective m ++ rest = quoted "ng-repeat=" (m.groupText 1 ++ " in " ++ m.groupText 2) rest := by
  unfold repetitionDirective quoted
  simp

/-- The parts of a repetition between its double quotes. -/
def valueParts : List Pattern :=
  [many isBlank, "let", many1 isBlank, group 1 (many1 isIdentRest), many1 isBlank, "of", many1 isBlank,
    group 2 (fewest1 (charNotOf "\";")), many isBlank, optional (chain [";", many (charNotOf "\"")])]

/-- A repetition reads its lead and a value between double quotes. -/
theorem exists_quoted {b : Option Char} {u y : Text} (h : Reads repetition b u y) :
    ∃ s s' v, s.all isBlank = true ∧ s'.all isBlank = true ∧ '"' ∉ v ∧ u = quoted (repetitionLead s s') v [] := by
  obtain ⟨u, rfl, h₁⟩ := reads_text_seq_iff.1 h
  obtain ⟨s, u, rfl, hs, h₂⟩ := reads_seq_iff.1 h₁
  obtain ⟨u, rfl, h₃⟩ := reads_text_seq_iff.1 h₂
  obtain ⟨s', u, rfl, hs', h₄⟩ := reads_seq_iff.1 h₃
  obtain ⟨u, rfl, h₅⟩ := reads_text_seq_iff.1 h₄
  have hparts : Reads (chain (valueParts ++ [text "\""])) _ u y := h₅
  obtain ⟨v, u, rfl, hv, hlast⟩ := reads_chain_append_iff.1 hparts
  obtain rfl := reads_text_iff.1 (reads_last_iff.1 hlast)
  refine ⟨s, s', v, reads_run_iff.1 hs, reads_run_iff.1 hs', hv.not_mem_of_avoids (by decide), ?_⟩
  unfold quoted repetitionLead
  simp

/-- The groups of a repetition hold no double quote. -/
theorem not_mem_groupText_repetition {t : Text} {m : Match} (hm : m ∈ repetition.finds t) :
    '"' ∉ m.groupText 1 ++ " in " ++ m.groupText 2 := by
  have hone : (m.groupText 1).all isIdentRest = true :=
    all_groupText ["*ngFor", many isBlank, "=", many isBlank, "\"", many isBlank, "let", many1 isBlank]
      (many1 isIdentRest)
      [many1 isBlank, "of", many1 isBlank, group 2 (fewest1 (charNotOf "\";")), many isBlank,
        optional (chain [";", many (charNotOf "\"")]), "\""]
      ⟨fun _ h => h, fun _ h => h⟩ rfl rfl rfl hm
  have htwo : (m.groupText 2).all (charNotOf "\";") = true :=
    all_groupText ["*ngFor", many isBlank, "=", many isBlank, "\"", many isBlank, "let", many1 isBlank,
        group 1 (many1 isIdentRest), many1 isBlank, "of", many1 isBlank]
      (fewest1 (charNotOf "\";")) [many isBlank, optional (chain [";", many (charNotOf "\"")]), "\""]
      ⟨fun _ h => h, fun _ h => h⟩ rfl rfl rfl hm
  simp only [List.mem_append, not_or]
  exact ⟨⟨not_mem_of_class (by decide) hone, by decide⟩, not_mem_of_class (by decide) htwo⟩

theorem isSign_eq_false_of_isBlank {s : Text} (hs : s.all isBlank = true) : ∀ c ∈ s, isSign c = false := fun c hc =>
  charOf_eq_false (by decide) (List.all_eq_true.1 hs c hc)

theorem isSign_lead_eq_false {s s' : Text} (hs : s.all isBlank = true) (hs' : s'.all isBlank = true) :
    ∀ c ∈ repetitionLead s s', isSign c = false := by
  have hname : ("*ngFor" : Text).any isSign = false := by decide
  unfold repetitionLead
  simp only [List.forall_mem_append, List.forall_mem_cons]
  exact ⟨fun _ => eq_false_of_any hname, isSign_eq_false_of_isBlank hs, by decide, isSign_eq_false_of_isBlank hs'⟩

/-- Behind a text without braces, a value opens an interpolation only by itself. -/
theorem not_opens_quoted {front v : Text} (hfront : ∀ c ∈ front, isSign c = false) (hv : ¬ "\x7b\x7b" <:+: v) :
    ¬ "\x7b\x7b" <:+: quoted front v [] := by
  intro h
  rcases (infix_append_cons (by decide)).1 h with h | h
  · exact absurd (hfront _ (h.subset (List.mem_cons_self (a := '\x7b')))) (by decide)
  · rcases (infix_append_cons (by decide)).1 h with h | h
    · exact hv h
    · exact absurd (List.eq_nil_of_infix_nil h) nofun

/-- A text ends, keeps its first character or begins with a repetition, whose quotes stay and whose value opens an
interpolation only if it did. -/
theorem repetitions_cases (t : Text) :
    (t = [] ∧ repetitions t = []) ∨
    (∃ c r, t = c :: r ∧ repetitions t = c :: repetitions r) ∨
    ∃ s s' v v' y, s.all isBlank = true ∧ s'.all isBlank = true ∧ '"' ∉ v ∧ '"' ∉ v' ∧
      (¬ "\x7b\x7b" <:+: v → ¬ "\x7b\x7b" <:+: v') ∧ t = quoted (repetitionLead s s') v y ∧
      repetitions t = quoted "ng-repeat=" v' (repetitions y) := by
  have halike (m m' : Match) (h : m.Alike m') : repetitionDirective m = repetitionDirective m' := by
    unfold repetitionDirective
    rw [h.groups 1, h.groups 2]
  rcases replaceAll_cases (p := repetition) rfl rfl halike t with hend | hkeep | ⟨m, hm, u, y, hcuts, hput⟩
  · exact .inl hend
  · exact .inr (.inl hkeep)
  · obtain ⟨s, s', v, hs, hs', hv, rfl⟩ := exists_quoted hcuts.reads
    refine .inr (.inr ⟨s, s', v, m.groupText 1 ++ " in " ++ m.groupText 2, y, hs, hs', hv,
      not_mem_groupText_repetition hm, fun hopens hin => ?_, ?_, ?_⟩)
    · have hgroup (i : Nat) (h : "\x7b\x7b" <:+: m.groupText i) : False :=
        not_opens_quoted (isSign_lead_eq_false hs hs') hopens (h.trans (hcuts.groups i))
      rw [List.append_assoc] at hin
      rcases (infix_append_cons (x := m.groupText 1) (c := ' ') (by decide)).1 hin with hin | hin
      · exact hgroup 1 hin
      · rcases (infix_append_cons (x := "in") (c := ' ') (by decide)).1 hin with hin | hin
        · exact absurd hin (by decide)
        · exact hgroup 2 hin
    · rw [hcuts.text_eq]
      unfold quoted
      simp
    · exact hput.trans (repetitionDirective_append m _)

theorem sameLead_repetitions (t : Text) : SameLead t (repetitions t) := by
  rcases repetitions_cases t with ⟨rfl, h⟩ | ⟨c, r, rfl, h⟩ | ⟨s, s', v, v', y, -, -, -, -, -, rfl, h⟩
  · exact .inl (by rw [h])
  · exact .inl (by rw [h]; rfl)
  · exact .inr ⟨rfl, by rw [h]; rfl⟩

/-! ### Stretches of the result -/

section Stretches

variable {s : Place} {i : Side} {front v w y r r' : Text} {c : Char}

/-- A value between double quotes in a tag, with what stands in front of it. -/
theorem stretches_quoted (hfront : ∀ c ∈ front, isSign c = false) (hv : '"' ∉ v) :
    markup.stretches .tag (quoted front v y) = (.tag, front) :: (.value, v) :: markup.stretches .tag y := by
  have hvalue : markup.Stays .value v ('"' :: y) := by
    rintro a c b rfl
    have hc : c ≠ '"' := fun h => hv (h ▸ List.mem_append_right a List.mem_cons_self)
    show Place.move .value c _ = none
    unfold Place.move
    split <;> first | rfl | contradiction
  have hopen : markup.move .tag '"' (v ++ '"' :: y) = some .value := rfl
  have hclose : markup.move .value '"' y = some .tag := rfl
  rw [quoted, Reader.stretches_append (Reader.stays_of_not_isSign hfront), Reader.stretches_move hopen,
    Reader.stretches_append hvalue, Reader.stretches_move hclose]
  simp

/-- A text in quotes that opens no interpolation is read outside of interpolations. -/
theorem stretches_outside (hw : ¬ "\x7b\x7b" <:+: quoted front v []) :
    braces.stretches .outside (quoted front v y) = extend (quoted front v []) (braces.stretches .outside y) := by
  have hquoted : quoted front v y = quoted front v [] ++ y := by simp [quoted]
  rw [hquoted]
  refine Reader.stretches_append fun a c b hab => ?_
  show Side.move .outside c (b ++ y) = none
  unfold Side.move
  split <;> first | rfl | contradiction | skip
  -- behind a brace, the text goes on with another character
  refine if_neg fun hbrace => ?_
  cases b with
  | nil =>
    have hlast : (front ++ '"' :: v) ++ ['"'] = a ++ ['\x7b'] := by
      rw [← hab]
      simp [quoted]
    exact absurd (List.append_inj' hlast rfl).2 (by decide)
  | cons d b =>
    obtain rfl : d = '\x7b' := beq_iff_eq.1 hbrace
    exact hw ⟨a, b, by rw [hab]; simp⟩

end Stretches

/-! ### Values -/

/-- The stretches are the same, each value that is not the one of a repetition changed by `g`. The text in front is the one
of the stretch before. -/
inductive Follows (g : Text → Text) : Text → List (Place × Text) → List (Place × Text) → Prop
  | nil (front : Text) : Follows g front [] []
  | cons {front w w' : Text} {s : Place} {l l' : List (Place × Text)}
      (h : s = .value → ¬ NamesRepetition front → w' = g w) (hl : Follows g w l l') :
      Follows g front ((s, w) :: l) ((s, w') :: l')

namespace Follows

variable {g : Text → Text} {front front' : Text} {l l' : List (Place × Text)}

/-- Less is known behind the front of a repetition. -/
theorem mono (h : Follows g front l l') (hfront : NamesRepetition front → NamesRepetition front') :
    Follows g front' l l' := by
  cases h with
  | nil => exact .nil front'
  | cons h hl => exact .cons (fun hs hnot => h hs fun hnames => hnot (hfront hnames)) hl

theorem extend (h : Follows id front l l') (u : Text) : Follows id front (extend u l) (Angular.extend u l') := by
  cases h with
  | nil => exact .nil front
  | cons h hl => exact .cons (fun hs hnot => congrArg (u ++ ·) (h hs hnot)) (hl.mono fun hnames => hnames.append u)

/-- The values of attributes follow. -/
theorem attributes (h : Follows g front l l') (front' : Text) :
    List.Forall₂ (fun a a' => ¬ NamesRepetition a.front → a'.value = g a.value) (attributesOf front l)
      (attributesOf front' l') := by
  induction h generalizing front' with
  | nil => exact .nil
  | @cons front w w' s l l' h hl ih =>
    have hrest := ih w'
    cases hl with
    | nil => exact .nil
    | cons =>
      rw [attributesOf, attributesOf]
      split
      · exact .cons (h ‹_›) hrest
      · exact hrest

end Follows

/-! ### Insides of braces -/

/-- The stretches are the same, each one inside of braces changed by `g`. -/
def KeepsInsides (g : Text → Text) : List (Side × Text) → List (Side × Text) → Prop :=
  List.Forall₂ fun e e' => e'.1 = e.1 ∧ (e.1 = .inside → e'.2 = g e.2)

theorem KeepsInsides.insidesOf {g : Text → Text} {l l' : List (Side × Text)} (h : KeepsInsides g l l') :
    insidesOf l' = (insidesOf l).map g := by
  induction h with
  | nil => rfl
  | @cons e e' l l' he hl ih =>
    obtain ⟨s, w⟩ := e
    obtain ⟨s', w'⟩ := e'
    obtain ⟨rfl, hw⟩ := he
    cases hl with
    | nil => rfl
    | cons =>
      rw [Angular.insidesOf, Angular.insidesOf, ih]
      dsimp only at hw ⊢
      split
      · rw [hw ‹_›]
        rfl
      · rfl

theorem KeepsInsides.extend {l l' : List (Side × Text)} (h : KeepsInsides id l l') (u : Text) :
    KeepsInsides id (extend u l) (Angular.extend u l') := by
  cases h with
  | nil => exact .nil
  | cons he hl => exact .cons ⟨he.1, fun hs => congrArg (u ++ ·) (he.2 hs)⟩ hl

/-! ### Tame templates -/

/-- Where the text is read from these states on, `*ngFor` stands only in tags and outside of interpolations, and the values
of repetitions open no interpolation. -/
structure TameFrom (s : Place) (i : Side) (t : Text) : Prop where
  tags : ∀ e ∈ markup.stretches s t, "*ngFor" <:+: e.2 → e.1 = .tag
  outside : ∀ e ∈ braces.stretches i t, "*ngFor" <:+: e.2 → e.1 = .outside
  values : ∀ a ∈ attributesOf [] (markup.stretches s t), NamesRepetition a.front → ¬ "\x7b\x7b" <:+: a.value

/-- The text without its first character is tame from the next states on. -/
theorem TameFrom.tail {s : Place} {i : Side} {c : Char} {r : Text} (h : TameFrom s i (c :: r)) :
    TameFrom ((markup.move s c r).getD s) ((braces.move i c r).getD i) r where
  tags e he hin := by
    obtain ⟨e', he', hstate, hsuffix⟩ := Reader.exists_mem_stretches he
    exact hstate.symm.trans (h.tags e' he' (hin.trans hsuffix.isInfix))
  outside e he hin := by
    obtain ⟨e', he', hstate, hsuffix⟩ := Reader.exists_mem_stretches he
    exact hstate.symm.trans (h.outside e' he' (hin.trans hsuffix.isInfix))
  values a ha hnames := by
    cases hmove : markup.move s c r with
    | some s' =>
      rw [hmove, Option.getD_some] at ha
      refine h.values a ?_ hnames
      rw [Reader.stretches_move hmove]
      obtain ⟨w, l, hr⟩ := markup.exists_stretches s' r
      rw [hr] at ha ⊢
      exact mem_attributesOf_cons.2 (.inr ha)
    | none =>
      rw [hmove, Option.getD_none] at ha
      obtain ⟨a', ha', hvalue, hfront⟩ := exists_mem_attributesOf_extend [c] ha
        fun w (hnames : NamesRepetition w) => hnames.append [c]
      rw [← Reader.stretches_stay hmove] at ha'
      exact fun hin => h.values a' ha' (hfront hnames) (hin.trans hvalue.isInfix)

/-- The stretch that a reader is in when it comes to a repetition holds its name. -/
theorem exists_stretch_of_lead {σ : Type} (R : Reader σ) (s : σ) {b b' : Text} (hb : b.all isBlank = true)
    (hb' : b'.all isBlank = true) (rest : Text) :
    ∃ w, (s, w) ∈ R.stretches s (repetitionLead b b' ++ rest) ∧ "*ngFor" <:+: w := by
  obtain ⟨w, l, hrest⟩ := R.exists_stretches s rest
  refine ⟨repetitionLead b b' ++ w, ?_, (prefix_lead b b' w).isInfix⟩
  rw [Reader.stretches_append (Reader.stays_of_not_isSign (isSign_lead_eq_false hb hb')), hrest]
  exact List.mem_cons_self

/-- So a repetition of a tame text stands in a tag and outside of interpolations. -/
theorem TameFrom.places_of_lead {s : Place} {i : Side} {b b' rest : Text} (hb : b.all isBlank = true)
    (hb' : b'.all isBlank = true) (h : TameFrom s i (repetitionLead b b' ++ rest)) : s = .tag ∧ i = .outside := by
  obtain ⟨w, hw, hname⟩ := exists_stretch_of_lead markup s hb hb' rest
  obtain ⟨w', hw', hname'⟩ := exists_stretch_of_lead braces i hb hb' rest
  exact ⟨h.tags _ hw hname, h.outside _ hw' hname'⟩

/-- Its value opens no interpolation, and what follows it is tame. -/
theorem TameFrom.behind {s : Place} {i : Side} {b b' v y : Text} (hb : b.all isBlank = true) (hb' : b'.all isBlank = true)
    (hv : '"' ∉ v) (h : TameFrom s i (quoted (repetitionLead b b') v y)) :
    s = .tag ∧ i = .outside ∧ ¬ "\x7b\x7b" <:+: v ∧ TameFrom .tag .outside y := by
  obtain ⟨rfl, rfl⟩ := h.places_of_lead hb hb'
  have hlead := isSign_lead_eq_false hb hb'
  have htag := stretches_quoted (y := y) hlead hv
  have hattributes : attributesOf [] (markup.stretches .tag (quoted (repetitionLead b b') v y))
      = ⟨repetitionLead b b', v⟩ :: attributesOf v (markup.stretches .tag y) := by
    obtain ⟨w, l, hy⟩ := markup.exists_stretches .tag y
    rw [htag, hy]
    rfl
  have hopens : ¬ "\x7b\x7b" <:+: v :=
    h.values ⟨repetitionLead b b', v⟩ (by rw [hattributes]; exact List.mem_cons_self) (namesRepetition_lead hb hb')
  refine ⟨rfl, rfl, hopens, fun e he => h.tags e ?_, fun e he hin => ?_, fun a ha hnames => ?_⟩
  · rw [htag]
    exact List.mem_cons_of_mem _ (List.mem_cons_of_mem _ he)
  · obtain ⟨e', he', hstate, hsuffix⟩ := exists_mem_extend he (quoted (repetitionLead b b') v [])
    rw [← stretches_outside (not_opens_quoted hlead hopens)] at he'
    exact hstate.symm.trans (h.outside e' he' (hin.trans hsuffix.isInfix))
  · obtain ⟨a', ha', hvalue, hfront⟩ := exists_mem_attributesOf v ha
      (P := NamesRepetition) fun hnil => absurd hnil not_namesRepetition_nil
    rw [← hvalue]
    exact h.values a' (by rw [hattributes]; exact List.mem_cons_of_mem _ ha') (hfront hnames)

/-! ### What repetitions leave -/

theorem Follows.step {s : Place} {c : Char} {r r' : Text} (hlead : SameLead r r')
    (h : ∀ front, Follows id front (markup.stretches ((markup.move s c r).getD s) r)
      (markup.stretches ((markup.move s c r).getD s) r')) (front : Text) :
    Follows id front (markup.stretches s (c :: r)) (markup.stretches s (c :: r')) := by
  have hmove := markup.move_congr s c r r' hlead
  cases hs : markup.move s c r with
  | some s' =>
    rw [hs] at h
    rw [Reader.stretches_move hs, Reader.stretches_move (hmove.symm.trans hs)]
    exact .cons (fun _ _ => rfl) (h [])
  | none =>
    rw [hs] at h
    rw [Reader.stretches_stay hs, Reader.stretches_stay (hmove.symm.trans hs)]
    exact (h front).extend [c]

theorem KeepsInsides.step {i : Side} {c : Char} {r r' : Text} (hlead : SameLead r r')
    (h : KeepsInsides id (braces.stretches ((braces.move i c r).getD i) r)
      (braces.stretches ((braces.move i c r).getD i) r')) :
    KeepsInsides id (braces.stretches i (c :: r)) (braces.stretches i (c :: r')) := by
  have hmove := braces.move_congr i c r r' hlead
  cases hi : braces.move i c r with
  | some i' =>
    rw [hi] at h
    rw [Reader.stretches_move hi, Reader.stretches_move (hmove.symm.trans hi)]
    exact .cons ⟨rfl, fun _ => rfl⟩ h
  | none =>
    rw [hi] at h
    rw [Reader.stretches_stay hi, Reader.stretches_stay (hmove.symm.trans hi)]
    exact h.extend [c]

/-- Outside of interpolations, the texts in front of what follows do not matter. -/
theorem KeepsInsides.outside {u u' v v' y y' : Text} (hv : ¬ "\x7b\x7b" <:+: quoted u v [])
    (hv' : ¬ "\x7b\x7b" <:+: quoted u' v' [])
    (h : KeepsInsides id (braces.stretches .outside y) (braces.stretches .outside y')) :
    KeepsInsides id (braces.stretches .outside (quoted u v y)) (braces.stretches .outside (quoted u' v' y')) := by
  rw [stretches_outside hv, stretches_outside hv']
  obtain ⟨w, l, hy⟩ := braces.exists_stretches .outside y
  obtain ⟨w', l', hy'⟩ := braces.exists_stretches .outside y'
  rw [hy, hy'] at h ⊢
  cases h with
  | cons he hl => exact .cons ⟨rfl, fun hinside => absurd hinside nofun⟩ hl

/-- In a tame text, the values of other attributes than repetitions and the insides of braces stay when repetitions become
directives. -/
theorem TameFrom.repetitions {s : Place} {i : Side} {t : Text} (h : TameFrom s i t) :
    (∀ front, Follows id front (markup.stretches s t) (markup.stretches s (repetitions t))) ∧
      KeepsInsides id (braces.stretches i t) (braces.stretches i (repetitions t)) := by
  induction hn : t.length using Nat.strongRecOn generalizing s i t with
  | ind n ih =>
    rcases repetitions_cases t with ⟨rfl, hend⟩ | ⟨c, r, rfl, hkeep⟩ |
      ⟨b, b', v, v', y, hb, hb', hv, hv', hopens, rfl, hput⟩
    · rw [hend]
      exact ⟨fun front => .cons (fun _ _ => rfl) (.nil _), .cons ⟨rfl, fun _ => rfl⟩ .nil⟩
    · obtain ⟨hfollows, hkeeps⟩ := ih r.length (by rw [← hn, List.length_cons]; omega) h.tail rfl
      rw [hkeep]
      exact ⟨Follows.step (sameLead_repetitions r) hfollows, .step (sameLead_repetitions r) hkeeps⟩
    · obtain ⟨rfl, rfl, hopen, hrest⟩ := h.behind hb hb' hv
      have hlead := isSign_lead_eq_false hb hb'
      have hlen : y.length < n := by
        rw [← hn]
        simp only [quoted, List.length_append, List.length_cons]
        omega
      obtain ⟨hfollows, hkeeps⟩ := ih y.length hlen hrest rfl
      rw [hput]
      have hname : ∀ c ∈ ("ng-repeat=" : Text), isSign c = false := fun _ => eq_false_of_any (by decide)
      constructor
      · intro front
        rw [stretches_quoted hlead hv, stretches_quoted hname hv']
        exact .cons (fun htag _ => absurd htag nofun)
          (.cons (fun _ hnot => absurd (namesRepetition_lead hb hb') hnot) ((hfollows v).mono id))
      · exact hkeeps.outside (not_opens_quoted hlead hopen) (not_opens_quoted hname (hopens hopen))

end SnippetPreview.Angular
