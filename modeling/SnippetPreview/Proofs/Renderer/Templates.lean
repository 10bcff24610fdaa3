import Mathlib.Data.List.Infix
import SnippetPreview.Proofs.Pattern.Blind
import SnippetPreview.Proofs.Text.Classes
import SnippetPreview.Renderer.Angular

/-!
# What a template is made of

* `Reader`: a reader of templates moves from state to state at signs, and `Reader.stretches` are the texts in between;
* `Place`, `attributes`: where in the markup a reader is, and the double-quoted values of attributes with what stands in
  front of them;
* `Side`, `interpolations`: on which side of the braces a reader is, and the expressions between them;
* `Piecewise`: changes of a text that leave its signs and work on each text between them by itself;
* `Reader.stretches_of_piecewise`: such a change keeps the stretches, each one changed by itself.
-/

namespace SnippetPreview.Angular

/-! ### Signs -/

/-- The characters behind which a reader of templates can move on. -/
def isSign : Char → Bool := charOf "<>\"'\x7b\x7d"

/-- The characters that start a binding. -/
def opensBinding : Char → Bool := charOf "[*("

/-- The texts start alike, up to a binding that has become a directive. -/
def SameLead (t t' : Text) : Prop := t'.head? = t.head? ∨ t.head?.any opensBinding = true ∧ t'.head? = some 'n'

theorem SameLead.trans {t t' t'' : Text} (h : SameLead t t') (h' : SameLead t' t'') : SameLead t t'' := by
  rcases h with h | ⟨h, hn⟩
  · rw [SameLead, ← h]
    exact h'
  · rcases h' with h' | ⟨h', -⟩
    · exact .inr ⟨h, h'.trans hn⟩
    · rw [hn] at h'
      exact absurd h' (by decide)

/-- A class that does not tell a binding from a directive does not tell the texts apart. -/
theorem SameLead.any_head?_eq {t t' : Text} (h : SameLead t t') {holds : Char → Bool}
    (hn : ∀ c, opensBinding c = true → holds c = holds 'n') : t.head?.any holds = t'.head?.any holds := by
  rcases h with h | ⟨h, hn'⟩
  · rw [h]
  · obtain ⟨c, hc, hopens⟩ := (Option.any_eq_true _ _).1 h
    rw [hc, hn']
    exact hn c hopens

theorem SameLead.any_beq_eq {t t' : Text} (h : SameLead t t') {d : Char} (hd : opensBinding d = false) (hn : d ≠ 'n') :
    t.head?.any (· == d) = t'.head?.any (· == d) :=
  h.any_head?_eq fun c hc => by
    rw [beq_eq_false_iff_ne.2 hn.symm, beq_eq_false_iff_ne]
    rintro rfl
    exact absurd (hc.symm.trans hd) nofun

/-- The text has no sign, or a first one. -/
theorem exists_sign (t : Text) :
    (∀ c ∈ t, isSign c = false) ∨ ∃ w c r, t = w ++ c :: r ∧ isSign c = true ∧ ∀ d ∈ w, isSign d = false := by
  induction t with
  | nil => exact .inl fun c hc => absurd hc List.not_mem_nil
  | cons d t ih =>
    cases hd : isSign d with
    | true => exact .inr ⟨[], d, t, rfl, hd, fun c hc => absurd hc List.not_mem_nil⟩
    | false =>
      rcases ih with hnone | ⟨w, c, r, rfl, hc, hw⟩
      · exact .inl (List.forall_mem_cons.2 ⟨hd, hnone⟩)
      · exact .inr ⟨d :: w, c, r, rfl, hc, List.forall_mem_cons.2 ⟨hd, hw⟩⟩

/-- Induction on a text from sign to sign. -/
@[elab_as_elim]
theorem signInduction {motive : Text → Prop} (free : ∀ w, (∀ c ∈ w, isSign c = false) → motive w)
    (cut : ∀ w c r, (∀ d ∈ w, isSign d = false) → isSign c = true → motive r → motive (w ++ c :: r)) (t : Text) :
    motive t := by
  induction hn : t.length using Nat.strongRecOn generalizing t with
  | ind n ih =>
    rcases exists_sign t with hfree | ⟨w, c, r, rfl, hc, hw⟩
    · exact free t hfree
    · refine cut w c r hw hc (ih r.length ?_ r rfl)
      rw [← hn, List.length_append, List.length_cons]
      omega

/-! ### Readers -/

/-- A reader moves from state to state at signs. It sees the sign and what follows, and does not tell bindings from
directives. -/
structure Reader (σ : Type) where
  /-- The next state, behind a sign where the state changes. -/
  move : σ → Char → Text → Option σ
  isSign_of_move : ∀ s c r s', move s c r = some s' → isSign c = true
  move_congr : ∀ s c r r', SameLead r r' → move s c r = move s c r'

/-- The first of the stretches begins with a further text. -/
def extend {σ : Type} (w : Text) : List (σ × Text) → List (σ × Text) := List.modifyHead fun e => (e.1, w ++ e.2)

section Extend

variable {σ : Type} {w : Text} {e : σ × Text} {l : List (σ × Text)}

@[simp] theorem extend_cons : extend w (e :: l) = (e.1, w ++ e.2) :: l := rfl

theorem extend_extend (u w : Text) (l : List (σ × Text)) : extend u (extend w l) = extend (u ++ w) l := by
  cases l with
  | nil => rfl
  | cons e l => simp

theorem exists_mem_extend (h : e ∈ l) (u : Text) : ∃ e' ∈ extend u l, e'.1 = e.1 ∧ e.2 <:+ e'.2 := by
  obtain ⟨d, l, rfl⟩ := List.exists_cons_of_ne_nil (List.ne_nil_of_mem h)
  rcases List.mem_cons.1 h with rfl | h
  · exact ⟨_, List.mem_cons_self, rfl, List.suffix_append u e.2⟩
  · exact ⟨e, List.mem_cons_of_mem _ h, rfl, List.suffix_rfl⟩

end Extend

namespace Reader

variable {σ : Type} (R : Reader σ)

/-- The stretches of a text between the places where the state changes, each with the state it is read in. -/
def stretches (s : σ) : Text → List (σ × Text)
  | [] => [(s, [])]
  | c :: r =>
    match R.move s c r with
    | some s' => (s, []) :: stretches s' r
    | none => extend [c] (stretches s r)

variable {R} {s s' : σ} {c : Char} {r w t : Text}

theorem stretches_move (h : R.move s c r = some s') : R.stretches s (c :: r) = (s, []) :: R.stretches s' r := by
  rw [stretches, h]

theorem stretches_stay (h : R.move s c r = none) : R.stretches s (c :: r) = extend [c] (R.stretches s r) := by
  rw [stretches, h]

/-- The first stretch begins the text and is read in its state, and the others stand in the text. -/
theorem exists_stretches_isPrefix (R : Reader σ) (s : σ) (t : Text) :
    ∃ w l, R.stretches s t = (s, w) :: l ∧ w <+: t ∧ ∀ e ∈ l, e.2 <:+: t := by
  induction t generalizing s with
  | nil => exact ⟨[], [], rfl, List.nil_prefix, List.forall_mem_nil _⟩
  | cons c r ih =>
    have hsuffix := (List.suffix_cons c r).isInfix
    cases h : R.move s c r with
    | some s' =>
      obtain ⟨w, l, hr, hw, hl⟩ := ih s'
      refine ⟨[], (s', w) :: l, by rw [stretches_move h, hr], List.nil_prefix, ?_⟩
      exact List.forall_mem_cons.2 ⟨hw.isInfix.trans hsuffix, fun e he => (hl e he).trans hsuffix⟩
    | none =>
      obtain ⟨w, l, hr, hw, hl⟩ := ih s
      refine ⟨c :: w, l, by rw [stretches_stay h, hr]; rfl, List.cons_prefix_cons.2 ⟨rfl, hw⟩, ?_⟩
      exact fun e he => (hl e he).trans hsuffix

theorem exists_stretches (R : Reader σ) (s : σ) (t : Text) : ∃ w l, R.stretches s t = (s, w) :: l := by
  obtain ⟨w, l, ht, -, -⟩ := R.exists_stretches_isPrefix s t
  exact ⟨w, l, ht⟩

theorem isInfix_of_mem_stretches {e : σ × Text} (h : e ∈ R.stretches s t) : e.2 <:+: t := by
  obtain ⟨w, l, ht, hw, hl⟩ := R.exists_stretches_isPrefix s t
  rw [ht] at h
  rcases List.mem_cons.1 h with rfl | h
  · exact hw.isInfix
  · exact hl e h

/-- Each stretch of what follows a character is the end of a stretch of the whole. -/
theorem exists_mem_stretches {e : σ × Text} (h : e ∈ R.stretches ((R.move s c r).getD s) r) :
    ∃ e' ∈ R.stretches s (c :: r), e'.1 = e.1 ∧ e.2 <:+ e'.2 := by
  cases hmove : R.move s c r with
  | some s' =>
    rw [hmove] at h
    rw [stretches_move hmove]
    exact ⟨e, List.mem_cons_of_mem _ h, rfl, List.suffix_rfl⟩
  | none =>
    rw [hmove] at h
    rw [stretches_stay hmove]
    exact exists_mem_extend h [c]

/-- In front of what follows, the text is read without a move. -/
def Stays (R : Reader σ) (s : σ) (w t : Text) : Prop := ∀ a c b, w = a ++ c :: b → R.move s c (b ++ t) = none

theorem stretches_append (h : R.Stays s w t) : R.stretches s (w ++ t) = extend w (R.stretches s t) := by
  induction w with
  | nil =>
    obtain ⟨w, l, ht⟩ := R.exists_stretches s t
    rw [List.nil_append, ht]
    rfl
  | cons c w ih =>
    have hw : R.Stays s w t := fun a d b hw => h (c :: a) d b (by rw [hw, List.cons_append])
    rw [List.cons_append, stretches_stay (h [] c w rfl), ih hw, extend_extend]
    rfl

/-- A text without signs is read without a move. -/
theorem stays_of_not_isSign (h : ∀ c ∈ w, isSign c = false) : R.Stays s w t := by
  rintro a c b rfl
  cases hmove : R.move s c (b ++ t) with
  | none => rfl
  | some s' =>
    have hsign := R.isSign_of_move s c (b ++ t) s' hmove
    rw [h c (List.mem_append_right a List.mem_cons_self)] at hsign
    exact absurd hsign Bool.false_ne_true

end Reader

/-! ### Changes that leave the signs -/

/-- The change works on each text between signs by itself. -/
structure Piecewise (g : Text → Text) : Prop where
  signs : ∀ w c, isSign c = true → c ∈ g w → c ∈ w
  lead : ∀ t, SameLead t (g t)
  cut : ∀ w c t, isSign c = true → g (w ++ c :: t) = g w ++ c :: g t

namespace Piecewise

variable {g g' : Text → Text}

theorem comp (h : Piecewise g) (h' : Piecewise g') : Piecewise fun t => g' (g t) where
  signs w c hc hmem := h.signs w c hc (h'.signs _ c hc hmem)
  lead t := (h.lead t).trans (h'.lead (g t))
  cut w c t hc := by rw [h.cut w c t hc, h'.cut _ c _ hc]

theorem nil (h : Piecewise g) : g [] = [] := by
  rcases h.lead [] with hnil | ⟨hopens, -⟩
  · exact List.head?_eq_none_iff.1 hnil
  · exact absurd hopens Bool.false_ne_true

section Alone

variable (hg : Piecewise g)

include hg

theorem isSign_eq_false {w : Text} (hw : ∀ c ∈ w, isSign c = false) : ∀ c ∈ g w, isSign c = false := fun c hc => by
  cases hsign : isSign c with
  | false => rfl
  | true => exact hsign.symm.trans (hw c (hg.signs w c hsign hc))

/-- The change opens no interpolation. -/
theorem opens {t : Text} (h : "\x7b\x7b" <:+: g t) : "\x7b\x7b" <:+: t := by
  have hnone {w : Text} (hw : ∀ c ∈ w, isSign c = false) : '\x7b' ∉ g w := fun hmem =>
    absurd (hg.isSign_eq_false hw _ hmem) (by decide)
  induction t using signInduction with
  | free w hw => exact absurd (h.subset List.mem_cons_self) (hnone hw)
  | cut w c r hw hc ih =>
    have hrest (h : "\x7b\x7b" <:+: g r) : "\x7b\x7b" <:+: w ++ c :: r :=
      List.infix_append_of_infix_right ((ih h).trans (List.suffix_cons c r).isInfix)
    -- the second brace stands in front of the rest, where no binding starts
    have hboth (h : "\x7b\x7b" <+: c :: g r) : "\x7b\x7b" <:+: w ++ c :: r := by
      obtain ⟨z, h⟩ := h
      obtain ⟨rfl, hsecond⟩ := List.cons.inj h
      have hbrace := (hg.lead r).any_beq_eq (d := '\x7b') (by decide) (by decide)
      rw [← hsecond] at hbrace
      obtain ⟨d, hd, hsame⟩ := (Option.any_eq_true _ _).1 hbrace
      obtain rfl := beq_iff_eq.1 hsame
      obtain ⟨r, rfl⟩ := List.head?_eq_some_iff.1 hd
      exact ⟨w, r, List.append_assoc ..⟩
    rw [hg.cut w c r hc] at h
    rcases List.infix_append_iff.1 h with h | h | ⟨u, v, huv, hu, hv⟩
    · exact absurd (h.subset List.mem_cons_self) (hnone hw)
    · exact (List.infix_cons_iff.1 h).elim hboth hrest
    · cases u with
      | nil => exact hboth (huv ▸ hv)
      | cons d u =>
        obtain ⟨rfl, -⟩ := List.cons.inj huv
        exact absurd (hu.subset List.mem_cons_self) (hnone hw)

end Alone

end Piecewise

/-- A change that leaves the signs keeps the stretches, each one changed by itself. -/
theorem Reader.stretches_of_piecewise {σ : Type} (R : Reader σ) {g : Text → Text} (hg : Piecewise g) (s : σ) (t : Text) :
    R.stretches s (g t) = (R.stretches s t).map fun e => (e.1, g e.2) := by
  induction t using signInduction generalizing s with
  | free w hnone =>
    have hwhole {w : Text} (hw : ∀ c ∈ w, isSign c = false) : R.stretches s w = [(s, w)] := by
      have h := stretches_append (R := R) (s := s) (t := []) (stays_of_not_isSign hw)
      rw [List.append_nil] at h
      rw [h, stretches, extend_cons, List.append_nil]
    rw [hwhole hnone, hwhole (hg.isSign_eq_false hnone)]
    rfl
  | cut w c r hw hc ih =>
    rw [hg.cut w c r hc, stretches_append (stays_of_not_isSign (hg.isSign_eq_false hw)),
      stretches_append (stays_of_not_isSign hw)]
    have hmove := R.move_congr s c r (g r) (hg.lead r)
    cases hs : R.move s c r with
    | some s' =>
      rw [stretches_move hs, stretches_move (hmove.symm.trans hs), ih s']
      simp
    | none =>
      obtain ⟨v, l, hr⟩ := R.exists_stretches s r
      rw [stretches_stay hs, stretches_stay (hmove.symm.trans hs), ih s, hr]
      simp [hg.cut w c v hc]

/-! ### Attributes -/

/-- Where in the markup a reader is. -/
inductive Place where
  | text
  /-- In a comment or a document type, up to the first closing angle. -/
  | declaration
  | tag
  /-- Between double quotes in a tag. -/
  | value
  /-- Between single quotes in a tag. -/
  | single
deriving DecidableEq

/-- An angle opens a tag in front of a letter or a slash, or in front of a binding, which stands for a letter. -/
def opensTag (c : Char) : Bool := c.isAlpha || c == '/' || opensBinding c

/-- The next place behind a sign, if the sign leads to another one. -/
def Place.move : Place → Char → Text → Option Place
  | .text, '<', r =>
    if r.head?.any opensTag then some .tag else if r.head?.any (· == '!') then some .declaration else none
  | .declaration, '>', _ | .tag, '>', _ => some .text
  | .tag, '"', _ => some .value
  | .tag, '\'', _ => some .single
  | .value, '"', _ | .single, '\'', _ => some .tag
  | _, _, _ => none

theorem opensTag_of_opensBinding {c : Char} (h : opensBinding c = true) : opensTag c = true := by
  rw [opensTag, h, Bool.or_true]

/-- The reader of markup. -/
def markup : Reader Place where
  move := Place.move
  isSign_of_move s c r s' h := by
    unfold Place.move at h
    split at h <;> first | rfl | exact absurd h nofun
  move_congr s c r r' h := by
    have htag : r.head?.any opensTag = r'.head?.any opensTag :=
      h.any_head?_eq fun c hc => opensTag_of_opensBinding hc
    have hdecl := h.any_beq_eq (d := '!') (by decide) (by decide)
    unfold Place.move
    split <;> first | rw [htag, hdecl] | rfl

/-- A double-quoted value of an attribute, with what stands in front of it since the last quote or the start of the tag. -/
structure Attribute where
  front : Text
  value : Text
deriving DecidableEq

/-- The attributes among the stretches behind a first one. The last stretch is not ended, so it is no value. -/
def attributesOf : Text → List (Place × Text) → List Attribute
  | front, (s, w) :: e :: l => (if s = .value then [⟨front, w⟩] else []) ++ attributesOf w (e :: l)
  | _, [_] | _, [] => []

theorem attributesOf_map (g : Text → Text) (front : Text) (l : List (Place × Text)) :
    attributesOf (g front) (l.map fun e => (e.1, g e.2))
      = (attributesOf front l).map fun a => ⟨g a.front, g a.value⟩ := by
  induction l generalizing front with
  | nil => rfl
  | cons e l ih =>
    obtain ⟨s, w⟩ := e
    cases l with
    | nil => rfl
    | cons e l =>
      rw [attributesOf, List.map_append, ← ih w, List.map_cons, List.map_cons, attributesOf]
      split <;> rfl

section Members

variable {front w : Text} {s : Place} {e : Place × Text} {l : List (Place × Text)} {a : Attribute}

theorem mem_attributesOf_cons :
    a ∈ attributesOf front ((s, w) :: e :: l) ↔ s = .value ∧ a = ⟨front, w⟩ ∨ a ∈ attributesOf w (e :: l) := by
  rw [attributesOf, List.mem_append]
  refine or_congr_left ?_
  split <;> simp [*]

/-- A value among the attributes has been read as one, and what stands in front of it is the stretch before it. -/
theorem mem_of_mem_attributesOf (h : a ∈ attributesOf front l) :
    (.value, a.value) ∈ l ∧ (a.front = front ∨ ∃ s, (s, a.front) ∈ l) := by
  induction l generalizing front with
  | nil => exact absurd h List.not_mem_nil
  | cons e l ih =>
    obtain ⟨s, w⟩ := e
    cases l with
    | nil => exact absurd h List.not_mem_nil
    | cons e l =>
      rcases mem_attributesOf_cons.1 h with ⟨rfl, rfl⟩ | h
      · exact ⟨List.mem_cons_self, .inl rfl⟩
      · obtain ⟨hvalue, hfront⟩ := ih h
        refine ⟨List.mem_cons_of_mem _ hvalue, .inr ?_⟩
        rcases hfront with hfront | ⟨s', hs'⟩
        · exact ⟨s, hfront ▸ List.mem_cons_self⟩
        · exact ⟨s', List.mem_cons_of_mem _ hs'⟩

/-- With another text in front, the attributes are the same but for the front of the first one. -/
theorem exists_mem_attributesOf (front' : Text) (h : a ∈ attributesOf front l) {P : Text → Prop}
    (hfront : P front → P front') :
    ∃ a' ∈ attributesOf front' l, a'.value = a.value ∧ (P a.front → P a'.front) := by
  match l with
  | [] | [_] => exact absurd h List.not_mem_nil
  | (s, w) :: e :: l =>
    rcases mem_attributesOf_cons.1 h with ⟨rfl, rfl⟩ | h
    · exact ⟨⟨front', w⟩, mem_attributesOf_cons.2 (.inl ⟨rfl, rfl⟩), rfl, hfront⟩
    · exact ⟨a, mem_attributesOf_cons.2 (.inr h), rfl, id⟩

/-- With a longer text, the first value or the front of the second one is longer. -/
theorem exists_mem_attributesOf_extend (u : Text) (h : a ∈ attributesOf front l) {P : Text → Prop}
    (hP : ∀ w, P w → P (u ++ w)) :
    ∃ a' ∈ attributesOf front (extend u l), a.value <:+ a'.value ∧ (P a.front → P a'.front) := by
  match l with
  | [] | [_] => exact absurd h List.not_mem_nil
  | (s, w) :: e :: l =>
    rw [extend_cons]
    rcases mem_attributesOf_cons.1 h with ⟨rfl, rfl⟩ | h
    · exact ⟨⟨front, u ++ w⟩, mem_attributesOf_cons.2 (.inl ⟨rfl, rfl⟩), List.suffix_append u w, id⟩
    · obtain ⟨a', ha', hvalue, hfront⟩ := exists_mem_attributesOf _ h (hP w)
      exact ⟨a', mem_attributesOf_cons.2 (.inr ha'), hvalue ▸ List.suffix_rfl, hfront⟩

end Members

/-- The attributes of a template that have a double-quoted value. -/
def attributes (t : Text) : List Attribute := attributesOf [] (markup.stretches .text t)

/-- What stands in front of a value makes it the value of a `*ngFor`. -/
def NamesRepetition (front : Text) : Prop :=
  ∃ x s s', s.all isBlank = true ∧ s'.all isBlank = true ∧ front = x ++ ("*ngFor" ++ (s ++ '=' :: s'))

theorem NamesRepetition.append {front : Text} (h : NamesRepetition front) (w : Text) : NamesRepetition (w ++ front) := by
  obtain ⟨x, s, s', hs, hs', rfl⟩ := h
  exact ⟨w ++ x, s, s', hs, hs', (List.append_assoc ..).symm⟩

theorem not_namesRepetition_nil : ¬ NamesRepetition [] := by
  rintro ⟨x, s, s', -, -, h⟩
  exact absurd (List.append_eq_nil_iff.1 h.symm).2 nofun

theorem NamesRepetition.isInfix {front : Text} (h : NamesRepetition front) : "*ngFor" <:+: front := by
  obtain ⟨x, s, s', -, -, rfl⟩ := h
  exact ⟨x, s ++ '=' :: s', List.append_assoc ..⟩

/-! ### Interpolations -/

/-- On which side of the braces of an interpolation a reader is. -/
inductive Side where
  | outside
  /-- Between the opening braces. -/
  | opening
  | inside
  /-- Between the closing braces. -/
  | closing
deriving DecidableEq

/-- The next side behind a brace, if the brace leads to another one. -/
def Side.move : Side → Char → Text → Option Side
  | .outside, '\x7b', r => if r.head?.any (· == '\x7b') then some .opening else none
  | .opening, '\x7b', _ => some .inside
  | .inside, '\x7d', r => if r.head?.any (· == '\x7d') then some .closing else none
  | .closing, '\x7d', _ => some .outside
  | _, _, _ => none

/-- The reader of interpolations. -/
def braces : Reader Side where
  move := Side.move
  isSign_of_move s c r s' h := by
    unfold Side.move at h
    split at h <;> first | rfl | exact absurd h nofun
  move_congr s c r r' h := by
    have hopen := h.any_beq_eq (d := '\x7b') (by decide) (by decide)
    have hclose := h.any_beq_eq (d := '\x7d') (by decide) (by decide)
    unfold Side.move
    split <;> first | rw [hopen] | rw [hclose] | rfl

/-- The texts inside of braces among the stretches. The last stretch is not ended. -/
def insidesOf : List (Side × Text) → List Text
  | (s, w) :: e :: l => (if s = .inside then [w] else []) ++ insidesOf (e :: l)
  | [_] | [] => []

/-- A text among the insides has been read as one. -/
theorem mem_of_mem_insidesOf {l : List (Side × Text)} {w : Text} (h : w ∈ insidesOf l) : (.inside, w) ∈ l := by
  induction l with
  | nil => exact absurd h List.not_mem_nil
  | cons e l ih =>
    obtain ⟨s, v⟩ := e
    cases l with
    | nil => exact absurd h List.not_mem_nil
    | cons e l =>
      rw [insidesOf] at h
      rcases List.mem_append.1 h with h | h
      · split at h
        · next hs =>
          obtain rfl := List.mem_singleton.1 h
          exact hs ▸ List.mem_cons_self
        · exact absurd h List.not_mem_nil
      · exact List.mem_cons_of_mem _ (ih h)

/-- The expressions of a template between double braces. -/
def interpolations (t : Text) : List Text := insidesOf (braces.stretches .outside t)

end SnippetPreview.Angular
