import SnippetPreview.Proofs.Markup.Entities
import SnippetPreview.Proofs.Text.Separators

/-!
# Pages with blanks

* `PageForm`: a page with blanks that values are written into;
* `PageForm.fill`, `PageForm.markupSigns_fill`: when the values are escaped, the signs of the page are those of the form,
  whatever the values are;
* `PageForm.read?`, `PageForm.read?_fill`: a reader who knows the form takes the values back;
* `PageForm.readEach`, `PageForm.readEach_fill`: the same for a form that is filled many times in a row.
-/

namespace SnippetPreview

/-- A page with blanks: the text in front of the first one, and the text behind each of them. -/
structure PageForm where
  front : Text
  blanks : List Text

namespace PageForm

/-! ### Filling -/

/-- The blanks with values written into them, and the texts behind. A blank without a value stays empty. -/
def fillBlanks (escape : Char → Text) : List Text → List Text → Text
  | [], _ => []
  | behind :: rest, [] => behind ++ fillBlanks escape rest []
  | behind :: rest, value :: values => value.flatMap escape ++ (behind ++ fillBlanks escape rest values)

/-- The form with values written into its blanks. -/
def fill (f : PageForm) (escape : Char → Text) (values : List Text) : Text := f.front ++ fillBlanks escape f.blanks values

/-- The signs of the form itself. -/
def signs (f : PageForm) : Text := markupSigns f.front ++ f.blanks.flatMap markupSigns

/-! ### Reading -/

/-- What a text has in front of its first sign. -/
def lead (behind : Text) : Text := behind.takeWhile fun c => !isMarkupSign c

/-- The value of a blank and what stands behind the text that follows the blank. The value ends in front of a sign, and of
what that text has in front of its own first sign. -/
def readBlank? (behind t : Text) : Option (Text × Text) :=
  let piece := t.takeWhile fun c => !isMarkupSign c
  let value := piece.take (piece.length - (lead behind).length)
  (Text.stripLead? behind (t.drop value.length)).map (unescapeMarkup value, ·)

def readBlanks? : List Text → Text → Option (List Text × Text)
  | [], t => some ([], t)
  | behind :: rest, t => do
    let (value, t) ← readBlank? behind t
    let (values, t) ← readBlanks? rest t
    return (value :: values, t)

/-- The values in the blanks of a form at the start of a text, and what follows the form. -/
def read? (f : PageForm) (t : Text) : Option (List Text × Text) :=
  (Text.stripLead? f.front t).bind (readBlanks? f.blanks)

/-- The values of at most `n` filled forms, one behind the other. -/
def readAtMost (f : PageForm) : Nat → Text → List (List Text)
  | 0, _ => []
  | n + 1, t =>
    match f.read? t with
    | none => []
    | some (values, rest) => values :: f.readAtMost n rest

/-- The values of all filled forms at the start of a text, one behind the other. -/
def readEach (f : PageForm) (t : Text) : List (List Text) := f.readAtMost t.length t

/-- Behind each blank there is a sign, so that a reader sees where the value ends. -/
def IsLegible (f : PageForm) : Prop := ∀ behind ∈ f.blanks, behind.any isMarkupSign = true

instance (f : PageForm) : Decidable f.IsLegible := inferInstanceAs (Decidable (∀ behind ∈ f.blanks, _))

section

variable {escape : Char → Text} (h : IsEscape escape) (f : PageForm)

include h

theorem markupSigns_fillBlanks (blanks values : List Text) :
    markupSigns (fillBlanks escape blanks values) = blanks.flatMap markupSigns := by
  induction blanks generalizing values with
  | nil => rfl
  | cons behind blanks ih =>
    cases values with
    | nil => rw [fillBlanks, markupSigns_append, ih, List.flatMap_cons]
    | cons value values =>
      rw [fillBlanks, markupSigns_append, markupSigns_append, ih, h.markupSigns_flatMap, List.flatMap_cons]
      rfl

/-- The signs of a filled form are those of the form. -/
theorem markupSigns_fill (values : List Text) : markupSigns (f.fill escape values) = f.signs := by
  rw [fill, markupSigns_append, markupSigns_fillBlanks h, signs]

theorem readBlank?_append {behind : Text} (hbehind : behind.any isMarkupSign = true) (value t : Text) :
    readBlank? behind (value.flatMap escape ++ (behind ++ t)) = some (value, t) := by
  -- the piece up to the first sign is the value with the lead of the text behind it
  have hpiece : (value.flatMap escape ++ (behind ++ t)).takeWhile (fun c => !isMarkupSign c)
      = value.flatMap escape ++ lead behind := by
    have hsignless : ∀ c ∈ value.flatMap escape, (!isMarkupSign c) = true := by
      intro c hc
      rw [markupSigns_eq_nil_iff.1 (h.markupSigns_flatMap value) c hc]
      rfl
    obtain ⟨c, hc, hsign⟩ := List.any_eq_true.1 hbehind
    rw [List.takeWhile_append_of_pos hsignless, List.takeWhile_append, if_neg, lead]
    intro hwhole
    have hall := List.takeWhile_eq_self_iff.1 ((List.takeWhile_prefix _).eq_of_length hwhole) c hc
    rw [hsign] at hall
    exact absurd hall nofun
  have hvalue : (value.flatMap escape ++ lead behind).take
      ((value.flatMap escape ++ lead behind).length - (lead behind).length) = value.flatMap escape := by
    rw [List.length_append, Nat.add_sub_cancel, List.take_left]
  rw [readBlank?, hpiece, hvalue, List.drop_left, Text.stripLead?_append, h.unescapeMarkup_flatMap]
  rfl

theorem readBlanks?_append {blanks values : List Text} (hblanks : ∀ behind ∈ blanks, behind.any isMarkupSign = true)
    (hlength : values.length = blanks.length) (t : Text) :
    readBlanks? blanks (fillBlanks escape blanks values ++ t) = some (values, t) := by
  induction blanks generalizing values with
  | nil =>
    rw [List.length_eq_zero_iff.1 hlength]
    rfl
  | cons behind blanks ih =>
    obtain ⟨value, values, rfl⟩ := List.exists_cons_of_length_eq_add_one hlength
    obtain ⟨hbehind, hblanks⟩ := List.forall_mem_cons.1 hblanks
    rw [fillBlanks, List.append_assoc, List.append_assoc, readBlanks?, readBlank?_append h hbehind]
    simp only [Option.bind_eq_bind, Option.bind_some]
    rw [ih hblanks (Nat.succ.inj hlength)]
    rfl

variable {f}

/-- The values are taken back, whatever follows the form. -/
theorem read?_fill (hf : f.IsLegible) {values : List Text} (hlength : values.length = f.blanks.length) (t : Text) :
    f.read? (f.fill escape values ++ t) = some (values, t) := by
  rw [read?, fill, List.append_assoc, Text.stripLead?_append]
  exact readBlanks?_append h hf hlength t

theorem readAtMost_fill (hf : f.IsLegible) {rows : List (List Text)}
    (hlength : ∀ values ∈ rows, values.length = f.blanks.length) {t : Text} (ht : f.read? t = none) {n : Nat}
    (hn : rows.length ≤ n) : f.readAtMost n (rows.flatMap (f.fill escape) ++ t) = rows := by
  induction rows generalizing n with
  | nil =>
    cases n with
    | zero => rfl
    | succ n => rw [readAtMost, List.flatMap_nil, List.nil_append, ht]
  | cons values rows ih =>
    obtain ⟨n, rfl⟩ := Nat.exists_eq_add_one.2 (Nat.lt_of_lt_of_le (Nat.succ_pos _) hn)
    obtain ⟨hvalues, hrows⟩ := List.forall_mem_cons.1 hlength
    rw [readAtMost, List.flatMap_cons, List.append_assoc, read?_fill h hf hvalues]
    dsimp only
    rw [ih hrows (by simpa using hn)]

/-- The values of forms in a row are taken back, up to a text that is no filled form. -/
theorem readEach_fill (hf : f.IsLegible) (hfront : f.front ≠ []) {rows : List (List Text)}
    (hlength : ∀ values ∈ rows, values.length = f.blanks.length) {t : Text} (ht : f.read? t = none) :
    f.readEach (rows.flatMap (f.fill escape) ++ t) = rows := by
  refine readAtMost_fill h hf hlength ht ?_
  -- each form takes a character at least
  have hform : ∀ values, 1 ≤ (f.fill escape values).length := by
    intro values
    have hpos := List.length_pos_iff.2 hfront
    rw [fill, List.length_append]
    omega
  clear hlength
  induction rows with
  | nil => exact Nat.zero_le _
  | cons values rows ih =>
    have hvalues := hform values
    simp only [List.flatMap_cons, List.length_append, List.length_cons] at ih ⊢
    omega

end

end PageForm

end SnippetPreview
