import SnippetPreview.Proofs.Document.Completion
import SnippetPreview.Proofs.Document.Escaping

/-!
# Reading the scripts of a document

* `Letters`: what counts as the same letter, for a browser and for a pattern;
* `cutAt?`: a text cut at the first occurrence of a word;
* `scriptsIn`: the script elements of a document, read from left to right;
* `scriptsIn_element`: an element is read, as long as its content has no closing tag;
* `Scriptless`, `IsPassed`, `IsPassed.scriptsIn_append`: texts without an opening tag, and those behind which a reader
  starts afresh.
-/

namespace SnippetPreview

/-- What counts as the same letter. -/
inductive Letters where
  /-- ASCII capitals and small letters, as in a browser. -/
  | ascii
  /-- All that folds to an ASCII letter, as in a pattern. -/
  | folded
deriving DecidableEq

def Letters.fold : Letters → Char → Char
  | ascii => Char.toLower
  | folded => foldCase

/-! ### The reader -/

def openingTag : Text := "<script"

theorem openingTag_eq : openingTag = '<' :: "script".toList := rfl

theorem closingTag_eq : closingTag = '<' :: "/script".toList := rfl

/-- The text in front of the first occurrence of a word, up to `fold`, and what follows the word. -/
def cutAt? (fold : Char → Char) (word : Text) : Text → Option (Text × Text)
  | [] => none
  | c :: t =>
    if word.isPrefixOf ((c :: t).map fold) then some ([], (c :: t).drop word.length)
    else (cutAt? fold word t).map fun (before, rest) => (c :: before, rest)

/-- What follows a word is shorter than the text, as long as the word has a character. -/
theorem length_lt_of_cutAt? {fold : Char → Char} {word t : Text} {cut : Text × Text} (h : cutAt? fold word t = some cut)
    (hword : word ≠ []) : cut.2.length < t.length := by
  induction t generalizing cut with
  | nil => exact absurd h nofun
  | cons c t ih =>
    rw [cutAt?] at h
    split at h
    · obtain rfl := Option.some.inj h
      have hpos := List.length_pos_iff.2 hword
      simp only [List.length_drop, List.length_cons]
      omega
    · obtain ⟨cut', hcut', rfl⟩ := Option.map_eq_some_iff.1 h
      have hlt := ih hcut'
      simp only [List.length_cons]
      omega

/-- A script element as a reader finds it. -/
structure ScriptRead where
  /-- What stands in the opening tag behind its name. -/
  attributes : Text
  content : Text
deriving DecidableEq, Repr

/-- The next script element and what follows its closing tag: the next opening tag, up to its closing angle, and the text
up to the next closing tag. A content that is not closed goes on to the end. -/
def nextScript? (l : Letters) (t : Text) : Option (ScriptRead × Text) := do
  let (_, opened) ← cutAt? l.fold openingTag t
  let (attributes, inside) ← cutAt? id ">" opened
  let (content, rest) := (cutAt? l.fold closingTag inside).getD (inside, [])
  return (⟨attributes, content⟩, rest)

theorem length_lt_of_nextScript? {l : Letters} {t : Text} {found : ScriptRead × Text} (h : nextScript? l t = some found) :
    found.2.length < t.length := by
  unfold nextScript? at h
  obtain ⟨⟨_, opened⟩, hopen, h⟩ := Option.bind_eq_some_iff.1 h
  obtain ⟨⟨_, inside⟩, hangle, h⟩ := Option.bind_eq_some_iff.1 h
  obtain rfl := Option.some.inj h
  have hopened := length_lt_of_cutAt? hopen (by decide)
  have hinside := length_lt_of_cutAt? hangle (by decide)
  dsimp only at hopened hinside ⊢
  cases hclose : cutAt? l.fold closingTag inside with
  | none => exact Nat.lt_of_le_of_lt (Nat.zero_le _) hopened
  | some cut =>
    have hrest := length_lt_of_cutAt? hclose (by decide)
    show cut.2.length < t.length
    omega

/-- The script elements of a document, read from left to right. -/
def scriptsIn (l : Letters) (t : Text) : List ScriptRead :=
  match _h : nextScript? l t with
  | none => []
  | some (s, rest) => s :: scriptsIn l rest
termination_by t.length
decreasing_by exact length_lt_of_nextScript? _h

theorem scriptsIn_of_none {l : Letters} {t : Text} (h : nextScript? l t = none) : scriptsIn l t = [] := by
  rw [scriptsIn]
  split
  · rfl
  · next h' => exact absurd (h.symm.trans h') nofun

theorem scriptsIn_of_some {l : Letters} {t rest : Text} {s : ScriptRead} (h : nextScript? l t = some (s, rest)) :
    scriptsIn l t = s :: scriptsIn l rest := by
  rw [scriptsIn]
  split
  · next h' => exact absurd (h.symm.trans h') nofun
  · next h' =>
    obtain ⟨rfl, rfl⟩ := Prod.mk.inj (Option.some.inj (h.symm.trans h'))
    rfl

/-- What is found next decides what is read. -/
theorem scriptsIn_congr {l : Letters} {t t' : Text} (h : nextScript? l t = nextScript? l t') :
    scriptsIn l t = scriptsIn l t' := by
  cases ht : nextScript? l t' with
  | none => rw [scriptsIn_of_none ht, scriptsIn_of_none (h.trans ht)]
  | some found => rw [scriptsIn_of_some ht, scriptsIn_of_some (h.trans ht)]

section Cutting

variable {fold : Char → Char} {word x y u : Text}

/-- In front of a text that is parted in two, a word stands in the first part or covers it. -/
theorem prefix_append_cases {w x y : Text} (h : w <+: x ++ y) : w <+: x ∨ ∃ v, w = x ++ v ∧ v <+: y := by
  rcases List.prefix_or_prefix_of_prefix h (List.prefix_append x y) with hw | ⟨v, rfl⟩
  · exact .inl hw
  · exact .inr ⟨v, rfl, (List.prefix_append_right_inj x).1 h⟩

theorem cutAt?_cons_of_not {c : Char} {t : Text} (h : ¬ word <+: (c :: t).map fold) :
    cutAt? fold word (c :: t) = (cutAt? fold word t).map fun cut => (c :: cut.1, cut.2) := by
  rw [← List.isPrefixOf_iff_prefix] at h
  rw [cutAt?, if_neg h]

/-- The first occurrence of a word is found. The first letter of the word stands nowhere else in it, so no occurrence
begins before that and ends behind. -/
theorem cutAt?_append {a : Char} {rest : Text} (hword : word = a :: rest) (ha : a ∉ rest) (hu : u.map fold = word)
    (hx : ¬ word <:+: x.map fold) : cutAt? fold word (x ++ (u ++ y)) = some (x, y) := by
  induction x with
  | nil =>
    cases u with
    | nil => exact absurd (hu.trans hword) nofun
    | cons c u =>
      have hlen : word.length = (c :: u).length := by rw [← hu, List.length_map]
      have hpre : word.isPrefixOf ((c :: (u ++ y)).map fold) = true := by
        rw [List.isPrefixOf_iff_prefix, ← hu, ← List.cons_append, List.map_append]
        exact List.prefix_append _ _
      rw [List.nil_append, List.cons_append, cutAt?, if_pos hpre, hlen, ← List.cons_append, List.drop_left]
  | cons c x ih =>
    have hpre : ¬ word <+: (c :: (x ++ (u ++ y))).map fold := by
      intro h
      rw [← List.cons_append, List.map_append, List.map_append, hu] at h
      rcases prefix_append_cases h with h | ⟨v, hv, hpre⟩
      · exact hx h.isInfix
      · cases v with
        | nil =>
          rw [List.append_nil] at hv
          exact hx (hv ▸ List.infix_rfl)
        | cons b v =>
          rw [hword] at hpre hv
          obtain ⟨rfl, -⟩ := List.cons_prefix_cons.1 hpre
          rw [List.map_cons, List.cons_append] at hv
          exact ha ((List.cons.inj hv).2 ▸ List.mem_append_right _ List.mem_cons_self)
    have htail : ¬ word <:+: x.map fold := fun h => hx (h.trans (List.suffix_cons _ _).isInfix)
    rw [List.cons_append, cutAt?_cons_of_not hpre, ih htail]
    rfl

/-- Text without the word, up to a character that the word has not, lies in front of all its occurrences. -/
theorem cutAt?_skip {c : Char} (hword : word ≠ []) (hc : fold c ∉ word) (hx : ¬ word <:+: x.map fold) :
    cutAt? fold word (x ++ c :: y) = (cutAt? fold word y).map fun cut => (x ++ c :: cut.1, cut.2) := by
  induction x with
  | nil =>
    have hpre : ¬ word <+: (c :: y).map fold := fun h => hword (eq_nil_of_prefix_cons hc h)
    exact cutAt?_cons_of_not hpre
  | cons b x ih =>
    have hpre : ¬ word <+: (b :: (x ++ c :: y)).map fold := by
      rw [← List.cons_append, List.map_append, List.map_cons]
      intro h
      rcases prefix_append_cases h with h | ⟨v, hv, hpre⟩
      · exact hx h.isInfix
      · have hnil : v = [] := eq_nil_of_prefix_cons (fun hmem => hc (hv ▸ List.mem_append_right _ hmem)) hpre
        rw [hnil, List.append_nil] at hv
        exact hx (hv ▸ List.infix_rfl)
    have htail : ¬ word <:+: x.map fold := fun h => hx (h.trans (List.suffix_cons _ _).isInfix)
    rw [List.cons_append, cutAt?_cons_of_not hpre, ih htail, Option.map_map]
    rfl

theorem cutAt?_angle (hx : '>' ∉ x) (y : Text) : cutAt? id ">" (x ++ '>' :: y) = some (x, y) := by
  refine cutAt?_append (u := ['>']) rfl List.not_mem_nil rfl ?_
  rw [List.map_id]
  exact fun h => hx (h.subset List.mem_cons_self)

end Cutting

/-! ### One element after the other -/

section Reading

variable {l : Letters} {x y t : Text}

/-- Letters that are the same for a browser are the same for a pattern. -/
theorem Letters.foldCase_eq (l : Letters) {d : Char} (hd : d ∈ closingTag) {c : Char} (h : l.fold c = d) :
    foldCase c = d := by
  have hs : 'ſ'.toLower ∉ closingTag := by decide
  have hk : '\u212a'.toLower ∉ closingTag := by decide
  cases l with
  | folded => exact h
  | ascii =>
    change c.toLower = d at h
    subst h
    unfold foldCase
    split
    · next hc => exact absurd (hc ▸ hd) hs
    · split
      · next hc => exact absurd (hc ▸ hd) hk
      · rfl

theorem map_fold_openingTag (l : Letters) : openingTag.map l.fold = openingTag := by
  cases l <;> decide

theorem map_fold_closingTag (l : Letters) : closingTag.map l.fold = closingTag := by
  cases l <;> decide

/-- No opening tag of a script stands in the text. -/
def Scriptless (l : Letters) (t : Text) : Prop := ¬ openingTag <:+: t.map l.fold

theorem scriptless_iff : Scriptless l t ↔ Text.contains (t.map l.fold) openingTag = false := by
  unfold Scriptless
  rw [← Bool.not_eq_true, Text.contains_iff]
  exact not_congr ⟨fun ⟨u, v, h⟩ => ⟨u, v, h.symm⟩, fun ⟨u, v, h⟩ => ⟨u, v, h.symm⟩⟩

instance (l : Letters) (t : Text) : Decidable (Scriptless l t) := decidable_of_iff _ scriptless_iff.symm

/-- A character that stands in no tag of a script. -/
def partsTags (c : Char) : Bool := c ∈ [' ', '\n', '>']

/-- A character that can stand in an opening tag behind the angle. -/
def goesOn (l : Letters) (c : Char) : Bool := l.fold c ∈ "script".toList

theorem Letters.not_mem_of_partsTags (l : Letters) {c : Char} (hc : partsTags c = true) : l.fold c ∉ openingTag := by
  have hall : ([' ', '\n', '>'].all fun c => decide (c.toLower ∉ openingTag ∧ foldCase c ∉ openingTag)) = true := by decide
  have hnone := of_decide_eq_true (List.all_eq_true.1 hall c (of_decide_eq_true hc))
  cases l with
  | ascii => exact hnone.1
  | folded => exact hnone.2

theorem scriptless_nil (l : Letters) : Scriptless l [] := by
  cases l <;> decide

theorem Scriptless.of_isInfix (hy : Scriptless l y) (h : x <:+: y) : Scriptless l x :=
  fun hx => hy (hx.trans (h.map l.fold))

theorem scriptless_append_cons {c : Char} (hc : partsTags c = true) :
    Scriptless l (x ++ c :: y) ↔ Scriptless l x ∧ Scriptless l y := by
  unfold Scriptless
  rw [List.map_append, List.map_cons, infix_append_cons (l.not_mem_of_partsTags hc), not_or]

/-- A text whose first character does not go on with a tag can follow another. -/
theorem Scriptless.append (hx : Scriptless l x) (hy : Scriptless l y)
    (hhead : y.head?.any (goesOn l) = false) : Scriptless l (x ++ y) := by
  intro h
  rw [List.map_append] at h
  rcases List.infix_append_iff.1 h with h | h | ⟨v, w, hvw, hv, hw⟩
  · exact hx h
  · exact hy h
  · cases v with
    | nil => exact hy (hvw ▸ hw.isInfix)
    | cons a v =>
      cases w with
      | nil =>
        rw [List.append_nil] at hvw
        exact hx (hvw ▸ hv.isInfix)
      | cons b w =>
        cases y with
        | nil => exact absurd (List.prefix_nil.1 hw) (List.cons_ne_nil _ _)
        | cons c y =>
          obtain ⟨rfl, -⟩ := List.cons_prefix_cons.1 hw
          rw [openingTag_eq, List.cons_append] at hvw
          have hmem : l.fold c ∈ "script".toList := by
            rw [(List.cons.inj hvw).2]
            exact List.mem_append_right _ List.mem_cons_self
          exact absurd hmem (of_decide_eq_false hhead)

/-- A text behind which a reader starts afresh: it has no opening tag, and none can begin in it. -/
def IsPassed (l : Letters) (t : Text) : Prop := Scriptless l t ∧ t.getLast?.any partsTags = true

instance (l : Letters) (t : Text) : Decidable (IsPassed l t) := inferInstanceAs (Decidable (_ ∧ _))

theorem IsPassed.exists_last (h : IsPassed l x) : ∃ v c, x = v ++ [c] ∧ partsTags c = true := by
  obtain ⟨c, hc, hparts⟩ := (Option.any_eq_true _ _).1 h.2
  obtain ⟨v, rfl⟩ := List.getLast?_eq_some_iff.1 hc
  exact ⟨v, c, rfl, hparts⟩

theorem IsPassed.scriptless_append (hx : IsPassed l x) (hy : Scriptless l y) : Scriptless l (x ++ y) := by
  obtain ⟨v, c, rfl, hc⟩ := hx.exists_last
  rw [List.append_assoc]
  exact (scriptless_append_cons hc).2 ⟨hx.1.of_isInfix List.infix_append_left, hy⟩

theorem IsPassed.append (hx : IsPassed l x) (hy : IsPassed l y) : IsPassed l (x ++ y) := by
  refine ⟨hx.scriptless_append hy.1, ?_⟩
  obtain ⟨v, c, rfl, hc⟩ := hy.exists_last
  rw [← List.append_assoc, List.getLast?_concat]
  exact hc

/-- A text that may stand behind any text without an opening tag. -/
def IsCloser (l : Letters) (t : Text) : Prop := IsPassed l t ∧ t.head?.any (goesOn l) = false

instance (l : Letters) (t : Text) : Decidable (IsCloser l t) := inferInstanceAs (Decidable (_ ∧ _))

/-- A text between two others that begin and end well. -/
theorem IsPassed.enclose (hx : IsPassed l x) (ht : Scriptless l t) (hy : IsCloser l y) : IsPassed l (x ++ t ++ y) := by
  refine ⟨(hx.scriptless_append ht).append hy.1.1 hy.2, ?_⟩
  obtain ⟨v, c, rfl, hc⟩ := hy.1.exists_last
  rw [← List.append_assoc, List.getLast?_concat]
  exact hc

/-- Such a text is passed over. -/
theorem IsPassed.scriptsIn_append (hx : IsPassed l x) (y : Text) : scriptsIn l (x ++ y) = scriptsIn l y := by
  obtain ⟨v, c, rfl, hc⟩ := hx.exists_last
  refine scriptsIn_congr ?_
  have hv : ¬ openingTag <:+: v.map l.fold := hx.1.of_isInfix List.infix_append_left
  rw [List.append_assoc]
  unfold nextScript?
  rw [List.singleton_append, cutAt?_skip (by decide) (l.not_mem_of_partsTags hc) hv]
  cases cutAt? l.fold openingTag y with
  | none => rfl
  | some cut => rfl

/-- A text without an opening tag has no scripts. -/
theorem scriptsIn_nil : scriptsIn l [] = [] := scriptsIn_of_none rfl

/-- An element is read as its attributes and its content. -/
theorem scriptsIn_element {attributes content : Text} (hattributes : '>' ∉ attributes)
    (hcontent : ¬ closingTag <:+: content.map l.fold) (y : Text) :
    scriptsIn l (openingTag ++ (attributes ++ ('>' :: (content ++ (closingTag ++ y)))))
      = ⟨attributes, content⟩ :: scriptsIn l y := by
  refine scriptsIn_of_some ?_
  have hopen : ∀ t, cutAt? l.fold openingTag (openingTag ++ t) = some ([], t) := fun t =>
    cutAt?_append (x := []) openingTag_eq (by decide) (map_fold_openingTag l)
      fun h => absurd (List.infix_nil.1 h) (by decide)
  have hangle : cutAt? id ">" (attributes ++ ('>' :: (content ++ (closingTag ++ y))))
      = some (attributes, content ++ (closingTag ++ y)) := cutAt?_angle hattributes _
  have hclose : cutAt? l.fold closingTag (content ++ (closingTag ++ y)) = some (content, y) :=
    cutAt?_append closingTag_eq (by decide) (map_fold_closingTag l) hcontent
  unfold nextScript?
  rw [hopen]
  show (cutAt? id ">" _ >>= _) = _
  rw [hangle]
  show some (_, _) = _
  rw [hclose]

end Reading

end SnippetPreview
