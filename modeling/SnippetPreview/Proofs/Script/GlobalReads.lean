import Mathlib.Data.List.Infix
import SnippetPreview.Proofs.Script.Specifiers
import SnippetPreview.Text.Word

/-!
# Reads from a global

A declaration such as `const { a, b: c } = Vue` reads names from a browser global.

* `readList?`: the list in the braces of the declaration that a text starts with, part by part;
* `readLists`: the lists of all declarations of a script, each search going on behind the last one;
* `isOpening`, `isSettled`: the text ends within a declaration; no end of the text is the beginning of one;
* `Ends`: no declaration can go on in the text, whatever stands in front;
* `readLists_append_of_isSettled`, `readLists_append_of_ends`: in both cases the declarations of the parts are those of the
  whole. All that is known of the declarations of a script comes from these two laws;
* `readLists_declaration`: what a declaration that is written out adds.
-/

namespace SnippetPreview.Script

/-! ### One declaration -/

/-- What follows the word that begins a declaration. -/
def behindDeclarator? (t : Text) : Option Text :=
  (["const", "let", "var"] : List Text).findSome? fun word => Text.stripLead? word t

/-- What follows the sign `c`, with blanks in front of it. -/
def behindSign? (c : Char) (t : Text) : Option Text :=
  match t.trimStart with
  | [] => none
  | d :: r => if d = c then some r else none

/-- The text in front of the first closing brace and what follows the brace. -/
def splitAtBrace? : Text → Option (Text × Text)
  | [] => none
  | c :: t => if c = '\x7d' then some ([], t) else (splitAtBrace? t).map fun (list, r) => (c :: list, r)

/-- What follows the global, which is a word of its own. -/
def behindGlobal? (g t : Text) : Option Text :=
  (Text.stripLead? g t.trimStart).filter fun r => !r.head?.any isWord

/-- What follows the assignment of the global. -/
def behindAssignment? (g t : Text) : Option Text := (behindSign? '=' t).bind (behindGlobal? g)

/-- A list up to its closing brace, and what follows the assignment behind it. -/
def closedList? (g t : Text) : Option (Text × Text) :=
  (splitAtBrace? t).bind fun (list, r) => (behindAssignment? g r).map (list, ·)

def bracedList? (g t : Text) : Option (Text × Text) := (behindSign? '\x7b' t).bind (closedList? g)

/-- The list of names that the declaration in front of a text reads from the global, and what follows the declaration. -/
def readList? (g t : Text) : Option (Text × Text) := (behindDeclarator? t).bind (bracedList? g)

/-- A global goes by a name of word characters. -/
structure IsGlobal (g : Text) : Prop where
  ne_nil : g ≠ []
  isWord : g.all isWord = true

/-! ### Longer texts -/

/-- No word reaches from the one text into the other. -/
def Apart (t rest : Text) : Prop := t.getLast?.any isWord = true → rest.head?.any isWord = false

theorem Apart.of_suffix {t t' rest : Text} (h : Apart t rest) (ht : t' <:+ t) : Apart t' rest := by
  intro hlast
  refine h ?_
  obtain ⟨u, rfl⟩ := ht
  rw [List.getLast?_append]
  cases hl : t'.getLast? with
  | none => rw [hl] at hlast; exact absurd hlast Bool.false_ne_true
  | some c => rw [hl] at hlast; exact hlast

theorem eq_append_of_stripLead? {lead t r : Text} (h : Text.stripLead? lead t = some r) : t = lead ++ r := by
  unfold Text.stripLead? at h
  split at h
  · next hp =>
    obtain ⟨z, rfl⟩ := List.isPrefixOf_iff_prefix.1 hp
    rw [List.drop_left] at h
    rw [Option.some.inj h]
  · exact absurd h nofun

theorem stripLead?_eq_some_iff {lead t r : Text} : Text.stripLead? lead t = some r ↔ t = lead ++ r :=
  ⟨eq_append_of_stripLead?, fun h => h ▸ Text.stripLead?_append lead r⟩

/-- Whether a text starts with a word does not depend on what follows, unless a word reaches over the end. -/
theorem stripLead?_append_of_apart {lead t rest : Text} (hlead : lead.all isWord = true) (ht : t ≠ [])
    (h : Apart t rest) : Text.stripLead? lead (t ++ rest) = (Text.stripLead? lead t).map (· ++ rest) := by
  cases hstrip : Text.stripLead? lead t with
  | some r =>
    rw [eq_append_of_stripLead? hstrip, List.append_assoc, Text.stripLead?_append]
    rfl
  | none =>
    rw [Option.map_none, ← Option.not_isSome_iff_eq_none, Option.isSome_iff_exists]
    rintro ⟨r, hr⟩
    rcases List.append_eq_append_iff.1 (eq_append_of_stripLead? hr) with ⟨z, hz, hrest⟩ | ⟨z, hz, -⟩
    · cases z with
      | nil =>
        rw [List.append_nil] at hz
        subst hz
        exact absurd (hstrip.symm.trans (stripLead?_eq_some_iff.2 (List.append_nil lead).symm)) nofun
      | cons d z =>
        -- the lead ends beyond `t`, so both sides of the seam belong to it
        rw [hz, List.all_append, List.all_cons, Bool.and_eq_true, Bool.and_eq_true] at hlead
        have hlast : t.getLast?.any isWord = true := by
          rw [List.getLast?_eq_some_getLast ht]
          exact List.all_eq_true.1 hlead.1 _ (List.getLast_mem ht)
        have hnext := h hlast
        rw [hrest] at hnext
        exact Bool.false_ne_true (hnext.symm.trans hlead.2.1)
    · rw [hz, Text.stripLead?_append] at hstrip
      exact absurd hstrip nofun

theorem behindDeclarator?_append {t rest : Text} (ht : t ≠ []) (h : Apart t rest) :
    behindDeclarator? (t ++ rest) = (behindDeclarator? t).map (· ++ rest) := by
  have hword {w : Text} (hw : w.all isWord = true) := stripLead?_append_of_apart hw ht h
  simp only [behindDeclarator?, List.findSome?_cons, List.findSome?_nil,
    hword (w := "const") (by decide), hword (w := "let") (by decide), hword (w := "var") (by decide)]
  cases Text.stripLead? "const" t <;> cases Text.stripLead? "let" t <;> cases Text.stripLead? "var" t <;> rfl

theorem behindSign?_append_of_blank {t : Text} (h : t.all isBlank = true) (c : Char) (rest : Text) :
    behindSign? c (t ++ rest) = behindSign? c rest := by
  rw [behindSign?, behindSign?, Text.trimStart_append h]

theorem behindSign?_of_blank {t : Text} (h : t.all isBlank = true) (c : Char) : behindSign? c t = none := by
  rw [behindSign?, Text.trimStart_eq_nil_iff.2 h]

theorem behindSign?_append {t : Text} (h : t.all isBlank = false) (c : Char) (rest : Text) :
    behindSign? c (t ++ rest) = (behindSign? c t).map (· ++ rest) := by
  have hne : t.trimStart ≠ [] := fun hnil => Bool.eq_false_iff.1 h (Text.trimStart_eq_nil_iff.1 hnil)
  rw [behindSign?, behindSign?, Text.trimStart_append_of_ne_nil hne]
  cases ht : t.trimStart with
  | nil => exact absurd ht hne
  | cons d r =>
    show (if d = c then some (r ++ rest) else none) = (if d = c then some r else none).map (· ++ rest)
    split <;> rfl

theorem splitAtBrace?_append_of_some {t list r : Text} (h : splitAtBrace? t = some (list, r)) (rest : Text) :
    splitAtBrace? (t ++ rest) = some (list, r ++ rest) := by
  induction t generalizing list with
  | nil => exact absurd h nofun
  | cons c t ih =>
    rw [splitAtBrace?] at h
    rw [List.cons_append, splitAtBrace?]
    split at h
    · next hc =>
      obtain ⟨rfl, rfl⟩ := Prod.mk.inj (Option.some.inj h)
      rw [if_pos hc]
    · next hc =>
      obtain ⟨⟨list', r'⟩, ht, heq⟩ := Option.map_eq_some_iff.1 h
      obtain ⟨rfl, rfl⟩ := Prod.mk.inj heq
      rw [if_neg hc, ih ht]
      rfl

theorem splitAtBrace?_append_of_none {t : Text} (h : splitAtBrace? t = none) (rest : Text) :
    splitAtBrace? (t ++ rest) = (splitAtBrace? rest).map fun (list, r) => (t ++ list, r) := by
  induction t with
  | nil => simp
  | cons c t ih =>
    rw [splitAtBrace?] at h
    rw [List.cons_append, splitAtBrace?]
    split at h
    · exact absurd h nofun
    · next hc =>
      rw [if_neg hc, ih (Option.map_eq_none_iff.1 h), Option.map_map]
      rfl

/-! ### Declarations that have begun -/

/-- The text ends in front of the assigned value. -/
def awaitsGlobal (t : Text) : Bool := t.all isBlank

/-- The text ends before an assignment is complete. -/
def awaitsAssignment (t : Text) : Bool := t.all isBlank || (behindSign? '=' t).any awaitsGlobal

def awaitsListEnd (t : Text) : Bool := (splitAtBrace? t).all fun (_, r) => awaitsAssignment r

def awaitsList (t : Text) : Bool := t.all isBlank || (behindSign? '\x7b' t).any awaitsListEnd

/-- The text is the beginning of a declaration. -/
def isOpening (t : Text) : Bool := (behindDeclarator? t).any awaitsList

/-- Nothing that has begun in front of the text can go on in it. -/
structure Ends (g rest : Text) : Prop where
  global : behindGlobal? g rest = none
  assignment : behindAssignment? g rest = none
  list : closedList? g rest = none
  braces : bracedList? g rest = none

section Append

variable {g t rest : Text}

theorem suffix_of_behindSign? {c : Char} {r : Text} (h : behindSign? c t = some r) : r <:+ t := by
  unfold behindSign? at h
  split at h
  · exact absurd h nofun
  · next d s hs =>
    split at h
    · obtain rfl := Option.some.inj h
      exact (List.suffix_cons d s).trans (hs ▸ List.dropWhile_suffix _)
    · exact absurd h nofun

theorem splitAtBrace?_eq_some_iff {list r : Text} :
    splitAtBrace? t = some (list, r) ↔ t = list ++ '\x7d' :: r ∧ '\x7d' ∉ list := by
  constructor
  · intro h
    induction t generalizing list with
    | nil => exact absurd h nofun
    | cons c t ih =>
      rw [splitAtBrace?] at h
      split at h
      · next hc =>
        obtain ⟨rfl, rfl⟩ := Prod.mk.inj (Option.some.inj h)
        exact ⟨hc ▸ rfl, List.not_mem_nil⟩
      · next hc =>
        obtain ⟨⟨list', r'⟩, ht, heq⟩ := Option.map_eq_some_iff.1 h
        obtain ⟨rfl, rfl⟩ := Prod.mk.inj heq
        obtain ⟨rfl, hnot⟩ := ih ht
        refine ⟨rfl, fun hmem => ?_⟩
        rcases List.mem_cons.1 hmem with hc' | hmem
        · exact hc hc'.symm
        · exact hnot hmem
  · rintro ⟨rfl, hnot⟩
    induction list with
    | nil => rfl
    | cons c list ih =>
      rw [List.mem_cons, not_or] at hnot
      rw [List.cons_append, splitAtBrace?, if_neg (Ne.symm hnot.1), ih hnot.2]
      rfl

theorem behindGlobal?_append (hg : IsGlobal g) (h : Apart t rest) (hend : awaitsGlobal t = true → Ends g rest) :
    behindGlobal? g (t ++ rest) = (behindGlobal? g t).map (· ++ rest) := by
  by_cases hblank : t.all isBlank = true
  · have hnone : behindGlobal? g t = none := by
      rw [behindGlobal?, Text.trimStart_eq_nil_iff.2 hblank, Text.stripLead?, if_neg, Option.filter_none]
      cases g with
      | nil => exact absurd rfl hg.ne_nil
      | cons c g => exact Bool.false_ne_true
    rw [hnone, behindGlobal?, Text.trimStart_append hblank]
    exact (hend hblank).global
  · have hne : t.trimStart ≠ [] := fun hnil => hblank (Text.trimStart_eq_nil_iff.1 hnil)
    have hapart := h.of_suffix (List.dropWhile_suffix isBlank (l := t))
    rw [behindGlobal?, behindGlobal?, Text.trimStart_append_of_ne_nil hne, stripLead?_append_of_apart hg.isWord hne hapart]
    cases hstrip : Text.stripLead? g t.trimStart with
    | none => rfl
    | some r =>
      have hhead : (r ++ rest).head?.any isWord = r.head?.any isWord := by
        cases r with
        | cons c r => rfl
        | nil =>
          rw [List.nil_append]
          refine hapart ?_
          have ht : t.trimStart = g := (eq_append_of_stripLead? hstrip).trans (List.append_nil g)
          rw [show t.dropWhile isBlank = g from ht, List.getLast?_eq_some_getLast hg.ne_nil]
          exact List.all_eq_true.1 hg.isWord _ (List.getLast_mem hg.ne_nil)
      show (some (r ++ rest)).filter _ = ((some r).filter _).map _
      rw [Option.filter_some, Option.filter_some, hhead]
      split <;> rfl

theorem behindAssignment?_append (hg : IsGlobal g) (h : Apart t rest) (hend : awaitsAssignment t = true → Ends g rest) :
    behindAssignment? g (t ++ rest) = (behindAssignment? g t).map (· ++ rest) := by
  unfold behindAssignment?
  cases hblank : t.all isBlank with
  | true =>
    have hends := hend (by rw [awaitsAssignment, hblank]; rfl)
    rw [behindSign?_append_of_blank hblank, behindSign?_of_blank hblank]
    exact hends.assignment
  | false =>
    rw [behindSign?_append hblank]
    cases hsign : behindSign? '=' t with
    | none => rfl
    | some r =>
      refine behindGlobal?_append hg (h.of_suffix (suffix_of_behindSign? hsign)) fun hr => hend ?_
      rw [awaitsAssignment, hsign, Option.any_some, hr, Bool.or_true]

theorem closedList?_append (hg : IsGlobal g) (h : Apart t rest) (hend : awaitsListEnd t = true → Ends g rest) :
    closedList? g (t ++ rest) = (closedList? g t).map fun (list, r) => (list, r ++ rest) := by
  cases hsplit : splitAtBrace? t with
  | none =>
    have hlist := (hend (by rw [awaitsListEnd, hsplit]; rfl)).list
    unfold closedList? at hlist ⊢
    rw [splitAtBrace?_append_of_none hsplit, hsplit]
    cases hrest : splitAtBrace? rest with
    | none => rfl
    | some p =>
      obtain ⟨list, r⟩ := p
      rw [hrest] at hlist
      have hassign : behindAssignment? g r = none := Option.map_eq_none_iff.1 hlist
      show (behindAssignment? g r).map _ = none
      rw [hassign]
      rfl
  | some p =>
    obtain ⟨list, r⟩ := p
    have hr : r <:+ t := by
      rw [(splitAtBrace?_eq_some_iff.1 hsplit).1]
      exact (List.suffix_cons _ r).trans (List.suffix_append list _)
    have hassign := behindAssignment?_append hg (h.of_suffix hr) fun hr => hend (by rw [awaitsListEnd, hsplit]; exact hr)
    unfold closedList?
    rw [splitAtBrace?_append_of_some hsplit, hsplit]
    show (behindAssignment? g (r ++ rest)).map _ = ((behindAssignment? g r).map _).map _
    rw [hassign, Option.map_map, Option.map_map]
    rfl

theorem bracedList?_append (hg : IsGlobal g) (h : Apart t rest) (hend : awaitsList t = true → Ends g rest) :
    bracedList? g (t ++ rest) = (bracedList? g t).map fun (list, r) => (list, r ++ rest) := by
  cases hblank : t.all isBlank with
  | true =>
    have hends := hend (by rw [awaitsList, hblank]; rfl)
    have hrest := hends.braces
    unfold bracedList? at hrest ⊢
    rw [behindSign?_append_of_blank hblank, behindSign?_of_blank hblank]
    exact hrest
  | false =>
    unfold bracedList?
    rw [behindSign?_append hblank]
    cases hsign : behindSign? '\x7b' t with
    | none => rfl
    | some r =>
      refine closedList?_append hg (h.of_suffix (suffix_of_behindSign? hsign)) fun hr => hend ?_
      rw [awaitsList, hsign, Option.any_some, hr, Bool.or_true]

theorem suffix_of_behindDeclarator? {r : Text} (h : behindDeclarator? t = some r) : ∃ w, w ≠ [] ∧ t = w ++ r := by
  obtain ⟨w, hw, hstrip⟩ := List.exists_of_findSome?_eq_some h
  have hne : ∀ w ∈ (["const", "let", "var"] : List Text), w ≠ [] := by decide
  exact ⟨w, hne w hw, eq_append_of_stripLead? hstrip⟩

/-- A declaration in front of a text is there whatever follows, unless it goes on there. -/
theorem readList?_append (hg : IsGlobal g) (ht : t ≠ []) (h : Apart t rest) (hend : isOpening t = true → Ends g rest) :
    readList? g (t ++ rest) = (readList? g t).map fun (list, r) => (list, r ++ rest) := by
  unfold readList?
  rw [behindDeclarator?_append ht h]
  cases hword : behindDeclarator? t with
  | none => rfl
  | some r =>
    obtain ⟨w, -, rfl⟩ := suffix_of_behindDeclarator? hword
    refine bracedList?_append hg (h.of_suffix (List.suffix_append w r)) fun hr => hend ?_
    rw [isOpening, hword]
    exact hr

end Append

/-! ### All declarations of a script -/

/-- The lists of the declarations from the character number `skip` on. -/
def readListsFrom (g : Text) : Nat → Text → List Text
  | _, [] => []
  | skip + 1, _ :: t => readListsFrom g skip t
  | 0, c :: t =>
    match readList? g (c :: t) with
    | some (list, r) => list :: readListsFrom g (t.length - r.length) t
    | none => readListsFrom g 0 t

/-- The lists of names that a script reads from the global, one for each declaration. -/
def readLists (g t : Text) : List Text := readListsFrom g 0 t

section Lists

variable {g t r list : Text}

theorem readListsFrom_eq (g : Text) (skip : Nat) (t : Text) : readListsFrom g skip t = readLists g (t.drop skip) := by
  induction t generalizing skip with
  | nil => cases skip <;> rfl
  | cons c t ih =>
    cases skip with
    | zero => rfl
    | succ skip => exact ih skip

theorem readLists_of_none {c : Char} (h : readList? g (c :: t) = none) : readLists g (c :: t) = readLists g t := by
  rw [readLists, readListsFrom, h]
  rfl

theorem suffix_of_behindGlobal? (h : behindGlobal? g t = some r) : r <:+ t := by
  obtain ⟨hstrip, -⟩ := Option.filter_eq_some_iff.1 h
  have hr : r <:+ t.trimStart := ⟨g, (eq_append_of_stripLead? hstrip).symm⟩
  exact hr.trans (List.dropWhile_suffix isBlank)

theorem suffix_of_behindAssignment? (h : behindAssignment? g t = some r) : r <:+ t := by
  obtain ⟨s, hsign, hglobal⟩ := Option.bind_eq_some_iff.1 h
  exact (suffix_of_behindGlobal? hglobal).trans (suffix_of_behindSign? hsign)

theorem suffix_of_bracedList? (h : bracedList? g t = some (list, r)) : r <:+ t := by
  obtain ⟨s, hsign, h⟩ := Option.bind_eq_some_iff.1 h
  obtain ⟨⟨l, s'⟩, hsplit, h⟩ := Option.bind_eq_some_iff.1 h
  obtain ⟨r', hassign, heq⟩ := Option.map_eq_some_iff.1 h
  obtain ⟨rfl, rfl⟩ := Prod.mk.inj heq
  obtain ⟨rfl, -⟩ := splitAtBrace?_eq_some_iff.1 hsplit
  have hs' : s' <:+ l ++ '\x7d' :: s' := (List.suffix_cons _ s').trans (List.suffix_append l _)
  exact ((suffix_of_behindAssignment? hassign).trans hs').trans (suffix_of_behindSign? hsign)

/-- A declaration that is read is not empty. -/
theorem exists_of_readList? (h : readList? g t = some (list, r)) : ∃ c u, t = c :: (u ++ r) := by
  obtain ⟨s, hword, hbraced⟩ := Option.bind_eq_some_iff.1 h
  obtain ⟨w, hw, rfl⟩ := suffix_of_behindDeclarator? hword
  obtain ⟨u, rfl⟩ := suffix_of_bracedList? hbraced
  obtain ⟨c, w, rfl⟩ := List.exists_cons_of_ne_nil hw
  exact ⟨c, w ++ u, by rw [List.append_assoc]; rfl⟩

theorem readLists_of_some (h : readList? g t = some (list, r)) : readLists g t = list :: readLists g r := by
  obtain ⟨c, u, rfl⟩ := exists_of_readList? h
  rw [readLists, readListsFrom, h]
  show list :: readListsFrom g ((u ++ r).length - r.length) (u ++ r) = _
  rw [readListsFrom_eq, List.length_append, Nat.add_sub_cancel, List.drop_left]

/-- The declarations of two texts are those of the whole if no declaration of the first is changed by the second. -/
theorem readLists_append {x rest : Text}
    (h : ∀ v, v ≠ [] → v <:+ x → readList? g (v ++ rest) = (readList? g v).map fun (list, r) => (list, r ++ rest)) :
    readLists g (x ++ rest) = readLists g x ++ readLists g rest := by
  -- a declaration may be skipped at once, so the induction is on the length
  induction hn : x.length using Nat.strongRecOn generalizing x with
  | ind n ih =>
    cases x with
    | nil => rfl
    | cons c x =>
      have hhere := h (c :: x) (List.cons_ne_nil c x) List.suffix_rfl
      cases hread : readList? g (c :: x) with
      | none =>
        rw [hread] at hhere
        rw [readLists_of_none hread]
        refine (readLists_of_none hhere).trans ?_
        refine ih x.length ?_ (fun v hv hx => h v hv (hx.trans (List.suffix_cons c x))) rfl
        rw [← hn, List.length_cons]
        exact Nat.lt_succ_self _
      | some p =>
        obtain ⟨list, r⟩ := p
        rw [hread] at hhere
        rw [readLists_of_some hread, readLists_of_some hhere, List.cons_append]
        obtain ⟨d, u, hx⟩ := exists_of_readList? hread
        refine congrArg (list :: ·) (ih r.length ?_ (fun v hv hr => h v hv (hr.trans ?_)) rfl)
        · rw [← hn, hx, List.length_cons, List.length_append]
          omega
        · rw [hx]
          exact (List.suffix_append u r).trans (List.suffix_cons d _)

/-- No declaration that has begun in the text can go on behind it. -/
def isSettled (t : Text) : Bool := !t.getLast?.any isWord && t.tails.all fun v => !isOpening v

/-- **Settled texts are read by themselves.** -/
theorem readLists_append_of_isSettled (hg : IsGlobal g) {x : Text} (hx : isSettled x = true) (rest : Text) :
    readLists g (x ++ rest) = readLists g x ++ readLists g rest := by
  rw [isSettled, Bool.and_eq_true, Bool.not_eq_true'] at hx
  have hapart : Apart x rest := fun hlast => absurd (hx.1.symm.trans hlast) Bool.false_ne_true
  refine readLists_append fun v hv hsuffix => readList?_append hg hv (hapart.of_suffix hsuffix) fun hopening => ?_
  have hclosed := List.all_eq_true.1 hx.2 v ((List.mem_tails v x).2 hsuffix)
  rw [hopening] at hclosed
  exact absurd hclosed Bool.false_ne_true

/-- **Where nothing can go on, all texts in front are read by themselves.** -/
theorem readLists_append_of_ends (hg : IsGlobal g) {rest : Text} (hrest : Ends g rest)
    (hhead : rest.head?.any isWord = false) (x : Text) :
    readLists g (x ++ rest) = readLists g x ++ readLists g rest :=
  readLists_append fun _ hv _ => readList?_append hg hv (fun _ => hhead) fun _ => hrest

/-- A declaration begins with the first letter of its word. -/
theorem readLists_cons_of_not_mem {c : Char} (hc : c ∉ ['c', 'l', 'v']) (t : Text) :
    readLists g (c :: t) = readLists g t := by
  refine readLists_of_none ?_
  have hnone : behindDeclarator? (c :: t) = none := by
    simp only [List.mem_cons, not_or] at hc
    simp [behindDeclarator?, Text.stripLead?, Ne.symm hc.1, Ne.symm hc.2.1, Ne.symm hc.2.2.1]
  rw [readList?, hnone, Option.bind_none]

theorem readLists_blank_append {a : Text} (ha : a.all isBlank = true) (t : Text) :
    readLists g (a ++ t) = readLists g t := by
  induction a with
  | nil => rfl
  | cons c a ih =>
    rw [List.all_cons, Bool.and_eq_true] at ha
    rw [List.cons_append, readLists_cons_of_not_mem, ih ha.2]
    rintro hmem
    have hletters : (['c', 'l', 'v'] : List Char).all (fun d => !isBlank d) = true := by decide
    have hc := List.all_eq_true.1 hletters c hmem
    rw [ha.1] at hc
    exact Bool.false_ne_true hc

/-! ### Blanks -/

theorem ends_of_blank (hg : IsGlobal g) (h : t.all isBlank = true) : Ends g t := by
  have hassign : behindAssignment? g t = none := by rw [behindAssignment?, behindSign?_of_blank h, Option.bind_none]
  have hbrace : splitAtBrace? t = none := by
    rw [← Option.not_isSome_iff_eq_none, Option.isSome_iff_exists]
    rintro ⟨⟨list, r⟩, hsplit⟩
    obtain ⟨rfl, -⟩ := splitAtBrace?_eq_some_iff.1 hsplit
    have hc := List.all_eq_true.1 h '\x7d' (by simp)
    exact absurd hc (by decide)
  refine ⟨?_, hassign, ?_, ?_⟩
  · rw [behindGlobal?, Text.trimStart_eq_nil_iff.2 h, Text.stripLead?, if_neg, Option.filter_none]
    cases g with
    | nil => exact absurd rfl hg.ne_nil
    | cons c g => exact Bool.false_ne_true
  · rw [closedList?, hbrace, Option.bind_none]
  · rw [bracedList?, behindSign?_of_blank h, Option.bind_none]

/-- White space is no part of a word. -/
theorem isWord_of_isBlank {c : Char} (h : isBlank c = true) : isWord c = false := by
  have hall : blankCodes.all (fun n => !isWord (Char.ofNat n)) = true := by decide +kernel
  have hc := List.all_eq_true.1 hall c.toNat (mem_blankCodes h)
  rwa [Char.ofNat_toNat, Bool.not_eq_true'] at hc

theorem readLists_append_blank (hg : IsGlobal g) (h : r.all isBlank = true) : readLists g (t ++ r) = readLists g t := by
  have hhead : r.head?.any isWord = false := by
    cases r with
    | nil => rfl
    | cons c r =>
      rw [List.all_cons, Bool.and_eq_true] at h
      exact isWord_of_isBlank h.1
  have hnone : readLists g r = [] := by
    have hr := readLists_blank_append (g := g) h []
    rwa [List.append_nil] at hr
  rw [readLists_append_of_ends hg (ends_of_blank hg h) hhead, hnone, List.append_nil]

/-- Blanks at the ends of a script do not matter. -/
theorem readLists_trim (hg : IsGlobal g) (t : Text) : readLists g t.trim = readLists g t := by
  obtain ⟨a, b, ht, ha, hb⟩ := Text.exists_trim t
  conv_rhs => rw [ht, readLists_blank_append ha, readLists_append_blank hg hb]

/-! ### Declarations that are written out -/

theorem behindDeclarator?_eq_some_iff :
    behindDeclarator? t = some r ↔ ∃ word ∈ (["const", "let", "var"] : List Text), t = word ++ r := by
  constructor
  · intro h
    obtain ⟨w, hw, hstrip⟩ := List.exists_of_findSome?_eq_some h
    exact ⟨w, hw, eq_append_of_stripLead? hstrip⟩
  · rintro ⟨word, hword, rfl⟩
    simp only [List.mem_cons, List.not_mem_nil, or_false] at hword
    rcases hword with rfl | rfl | rfl <;> rfl

theorem trimStart_append_cons {a : Text} {c : Char} (ha : a.all isBlank = true) (hc : isBlank c = false) (t : Text) :
    (a ++ c :: t).trimStart = c :: t := by
  rw [Text.trimStart_append ha, Text.trimStart_eq_self (by exact hc)]

theorem behindSign?_eq_some_iff {c : Char} (hc : isBlank c = false) :
    behindSign? c t = some r ↔ ∃ a, a.all isBlank = true ∧ t = a ++ c :: r := by
  constructor
  · intro h
    unfold behindSign? at h
    split at h
    · exact absurd h nofun
    · next d s hs =>
      split at h
      · next hd =>
        obtain rfl := Option.some.inj h
        refine ⟨t.takeWhile isBlank, List.all_takeWhile, ?_⟩
        rw [← hd, ← hs, Text.trimStart, List.takeWhile_append_dropWhile]
      · exact absurd h nofun
  · rintro ⟨a, ha, rfl⟩
    rw [behindSign?, trimStart_append_cons ha hc]
    exact if_pos rfl

theorem behindGlobal?_eq_some_iff (hg : IsGlobal g) :
    behindGlobal? g t = some r ↔ ∃ a, a.all isBlank = true ∧ t = a ++ (g ++ r) ∧ r.head?.any isWord = false := by
  constructor
  · intro h
    obtain ⟨hstrip, hhead⟩ := Option.filter_eq_some_iff.1 h
    refine ⟨t.takeWhile isBlank, List.all_takeWhile, ?_, by simpa using hhead⟩
    rw [← eq_append_of_stripLead? hstrip, Text.trimStart, List.takeWhile_append_dropWhile]
  · rintro ⟨a, ha, rfl, hhead⟩
    have hstart : (g ++ r).trimStart = g ++ r := by
      obtain ⟨c, g, rfl⟩ := List.exists_cons_of_ne_nil hg.ne_nil
      have hc := hg.isWord
      rw [List.all_cons, Bool.and_eq_true] at hc
      refine Text.trimStart_eq_self (Bool.eq_false_iff.2 fun hblank => ?_)
      exact Bool.false_ne_true ((isWord_of_isBlank hblank).symm.trans hc.1)
    rw [behindGlobal?, Text.trimStart_append ha, hstart, Text.stripLead?_append, Option.filter_some, hhead]
    rfl

/-- A declaration in full. -/
theorem readList?_eq_some_iff (hg : IsGlobal g) :
    readList? g t = some (list, r) ↔
      ∃ word ∈ (["const", "let", "var"] : List Text), ∃ a b e : Text,
        (a.all isBlank = true ∧ b.all isBlank = true ∧ e.all isBlank = true) ∧ '\x7d' ∉ list ∧
          r.head?.any isWord = false ∧ t = word ++ (a ++ '\x7b' :: (list ++ '\x7d' :: (b ++ '=' :: (e ++ (g ++ r))))) := by
  constructor
  · intro h
    obtain ⟨s, hword, hbraced⟩ := Option.bind_eq_some_iff.1 h
    obtain ⟨word, hmem, rfl⟩ := behindDeclarator?_eq_some_iff.1 hword
    obtain ⟨s, hbrace, hclosed⟩ := Option.bind_eq_some_iff.1 hbraced
    obtain ⟨a, ha, rfl⟩ := (behindSign?_eq_some_iff (by decide)).1 hbrace
    obtain ⟨⟨list, s⟩, hsplit, hrest⟩ := Option.bind_eq_some_iff.1 hclosed
    obtain ⟨r, hassign, heq⟩ := Option.map_eq_some_iff.1 hrest
    obtain ⟨rfl, rfl⟩ := Prod.mk.inj heq
    obtain ⟨rfl, hlist⟩ := splitAtBrace?_eq_some_iff.1 hsplit
    obtain ⟨s, hsign, hglobal⟩ := Option.bind_eq_some_iff.1 hassign
    obtain ⟨b, hb, rfl⟩ := (behindSign?_eq_some_iff (by decide)).1 hsign
    obtain ⟨e, he, rfl, hhead⟩ := (behindGlobal?_eq_some_iff hg).1 hglobal
    exact ⟨word, hmem, a, b, e, ⟨ha, hb, he⟩, hlist, hhead, rfl⟩
  · rintro ⟨word, hmem, a, b, e, ⟨ha, hb, he⟩, hlist, hhead, rfl⟩
    have hglobal := (behindGlobal?_eq_some_iff hg).2 ⟨e, he, rfl, hhead⟩
    have hassign : behindAssignment? g (b ++ '=' :: (e ++ (g ++ r))) = some r := by
      rw [behindAssignment?, (behindSign?_eq_some_iff (by decide)).2 ⟨b, hb, rfl⟩]
      exact hglobal
    have hclosed : closedList? g (list ++ '\x7d' :: (b ++ '=' :: (e ++ (g ++ r)))) = some (list, r) := by
      rw [closedList?, splitAtBrace?_eq_some_iff.2 ⟨rfl, hlist⟩]
      show (behindAssignment? g _).map _ = _
      rw [hassign]
      rfl
    rw [readList?, behindDeclarator?_eq_some_iff.2 ⟨word, hmem, rfl⟩]
    show bracedList? g _ = _
    rw [bracedList?, (behindSign?_eq_some_iff (by decide)).2 ⟨a, ha, rfl⟩]
    exact hclosed

/-- What a declaration that is written out adds. -/
theorem readLists_declaration (hg : IsGlobal g) (hlist : '\x7d' ∉ list) (rest : Text) :
    readLists g ("const \x7b " ++ (list ++ (" \x7d = " ++ (g ++ ';' :: rest))))
      = (' ' :: (list ++ [' '])) :: readLists g rest := by
  have hread : readList? g ("const \x7b " ++ (list ++ (" \x7d = " ++ (g ++ ';' :: rest))))
      = some (' ' :: (list ++ [' ']), ';' :: rest) := by
    refine (readList?_eq_some_iff hg).2
      ⟨"const", by simp, " ", " ", " ", ⟨by decide, by decide, by decide⟩, ?_, ?_, by simp⟩
    · simpa using hlist
    · show isWord ';' = false
      decide
  rw [readLists_of_some hread, readLists_cons_of_not_mem (by decide)]

end Lists

end SnippetPreview.Script
