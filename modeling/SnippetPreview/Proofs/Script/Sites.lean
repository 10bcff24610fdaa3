import SnippetPreview.Proofs.Pattern.Groups
import SnippetPreview.Proofs.Script.Lines
import SnippetPreview.Proofs.Script.Masking

/-!
# Where the names of members stand

* `IsSite`: where a name may be read, at the outermost level of braces, outside of strings, and in code or behind one of
  certain signs in a comment;
* `comment_of_maskFrom`: masking hides neither code nor comments at the outermost level, so words and blanks in front of a
  name that is in a comment are in the same comment;
* `field_lead`, `method_lead`: what a member has in front of its name ends in words and blanks, maybe behind such a sign;
* `names_at_sites`: every name that is found in a class body stands at such a place.
-/

namespace SnippetPreview.Script

open Pattern

/-! ### Comments -/

def Mode.isComment : Mode → Bool
  | lineComment | blockOpening | blockComment | blockClosing => true
  | code | quoted _ | escaped _ => false

theorem Mode.eq_code_or_isComment {m : Mode} (h : m.isString = false) : m = code ∨ m.isComment = true := by
  cases m with
  | code => exact .inl rfl
  | quoted q => exact absurd h nofun
  | escaped q => exact absurd h nofun
  | lineComment | blockOpening | blockComment | blockClosing => exact .inr rfl

/-- A character of a modifier or a blank within a line. -/
def isLeadRest (c : Char) : Bool := isNameOrBlank c && c != '\n'

/-- The mode behind a character that is no part of the sign of a comment does not depend on what follows. -/
theorem Mode.next_ahead {c : Char} (hslash : c ≠ '/') (hstar : c ≠ '*') (m : Mode) (a a' : Option Char) :
    m.next c a = m.next c a' := by
  cases m <;> simp [next, hslash, hstar]

/-- Only in a comment is there a comment behind words and blanks. -/
theorem isComment_of_next {m : Mode} {depth : Nat} {c : Char} {ahead : Option Char}
    (hrest : (remains m depth c ahead).all isLeadRest = true) (hnext : (m.next c ahead).isComment = true)
    (hdepth : depthBehind depth (bracesAt m c) = 0) : m.isComment = true ∧ depth = 0 ∧ isLeadRest c = true := by
  have hcomment : m.isComment = true := by
    cases m with
    | quoted q =>
      simp only [Mode.next] at hnext
      split at hnext
      · exact hnext
      · split at hnext <;> exact hnext
    | escaped q => exact hnext
    | lineComment | blockOpening | blockComment | blockClosing => rfl
    | code =>
      by_cases hbrace : c = '\x7d'
      · subst hbrace
        exact hnext
      · -- no brace is closed here, so the character is at the outermost level and legible
        have hzero : depth = 0 := by
          unfold bracesAt depthBehind at hdepth
          split at hdepth
          · next hc =>
            obtain rfl := hc.2.resolve_right hbrace
            exact absurd hdepth (by simp)
          · exact hdepth
        rw [hzero, remains_zero rfl, List.all_cons, Bool.and_eq_true] at hrest
        have hquote : c ≠ '\'' ∧ c ≠ '"' ∧ c ≠ '`' ∧ c ≠ '/' :=
          ⟨ne_of_class hrest.1 (by decide), ne_of_class hrest.1 (by decide),
            ne_of_class hrest.1 (by decide), ne_of_class hrest.1 (by decide)⟩
        simp [Mode.next, hquote, Mode.isComment] at hnext
  have hcode : m ≠ .code := by
    rintro rfl
    exact absurd hcomment Bool.false_ne_true
  have hstring : m.isString = false := by
    cases m with
    | code | lineComment | blockOpening | blockComment | blockClosing => rfl
    | quoted q | escaped q => exact absurd hcomment Bool.false_ne_true
  rw [bracesAt_of_ne hcode] at hdepth
  obtain rfl : depth = 0 := hdepth
  rw [remains_zero hstring, List.all_cons, Bool.and_eq_true] at hrest
  exact ⟨hcomment, rfl, hrest.1⟩

/-- Words and blanks in front of a place in a comment at the outermost level are in that comment. -/
theorem comment_of_maskFrom {m : Mode} {depth : Nat} {t : Text} (hrest : (maskFrom m depth t).all isLeadRest = true)
    (hcomment : (m.behind t).isComment = true) (hdepth : depthAfter m depth t = 0) :
    depth = 0 ∧ ∀ v, v <+: t → (m.behind v).isComment = true := by
  induction t generalizing m depth with
  | nil =>
    refine ⟨hdepth, fun v hv => ?_⟩
    rw [List.prefix_nil.1 hv]
    exact hcomment
  | cons c t ih =>
    rw [maskFrom_cons, List.all_append, Bool.and_eq_true] at hrest
    rw [depthAfter_cons] at hdepth
    obtain ⟨hzero, hfront⟩ := ih hrest.2 hcomment hdepth
    obtain ⟨hm, hdepth', hc⟩ := isComment_of_next hrest.1 (hfront [] List.nil_prefix) hzero
    refine ⟨hdepth', fun v hv => ?_⟩
    cases v with
    | nil => exact hm
    | cons d v =>
      obtain ⟨rfl, htail⟩ := List.cons_prefix_cons.1 hv
      have hahead : m.next d v.head? = m.next d t.head? :=
        Mode.next_ahead (ne_of_class hc (by decide)) (ne_of_class hc (by decide)) m _ _
      rw [Mode.behind, hahead]
      exact hfront v htail

/-! ### What stands in front of a name -/

/-- The text ends in words and blanks behind one of the signs. -/
def EndsPlain (signs u : Text) : Prop := ∃ l c w, u = l ++ c :: w ∧ c ∈ signs ∧ w.all isLeadRest = true

/-- Nothing but words and blanks stands in front, or one of the signs does. -/
theorem endsPlain_of_isNameOrBlank {signs u : Text} (hfeed : '\n' ∈ signs) (hu : u.all isNameOrBlank = true) :
    u.all isLeadRest = true ∨ EndsPlain signs u := by
  by_cases hmem : '\n' ∈ u
  · -- the last line feed is the sign
    obtain ⟨w, l, hcut, hw⟩ := List.eq_append_cons_of_mem (List.mem_reverse.2 hmem)
    have htext : u = l.reverse ++ '\n' :: w.reverse := by
      rw [← List.reverse_reverse u, hcut]
      simp
    refine .inr ⟨l.reverse, '\n', w.reverse, htext, hfeed, List.all_eq_true.2 fun c hc => ?_⟩
    have hc' : c ∈ u := by
      rw [htext]
      exact List.mem_append_right _ (List.mem_cons_of_mem _ hc)
    rw [isLeadRest, List.all_eq_true.1 hu c hc', Bool.true_and, bne_iff_ne]
    rintro rfl
    exact hw (List.mem_reverse.1 hc)
  · refine .inl (List.all_eq_true.2 fun c hc => ?_)
    rw [isLeadRest, List.all_eq_true.1 hu c hc, Bool.true_and, bne_iff_ne]
    rintro rfl
    exact hmem hc

theorem endsPlain_cons {signs l w : Text} {c : Char} (hc : c ∈ signs) (hfeed : '\n' ∈ signs)
    (hw : w.all isNameOrBlank = true) : EndsPlain signs (l ++ c :: w) := by
  rcases endsPlain_of_isNameOrBlank hfeed hw with h | ⟨l', d, w', rfl, hd, hw'⟩
  · exact ⟨l, c, w, rfl, hc, h⟩
  · exact ⟨l ++ c :: l', d, w', by simp, hd, hw'⟩

theorem EndsPlain.append_left {signs u : Text} (h : EndsPlain signs u) (x : Text) : EndsPlain signs (x ++ u) := by
  obtain ⟨l, c, w, rfl, hc, hw⟩ := h
  exact ⟨x ++ l, c, w, (List.append_assoc ..).symm, hc, hw⟩

/-- The start of a member is at the start of a line or behind a semicolon or a closing brace. -/
theorem reads_memberStart_cases {b : Option Char} {u y : Text} (h : Reads memberStart b u y) :
    (b.all (· == '\n') = true ∧ u.all isNameOrBlank = true) ∨
      ∃ c w, u = c :: w ∧ (c = ';' ∨ c = '\x7d') ∧ w.all isNameOrBlank = true := by
  obtain ⟨s, w, rfl, hs, hw⟩ := reads_seq_iff.1 h
  have hblanks : w.all isNameOrBlank = true := by
    refine hw.all ⟨fun c hc => ?_, trivial⟩
    have hblank : c = ' ' ∨ c = '\t' := by simpa [isLineBlank] using hc
    rcases hblank with rfl | rfl <;> decide
  rcases reads_alt_iff.1 hs with hs | hs
  · cases hs with
    | lineStart _ hb => exact .inl ⟨hb, hblanks⟩
  · obtain ⟨c, rfl, hc⟩ := reads_one_iff.1 hs
    exact .inr ⟨c, w, rfl, by simpa [charOf] using hc, hblanks⟩

/-- A decorator ends in a parenthesis and blanks. -/
theorem exists_of_reads_decorator {b : Option Char} {u y : Text} (h : Reads decorator b u y) :
    ∃ l w, u = l ++ ')' :: w ∧ w.all isNameOrBlank = true := by
  have hparts : Reads (chain ([text "@", many1 isWord, text "(", many (charNotOf ")")] ++ [text ")", many isBlank]))
    b u y := h
  obtain ⟨l, v, rfl, -, hv⟩ := reads_chain_append_iff.1 hparts
  obtain ⟨w, rfl, hw⟩ := reads_text_seq_iff.1 hv
  have hblanks : w.all isNameOrBlank = true :=
    hw.all (S := isNameOrBlank) ⟨fun e he => by rw [isNameOrBlank, he, Bool.or_true], trivial⟩
  exact ⟨l, w, rfl, hblanks⟩

/-- So do decorators one after the other. -/
theorem reads_decorators_cases {b : Option Char} {u y : Text} (h : Reads (star decorator) b u y) :
    u = [] ∨ ∃ l w, u = l ++ ')' :: w ∧ w.all isNameOrBlank = true := by
  generalize hp : star decorator = p at h
  induction h with
  | starNil => exact .inl rfl
  | starCons _ hu _ _ ih =>
    cases hp
    right
    rcases ih rfl with rfl | ⟨l, w, rfl, hw⟩
    · rw [List.append_nil]
      exact exists_of_reads_decorator hu
    · exact ⟨_, w, (List.append_assoc ..).symm, hw⟩
  | empty | lineStart | wordEdge | mark | one | run | seq | altLeft | altRight => exact absurd hp nofun

/-- The parts of a field in front of its name. -/
def fieldLead : List Pattern :=
  [memberStart, star decorator, star (modifier ["public", "private", "protected", "readonly", "static"])]

/-- The parts of a method in front of its name. -/
def methodLead : List Pattern :=
  [memberStart, star (modifier ["public", "private", "protected", "static"]), Pattern.optional (group 1 asyncWord)]

theorem field_lead {b : Option Char} {u y : Text} (h : Reads (chain fieldLead) b u y) :
    EndsPlain "\n;\x7d)" u ∨ (b.all (· == '\n') = true ∧ u.all isNameOrBlank = true) := by
  obtain ⟨s, u, rfl, hs, h⟩ := reads_seq_iff.1 h
  obtain ⟨d, u, rfl, hd, h⟩ := reads_seq_iff.1 h
  have hu : u.all isNameOrBlank = true := h.all ⟨within_fieldModifier, trivial⟩
  rcases reads_decorators_cases hd with rfl | ⟨l, w, rfl, hw⟩
  · rcases reads_memberStart_cases hs with ⟨hb, hs⟩ | ⟨c, w, rfl, hc, hw⟩
    · refine .inr ⟨hb, ?_⟩
      rw [List.nil_append, List.all_append, hs, hu]
      rfl
    · refine .inl (endsPlain_cons (l := []) (w := w ++ u) ?_ (by decide) ?_)
      · rcases hc with rfl | rfl <;> decide
      · rw [List.all_append, hw, hu]
        rfl
  · left
    have hplain : (w ++ u).all isNameOrBlank = true := by
      rw [List.all_append, hw, hu]
      rfl
    have hend : EndsPlain "\n;\x7d)" ((s ++ l) ++ ')' :: (w ++ u)) := endsPlain_cons (by decide) (by decide) hplain
    simpa using hend

theorem method_lead {b : Option Char} {u y : Text} (h : Reads (chain methodLead) b u y) :
    EndsPlain "\n;\x7d" u ∨ (b.all (· == '\n') = true ∧ u.all isNameOrBlank = true) := by
  obtain ⟨s, u, rfl, hs, h⟩ := reads_seq_iff.1 h
  have hu : u.all isNameOrBlank = true :=
    h.all ⟨within_methodModifier, ⟨within_asyncWord, trivial⟩, trivial⟩
  rcases reads_memberStart_cases hs with ⟨hb, hs⟩ | ⟨c, w, rfl, hc, hw⟩
  · refine .inr ⟨hb, ?_⟩
    rw [List.all_append, hs, hu]
    rfl
  · refine .inl (endsPlain_cons (l := []) (w := w ++ u) ?_ (by decide) ?_)
    · rcases hc with rfl | rfl <;> decide
    · rw [List.all_append, hw, hu]
      rfl

/-- What is in front of a name in a text: words and blanks only, or words and blanks behind a sign. -/
theorem endsPlain_of_lead {signs x u : Text} (hfeed : '\n' ∈ signs)
    (h : EndsPlain signs u ∨ ((lastOf none x).all (· == '\n') = true ∧ u.all isNameOrBlank = true)) :
    (x ++ u).all isLeadRest = true ∨ EndsPlain signs (x ++ u) := by
  rcases h with h | ⟨hx, hu⟩
  · exact .inr (h.append_left x)
  · cases hlast : x.reverse with
    | nil =>
      obtain rfl := List.reverse_eq_nil_iff.1 hlast
      exact endsPlain_of_isNameOrBlank hfeed hu
    | cons c l =>
      obtain rfl : x = l.reverse ++ [c] := by
        rw [← List.reverse_reverse x, hlast, List.reverse_cons]
      rw [lastOf_append] at hx
      obtain rfl : c = '\n' := by simpa [lastOf] using hx
      right
      rw [List.append_assoc]
      exact endsPlain_cons hfeed hfeed hu

/-! ### Sites -/

/-- One of the signs stands behind the start of the comment that the text ends in. -/
def HasSign (signs x : Text) : Prop :=
  ∃ u c w, x = u ++ c :: w ∧ c ∈ signs ∧ ∀ v, v <+: w → (scan (u ++ c :: v)).final.isComment = true

/-- The text ends at the outermost level of braces, outside of strings, and in code or behind one of the signs in a
comment. -/
structure IsSite (signs x : Text) : Prop where
  depth : depthBehind 0 ((scan x).braces.map Brace.isOpen) = 0
  mode : (scan x).final = .code ∨ HasSign signs x

/-- The group `i` of the match is a name that stands in the text at a site. -/
def StandsAt (signs : Text) (m : Match) (i : Nat) (name t : Text) : Prop :=
  ∃ x y, t = x ++ name ++ y ∧ (m.group? i).map (·.start.offset) = some (Text.byteSize x) ∧ IsSite signs x

/-- A name behind such a lead in a masked text stands at a site of the text itself. -/
theorem exists_site {signs t x name y : Text} (hblank : ' ' ∉ signs) (hslash : '/' ∉ signs)
    (hstar : '*' ∉ signs) (hname : isIdentifier name = true) (hmask : mask t = x ++ (name ++ y))
    (hx : x.all isLeadRest = true ∨ EndsPlain signs x) :
    ∃ x' y', t = x' ++ name ++ y' ∧ Text.byteSize x' = Text.byteSize x ∧ IsSite signs x' := by
  have hall := all_isIdentRest_of_isIdentifier hname
  have hbare : name.all isBare = true :=
    all_mono (fun _ hc => isBare_of_isPlainCode (isPlainCode_of_isIdentRest hc)) hall
  obtain ⟨c, rest, rfl⟩ := List.exists_cons_of_ne_nil (ne_nil_of_isIdentifier hname)
  have hc : isIdentRest c = true := List.all_eq_true.1 hall c List.mem_cons_self
  have hcalm : ∀ z, Calm (c :: z) := fun z =>
    .cons (ne_of_class hc (by decide)) (ne_of_class hc (by decide)) z
  obtain ⟨x', z, rfl, rfl, hstring, hdepth, hz⟩ := exists_cut_of_bare (ne_of_class hc (by decide))
    (ne_of_class hc (by decide)) (List.all_eq_true.1 hbare c List.mem_cons_self) hcalm hmask
  obtain ⟨y', -, hy', -, -⟩ := exists_of_maskFrom_bare (w := c :: rest) hstring hbare hz
  refine ⟨x', y', by rw [hy', List.append_assoc], (byteSize_mask x').symm, hdepth, ?_⟩
  rw [final_scan]
  rcases Mode.eq_code_or_isComment hstring with hcode | hcomment
  · exact .inl hcode
  right
  rcases hx with hx | ⟨l, s, w, hcut, hs, hw⟩
  · -- words and blanks at the start of the text do not open a comment
    have hstart := (comment_of_maskFrom hx hcomment hdepth).2 [] List.nil_prefix
    exact absurd hstart nofun
  · have hslash := ne_of_mem_of_not_mem hs hslash
    have hstar := ne_of_mem_of_not_mem hs hstar
    have hsign : ∀ v, Calm (s :: v) := fun v => .cons hslash hstar v
    obtain ⟨u, v, rfl, -, -, hv⟩ := exists_cut_of_maskFrom (ne_of_mem_of_not_mem hs hblank) hsign hcut
    rw [Mode.behind_append (hsign v), Mode.behind] at hcomment
    rw [depthAfter_append (hsign v), depthAfter_cons] at hdepth
    have hfront := (comment_of_maskFrom (by rw [hv]; exact hw) hcomment hdepth).2
    refine ⟨u, s, v, rfl, hs, fun v' hv' => ?_⟩
    rw [final_scan, Mode.behind_append (hsign v'), Mode.behind, Mode.next_ahead hslash hstar _ _ v.head?]
    exact hfront v' hv'

theorem isIdentifier_of_reads {b : Option Char} {u y : Text} (h : Reads ident b u y) : isIdentifier u = true := by
  obtain ⟨v, w, rfl, hv, hw⟩ := reads_seq_iff.1 h
  obtain ⟨c, rfl, hc⟩ := reads_one_iff.1 hv
  have hrest : w.all isIdentRest = true := reads_run_iff.1 (reads_last_iff.1 hw)
  rw [List.singleton_append, isIdentifier, hc, hrest]
  rfl

/-- A name that a group reads behind a lead stands at a site. -/
theorem standsAt_of_group (ps : List Pattern) {signs t : Text} {qs : List Pattern} {i : Nat} {m : Match} {s : Span}
    (hblank : ' ' ∉ signs) (hslash : '/' ∉ signs) (hstar : '*' ∉ signs) (hfeed : '\n' ∈ signs)
    (hlead : ∀ b u y, Reads (chain ps) b u y →
      EndsPlain signs u ∨ (b.all (· == '\n') = true ∧ u.all isNameOrBlank = true))
    (hstart : (chain qs).leaves (2 * i) = true) (hstop : (chain qs).leaves (2 * i + 1) = true)
    (hm : m ∈ (chain (ps ++ group i ident :: qs)).finds (mask t)) (hs : m.group? i = some s) :
    StandsAt signs m i s.text t := by
  obtain ⟨x, u, v, w, y, hcuts, hu, hv, -, hgroup⟩ := exists_group? rfl hstart hstop hm
  obtain rfl := Option.some.inj (hgroup.symm.trans hs)
  have htext := Span.text_behind (.start (mask t)) (x ++ u) v (w ++ y) (w ++ y)
  have hmask : mask t = (x ++ u) ++ (v ++ (w ++ y)) := by
    rw [hcuts.text_eq]
    simp
  obtain ⟨x', y', ht, hsize, hsite⟩ := exists_site hblank hslash hstar (isIdentifier_of_reads hv) hmask
    (endsPlain_of_lead hfeed (hlead _ u _ hu))
  rw [htext]
  refine ⟨x', y', ht, ?_, hsite⟩
  rw [hgroup, hsize, Option.map_some, Cursor.offset_behind]
  exact congrArg some (Nat.zero_add _)

theorem Field.exists_name {body : Text} {m : Match} {f : Field} (h : Field.ofMatch? body m = some f) :
    ∃ s, m.group? 1 = some s ∧ f.name = s.text := by
  obtain ⟨s, hs, h⟩ := Option.bind_eq_some_iff.1 h
  obtain ⟨v, -, h⟩ := Option.bind_eq_some_iff.1 h
  dsimp only at h
  split at h
  · obtain rfl := Option.some.inj h
    exact ⟨s, hs, rfl⟩
  · exact absurd h nofun

theorem Method.exists_name {body : Text} {m : Match} {f : Method} (h : Method.ofMatch? body m = some f) :
    ∃ s, m.group? 2 = some s ∧ f.name = s.text := by
  obtain ⟨s, hs, h⟩ := Option.bind_eq_some_iff.1 h
  split at h
  · exact absurd h nofun
  · obtain ⟨close, -, h⟩ := Option.bind_eq_some_iff.1 h
    obtain rfl := Option.some.inj h
    exact ⟨s, hs, rfl⟩

/-- **Every name that is found in a class body stands at a site**: at the outermost level of braces, outside of strings,
and in code, unless there is a line feed, a semicolon, a closing brace or, for a field, a closing parenthesis in front of
it in the same comment. -/
theorem names_at_sites (body : Text) :
    (∀ f ∈ Field.ofBody body, ∃ m ∈ fieldPattern.finds (mask body), Field.ofMatch? body m = some f ∧
        StandsAt "\n;\x7d)" m 1 f.name body) ∧
      (∀ f ∈ Method.ofBody body, ∃ m ∈ methodPattern.finds (mask body), Method.ofMatch? body m = some f ∧
        StandsAt "\n;\x7d" m 2 f.name body) := by
  constructor
  · intro f hf
    obtain ⟨m, hm, hmatch⟩ := List.mem_filterMap.1 hf
    obtain ⟨s, hs, hname⟩ := Field.exists_name hmatch
    refine ⟨m, hm, hmatch, ?_⟩
    rw [hname]
    exact standsAt_of_group fieldLead (by decide) (by decide) (by decide) (by decide)
      (fun b u y => field_lead) rfl rfl hm hs
  · intro f hf
    obtain ⟨m, hm, hmatch⟩ := List.mem_filterMap.1 hf
    obtain ⟨s, hs, hname⟩ := Method.exists_name hmatch
    refine ⟨m, hm, hmatch, ?_⟩
    rw [hname]
    exact standsAt_of_group methodLead (by decide) (by decide) (by decide) (by decide)
      (fun b u y => method_lead) rfl rfl hm hs

/-- A class body with a field and a method in a comment, and a method in code. -/
def commentedOut : Text := "/*\n  a = 1;\n  run() \x7b\x7d\n*/\n  stop() \x7b\x7d\n"

theorem names_at_sites_commentedOut :
    (∃ f ∈ Field.ofBody commentedOut, ∃ m ∈ fieldPattern.finds (mask commentedOut),
        Field.ofMatch? commentedOut m = some f ∧ StandsAt "\n;\x7d)" m 1 f.name commentedOut) ∧
      ∃ f ∈ Method.ofBody commentedOut, ∃ m ∈ methodPattern.finds (mask commentedOut),
        Method.ofMatch? commentedOut m = some f ∧ StandsAt "\n;\x7d" m 2 f.name commentedOut := by
  have hfield : (⟨"a", "1"⟩ : Field) ∈ Field.ofBody commentedOut := by decide +kernel
  have hmethod : (⟨"run", "\x7d\n*/\n  stop() \x7b", false⟩ : Method) ∈ Method.ofBody commentedOut := by
    decide +kernel
  obtain ⟨hfields, hmethods⟩ := names_at_sites commentedOut
  exact ⟨⟨_, hfield, hfields _ hfield⟩, ⟨_, hmethod, hmethods _ hmethod⟩⟩

end SnippetPreview.Script
