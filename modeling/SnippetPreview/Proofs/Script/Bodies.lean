import SnippetPreview.Proofs.Script.Printing
import SnippetPreview.Proofs.Script.Sites

/-!
# Values and bodies by themselves

* `exists_cut_of_closing?`: a brace that closes stands in code, and what is in front of it is balanced;
* `isWhole_body`: the body of a method is whole when the brace in front of it stands in code
  (`openingMode`), and it stands in code or in a comment;
* `isWhole_value_iff`: when a value is whole up to the end of its line;
* `isNested_of_shown`: balanced brackets are balanced braces when every brace stands in code (`ShowsBraces`).
-/

namespace SnippetPreview.Script

open Pattern

/-- Characters of code that are no braces do not matter to what follows them. -/
theorem isWhole_plain_append_iff {x y : Text} (hx : x.all isPlainCode = true) : IsWhole (x ++ y) ↔ IsWhole y := by
  refine ⟨fun h => ⟨?_, ?_⟩, .plain_append hx⟩
  · exact (Mode.behind_plain_append hx y).symm.trans h.final
  · have hnested := h.nested
    rw [bracesFrom_plain hx, isOpen_bracesFrom _ _ 0] at hnested
    exact hnested

/-! ### Closing braces -/

/-- The brace that closes stands in code, and the braces in front of it are balanced. -/
theorem exists_cut_of_closing? {m : Mode} {depth pos close : Nat} {t : Text}
    (h : closing? (depth + 1) (bracesFrom m pos t) = some close) :
    ∃ b y, t = b ++ '\x7d' :: y ∧ close = pos + Text.byteSize b ∧ m.behind b = .code ∧
      nesting? depth ((bracesFrom m 0 b).map Brace.isOpen) = some 0 := by
  induction t generalizing m depth pos with
  | nil => exact absurd h nofun
  | cons c t ih =>
    -- what is found behind a character is found with the character in front of it
    have hcons : ∀ {d : Nat}, closing? (d + 1) (bracesFrom (m.next c t.head?) (pos + c.utf8Size) t) = some close →
        (∀ bs, nesting? depth (bracesAt m c ++ bs) = nesting? d bs) →
        ∃ b y, c :: t = b ++ '\x7d' :: y ∧ close = pos + Text.byteSize b ∧ m.behind b = .code ∧
          nesting? depth ((bracesFrom m 0 b).map Brace.isOpen) = some 0 := by
      intro d hd hbraces
      obtain ⟨b, y, rfl, hclose, hmode, hnested⟩ := ih hd
      have hcalm : Calm ('\x7d' :: y) := .cons (by decide) (by decide) y
      rw [Mode.next_head?_append hcalm] at hmode hnested
      refine ⟨c :: b, y, rfl, by rw [hclose, Text.byteSize_cons, Nat.add_assoc], hmode, ?_⟩
      rw [isOpen_bracesFrom_cons, hbraces, isOpen_bracesFrom _ _ 0]
      exact hnested
    rw [bracesFrom_cons] at h
    by_cases hbrace : m = .code ∧ (c = '\x7b' ∨ c = '\x7d')
    · have hat : bracesAt m c = [c == '\x7b'] := if_pos hbrace
      rw [if_pos hbrace] at h
      obtain ⟨rfl, rfl | rfl⟩ := hbrace
      · exact hcons h fun bs => by rw [hat]; rfl
      · cases depth with
        | zero => exact ⟨[], t, rfl, (Option.some.inj h).symm, rfl, rfl⟩
        | succ d => exact hcons h fun bs => by rw [hat]; rfl
    · have hat : bracesAt m c = [] := if_neg hbrace
      rw [if_neg hbrace] at h
      exact hcons h fun bs => by rw [hat]; rfl

/-- What a brace in code encloses is whole. -/
theorem isWhole_of_matchingBrace? {x y : Text} {close : Nat} (hx : (scan x).final = .code)
    (h : matchingBrace? (x ++ '\x7b' :: y) (Text.byteSize x) = some close) :
    ∃ b z, y = b ++ '\x7d' :: z ∧ close = Text.byteSize x + 1 + Text.byteSize b ∧ IsWhole b := by
  have hopen : Calm ('\x7b' :: y) := .cons (by decide) (by decide) y
  have hfront : ∀ brace ∈ bracesFrom .code 0 x, brace.pos < Text.byteSize x := by
    intro brace hbrace
    have := (pos_of_mem_bracesFrom hbrace).2
    omega
  unfold matchingBrace? at h
  rw [if_pos (charAt?_append x _ _), filter_braces_append hopen (Nat.le_refl _) hfront, ← final_scan, hx] at h
  obtain ⟨b, z, hy, hclose, hmode, hnested⟩ := exists_cut_of_closing? h
  exact ⟨b, z, hy, hclose, hmode, hnested⟩

/-! ### Bodies of methods -/

/-- What the brace is part of that a match for a method ends with. -/
def openingMode (body : Text) (m : Match) : Mode := (scan (body.slice 0 (m.span.stop.offset - 1))).final

/-- The parts of a method behind its name, up to the brace. -/
def methodSigns : List Pattern :=
  [many isBlank, "(", many isBlank, ")", many isBlank,
    Pattern.optional (chain [":", many isBlank, fewest1 (charNotOf "\x7b;\n")]), many isBlank]

/-- A match for a method ends with a brace of the text, and the name in it is an identifier. -/
theorem exists_cut_of_mem_methods {body : Text} {m : Match} (hm : m ∈ methodPattern.finds (mask body)) :
    (∃ x y, body = x ++ '\x7b' :: y ∧ m.span.stop.offset = Text.byteSize x + 1 ∧ (scan x).final.isString = false) ∧
      ∀ s, m.group? 2 = some s → isIdentifier s.text = true := by
  have hm' : m ∈ (chain (methodLead ++ group 2 ident :: (methodSigns ++ [text "\x7b"]))).finds (mask body) := hm
  obtain ⟨x, u, v, w, y, hcuts, -, hv, hw, hgroup⟩ := exists_group? rfl rfl rfl hm'
  constructor
  · obtain ⟨signs, brace, rfl, -, hbrace⟩ := reads_chain_append_iff.1 hw
    obtain rfl := reads_text_iff.1 (reads_last_iff.1 hbrace)
    have hmask : mask body = (x ++ (u ++ (v ++ signs))) ++ '\x7b' :: y := by
      rw [hcuts.text_eq]
      simp
    obtain ⟨x', y', hbody, hsize, hmode⟩ :=
      exists_cut_of_mask (by decide) (by decide) (fun z => .cons (by decide) (by decide) z) hmask
    have hbare : (Mode.code.behind x').isString = false := by
      have hproper := Mode.isProper_behind (m := .code) rfl x'
      cases hstring : Mode.code.behind x' with
      | quoted q =>
        -- no brace closes a string literal
        rw [hstring] at hmode hproper
        have hq : '\x7b' ≠ q := by
          rintro rfl
          exact absurd hproper (by decide)
        have hnext := hmode rfl
        simp [Mode.next, hq] at hnext
      | escaped q =>
        rw [hstring] at hmode
        have hnext := hmode rfl
        simp [Mode.next] at hnext
      | code | lineComment | blockOpening | blockComment | blockClosing => rfl
    refine ⟨x', y', hbody, ?_, (final_scan x').symm ▸ hbare⟩
    have hend : Text.byteSize "\x7b".toList = 1 := by decide
    rw [hcuts.stop, Cursor.offset_behind, hsize]
    simp only [Text.byteSize_append, hend, Cursor.start]
    omega
  · intro s hs
    obtain rfl := Option.some.inj (hgroup.symm.trans hs)
    rw [Span.text_behind (.start (mask body)) (x ++ u) v (w ++ y) (w ++ y)]
    exact isIdentifier_of_reads hv

/-- The brace stands in code or in a comment. -/
theorem openingMode_cases {body : Text} {m : Match} (hm : m ∈ methodPattern.finds (mask body)) :
    openingMode body m = .code ∨ (openingMode body m).isComment = true := by
  obtain ⟨⟨x, y, rfl, hstop, hstring⟩, -⟩ := exists_cut_of_mem_methods hm
  have hplace : m.span.stop.offset - 1 = Text.byteSize x := by omega
  rw [openingMode, hplace, Text.slice_zero_append]
  exact Mode.eq_code_or_isComment hstring

/-- The body of a method whose brace stands in code is whole. -/
theorem isWhole_body {body : Text} {m : Match} (hm : m ∈ methodPattern.finds (mask body))
    (hopens : openingMode body m = .code) {f : Method} (hf : Method.ofMatch? body m = some f) :
    isIdentifier f.name = true ∧ IsWhole f.body := by
  obtain ⟨⟨x, y, rfl, hstop, -⟩, hname⟩ := exists_cut_of_mem_methods hm
  have hplace : m.span.stop.offset - 1 = Text.byteSize x := by omega
  rw [openingMode, hplace, Text.slice_zero_append] at hopens
  obtain ⟨s, hs, hf⟩ := Option.bind_eq_some_iff.1 hf
  split at hf
  · exact absurd hf nofun
  · obtain ⟨close, hclose, hf⟩ := Option.bind_eq_some_iff.1 hf
    rw [hplace] at hclose hf
    obtain ⟨b, z, rfl, rfl, hb⟩ := isWhole_of_matchingBrace? hopens hclose
    obtain rfl := Option.some.inj hf
    refine ⟨hname s hs, ?_⟩
    have hslice : Text.slice (x ++ '\x7b' :: (b ++ '\x7d' :: z)) (Text.byteSize x + 1)
        (Text.byteSize x + 1 + Text.byteSize b) = b := by
      have h := Text.slice_append (x ++ ['\x7b']) b ('\x7d' :: z)
      rw [Text.byteSize_append, List.append_assoc, List.append_assoc] at h
      exact h
    dsimp only
    rw [hslice]
    exact hb

/-! ### Values of fields -/

/-- A field is found with an identifier for its name and a value that is complete in itself. -/
theorem isIdentifier_of_mem_fields {body : Text} {f : Field} (hf : f ∈ Field.ofBody body) :
    isIdentifier f.name = true ∧ isCompleteValue f.value = true := by
  obtain ⟨m, hm, hf⟩ := List.mem_filterMap.1 hf
  have hm' : m ∈ (chain (fieldLead ++ group 1 ident :: [Pattern.optional (one (charOf "?!")), many isBlank,
      Pattern.optional (chain [":", many (charNotOf "=;\n")]), "=", many isBlank,
      group 2 (many (charNotOf ";\n"))])).finds (mask body) := hm
  obtain ⟨x, u, v, w, y, -, -, hv, -, hgroup⟩ := exists_group? rfl rfl rfl hm'
  obtain ⟨s, hs, hf⟩ := Option.bind_eq_some_iff.1 hf
  obtain ⟨t, -, hf⟩ := Option.bind_eq_some_iff.1 hf
  dsimp only at hf
  split at hf
  · next hcomplete =>
    obtain rfl := Option.some.inj hf
    obtain rfl := Option.some.inj (hgroup.symm.trans hs)
    refine ⟨?_, hcomplete⟩
    dsimp only
    rw [Span.text_behind (.start (mask body)) (x ++ u) v (w ++ y) (w ++ y)]
    exact isIdentifier_of_reads hv
  · exact absurd hf nofun

/-- The sign of a block comment is read with what follows it, so no text ends in front of its second character. -/
theorem Mode.ne_sign_next (m : Mode) (c : Char) : m.next c none ≠ blockOpening ∧ m.next c none ≠ blockClosing := by
  cases m with
  | code =>
    by_cases hc : c = '\'' ∨ c = '"' ∨ c = '`' <;> simp [next, hc]
  | quoted q =>
    by_cases hb : c = '\\'
    · simp [next, hb]
    · by_cases hq : c = q ∨ c = '\n' ∧ q ≠ '`' <;> simp [next, hb, hq]
  | escaped q => simp [next]
  | lineComment => by_cases hc : c = '\n' <;> simp [next, hc]
  | blockOpening => simp [next]
  | blockComment => simp [next]
  | blockClosing => simp [next]

theorem Mode.ne_sign_behind (t : Text) : code.behind t ≠ blockOpening ∧ code.behind t ≠ blockClosing := by
  rcases t.eq_nil_or_concat with rfl | ⟨x, c, rfl⟩
  · exact ⟨nofun, nofun⟩
  · generalize code = m
    induction x generalizing m with
    | nil => exact m.ne_sign_next c
    | cons d x ih => exact ih _

/-- A value whose quotes are closed is whole with the end of its line, unless it ends in a block comment or has braces in code
that do not balance. -/
theorem isWhole_value_iff {v : Text} (hquotes : quotesClosed v = true) :
    IsWhole (v ++ [';', '\n']) ↔ (scan v).final ≠ .blockComment ∧ isNested v = true := by
  have hcalm : Calm [';', '\n'] := .cons (by decide) (by decide) _
  have hfinal : (Mode.code.behind v).behind [';', '\n'] = .code ↔ Mode.code.behind v ≠ .blockComment := by
    obtain ⟨hopening, hclosing⟩ := Mode.ne_sign_behind v
    have hstring : (Mode.code.behind v).isString = false := by
      rw [quotesClosed, final_scan] at hquotes
      simpa using hquotes
    cases hmode : Mode.code.behind v with
    | code | lineComment | blockComment => decide
    | quoted q | escaped q =>
      rw [hmode] at hstring
      exact absurd hstring nofun
    | blockOpening => exact absurd hmode hopening
    | blockClosing => exact absurd hmode hclosing
  have hbraces : ∀ m pos, bracesFrom m pos [';', '\n'] = [] := by
    intro m pos
    rw [bracesFrom_cons, bracesFrom_cons, if_neg fun h => absurd h.2 (by decide), if_neg fun h => absurd h.2 (by decide)]
    rfl
  have hnested : nesting? 0 ((bracesFrom .code 0 (v ++ [';', '\n'])).map Brace.isOpen) = some 0 ↔ isNested v = true := by
    rw [bracesFrom_append hcalm, hbraces, List.append_nil, isNested, braces_scan, beq_iff_eq]
  rw [final_scan, ← hfinal, ← hnested, ← Mode.behind_append hcalm]
  exact ⟨fun h => ⟨h.final, h.nested⟩, fun h => ⟨h.1, h.2⟩⟩

/-! ### Brackets and braces -/

/-- Every brace of the text stands in code. -/
def ShowsBraces (t : Text) : Prop := ∀ x c y, t = x ++ c :: y → c = '\x7b' ∨ c = '\x7d' → (scan x).final = .code

/-- Which braces there are, wherever they stand. -/
def braceOf? (c : Char) : Option Bool := if c = '\x7b' then some true else if c = '\x7d' then some false else none

/-- When every brace stands in code, a scan finds them all. -/
theorem bracesFrom_of_shown {m : Mode} {t : Text}
    (h : ∀ x c y, t = x ++ c :: y → c = '\x7b' ∨ c = '\x7d' → m.behind x = .code) :
    (bracesFrom m 0 t).map Brace.isOpen = t.filterMap braceOf? := by
  induction t generalizing m with
  | nil => rfl
  | cons c t ih =>
    have hrest : (bracesFrom (m.next c t.head?) 0 t).map Brace.isOpen = t.filterMap braceOf? := by
      refine ih ?_
      rintro x d y rfl hd
      have hcalm : Calm (d :: y) := by
        rcases hd with rfl | rfl <;> exact .cons (by decide) (by decide) y
      rw [Mode.next_head?_append hcalm]
      exact h (c :: x) d y rfl hd
    rw [isOpen_bracesFrom_cons, isOpen_bracesFrom _ _ 0, hrest]
    by_cases hc : c = '\x7b' ∨ c = '\x7d'
    · have hat : bracesAt m c = [c == '\x7b'] := if_pos ⟨h [] c t rfl hc, hc⟩
      rw [hat]
      rcases hc with rfl | rfl <;> rfl
    · have hat : bracesAt m c = [] := if_neg fun hat => hc hat.2
      have hnone : braceOf? c = none := by
        rw [not_or] at hc
        simp [braceOf?, hc]
      rw [hat, List.filterMap_cons_none hnone]
      rfl

theorem braceOf?_of_closer? {c d : Char} (h : closer? c = some d) :
    braceOf? c = some true ∧ d = '\x7d' ∨ braceOf? c = none ∧ d ≠ '\x7d' := by
  unfold closer? at h
  split_ifs at h with hround hsquare hcurly
  · obtain rfl := Option.some.inj h
    exact .inr ⟨by rw [hround]; rfl, by decide⟩
  · obtain rfl := Option.some.inj h
    exact .inr ⟨by rw [hsquare]; rfl, by decide⟩
  · exact .inl ⟨by rw [hcurly]; rfl, (Option.some.inj h).symm⟩

theorem braceOf?_of_isCloser {c : Char} (h : isCloser c = true) :
    braceOf? c = some false ∧ c = '\x7d' ∨ braceOf? c = none ∧ c ≠ '\x7d' := by
  simp only [isCloser, Bool.or_eq_true, beq_iff_eq] at h
  rcases h with (rfl | rfl) | rfl
  · exact .inr ⟨rfl, by decide⟩
  · exact .inr ⟨rfl, by decide⟩
  · exact .inl ⟨rfl, rfl⟩

theorem braceOf?_eq_none {c : Char} (hcloser : closer? c = none) (h : isCloser c = false) : braceOf? c = none := by
  unfold braceOf?
  split_ifs with hopen hclose
  · subst hopen
    exact absurd hcloser (by decide)
  · subst hclose
    exact absurd h (by decide)
  · rfl

/-- When the brackets of a text close the pending ones, the braces among them close the pending braces. -/
theorem nesting?_of_closes {pending : List Char} {t : Text} (h : closes pending t = true) :
    nesting? (pending.count '\x7d') (t.filterMap braceOf?) = some 0 := by
  induction t generalizing pending with
  | nil =>
    obtain rfl := List.isEmpty_iff.1 h
    rfl
  | cons c t ih =>
    unfold closes at h
    cases hcloser : closer? c with
    | some d =>
      rw [hcloser] at h
      have hrest := ih h
      rcases braceOf?_of_closer? hcloser with ⟨hc, rfl⟩ | ⟨hc, hd⟩
      · rw [List.count_cons_self] at hrest
        rw [List.filterMap_cons_some hc]
        exact hrest
      · rw [List.count_cons_of_ne hd] at hrest
        rwa [List.filterMap_cons_none hc]
    | none =>
      rw [hcloser] at h
      dsimp only at h
      cases hclose : isCloser c with
      | false =>
        rw [hclose] at h
        rw [List.filterMap_cons_none (braceOf?_eq_none hcloser hclose)]
        exact ih h
      | true =>
        rw [hclose, if_pos rfl] at h
        cases pending with
        | nil => exact absurd h nofun
        | cons d outer =>
          rw [Bool.and_eq_true, beq_iff_eq] at h
          obtain ⟨rfl, h⟩ := h
          have hrest := ih h
          rcases braceOf?_of_isCloser hclose with ⟨hc, rfl⟩ | ⟨hc, hd⟩
          · rw [List.filterMap_cons_some hc, List.count_cons_self]
            exact hrest
          · rwa [List.filterMap_cons_none hc, List.count_cons_of_ne hd]

/-- Balanced brackets are balanced braces when every brace stands in code. -/
theorem isNested_of_shown {t : Text} (hshown : ShowsBraces t) (h : isBalanced t = true) : isNested t = true := by
  have hbraces := bracesFrom_of_shown (m := .code) fun x c y ht hc => (final_scan x).symm.trans (hshown x c y ht hc)
  rw [isNested, braces_scan, hbraces, beq_iff_eq]
  exact nesting?_of_closes h

end SnippetPreview.Script
