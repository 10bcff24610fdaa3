import SnippetPreview.Proofs.Script.Rereading
import SnippetPreview.Proofs.Text.Separators

/-!
# The field on a line

* `Contributes`: what a line adds to the fields of the lines behind it, whatever these are;
* `ofBody_lines`: a class body of such lines has just the fields that its lines contribute;
* `contributes_signed`: a name, a sign and a value contribute the field that they stand for, if the value is complete;
* `contributes_unsigned`: a name without a sign contributes nothing.
-/

namespace SnippetPreview

namespace Text

/-! ### Slices further behind -/

theorem slice_go_add (n start stop pos : Nat) (t : Text) :
    slice.go (n + start) (n + stop) (n + pos) t = slice.go start stop pos t := by
  induction t generalizing pos with
  | nil => rfl
  | cons c t ih =>
    rw [slice.go, slice.go, Nat.add_assoc, ih]
    simp only [Nat.add_le_add_iff_left]

/-- What stands behind `x` is sliced as if it stood alone. -/
theorem slice_add (x t : Text) (start stop : Nat) :
    slice (x ++ t) (byteSize x + start) (byteSize x + stop) = slice t start stop := by
  have hgo : ∀ (x : Text) (pos : Nat), slice.go (pos + byteSize x + start) (pos + byteSize x + stop) pos (x ++ t)
      = slice.go start stop 0 t := by
    intro x
    induction x with
    | nil =>
      intro pos
      have h := slice_go_add pos start stop 0 t
      rwa [Nat.add_zero] at h
    | cons c x ih =>
      intro pos
      have hc := c.utf8Size_pos
      have hrest := ih (pos + c.utf8Size)
      rw [byteSize_cons, ← Nat.add_assoc]
      rwa [List.cons_append, slice.go, if_neg (by omega), if_neg (by omega)]
  have h := hgo x 0
  rwa [Nat.zero_add] at h

theorem slice_to_end (x y : Text) : slice (x ++ y) (byteSize x) (byteSize (x ++ y)) = y := by
  have h := slice_append x y []
  rwa [List.append_nil, ← byteSize_append] at h

end Text

namespace Script

open Pattern

/-! ### Lines -/

/-- The text ends here or goes on with a new line. -/
def IsLineEnd (z : Text) : Prop := z = [] ∨ ∃ w, z = '\n' :: w

/-- The line adds these fields to the ones of what is behind it. -/
def Contributes (line : Text) (fs : List Field) : Prop :=
  ∀ z, IsLineEnd z → Field.ofBody (line ++ z) = fs ++ Field.ofBody z

theorem mask_newline (z : Text) : mask ('\n' :: z) = '\n' :: mask z := maskFrom_plain (x := ['\n']) (by decide) z

/-! ### Behind a whole text -/

section Behind

variable {z : Text} {k : Cursor}

/-- A match behind a text stands for the same field as the match that is found without the text. -/
theorem ofMatch?_twin {read : Text} {e e' : Nat} {m m' : Match} (h : TwinMatch true e e' [] [] m m')
    (he : e = Text.byteSize read + e') :
    Field.ofMatch? (read ++ z) m = Field.ofMatch? z m' := by
  have hoffset : ∀ {d d' : Cursor}, Twin true e e' [] [] d d' → d.offset = Text.byteSize read + d'.offset := by
    rintro d d' hd
    obtain ⟨x, -, -, hx, hx'⟩ := hd.text
    omega
  have hname := h.group? 1
  have hvalue := h.group? 2
  unfold Field.ofMatch?
  generalize m.group? 1 = name at hname
  generalize m'.group? 1 = name' at hname
  generalize m.group? 2 = value at hvalue
  generalize m'.group? 2 = value' at hvalue
  cases hname with
  | none => rfl
  | some hname =>
    cases hvalue with
    | none => rfl
    | some hvalue =>
      simp only [Option.bind_eq_bind, Option.bind_some, hname.text, hoffset hvalue.start, hoffset hvalue.stop,
        Text.slice_add]

/-- Behind a whole text, at the start of a line, the fields are those of the rest. -/
theorem fields_behind (read : Text) (hk : k.offset = Text.byteSize read) (hline : k.atLineStart = true)
    (hafter : k.after = mask z) :
    (fieldPattern.findsFrom k).filterMap (Field.ofMatch? (read ++ z)) = Field.ofBody z := by
  have htwin : Twin true (Text.byteSize read + Text.byteSize z) (Text.byteSize z) [] [] k (.start (mask z)) := by
    refine ⟨fun _ => sameBefore_of_atLineStart hline, mask z, ?_, (List.append_nil _).symm, ?_, ?_⟩
    · rw [hafter, List.append_nil]
    · rw [hk, byteSize_mask]
    · rw [byteSize_mask]
      exact Nat.zero_add _
  have hmatches := Twin.findsFrom (p := fieldPattern) rfl rfl htwin
  rw [Field.ofBody, finds_eq_findsFrom]
  generalize fieldPattern.findsFrom k = ms at hmatches
  generalize fieldPattern.findsFrom (.start (mask z)) = ms' at hmatches
  induction hmatches with
  | nil => rfl
  | cons hm _ ih => rw [List.filterMap_cons, List.filterMap_cons, ofMatch?_twin hm rfl, ih]

theorem ofBody_nil : Field.ofBody [] = [] := by
  have hnone : fieldPattern.findsFrom (.start (mask [])) = [] := findsFrom_end isMemberTail_fieldTail rfl
  rw [Field.ofBody, finds_eq_findsFrom, hnone]
  rfl

theorem ofBody_newline (z : Text) : Field.ofBody ('\n' :: z) = Field.ofBody z := by
  have hnone : fieldPattern.readings (.start ('\n' :: mask z)) = [] := by
    refine readings_member_eq_nil isMemberTail_fieldTail (fun _ => rfl) fun c t ht hc => ?_
    obtain ⟨rfl, -⟩ := List.cons.inj ht
    exact absurd hc (by decide)
  have hfields := fields_behind ['\n'] (z := z) (k := (Cursor.start ('\n' :: mask z)).past '\n' (mask z)) rfl rfl rfl
  rwa [← findsFrom_skip rfl hnone, ← mask_newline, ← finds_eq_findsFrom] at hfields

/-- Behind the semicolon at the end of a line, the fields are those of the lines behind it. -/
theorem fields_lineEnd (read : Text) (hz : IsLineEnd z) (hk : k.offset + 1 = Text.byteSize read)
    (hafter : k.after = ';' :: mask z) :
    (fieldPattern.findsFrom k).filterMap (Field.ofMatch? (read ++ z)) = Field.ofBody z := by
  rcases hz with rfl | ⟨w, rfl⟩
  · have hnone : fieldPattern.readings k = [] := by
      refine readings_member_eq_nil isMemberTail_fieldTail (fun _ => ?_) fun c t ht _ => ?_
      · rw [hafter]
        rfl
      · obtain ⟨-, rfl⟩ := List.cons.inj (hafter.symm.trans ht)
        rfl
    have hend : fieldPattern.findsFrom (k.past ';' (mask [])) = [] := findsFrom_end isMemberTail_fieldTail rfl
    rw [findsFrom_skip hafter hnone, hend, ofBody_nil]
    rfl
  · rw [mask_newline] at hafter
    have hbehind := fields_behind (read ++ ['\n']) (z := w) (k := k.behind [';', '\n'] (mask w)) ?_ rfl rfl
    · rw [fieldPattern_eq, findsFrom_lineEnd isMemberTail_fieldTail hafter rfl, ← fieldPattern_eq, ofBody_newline,
        ← hbehind, List.append_assoc]
      rfl
    · rw [Cursor.offset_behind, Text.byteSize_append, ← hk]
      rfl

end Behind

/-- A class body of lines that each contribute fields has just these fields. -/
theorem ofBody_lines {ls : List (Text × List Field)} (h : ∀ l ∈ ls, Contributes l.1 l.2) :
    Field.ofBody (ls.flatMap fun l => l.1 ++ ['\n']) = ls.flatMap Prod.snd := by
  induction ls with
  | nil => exact ofBody_nil
  | cons l ls ih =>
    have hrest := ih fun l' hl' => h l' (List.mem_cons_of_mem l hl')
    have hline := h l List.mem_cons_self ('\n' :: ls.flatMap fun l => l.1 ++ ['\n']) (.inr ⟨_, rfl⟩)
    rw [ofBody_newline, hrest] at hline
    rw [List.flatMap_cons, List.flatMap_cons, List.append_assoc]
    exact hline

/-! ### Lines with a sign -/

/-- The field that a name and a value stand for, if the value is complete. -/
def Field.given? (name value : Text) : Option Field :=
  if isCompleteValue value.trim then some ⟨name, value.trim⟩ else none

/-- A line as it is masked up to its value and on. -/
structure IsSignedLine (indent name rest mid value : Text) : Prop where
  indent : indent.all isLineBlank = true
  name : isIdentifier name = true
  whole : IsWhole rest
  mask : mask rest = mid ++ value
  signed : IsSigned mid
  line : value.all (charNotOf ";\n") = true
  blank : (value ++ [';']).head?.any isBlank = false

theorem isPlainCode_of_isIdentifier {name : Text} (h : isIdentifier name = true) : name.all isPlainCode = true :=
  all_mono (fun _ => isPlainCode_of_isIdentRest) (all_isIdentRest_of_isIdentifier h)

theorem isPlainCode_of_isLineBlank {indent : Text} (h : indent.all isLineBlank = true) :
    indent.all isPlainCode = true := by
  refine List.all_eq_true.2 fun c hc => ?_
  have hblank : c = ' ' ∨ c = '\t' := by simpa [isLineBlank] using List.all_eq_true.1 h c hc
  rcases hblank with rfl | rfl <;> decide

/-- A line is masked from behind its name on. -/
theorem mask_line {indent name rest : Text} (hindent : indent.all isLineBlank = true) (hname : isIdentifier name = true)
    (hrest : IsWhole rest) (z : Text) :
    mask (indent ++ (name ++ (rest ++ ';' :: z))) = indent ++ (name ++ (mask rest ++ ';' :: mask z)) := by
  unfold mask
  rw [maskFrom_plain (isPlainCode_of_isLineBlank hindent), maskFrom_plain (isPlainCode_of_isIdentifier hname),
    hrest.maskFrom_append (.cons (by decide) (by decide) _)]
  exact congrArg (fun t => indent ++ (name ++ (_ ++ t))) (maskFrom_plain (x := [';']) (by decide) z)

/-- A match whose groups are a name and a value stands for the field that these give. -/
theorem ofMatch?_eq_given? (value : Text) {body name : Text} {m : Match} {s s' : Span} (hname : m.group? 1 = some s)
    (hvalue : m.group? 2 = some s') (hn : s.text = name) (hv : body.slice s'.start.offset s'.stop.offset = value) :
    Field.ofMatch? body m = Field.given? name value := by
  unfold Field.ofMatch? Field.given?
  simp only [hname, hvalue, Option.bind_eq_bind, Option.bind_some, hn, hv]

/-- A name, a sign and a value contribute the field that they stand for. -/
theorem contributes_signed {indent name rest mid value : Text} (h : IsSignedLine indent name rest mid value) :
    Contributes (indent ++ (name ++ (rest ++ [';'])))
      (Field.given? name (rest.slice (Text.byteSize mid) (Text.byteSize rest))).toList := by
  intro z hz
  have hsize : Text.byteSize rest = Text.byteSize mid + Text.byteSize value := by
    rw [← byteSize_mask, h.mask, Text.byteSize_append]
  have hmask := mask_line h.indent h.name h.whole z
  rw [h.mask, List.append_assoc] at hmask
  have hblank : (value ++ ';' :: mask z).head?.any isBlank = false := by
    have hhead := h.blank
    cases value <;> exact hhead
  generalize hk : Cursor.start (indent ++ (name ++ (mid ++ (value ++ ';' :: mask z)))) = k
  have hafter : k.after = indent ++ (name ++ (mid ++ (value ++ ';' :: mask z))) := by rw [← hk]; rfl
  have hoffset : k.offset = 0 := by rw [← hk]; rfl
  have hfirst := first_field indent (by rw [← hk]; rfl) h.indent h.name h.signed h.line rfl hblank hafter
  have hne : indent ++ (name ++ (mid ++ value)) ≠ [] :=
    List.append_ne_nil_of_right_ne_nil _ (List.append_ne_nil_of_left_ne_nil (ne_nil_of_isIdentifier h.name) _)
  have hfinds := findsFrom_match (u := indent ++ (name ++ (mid ++ value))) (by simpa using hafter) hne hfirst rfl
  have hbody : indent ++ (name ++ (rest ++ ';' :: z)) = indent ++ (name ++ (rest ++ [';'])) ++ z := by simp
  have hend := fields_lineEnd (indent ++ (name ++ (rest ++ [';'])))
    (k := k.behind (indent ++ (name ++ (mid ++ value))) (';' :: mask z)) hz ?_ rfl
  · have hname := Span.text_behind k indent name (mid ++ (value ++ ';' :: mask z)) (mid ++ (value ++ ';' :: mask z))
    have hslice : Text.slice (indent ++ (name ++ (rest ++ [';'])) ++ z)
        (Text.byteSize (indent ++ name) + Text.byteSize mid) (Text.byteSize (indent ++ name) + Text.byteSize rest)
        = rest.slice (Text.byteSize mid) (Text.byteSize rest) := by
      have hline : indent ++ (name ++ (rest ++ [';'])) ++ z = (indent ++ name) ++ (rest ++ (';' :: z)) := by simp
      rw [hline, Text.slice_add]
      exact Text.slice_append_of_le _ (Nat.le_refl _)
    rw [Field.ofBody, finds_eq_findsFrom, ← hbody, hmask, hk, hfinds, List.filterMap_cons, hbody, hend,
      ofMatch?_eq_given? (rest.slice (Text.byteSize mid) (Text.byteSize rest)) rfl rfl hname ?_]
    · cases Field.given? name (rest.slice (Text.byteSize mid) (Text.byteSize rest)) <;> rfl
    · rw [← hslice]
      simp only [Cursor.offset_behind, hoffset, Text.byteSize_append, hsize]
      congr 1 <;> omega
  · rw [Cursor.offset_behind, hoffset]
    simp only [Text.byteSize_append, hsize]
    show _ + 1 = _ + (_ + (_ + 1))
    omega

/-! ### Lines without a sign -/

/-- A character of a line that shows neither a sign nor a decorator and goes on. -/
def isQuiet (c : Char) : Bool := charNotOf "=;@" c

theorem isQuiet_of_isLineBlank {c : Char} (h : isLineBlank c = true) : isQuiet c = true :=
  charNotOf_of_class (by decide) h

/-- No field is read across a semicolon where there is neither a sign nor a decorator in front of it. -/
theorem readings_field_eq_nil {k : Cursor} {c : Char} {u y : Text} (hu : (c :: u).all isQuiet = true)
    (hk : k.after = c :: u ++ ';' :: y) : fieldPattern.readings k = [] := by
  refine readings_eq_nil_iff.2 fun w y' hw h => ?_
  have hquiet : isQuiet ';' = false := by decide
  obtain ⟨s, v, rfl, hstart, htail⟩ := reads_seq_iff.1 h
  -- the start of a member stays in front of the semicolon
  have hs : s.all isQuiet = true := by
    obtain ⟨s₁, s₂, rfl, h₁, h₂⟩ := reads_seq_iff.1 hstart
    have hblanks : s₂.all isQuiet = true := h₂.all ⟨fun _ => isQuiet_of_isLineBlank, trivial⟩
    rw [List.all_append, hblanks, Bool.and_true]
    rcases reads_alt_iff.1 h₁ with h₁ | h₁
    · cases h₁ with
      | lineStart => rfl
    · obtain ⟨d, rfl, -⟩ := reads_one_iff.1 h₁
      obtain ⟨rfl, -⟩ := List.cons.inj (hk.symm.trans hw)
      exact Bool.and_eq_true_iff.2 ⟨(Bool.and_eq_true_iff.1 hu).1, rfl⟩
  obtain ⟨u', hcu, htext⟩ := eq_append_of_append_eq hs hquiet
    (by rw [← List.append_assoc, ← hw, hk] : s ++ (v ++ y') = c :: u ++ ';' :: y)
  rw [hcu, List.all_append, Bool.and_eq_true] at hu
  obtain ⟨v₁, v₂, rfl, hdecor, hrest⟩ := reads_seq_iff.1 htail
  cases v₁ with
  | cons d v₁ =>
    have hat : d = '@' := by simpa [decorator, starts, consumes, chain, text] using hdecor.starts rfl
    cases u' with
    | nil =>
      obtain ⟨rfl, -⟩ := List.cons.inj htext
      exact absurd hat (by decide)
    | cons e u' =>
      obtain ⟨rfl, -⟩ := List.cons.inj htext
      rw [hat] at hu
      exact absurd hu.2 (by simp [isQuiet, charNotOf])
  | nil =>
    have hsemicolon : charNotOf ";" ';' = false := by decide
    have hhead : ∀ d, isFieldHead d = true → charNotOf ";" d = true := by
      intro d hd
      have hne : d ≠ ';' := by
        rintro rfl
        exact absurd hd (by decide)
      simpa [charNotOf] using hne
    have hmodifier : (modifier ["public", "private", "protected", "readonly", "static"]).Within isFieldHead :=
      within_fieldModifier.mono fun _ => isFieldHead_of_isNameOrBlank
    have htype : (Pattern.optional (chain [":", many (charNotOf "=;\n")])).Within (charNotOf ";") := by
      refine ⟨⟨within_text (by decide), fun d hd => ?_, trivial⟩, trivial⟩
      have hne : d ≠ '=' ∧ d ≠ ';' ∧ d ≠ '\n' := by simpa [charNotOf] using hd
      simpa [charNotOf] using hne.2.1
    obtain ⟨w₁, w, v, b₁, rfl, htext, hrest⟩ := reads_seq_within hrest (hmodifier.mono hhead) hsemicolon htext
    obtain ⟨w₂, w, v, b₂, rfl, htext, hrest⟩ := reads_seq_within hrest ((within_ident 1).mono hhead) hsemicolon htext
    obtain ⟨w₃, w, v, b₃, rfl, htext, hrest⟩ := reads_seq_within hrest (within_fieldSign.mono hhead) hsemicolon htext
    obtain ⟨w₄, w, v, b₄, rfl, htext, hrest⟩ := reads_seq_within hrest (within_fieldBlanks.mono hhead) hsemicolon htext
    obtain ⟨w₅, w, v, b₅, rfl, htext, hrest⟩ := reads_seq_within hrest htype hsemicolon htext
    simp only [List.all_append, Bool.and_eq_true] at hu
    refine not_reads_of_starts rfl hu.2.2.2.2.2.2 (fun d hd => ?_) htext hrest
    obtain rfl : d = '=' := by simpa [starts, consumes, chain, text] using hd
    decide

/-- So none is found up to the semicolon. -/
theorem findsFrom_quiet {k : Cursor} {u y : Text} (hu : u.all isQuiet = true) (hk : k.after = u ++ ';' :: y) :
    fieldPattern.findsFrom k = fieldPattern.findsFrom (k.behind u (';' :: y)) := by
  induction u generalizing k with
  | nil =>
    rw [List.nil_append] at hk
    rw [← hk, Cursor.behind_nil]
  | cons c u ih =>
    have hnone := readings_field_eq_nil hu hk
    rw [List.all_cons, Bool.and_eq_true] at hu
    rw [List.cons_append] at hk
    rw [findsFrom_skip hk hnone, @ih (k.past c (u ++ ';' :: y)) hu.2 rfl, Cursor.past_behind]

/-- A name without a sign behind it contributes nothing. -/
theorem contributes_unsigned {indent name rest : Text} (hindent : indent.all isLineBlank = true)
    (hname : isIdentifier name = true) (hrest : IsWhole rest) (hquiet : (mask rest).all isQuiet = true) :
    Contributes (indent ++ (name ++ (rest ++ [';']))) [] := by
  intro z hz
  have hmask := mask_line hindent hname hrest z
  have hbody : indent ++ (name ++ (rest ++ ';' :: z)) = indent ++ (name ++ (rest ++ [';'])) ++ z := by simp
  have hall : (indent ++ (name ++ mask rest)).all isQuiet = true := by
    rw [List.all_append, List.all_append, hquiet, Bool.and_true, Bool.and_eq_true]
    exact ⟨all_mono (fun _ => isQuiet_of_isLineBlank) hindent,
      all_mono (fun _ => charNotOf_of_class (by decide)) (all_isIdentRest_of_isIdentifier hname)⟩
  generalize hk : Cursor.start (indent ++ (name ++ (mask rest ++ ';' :: mask z))) = k
  have hafter : k.after = (indent ++ (name ++ mask rest)) ++ ';' :: mask z := by
    rw [← hk]
    simp [Cursor.start]
  have hend := fields_lineEnd (indent ++ (name ++ (rest ++ [';'])))
    (k := k.behind (indent ++ (name ++ mask rest)) (';' :: mask z)) hz ?_ rfl
  · rw [Field.ofBody, finds_eq_findsFrom, ← hbody, hmask, hk, findsFrom_quiet hall hafter, hbody, hend]
    rfl
  · rw [Cursor.offset_behind, ← hk]
    simp only [Text.byteSize_append, byteSize_mask]
    show 0 + _ + 1 = _ + (_ + (_ + 1))
    omega

end Script

end SnippetPreview
