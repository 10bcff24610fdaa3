import SnippetPreview.Proofs.Script.Lines
import SnippetPreview.Proofs.Script.Printing

/-!
# Reading printed members again

* `Stands`: a search that has come to the start of a member's line in a masked class body;
* `exists_match_field`, `exists_match_method`: the match on the line of a field and of a method, and what becomes of it;
* `fields_findsFrom`: the fields are found again.
-/

namespace SnippetPreview.Script

open Pattern

/-- The place `k` of the masked class body is behind the text `read`, at the start of a line, the members `ms` ahead. -/
structure Stands (read : Text) (ms : List Member) (k : Cursor) : Prop where
  whole : IsWhole read
  offset : k.offset = Text.byteSize read
  line : k.atLineStart = true
  after : k.after = print (ms.map Member.masked)

theorem Member.lastOf_print (m : Member) (b : Option Char) : lastOf b m.print = some '\n' := by
  cases m with
  | field f =>
    show lastOf b (fieldLine f) = _
    rw [fieldLine_eq, lastOf_append, lastOf_append]
    rfl
  | method m =>
    show lastOf b (methodLines m) = _
    rw [methodLines_eq, lastOf_append, lastOf_cons, lastOf_append]
    rfl

/-- The place behind the line of a member. -/
def Stands.next (m : Member) (ms : List Member) (k : Cursor) : Cursor :=
  k.behind m.masked.print (print (ms.map Member.masked))

theorem Stands.step {read : Text} {m : Member} {ms : List Member} {k : Cursor} (h : Stands read (m :: ms) k)
    (hm : m.IsPrintable) : Stands (read ++ m.print) ms (next m ms k) := by
  refine ⟨?_, ?_, ?_, rfl⟩
  · exact h.whole.append hm.isWhole_print m.calm_print
  · rw [next, Cursor.offset_behind, h.offset, byteSize_print_masked hm, Text.byteSize_append]
  · unfold next Cursor.atLineStart
    rw [Cursor.before_behind, Member.lastOf_print]
    rfl

theorem Stands.next_field (f : Field) (ms : List Member) (k : Cursor) :
    next (.field f) ms k
      = k.behind (Member.naming f ++ (mask f.value ++ [';', '\n'])) (print (ms.map Member.masked)) :=
  congrArg (fun u => k.behind u _) (Member.fieldLine_eq ⟨f.name, mask f.value⟩)

theorem Stands.next_method (m : Method) (ms : List Member) (k : Cursor) :
    next (.method m) ms k
      = k.behind (Member.opening m ++ '\x7b' :: (maskFrom .code 1 m.body ++ ['\x7d', '\n']))
        (print (ms.map Member.masked)) :=
  congrArg (fun u => k.behind u _) (Member.methodLines_eq ⟨m.name, maskFrom .code 1 m.body, m.isAsync⟩)

theorem Stands.after_field {read : Text} {f : Field} {ms : List Member} {k : Cursor}
    (h : Stands read (.field f :: ms) k) :
    k.after = Member.naming f ++ (mask f.value ++ ';' :: '\n' :: print (ms.map Member.masked)) :=
  h.after.trans (print_field ⟨f.name, mask f.value⟩ _)

theorem Stands.after_method {read : Text} {m : Method} {ms : List Member} {k : Cursor}
    (h : Stands read (.method m :: ms) k) :
    k.after = Member.opening m ++
      '\x7b' :: (maskFrom .code 1 m.body ++ '\x7d' :: '\n' :: print (ms.map Member.masked)) :=
  h.after.trans (print_method ⟨m.name, maskFrom .code 1 m.body, m.isAsync⟩ _)

section Fields

variable {read : Text} {ms : List Member} {k : Cursor}

/-- A match whose groups are the name and the value of a field stands for the field. -/
theorem Field.IsPrintable.ofMatch? {f : Field} (hf : f.IsPrintable) {body : Text} {m : Match} {name value : Span}
    (hname : m.group? 1 = some name) (hvalue : m.group? 2 = some value) (hn : name.text = f.name)
    (hv : body.slice value.start.offset value.stop.offset = f.value) : Field.ofMatch? body m = some f := by
  have hcomplete : isCompleteValue f.value = true := by
    have hempty : f.value.isEmpty = false := List.isEmpty_eq_false_iff.2 hf.ne_nil
    rw [isCompleteValue, hempty, hf.arrow, quotesClosed, hf.final, hf.balanced]
    rfl
  unfold Field.ofMatch?
  rw [hname, hvalue]
  show (if isCompleteValue (Text.trim (body.slice value.start.offset value.stop.offset)) then _ else _) = _
  rw [hv, hf.trim, if_pos hcomplete, hn]

/-- The line of a field is read as that field. -/
theorem exists_match_field {f : Field} (hf : f.IsPrintable) (h : Stands read (.field f :: ms) k) :
    ∃ m, fieldPattern.findsFrom k = m :: fieldPattern.findsFrom (Stands.next (.field f) ms k) ∧
      Field.ofMatch? (read ++ print (.field f :: ms)) m = some f := by
  have hafter := h.after_field
  rw [Member.naming_append] at hafter
  have hfirst := first_fieldPattern h.line hf.name hf.line_mask (hf.isBlank_head?_mask _) hafter
  generalize hz : '\n' :: print (ms.map Member.masked) = z at hafter hfirst
  have hmatch := findsFrom_match (u := ' ' :: ' ' :: (f.name ++ ' ' :: '=' :: ' ' :: mask f.value)) (y := ';' :: z)
    (by rw [hafter]; simp) (List.cons_ne_nil _ _) hfirst rfl
  refine ⟨_, hmatch.trans (congrArg _ ?_), ?_⟩
  · subst hz
    rw [fieldPattern_eq, findsFrom_lineEnd isMemberTail_fieldTail rfl rfl, Cursor.behind_behind, Stands.next_field,
      Member.naming_append, ← Member.naming_append f (mask f.value), List.append_assoc, Member.naming_append]
  · have hname : Span.text ⟨k.behind [' ', ' '] (f.name ++ ' ' :: '=' :: ' ' :: (mask f.value ++ ';' :: z)),
        k.behind (' ' :: ' ' :: f.name) (' ' :: '=' :: ' ' :: (mask f.value ++ ';' :: z))⟩ = f.name :=
      Span.text_behind k [' ', ' '] _ _ _
    have hbody : read ++ print (.field f :: ms)
        = (read ++ Member.naming f) ++ f.value ++ (';' :: '\n' :: print ms) := by
      rw [print_field, List.append_assoc, List.append_assoc]
    have hnaming : ' ' :: ' ' :: (f.name ++ [' ', '=', ' ']) = Member.naming f := by
      rw [← List.append_nil (Member.naming f), Member.naming_append]
    have hvalue : Text.slice (read ++ print (.field f :: ms))
        (k.offset + Text.byteSize (' ' :: ' ' :: (f.name ++ [' ', '=', ' '])))
        (k.offset + Text.byteSize (' ' :: ' ' :: (f.name ++ ' ' :: '=' :: ' ' :: mask f.value))) = f.value := by
      rw [hbody, hnaming, ← Member.naming_append, h.offset, Text.byteSize_append, byteSize_mask, ← Nat.add_assoc,
        ← Text.byteSize_append]
      exact Text.slice_append _ _ _
    exact hf.ofMatch? rfl rfl hname hvalue

/-- A name stays within the line and does not end a member. -/
theorem inside_name {name : Text} (h : isName name = true) : name.all (charNotOf ";\x7d\n") = true := by
  refine List.all_eq_true.2 fun c hc => ?_
  have hrest := List.all_eq_true.1 (all_isNameRest_of_isName h) c hc
  have hne : c ≠ ';' ∧ c ≠ '\x7d' ∧ c ≠ '\n' :=
    ⟨ne_of_class hrest rfl, ne_of_class hrest rfl, ne_of_class hrest rfl⟩
  simpa [charNotOf] using hne

/-- So does all that a method has in front of its body. -/
theorem inside_opening {m : Method} (h : isName m.name = true) :
    (Member.opening m ++ ['\x7b']).all (charNotOf ";\x7d\n") = true := by
  have hmarker : (Member.marker m).all (charNotOf ";\x7d\n") = true := by
    unfold Member.marker
    cases m.isAsync <;> decide
  unfold Member.opening
  simp only [List.all_append, hmarker, inside_name h]
  decide

/-- No field is found in the lines of a method. -/
theorem findsFrom_field_method {m : Method} (hm : m.IsPrintable) (h : Stands read (.method m :: ms) k) :
    fieldPattern.findsFrom k = fieldPattern.findsFrom (Stands.next (.method m) ms k) := by
  have hafter := h.after_method
  have hnone : fieldPattern.readings k = [] := by
    refine readings_fieldPattern_eq_nil (w := Member.marker m ++ m.name)
      (z := ')' :: ' ' :: '\x7b' :: (maskFrom .code 1 m.body ++ '\x7d' :: '\n' :: print (ms.map Member.masked)))
      ?_ ?_ ?_
    · have hname : m.name.all isNameOrBlank = true := by
        refine List.all_eq_true.2 fun c hc => ?_
        rw [isNameOrBlank, List.all_eq_true.1 (all_isNameRest_of_isName hm.name) c hc, Bool.true_or]
      rw [List.all_append, hname, Bool.and_true, Member.marker]
      cases m.isAsync <;> decide
    · unfold Member.marker
      cases m.isAsync with
      | true => exact ⟨'a', _, rfl, by decide⟩
      | false =>
        obtain ⟨c, hhead, hc⟩ := head?_name hm.name []
        obtain ⟨t, ht⟩ := List.head?_eq_some_iff.1 hhead
        exact ⟨c, t, by simpa using ht, hc⟩
    · rw [hafter, Member.opening_append, List.append_assoc]
  obtain ⟨u, hu⟩ : ∃ u, Member.opening m ++ ['\x7b'] = ' ' :: u := ⟨_, Member.opening_append m _⟩
  have hinside := inside_opening hm.name
  rw [List.append_cons, hu] at hafter
  rw [hu, List.all_cons, Bool.and_eq_true] at hinside
  rw [findsFrom_skip hafter hnone, fieldPattern_eq, findsFrom_inside isMemberTail_fieldTail rfl rfl hinside.2,
    findsFrom_nested isMemberTail_fieldTail rfl hm.blank,
    Cursor.past_behind, Cursor.behind_behind, ← hu, Stands.next_method, ← List.append_cons]

/-- The fields of a printed class body are found again. -/
theorem fields_findsFrom (hms : ∀ m ∈ ms, m.IsPrintable) (h : Stands read ms k) :
    (fieldPattern.findsFrom k).filterMap (Field.ofMatch? (read ++ print ms)) = fieldsOf ms := by
  induction ms generalizing read k with
  | nil =>
    rw [fieldPattern_eq, findsFrom_end isMemberTail_fieldTail h.after]
    rfl
  | cons m ms ih =>
    have hm := hms m List.mem_cons_self
    have hrest := ih (fun m' hm' => hms m' (List.mem_cons_of_mem m hm')) (h.step hm)
    have hbody : read ++ m.print ++ print ms = read ++ print (m :: ms) := List.append_assoc ..
    rw [hbody] at hrest
    cases m with
    | field f =>
      obtain ⟨i, hfinds, hi⟩ := exists_match_field hm h
      rw [hfinds, List.filterMap_cons_some hi, hrest]
      rfl
    | method m =>
      rw [findsFrom_field_method hm h, hrest]
      rfl

/-! ### Methods -/

/-- What is read in front of the body of a method. -/
theorem first_opening {m : Method} (hname : isName m.name = true) {z : Text} (hline : k.atLineStart = true)
    (hk : k.after = Member.opening m ++ '\x7b' :: z) :
    ∃ r, First methodPattern k r ∧ r.stop = k.behind (Member.opening m ++ ['\x7b']) z ∧
      ((Match.ofReading k r).group? 1).isSome = m.isAsync ∧
      ∃ name, (Match.ofReading k r).group? 2 = some name ∧ name.text = m.name := by
  cases hasync : m.isAsync with
  | true =>
    have hmarker : Member.marker m = "async ".toList := if_pos hasync
    rw [Member.opening_append, hmarker] at hk ⊢
    exact ⟨_, first_methodPattern_async hline hname hk, rfl, rfl, _, rfl,
      Span.text_behind k (' ' :: ' ' :: "async ".toList) m.name _ _⟩
  | false =>
    have hmarker : Member.marker m = [] := if_neg (by rw [hasync]; exact Bool.false_ne_true)
    rw [Member.opening_append, hmarker] at hk ⊢
    exact ⟨_, first_methodPattern hline hname hk, rfl, rfl, _, rfl, Span.text_behind k [' ', ' '] m.name _ _⟩

/-- A match in front of the opening brace of a method stands for the method. -/
theorem Method.IsPrintable.ofMatch? {m : Method} (hm : m.IsPrintable) {x y : Text} (hx : IsWhole x) {i : Match}
    {name : Span} (hasync : (i.group? 1).isSome = m.isAsync) (hname : i.group? 2 = some name) (hn : name.text = m.name)
    (hstop : i.span.stop.offset = Text.byteSize x + 1) :
    Method.ofMatch? (x ++ '\x7b' :: (m.body ++ '\x7d' :: y)) i = some m := by
  have hopen : i.span.stop.offset - 1 = Text.byteSize x := by omega
  have hclose := matchingBrace?_of_nested (y := y) hx.final ((final_scan m.body).symm.trans hm.final) hm.nested
  have hbody : Text.slice (x ++ '\x7b' :: (m.body ++ '\x7d' :: y)) (Text.byteSize x + 1)
      (Text.byteSize x + 1 + Text.byteSize m.body) = m.body := by
    have hslice := Text.slice_append (x ++ ['\x7b']) m.body ('\x7d' :: y)
    rw [Text.byteSize_append, List.append_assoc, List.append_assoc] at hslice
    exact hslice
  have hmethod : nonMethods.contains m.name = false := by
    rw [← Bool.not_eq_true, List.contains_iff_mem]
    exact hm.isMethod
  unfold Method.ofMatch?
  simp only [hname, Option.bind_eq_bind, Option.bind_some, hn, hmethod, hopen, hclose, hbody, hasync]
  rfl

/-- The lines of a method are read as that method. -/
theorem exists_match_method {m : Method} (hm : m.IsPrintable) (h : Stands read (.method m :: ms) k) :
    ∃ i, methodPattern.findsFrom k = i :: methodPattern.findsFrom (Stands.next (.method m) ms k) ∧
      Method.ofMatch? (read ++ print (.method m :: ms)) i = some m := by
  have hafter := h.after_method
  obtain ⟨r, hfirst, hstop, hasync, name, hname, hn⟩ := first_opening hm.name h.line hafter
  rw [List.append_cons] at hafter
  have hmatch := findsFrom_match hafter (List.append_ne_nil_of_right_ne_nil _ (List.cons_ne_nil _ _)) hfirst hstop
  refine ⟨_, hmatch.trans (congrArg _ ?_), ?_⟩
  · rw [methodPattern_eq, findsFrom_nested isMemberTail_methodTail rfl hm.blank, Cursor.behind_behind,
      Stands.next_method, ← List.append_cons]
  · have hopening : IsWhole (Member.opening m) := .plain (Member.isPlainCode_opening hm.name)
    have hwhole := h.whole.append hopening (.cons (by decide) (by decide) _)
    rw [print_method, ← List.append_assoc]
    refine hm.ofMatch? hwhole hasync hname hn ?_
    show r.stop.offset = _
    rw [hstop, Cursor.offset_behind, h.offset, Text.byteSize_append, Text.byteSize_append, Nat.add_assoc]
    rfl

end Fields

end SnippetPreview.Script
