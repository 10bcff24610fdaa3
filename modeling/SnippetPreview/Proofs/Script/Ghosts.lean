import SnippetPreview.Proofs.Script.Rereading

/-!
# Methods that are none

Masking leaves the comments at the outermost level, so the value of a field may show the head of a method there.

* `Field.ghosts`: the heads of methods that are found within the line of a field;
* `closing?_print`: such a head stands for a method when there is a brace behind it in code, that is, when another
  method follows;
* `ghostFree`: no field with such a head has a method behind it;
* `methods_findsFrom`: the methods are found again, and nothing else just when the members are free of ghosts.
-/

namespace SnippetPreview.Script

open Pattern

/-- The name that the match has read may be that of a method. -/
def isNamed (m : Match) : Bool := (m.group? 2).any fun name => !nonMethods.contains name.text

/-- What looks like the head of a method within the line of a field, when this line is all there is. -/
def Field.ghosts (f : Field) : List Match := (methodPattern.finds (mask (Member.field f).print)).filter isNamed

/-- No field that shows the head of a method has a method behind it. -/
def ghostFree : List Member → Bool
  | [] => true
  | .field f :: ms => (f.ghosts.isEmpty || (methodsOf ms).isEmpty) && ghostFree ms
  | .method _ :: ms => ghostFree ms

/-! ### The brace of a ghost -/

theorem bracesFrom_field {f : Field} (hf : f.IsPrintable) (pos : Nat) :
    bracesFrom .code pos (Member.field f).print = [] := by
  have hvalue : ∀ p, bracesFrom .code p f.value = [] := by
    intro p
    have hbraces : (bracesFrom .code p f.value).map Brace.isOpen = [] := by
      rw [isOpen_bracesFrom _ _ 0]
      exact congrArg (List.map Brace.isOpen) hf.braces
    exact List.map_eq_nil_iff.1 hbraces
  show bracesFrom .code pos (Member.fieldLine f) = []
  rw [Member.fieldLine_eq, bracesFrom_plain (Member.isPlainCode_naming hf.name),
    bracesFrom_append (.cons (by decide) (by decide) _), hvalue, hf.isWhole.final]
  rfl

/-- Some brace in code closes an earlier one just when there is a method. -/
theorem closing?_print {ms : List Member} (hms : ∀ m ∈ ms, m.IsPrintable) (pos : Nat) :
    (closing? 0 (bracesFrom .code pos (print ms))).isSome = !(methodsOf ms).isEmpty := by
  induction ms generalizing pos with
  | nil => rfl
  | cons m ms ih =>
    have hm := hms m List.mem_cons_self
    cases m with
    | field f =>
      show (closing? 0 (bracesFrom .code pos ((Member.field f).print ++ print ms))).isSome = !(methodsOf ms).isEmpty
      rw [bracesFrom_append (calm_print ms), bracesFrom_field hm, List.nil_append, hm.isWhole_print.final]
      exact ih (fun m' hm' => hms m' (List.mem_cons_of_mem _ hm')) _
    | method m =>
      rw [print_method, bracesFrom_plain (Member.isPlainCode_opening hm.name),
        closing?_braced hm.isWhole.final hm.nested]
      rfl

/-- A match stands for a method when it has a name for one and its brace is closed. -/
theorem isSome_ofMatch?_eq (body : Text) (i : Match) :
    (Method.ofMatch? body i).isSome = (isNamed i && (matchingBrace? body (i.span.stop.offset - 1)).isSome) := by
  unfold Method.ofMatch? isNamed
  cases i.group? 2 with
  | none => rfl
  | some name =>
    rw [Option.any_some, Option.bind_eq_bind, Option.bind_some]
    split
    · next hname =>
      rw [hname]
      rfl
    · next hname =>
      rw [Bool.eq_false_iff.2 hname, Bool.not_false, Bool.true_and]
      dsimp only
      cases matchingBrace? body (i.span.stop.offset - 1) <;> rfl

section Heads

variable {read : Text} {f : Field} {ms : List Member} {k : Cursor}

/-- The head of a method ends with a brace, which is there in the class body itself. -/
theorem exists_brace_of_mem (hms : ∀ m ∈ ms, m.IsPrintable) (h : Stands read ms k) {i : Match}
    (hi : i ∈ methodPattern.findsFrom k) :
    ∃ x y, read ++ print ms = x ++ '\x7b' :: y ∧ Text.byteSize read ≤ Text.byteSize x ∧
      i.span.stop.offset = Text.byteSize x + 1 := by
  obtain ⟨x, u, y, hk, -, hend, hreads⟩ := exists_cut_of_mem_findsFrom hi
  have hne : u ≠ [] := hreads.ne_nil rfl
  obtain ⟨v, d, rfl⟩ := (List.eq_nil_or_concat' u).resolve_left hne
  have hbrace : d = '\x7b' := by
    have hlast := hreads.ends (List.getLast?_concat ..)
    simpa [methodPattern_eq, methodTail, namedMethod, methodHead, chain, Pattern.ends, consumes, text] using hlast
  subst hbrace
  have hmask : mask (print ms) = (x ++ v) ++ '\x7b' :: y := by
    rw [mask_print hms, ← h.after, hk]
    simp
  obtain ⟨x', y', hbody, hsize, -⟩ := exists_cut_of_mask (by decide) (by decide)
    (fun y => .cons (by decide) (by decide) y) hmask
  have hone : Char.utf8Size '\x7b' = 1 := rfl
  refine ⟨read ++ x', y', ?_, ?_, ?_⟩
  · rw [hbody, List.append_assoc]
  · rw [Text.byteSize_append]
    omega
  · rw [hend, Cursor.offset_behind, h.offset]
    simp only [Text.byteSize_append, hsize, Text.byteSize_cons, Text.byteSize_nil, hone]
    omega

/-- A head of a method that is found within the line of a field stands for a method just when one follows. -/
theorem isSome_ofMatch? (hf : f.IsPrintable) (hms : ∀ m ∈ ms, m.IsPrintable) (h : Stands read (.field f :: ms) k)
    {i : Match} (hi : i ∈ methodPattern.findsFrom k)
    (hstop : i.span.stop.offset ≤ Text.byteSize (read ++ (Member.field f).print)) :
    (Method.ofMatch? (read ++ print (.field f :: ms)) i).isSome = (isNamed i && !(methodsOf ms).isEmpty) := by
  have hall : ∀ m ∈ Member.field f :: ms, m.IsPrintable := List.forall_mem_cons.2 ⟨hf, hms⟩
  obtain ⟨x, y, hbody, hread, hoffset⟩ := exists_brace_of_mem hall h hi
  have hopen : i.span.stop.offset - 1 = Text.byteSize x := by omega
  have hchar : charAt? (read ++ print (.field f :: ms)) (Text.byteSize x) = some '\x7b' := by
    rw [hbody]
    exact charAt?_append x _ y
  have hwhole : IsWhole (read ++ (Member.field f).print) :=
    h.whole.append (Member.IsPrintable.isWhole_print (m := .field f) hf) (Member.calm_print _)
  -- the braces in code from this one on are those of the members behind the field
  have hfront : ∀ b ∈ bracesFrom .code 0 (read ++ (Member.field f).print), b.pos < Text.byteSize x := by
    intro b hb
    rw [bracesFrom_append (Member.calm_print _), h.whole.final, bracesFrom_field hf, List.append_nil] at hb
    have := (pos_of_mem_bracesFrom hb).2
    omega
  have hclose : (matchingBrace? (read ++ print (.field f :: ms)) (Text.byteSize x)).isSome
      = !(methodsOf ms).isEmpty := by
    have hsplit : read ++ print (.field f :: ms) = (read ++ (Member.field f).print) ++ print ms :=
      (List.append_assoc ..).symm
    unfold matchingBrace?
    rw [if_pos hchar, hsplit, filter_braces_append (calm_print ms) (by omega) hfront, hwhole.final]
    exact closing?_print hms _
  rw [isSome_ofMatch?_eq, hopen, hclose]

/-! ### The line of a field -/

/-- Up to the semicolon of a line, the search for methods takes the same readings whatever comes behind. -/
theorem readings_method_twin {e e' : Nat} {t t' : Text} {d d' : Cursor} (h : Twin true e e' (';' :: t) (';' :: t') d d')
    (hd : d.after ≠ ';' :: t) :
    TwinOption true e e' (';' :: t) (';' :: t') (methodPattern.readings d).head? (methodPattern.readings d').head? := by
  have hstops {p : Pattern} (hp : p.avoids ';' = true) {a a' : Cursor} {g g' : Cursor → Option Reading}
      (ha : Twin true e e' (';' :: t) (';' :: t') a a') (hg : ∀ b b', Twin true e e' (';' :: t) (';' :: t') b b' →
        TwinOption true e e' (';' :: t) (';' :: t') (g b) (g' b')) :
      TwinOption true e e' (';' :: t) (';' :: t') (p.best? g a) (p.best? g' a') :=
    have hafter : true = true → SameAfter (';' :: t) (';' :: t') := fun _ => rfl
    best?_twin hafter rfl (stops_cons hp) (stops_cons hp) ha hg
  have htail : ∀ a a', Twin true e e' (';' :: t) (';' :: t') a a' → TwinOption true e e' (';' :: t) (';' :: t')
      (methodTail.best? (fun b => some (.nothing b)) a) (methodTail.best? (fun b => some (.nothing b)) a') :=
    fun _ _ ha => hstops (by decide) ha fun _ _ hb => .some ⟨hb, .nil⟩
  have hblanks : ∀ a a', Twin true e e' (';' :: t) (';' :: t') a a' → TwinOption true e e' (';' :: t) (';' :: t')
      ((chain [many isLineBlank]).best? (methodTail.best? fun b => some (.nothing b)) a)
      ((chain [many isLineBlank]).best? (methodTail.best? fun b => some (.nothing b)) a') :=
    fun _ _ ha => hstops (by decide) ha htail
  -- only the sign in front of a member may be a semicolon, and the place is not in front of this one
  have hstart := hstops (p := lineStart) rfl h hblanks
  have hsign : TwinOption true e e' (';' :: t) (';' :: t')
      ((one (charOf ";\x7d")).best? ((chain [many isLineBlank]).best? (methodTail.best? fun b => some (.nothing b))) d)
      ((one (charOf ";\x7d")).best? ((chain [many isLineBlank]).best? (methodTail.best? fun b => some (.nothing b))) d') :=
    best?_one_twin h hblanks (.inr hd)
  have hparts : memberStart = seq (alt lineStart (one (charOf ";\x7d"))) (chain [many isLineBlank]) := rfl
  simp only [← best?_nothing, methodPattern_eq, hparts, best?_seq (seq _ _), best?_seq (alt _ _), best?_alt]
  exact hstart.or hsign

theorem any_isNamed_twin {e e' : Nat} {z z' : Text} {found found' : List Match}
    (h : List.Forall₂ (TwinMatch true e e' z z') found found') : found.any isNamed = found'.any isNamed := by
  induction h with
  | nil => rfl
  | @cons i i' found found' hi _ ih =>
    have hnamed : isNamed i = isNamed i' := by
      have htext := congrArg (fun o => o.any fun name => !nonMethods.contains name) (hi.text_group? 2)
      simp only [Option.any_map] at htext
      exact htext
    rw [List.any_cons, List.any_cons, hnamed, ih]

/-- The search on the line of a field and the one on that line alone find the same. -/
theorem exists_twins (hf : f.IsPrintable) (h : Stands read (.field f :: ms) k) :
    ∃ found, methodPattern.findsFrom k = found ++ methodPattern.findsFrom (Stands.next (.field f) ms k) ∧
      found.any isNamed = !f.ghosts.isEmpty ∧
      ∀ i ∈ found, i.span.stop.offset ≤ Text.byteSize (read ++ (Member.field f).print) := by
  have hline : (Member.field f).masked.print = (Member.naming f ++ mask f.value) ++ ';' :: ['\n'] := by
    rw [List.append_assoc]
    exact Member.fieldLine_eq ⟨f.name, mask f.value⟩
  have hafter := h.after_field
  rw [← List.append_assoc] at hafter
  generalize hx : Member.naming f ++ mask f.value = x at hline hafter
  -- the class body and the line alone differ from the semicolon on, and no head crosses it
  have htwin : Twin true (k.offset + Text.byteSize x) (0 + Text.byteSize x) (';' :: '\n' :: print (ms.map Member.masked))
      (';' :: ['\n']) k (.start (x ++ ';' :: ['\n'])) := ⟨fun _ => sameBefore_of_atLineStart h.line, x, hafter, rfl, rfl, rfl⟩
  obtain ⟨found, found', htwins, hfinds, hfinds'⟩ := findsFrom_twin (fun d d' => readings_method_twin) hafter rfl htwin
  have hend := findsFrom_lineEnd isMemberTail_methodTail
    (k := k.behind x (';' :: '\n' :: print (ms.map Member.masked))) rfl rfl
  have hend' : methodPattern.findsFrom ((Cursor.start (x ++ ';' :: ['\n'])).behind x (';' :: ['\n'])) = [] := by
    rw [methodPattern_eq, findsFrom_lineEnd isMemberTail_methodTail rfl rfl]
    exact findsFrom_end isMemberTail_methodTail rfl
  rw [← methodPattern_eq, Cursor.behind_behind] at hend
  rw [hend] at hfinds
  rw [hend', List.append_nil] at hfinds'
  refine ⟨found, hfinds.trans ?_, ?_, ?_⟩
  · rw [Stands.next, hline]
  · have hmask : mask (Member.field f).print = x ++ ';' :: ['\n'] :=
      (mask_print_member (m := .field f) hf).trans hline
    rw [any_isNamed_twin htwins, Field.ghosts, hmask, finds_eq_findsFrom, hfinds', Bool.eq_iff_iff, List.any_eq_true,
      Bool.not_eq_true', List.isEmpty_eq_false_iff, ne_eq, List.filter_eq_nil_iff]
    simp only [not_forall, Decidable.not_not, exists_prop]
  · have hsize : Text.byteSize x ≤ Text.byteSize (Member.field f).print := by
      rw [← byteSize_print_masked (m := .field f) hf, hline, Text.byteSize_append]
      exact Nat.le_add_right _ _
    have hle := htwins.imp fun i i' hi =>
      show i.span.stop.offset ≤ Text.byteSize (read ++ (Member.field f).print) ∧ TwinMatch _ _ _ _ _ i i' by
        obtain ⟨w, -, -, hw, -⟩ := hi.stop.text
        rw [h.offset] at hw
        rw [Text.byteSize_append]
        exact ⟨by omega, hi⟩
    exact (List.forall₂_and_left _ _).1 hle |>.1

/-- What is found within the line of a field are its ghosts, which stand for methods just when one follows. -/
theorem exists_ghosts (hf : f.IsPrintable) (hms : ∀ m ∈ ms, m.IsPrintable) (h : Stands read (.field f :: ms) k) :
    ∃ found, methodPattern.findsFrom k = found ++ methodPattern.findsFrom (Stands.next (.field f) ms k) ∧
      (found.filterMap (Method.ofMatch? (read ++ print (.field f :: ms))) = [] ↔
        (f.ghosts.isEmpty || (methodsOf ms).isEmpty) = true) := by
  obtain ⟨found, hfinds, hnamed, hstop⟩ := exists_twins hf h
  refine ⟨found, hfinds, ?_⟩
  have hsome : ∀ i ∈ found, (Method.ofMatch? (read ++ print (.field f :: ms)) i).isSome
      = (isNamed i && !(methodsOf ms).isEmpty) := by
    intro i hi
    refine isSome_ofMatch? hf hms h ?_ (hstop i hi)
    rw [hfinds]
    exact List.mem_append_left _ hi
  have hnone : ∀ i ∈ found, Method.ofMatch? (read ++ print (.field f :: ms)) i = none
      ↔ (isNamed i && !(methodsOf ms).isEmpty) = false := by
    intro i hi
    rw [← hsome i hi, Option.isSome_eq_false_iff, Option.isNone_iff_eq_none]
  rw [List.filterMap_eq_nil_iff]
  cases hmethods : (methodsOf ms).isEmpty with
  | true =>
    refine iff_of_true (fun i hi => (hnone i hi).2 ?_) (Bool.or_true _)
    rw [hmethods, Bool.not_true, Bool.and_false]
  | false =>
    rw [Bool.or_false, ← Bool.not_eq_false', ← hnamed, List.any_eq_false]
    refine forall₂_congr fun i hi => ?_
    rw [hnone i hi, hmethods, Bool.not_false, Bool.and_true, Bool.not_eq_true]

/-- The methods of a printed class body are found again, and nothing else just when the members are free of ghosts. -/
theorem methods_findsFrom (hms : ∀ m ∈ ms, m.IsPrintable) (h : Stands read ms k) :
    (methodsOf ms).Sublist ((methodPattern.findsFrom k).filterMap (Method.ofMatch? (read ++ print ms))) ∧
      ((methodPattern.findsFrom k).filterMap (Method.ofMatch? (read ++ print ms)) = methodsOf ms
        ↔ ghostFree ms = true) := by
  induction ms generalizing read k with
  | nil =>
    rw [methodPattern_eq, findsFrom_end isMemberTail_methodTail h.after]
    exact ⟨.slnil, iff_of_true rfl rfl⟩
  | cons m ms ih =>
    have hm := hms m List.mem_cons_self
    have hms' : ∀ m' ∈ ms, m'.IsPrintable := fun m' hm' => hms m' (List.mem_cons_of_mem m hm')
    obtain ⟨hsub, hiff⟩ := ih hms' (h.step hm)
    have hbody : read ++ m.print ++ print ms = read ++ print (m :: ms) := List.append_assoc ..
    rw [hbody] at hsub hiff
    cases m with
    | field f =>
      obtain ⟨found, hfinds, hghosts⟩ := exists_ghosts hm hms' h
      rw [hfinds, List.filterMap_append]
      generalize found.filterMap (Method.ofMatch? (read ++ print (.field f :: ms))) = ghosts at hghosts
      generalize (methodPattern.findsFrom (Stands.next (.field f) ms k)).filterMap
        (Method.ofMatch? (read ++ print (.field f :: ms))) = rest at hsub hiff
      refine ⟨hsub.trans (List.sublist_append_right _ _), ?_⟩
      show ghosts ++ rest = methodsOf ms ↔ ((f.ghosts.isEmpty || (methodsOf ms).isEmpty) && ghostFree ms) = true
      rw [Bool.and_eq_true, ← hghosts, ← hiff]
      constructor
      · intro heq
        -- the methods are all found behind the field, so nothing is left for its ghosts
        have hlen := congrArg List.length heq
        have hle := hsub.length_le
        rw [List.length_append] at hlen
        have hnil : ghosts = [] := List.eq_nil_of_length_eq_zero (by omega)
        rw [hnil] at heq
        exact ⟨hnil, heq⟩
      · rintro ⟨rfl, heq⟩
        exact heq
    | method m =>
      obtain ⟨i, hfinds, hi⟩ := exists_match_method hm h
      rw [hfinds, List.filterMap_cons_some hi]
      refine ⟨hsub.cons_cons m, ?_⟩
      show m :: _ = m :: methodsOf ms ↔ ghostFree ms = true
      rw [← hiff]
      exact ⟨fun heq => (List.cons.inj heq).2, congrArg _⟩

/-- A value whose closing braces are all in string literals shows no head of a method. -/
theorem ghosts_eq_nil (hf : f.IsPrintable) (h : IsQuoted '\x7d' f.value) : f.ghosts = [] := by
  have hbrace : '\x7d' ∉ mask f.value :=
    not_mem_mask_of_isQuoted (by decide) (by decide) (fun y => .cons (by decide) (by decide) y) h
  have hvalue : (mask f.value).all (charNotOf ";\x7d\n") = true := by
    refine List.all_eq_true.2 fun c hc => ?_
    obtain ⟨hsemicolon, hfeed⟩ : c ≠ ';' ∧ c ≠ '\n' := by
      simpa [charNotOf] using List.all_eq_true.1 hf.line_mask c hc
    have hne : c ≠ '\x7d' := fun he => hbrace (he ▸ hc)
    simp [charNotOf, hsemicolon, hfeed, hne]
  have hinside : (' ' :: (f.name ++ ' ' :: '=' :: ' ' :: mask f.value)).all (charNotOf ";\x7d\n") = true := by
    simp only [List.all_cons, List.all_append, inside_name hf.name, hvalue]
    decide
  have hline : mask (Member.field f).print
      = ' ' :: ' ' :: (f.name ++ ' ' :: '=' :: ' ' :: (mask f.value ++ [';', '\n'])) := by
    rw [mask_print_member (m := .field f) hf, ← Member.naming_append]
    exact Member.fieldLine_eq ⟨f.name, mask f.value⟩
  have hstart : methodPattern.readings (.start (mask (Member.field f).print)) = [] :=
    readings_methodPattern_eq_nil hf.name hline
  have hfinds : methodPattern.finds (mask (Member.field f).print) = [] := by
    rw [finds_eq_findsFrom, findsFrom_skip hline hstart, methodPattern_eq,
      findsFrom_inside isMemberTail_methodTail (u := ' ' :: (f.name ++ ' ' :: '=' :: ' ' :: mask f.value))
        (y := [';', '\n']) (by simp [Cursor.past]) rfl hinside,
      findsFrom_lineEnd isMemberTail_methodTail rfl rfl, findsFrom_end isMemberTail_methodTail rfl]
  rw [Field.ghosts, hfinds]
  rfl

end Heads

end SnippetPreview.Script
