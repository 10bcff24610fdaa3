import SnippetPreview.Proofs.Script.FieldLines

/-!
# Fields with a type annotation

* `IsAnnotation`, `IsPlainExpression`: what may stand behind the colon and behind the sign of a field;
* `behindSign`: what stands behind the first `=` that masking leaves, the one of an arrow included;
* `contributes_annotated`: this is the value that the line of a field contributes, whatever the sign belongs to;
* `contributes_annotated_iff`: a field has a value exactly when it has an initializer, but for annotations that show an
  arrow.
-/

namespace SnippetPreview

namespace Text

theorem slice_eq_nil {start stop : Nat} (h : stop ≤ start) (t : Text) : slice t start stop = [] := by
  have hgo : ∀ pos, slice.go start stop pos t = [] := by
    induction t with
    | nil => exact fun _ => rfl
    | cons c t ih =>
      intro pos
      rw [slice.go]
      split
      · rfl
      · rw [if_neg (by omega), ih]
  exact hgo 0

end Text

namespace Script

/-! ### Behind the sign -/

/-- What stands behind the first `=` that masking leaves in a text, nothing if it leaves none. -/
def behindSign (t : Text) : Text := t.slice (Text.byteSize ((mask t).takeWhile (· != '=')) + 1) (Text.byteSize t)

theorem behindSign_eq_nil {t : Text} (h : '=' ∉ mask t) : behindSign t = [] := by
  refine Text.slice_eq_nil ?_ t
  have hall : (mask t).takeWhile (· != '=') = mask t :=
    List.takeWhile_eq_self_iff.2 fun c hc => bne_iff_ne.2 fun he => h (he ▸ hc)
  rw [hall, byteSize_mask]
  exact Nat.le_succ _

/-- The first sign is the one that has none in front of it. -/
theorem behindSign_append {x y back : Text} (hcut : mask (x ++ '=' :: y) = mask x ++ '=' :: back)
    (hfront : '=' ∉ mask x) : behindSign (x ++ '=' :: y) = y := by
  have hne : ∀ c ∈ mask x, (c != '=') = true := fun c hc => bne_iff_ne.2 fun he => hfront (he ▸ hc)
  have htake : (mask (x ++ '=' :: y)).takeWhile (· != '=') = mask x := by
    rw [hcut, List.takeWhile_append_of_pos hne, List.takeWhile_cons_of_neg (by decide), List.append_nil]
  have hslice := Text.slice_to_end (x ++ ['=']) y
  rw [Text.byteSize_append, List.append_assoc] at hslice
  unfold behindSign
  rw [htake, byteSize_mask]
  exact hslice

/-- The first sign that masking leaves cuts the text in front of what stands behind it. -/
theorem exists_cut_of_sign {t : Text} (h : '=' ∈ mask t) :
    ∃ x m back, t = x ++ '=' :: behindSign t ∧ m.isString = false ∧ mask t = mask x ++ '=' :: back ∧
      '=' ∉ mask x ∧ maskFrom m 0 (behindSign t) = back := by
  obtain ⟨front, back, hcut, hfront⟩ := List.eq_append_cons_of_mem h
  obtain ⟨x, y, rfl, rfl, hstring, -, hy⟩ := exists_cut_of_bare (by decide) (by decide) (by decide)
    (fun y => .cons (by decide) (by decide) y) hcut
  rw [maskFrom_cons, remains_zero hstring, bracesAt_of_isBare (by decide)] at hy
  refine ⟨x, (Mode.code.behind x).next '=' y.head?, back, ?_, isString_next_of_isBare hstring (by decide) _, hcut,
    hfront, ?_⟩
  · rw [behindSign_append hcut hfront]
  · rw [behindSign_append hcut hfront]
    exact (List.cons.inj hy).2

theorem behindSign_blank (t : Text) : behindSign (' ' :: t) = behindSign t := by
  have hmask : mask (' ' :: t) = ' ' :: mask t := maskFrom_plain (x := [' ']) (by decide) t
  unfold behindSign
  rw [hmask, List.takeWhile_cons_of_pos (by decide), Text.byteSize_cons, Nat.add_assoc]
  exact Text.slice_add [' '] t (Text.byteSize ((mask t).takeWhile (· != '=')) + 1) (Text.byteSize t)

/-- Behind a whole text with a sign, all that follows stands behind that sign, too. -/
theorem behindSign_of_mem {t z : Text} (ht : IsWhole t) (hz : Calm z) (h : '=' ∈ mask t) :
    behindSign (t ++ z) = behindSign t ++ z := by
  obtain ⟨x, -, back, hx, -, hcut, hfront, -⟩ := exists_cut_of_sign h
  have htext : t ++ z = x ++ '=' :: (behindSign t ++ z) := by
    rw [← List.cons_append, ← List.append_assoc, ← hx]
  have hmask : mask (x ++ '=' :: (behindSign t ++ z)) = mask x ++ '=' :: (back ++ mask z) := by
    rw [← htext, mask, ht.maskFrom_append hz]
    exact (congrArg (· ++ mask z) hcut).trans (List.append_assoc ..)
  rw [htext, behindSign_append hmask hfront]

/-- Behind a whole text without a sign, the next sign is the first one. -/
theorem behindSign_of_not_mem {t : Text} (ht : IsWhole t) (h : '=' ∉ mask t) (y : Text) :
    behindSign (t ++ ' ' :: '=' :: y) = y := by
  have hx : mask (t ++ [' ']) = mask t ++ [' '] := ht.maskFrom_append (.cons (by decide) (by decide) []) 0
  have hmask : mask (t ++ [' '] ++ '=' :: y) = mask (t ++ [' ']) ++ '=' :: mask y := by
    have hcalm : Calm (' ' :: '=' :: y) := .cons (by decide) (by decide) _
    rw [hx, List.append_assoc, List.append_assoc]
    exact (ht.maskFrom_append hcalm 0).trans
      (congrArg (mask t ++ ·) (maskFrom_plain (x := [' ', '=']) (by decide) y))
  have hfront : '=' ∉ mask (t ++ [' ']) := by
    rw [hx, List.mem_append, not_or]
    exact ⟨h, by decide⟩
  have hsign := behindSign_append hmask hfront
  rwa [List.append_assoc] at hsign

/-! ### What a field contributes -/

theorem given?_nil (name : Text) : Field.given? name [] = none := rfl

section Annotated

variable {indent name rest : Text}

/-- A line with a sign, as it is masked up to behind the blanks that follow the sign. -/
theorem isSignedLine_annotated {x back : Text} (hindent : indent.all isLineBlank = true)
    (hname : isIdentifier name = true) (hrest : IsWhole (':' :: rest))
    (hmask : mask (':' :: rest) = ':' :: (mask x ++ '=' :: back)) (hfront : '=' ∉ mask x)
    (hline : (mask x ++ '=' :: back).all (charNotOf ";\n") = true) :
    IsSignedLine indent name (':' :: rest) (':' :: (mask x ++ '=' :: back.takeWhile isBlank)) (back.dropWhile isBlank) where
  indent := hindent
  name := hname
  whole := hrest
  mask := by
    rw [hmask]
    simp
  signed := by
    have hnone : ∀ d ∈ ("=;\n" : Text), d ∉ mask x := by
      refine List.forall_mem_cons.2 ⟨hfront, fun d hd hmem => ?_⟩
      exact all_charNotOf_iff.1 hline d hd (List.mem_append_left _ hmem)
    exact ⟨[], ':' :: mask x, back.takeWhile isBlank, rfl, rfl, .inr ⟨_, rfl, all_charNotOf_iff.2 hnone⟩,
      List.all_takeWhile⟩
  line := by
    refine all_charNotOf_iff.2 fun d hd hmem => all_charNotOf_iff.1 hline d hd ?_
    exact List.mem_append_right _ (List.mem_cons_of_mem _ ((List.dropWhile_sublist _).subset hmem))
  blank := by
    have hhead := List.head?_dropWhile_not isBlank back
    cases hdrop : back.dropWhile isBlank with
    | nil => rfl
    | cons c value =>
      rw [hdrop] at hhead
      exact hhead

/-- A line without a sign is quiet, unless it has a decorator. -/
theorem isQuiet_annotated (hmask : mask (':' :: rest) = ':' :: mask rest)
    (hline : (mask rest).all (charNotOf ";\n") = true) (hsign : '=' ∉ mask rest) (hat : '@' ∉ mask rest) :
    (mask (':' :: rest)).all isQuiet = true := by
  have hsemicolon : ';' ∉ mask rest := all_charNotOf_iff.1 hline ';' (by decide)
  have hnone : (mask rest).all isQuiet = true := all_charNotOf_iff.2
    (List.forall_mem_cons.2 ⟨hsign, List.forall_mem_cons.2 ⟨hsemicolon, List.forall_mem_singleton.2 hat⟩⟩)
  rw [hmask, List.all_cons, hnone]
  decide

/-- The line of a field with an annotation and maybe a value contributes what stands behind its first sign. -/
theorem contributes_annotated (hindent : indent.all isLineBlank = true) (hname : isIdentifier name = true)
    (hrest : IsWhole rest) (hline : (mask rest).all (charNotOf ";\n") = true)
    (hat : '=' ∈ mask rest ∨ '@' ∉ mask rest) :
    Contributes (indent ++ name ++ ":" ++ rest ++ ";") (Field.given? name (behindSign rest)).toList := by
  have htext : (indent ++ name ++ ":" ++ rest ++ ";" : Text) = indent ++ (name ++ (':' :: rest ++ [';'])) := by
    simp only [List.append_assoc]
    rfl
  have hwhole : IsWhole (':' :: rest) := .plain_append (x := [':']) (by decide) hrest
  have hmask : mask (':' :: rest) = ':' :: mask rest := maskFrom_plain (x := [':']) (by decide) rest
  rw [htext]
  by_cases hsign : '=' ∈ mask rest
  · obtain ⟨x, m, back, hx, hm, hcut, hfront, hback⟩ := exists_cut_of_sign hsign
    generalize behindSign rest = value at hx hback
    rw [hcut] at hmask hline
    -- the blanks behind the sign do not belong to the value
    obtain ⟨y, m', rfl, -, -⟩ := exists_of_maskFrom_bare (w := back.takeWhile isBlank) (q := back.dropWhile isBlank) hm
      (all_mono (fun _ => isBare_of_isBlank) List.all_takeWhile) (by rw [hback, List.takeWhile_append_dropWhile])
    have h := contributes_signed (isSignedLine_annotated hindent hname hwhole hmask hfront hline)
    have hslice : Text.slice (':' :: rest) (Text.byteSize (':' :: (mask x ++ '=' :: back.takeWhile isBlank)))
        (Text.byteSize (':' :: rest)) = y := by
      have hto := Text.slice_to_end (':' :: (x ++ '=' :: back.takeWhile isBlank)) y
      have htext : ':' :: (x ++ '=' :: back.takeWhile isBlank) ++ y = ':' :: rest := by
        rw [hx]
        simp
      rw [htext] at hto
      simpa only [Text.byteSize_cons, Text.byteSize_append, byteSize_mask] using hto
    have hgiven : Field.given? name (back.takeWhile isBlank ++ y) = Field.given? name y := by
      unfold Field.given?
      rw [Text.trim_blank_append List.all_takeWhile]
    rw [hslice] at h
    rw [hgiven]
    exact h
  · rw [behindSign_eq_nil hsign, given?_nil]
    exact contributes_unsigned hindent hname hwhole (isQuiet_annotated hmask hline hsign (hat.resolve_left hsign))

end Annotated

/-! ### Annotations and initializers -/

/-- Every `=` of the text belongs to an arrow. -/
def hasOnlyArrows : Text → Bool
  | [] => true
  | c :: t => (c != '=' || t.head? == some '>') && hasOnlyArrows t

theorem head?_of_hasOnlyArrows {x y : Text} (h : hasOnlyArrows (x ++ '=' :: y) = true) : y.head? = some '>' := by
  induction x with
  | nil =>
    rw [List.nil_append, hasOnlyArrows, Bool.and_eq_true] at h
    simpa using h.1
  | cons c x ih =>
    rw [List.cons_append, hasOnlyArrows, Bool.and_eq_true] at h
    exact ih h.2

/-- A type annotation on one line, without semicolons, in which `=` is always that of an arrow. It ends in code with its
braces closed and has no decorators. -/
structure IsAnnotation (t : Text) : Prop where
  line : '\n' ∉ t
  semicolon : ';' ∉ t
  arrows : hasOnlyArrows t = true
  whole : IsWhole t
  decorators : '@' ∉ mask t

/-- An expression on one line, without semicolons, arrows, quotes, braces, comments or brackets that do not balance. -/
structure IsPlainExpression (v : Text) : Prop where
  ne_nil : v ≠ []
  trim : v.trim = v
  line : '\n' ∉ v
  semicolon : ';' ∉ v
  arrow : v.contains "=>" = false
  bare : v.all isBare = true
  comment : v.contains "//" = false
  comment' : v.contains "/*" = false
  balanced : isBalanced v = true

/-! ### Expressions -/

namespace IsPlainExpression

/-- Without quotes, braces and comments, code stays code. -/
theorem behind_of_bare {v : Text} (hbare : v.all isBare = true) (hline : v.contains "//" = false)
    (hblock : v.contains "/*" = false) :
    Mode.code.behind v = .code ∧ (bracesFrom .code 0 v).map Brace.isOpen = [] := by
  induction v with
  | nil => exact ⟨rfl, rfl⟩
  | cons c v ih =>
    rw [List.all_cons, Bool.and_eq_true] at hbare
    rw [Text.contains, Bool.or_eq_false_iff] at hline hblock
    obtain ⟨hbehind, hbraces⟩ := ih hbare.2 hline.2 hblock.2
    have hnext : Mode.code.next c v.head? = .code := by
      have hquote : c ≠ '\'' ∧ c ≠ '"' ∧ c ≠ '`' := by
        refine ⟨?_, ?_, ?_⟩ <;> rintro rfl <;> exact absurd hbare.1 (by decide)
      have hslashes : ¬ (c = '/' ∧ v.head? = some '/') := by
        rintro ⟨rfl, hhead⟩
        obtain ⟨w, rfl⟩ := List.head?_eq_some_iff.1 hhead
        exact absurd hline.1 (by simp [List.isPrefixOf])
      have hstar : ¬ (c = '/' ∧ v.head? = some '*') := by
        rintro ⟨rfl, hhead⟩
        obtain ⟨w, rfl⟩ := List.head?_eq_some_iff.1 hhead
        exact absurd hblock.1 (by simp [List.isPrefixOf])
      simp only [Mode.next, hquote, or_self, if_false, hslashes, hstar]
    constructor
    · rw [Mode.behind, hnext, hbehind]
    · rw [isOpen_bracesFrom_cons, bracesAt_of_isBare hbare.1, hnext, isOpen_bracesFrom _ _ 0, hbraces]
      rfl

variable {v : Text}

theorem isWhole (h : IsPlainExpression v) : IsWhole v := by
  obtain ⟨hfinal, hbraces⟩ := behind_of_bare h.bare h.comment h.comment'
  refine ⟨hfinal, ?_⟩
  rw [hbraces]
  rfl

theorem isCompleteValue (h : IsPlainExpression v) : isCompleteValue v = true := by
  have hempty : v.isEmpty = false := List.isEmpty_eq_false_iff.2 h.ne_nil
  rw [Script.isCompleteValue, hempty, h.arrow, quotesClosed, final_scan, h.isWhole.final, h.balanced]
  rfl

end IsPlainExpression

theorem legible_mask {x : Text} (hline : '\n' ∉ x) (hsemicolon : ';' ∉ x) :
    (mask x).all (charNotOf ";\n") = true := by
  have hline : '\n' ∉ mask x := not_mem_maskFrom (by decide) hline _ _
  have hsemicolon : ';' ∉ mask x := not_mem_maskFrom (by decide) hsemicolon _ _
  exact all_charNotOf_iff.2 (List.forall_mem_cons.2 ⟨hsemicolon, List.forall_mem_singleton.2 hline⟩)

/-! ### A field with an annotation -/

section Field

variable {indent name t v : Text}

/-- Without an initializer, the value of a field is what stands behind the sign of an arrow in its annotation. -/
theorem contributes_uninitialized (hindent : indent.all isLineBlank = true) (hname : isIdentifier name = true)
    (ht : IsAnnotation t) :
    Contributes (indent ++ name ++ ": " ++ t ++ ";") (Field.given? name (behindSign t)).toList := by
  have hmask : mask (' ' :: t) = ' ' :: mask t := maskFrom_plain (x := [' ']) (by decide) t
  have hwhole : IsWhole (' ' :: t) := .plain_append (x := [' ']) (by decide) ht.whole
  have hlegible : (mask (' ' :: t)).all (charNotOf ";\n") = true := by
    rw [hmask, List.all_cons, legible_mask ht.line ht.semicolon]
    decide
  have hat : '@' ∉ mask (' ' :: t) := by
    rw [hmask, List.mem_cons, not_or]
    exact ⟨by decide, ht.decorators⟩
  have h := contributes_annotated hindent hname hwhole hlegible (.inr hat)
  rw [behindSign_blank] at h
  have htext : (indent ++ name ++ ": " ++ t ++ ";" : Text) = indent ++ name ++ ":" ++ (' ' :: t) ++ ";" := by
    simp only [List.append_assoc]
    rfl
  rw [htext]
  exact h

/-- With an initializer, the value is the initializer or, if the annotation shows an arrow, starts in the annotation. -/
theorem contributes_initialized (hindent : indent.all isLineBlank = true) (hname : isIdentifier name = true)
    (ht : IsAnnotation t) (hv : IsPlainExpression v) :
    Contributes (indent ++ name ++ ": " ++ t ++ " = " ++ v ++ ";")
      (if '=' ∈ mask t then (Field.given? name (behindSign t ++ " = " ++ v)).toList else [⟨name, v⟩]) := by
  have hsign : IsWhole (" = ".toList ++ v) := .plain_append (by decide) hv.isWhole
  have hcalm : Calm (" = ".toList ++ v) := .cons (by decide) (by decide) _
  have hwhole : IsWhole (' ' :: (t ++ (" = ".toList ++ v))) :=
    .plain_append (x := [' ']) (by decide) (ht.whole.append hsign hcalm)
  have hlegible : (mask (' ' :: (t ++ (" = ".toList ++ v)))).all (charNotOf ";\n") = true := by
    refine legible_mask ?_ ?_
    · simp [ht.line, hv.line]
    · simp [ht.semicolon, hv.semicolon]
  have hmask : mask (' ' :: (t ++ (" = ".toList ++ v))) = ' ' :: (mask t ++ (" = ".toList ++ mask v)) := by
    refine (maskFrom_plain (x := [' ']) (by decide) _).trans (congrArg (' ' :: ·) ?_)
    exact (ht.whole.maskFrom_append hcalm 0).trans (congrArg (mask t ++ ·) (maskFrom_plain (by decide) v))
  have hmem : '=' ∈ mask (' ' :: (t ++ (" = ".toList ++ v))) := by
    rw [hmask]
    simp
  have h := contributes_annotated hindent hname hwhole hlegible (.inl hmem)
  rw [behindSign_blank] at h
  have htext : (indent ++ name ++ ": " ++ t ++ " = " ++ v ++ ";" : Text)
      = indent ++ name ++ ":" ++ (' ' :: (t ++ (" = ".toList ++ v))) ++ ";" := by
    simp only [List.append_assoc, List.cons_append]
    rfl
  rw [htext]
  split
  · next hmem =>
    have hassoc : behindSign t ++ " = " ++ v = behindSign t ++ (" = ".toList ++ v) := List.append_assoc ..
    rw [behindSign_of_mem ht.whole hcalm hmem] at h
    rw [hassoc]
    exact h
  · next hmem =>
    have hvalue : behindSign (t ++ (" = ".toList ++ v)) = ' ' :: v := behindSign_of_not_mem ht.whole hmem (' ' :: v)
    have hgiven : Field.given? name (' ' :: v) = some ⟨name, v⟩ := by
      have htrim : Text.trim (' ' :: v) = v := (Text.trim_blank_append (a := [' ']) (by decide) v).trans hv.trim
      unfold Field.given?
      rw [htrim, if_pos hv.isCompleteValue]
    rw [hvalue, hgiven] at h
    exact h

theorem Contributes.unique {line : Text} {fs fs' : List Field} (h : Contributes line fs) (h' : Contributes line fs') :
    fs = fs' := by
  have heq := (h [] (.inl rfl)).symm.trans (h' [] (.inl rfl))
  rwa [ofBody_nil, List.append_nil, List.append_nil] at heq

/-- What stands behind the sign of an arrow starts with the rest of the arrow. -/
theorem IsAnnotation.head?_behindSign (ht : IsAnnotation t) (h : '=' ∈ mask t) : (behindSign t).head? = some '>' := by
  obtain ⟨x, -, -, hx, -⟩ := exists_cut_of_sign h
  have harrows := ht.arrows
  rw [hx] at harrows
  exact head?_of_hasOnlyArrows harrows

/-- So does the value that is taken for the one of the field. -/
theorem head?_of_given? {w : Text} {f : Field} (hw : w.head? = some '>') (hf : Field.given? name w = some f) :
    f.name = name ∧ f.value.head? = some '>' := by
  unfold Field.given? at hf
  split at hf
  · obtain rfl := Option.some.inj hf
    exact ⟨rfl, Text.head?_trim hw (by decide)⟩
  · exact absurd hf nofun

/-- A value that starts with the rest of an arrow is not the initializer. -/
theorem given?_ne_of_arrow {w : Text} (hw : w.head? = some '>') (hv : IsPlainExpression v) :
    Field.given? name (w ++ " = " ++ v) ≠ some ⟨name, v⟩ := by
  have hblank : v.getLast?.any isBlank = false := by
    rw [← hv.trim]
    exact Text.isBlank_getLast?_trim v
  have hlast : (w ++ " = " ++ v).getLast?.any isBlank = false := by
    rwa [List.getLast?_append_of_ne_nil _ hv.ne_nil]
  have hhead : (w ++ " = " ++ v).head?.any isBlank = false := by
    obtain ⟨y, rfl⟩ := List.head?_eq_some_iff.1 hw
    rfl
  have htrim : Text.trim (w ++ " = " ++ v) = w ++ " = " ++ v := by
    have h := Text.trim_padded (a := []) (b := []) rfl rfl hhead hlast
    rwa [List.nil_append, List.append_nil] at h
  intro h
  unfold Field.given? at h
  rw [htrim] at h
  split at h
  · have hlength := congrArg (fun f : Option Field => (f.elim [] Field.value).length) h
    simp at hlength
    omega
  · exact absurd h nofun

/-- **A field has a value exactly when it has an initializer**, but for annotations that show an arrow outside of strings
and braces. Then what follows the sign of the arrow counts as a value when it looks complete, and an initializer does
not. -/
theorem contributes_annotated_iff (hindent : indent.all isLineBlank = true) (hname : isIdentifier name = true)
    (ht : IsAnnotation t) (hv : IsPlainExpression v) :
    (Contributes (indent ++ name ++ ": " ++ t ++ ";") [] ↔ isCompleteValue (behindSign t).trim = false) ∧
      (∀ fs, Contributes (indent ++ name ++ ": " ++ t ++ ";") fs →
        ∀ f ∈ fs, f.name = name ∧ f.value.head? = some '>') ∧
      (Contributes (indent ++ name ++ ": " ++ t ++ " = " ++ v ++ ";") [⟨name, v⟩] ↔ '=' ∉ mask t) := by
  have hplain := contributes_uninitialized hindent hname ht
  have hvalued := contributes_initialized hindent hname ht hv
  have hgiven : (Field.given? name (behindSign t)).toList = [] ↔ isCompleteValue (behindSign t).trim = false := by
    unfold Field.given?
    split
    · next h => simp [h]
    · next h => simp [h]
  refine ⟨⟨fun h => ?_, fun h => ?_⟩, fun fs hfs f hf => ?_, fun h hmem => ?_, fun h => ?_⟩
  · exact hgiven.1 (hplain.unique h)
  · rw [hgiven.2 h] at hplain
    exact hplain
  · obtain rfl := hfs.unique hplain
    have hsome : Field.given? name (behindSign t) = some f := by simpa using hf
    have hmem : '=' ∈ mask t := by
      refine Classical.byContradiction fun hnone => ?_
      rw [behindSign_eq_nil hnone, given?_nil] at hsome
      exact absurd hsome nofun
    exact head?_of_given? (ht.head?_behindSign hmem) hsome
  · rw [if_pos hmem] at hvalued
    have hsome : Field.given? name (behindSign t ++ " = " ++ v) = some ⟨name, v⟩ := by
      have heq := hvalued.unique h
      cases hg : Field.given? name (behindSign t ++ " = " ++ v) with
      | none =>
        rw [hg] at heq
        exact absurd heq nofun
      | some f =>
        rw [hg] at heq
        rw [(List.cons.inj heq).1]
    exact given?_ne_of_arrow (ht.head?_behindSign hmem) hv hsome
  · rwa [if_neg h] at hvalued

theorem contributes_annotated_callback :
    IsAnnotation "() => void".toList ∧ IsPlainExpression "noop".toList ∧
      ¬ Contributes "  done: () => void;".toList [] ∧
      ¬ Contributes "  done: () => void = noop;".toList [⟨"done", "noop"⟩] := by
  have ht : IsAnnotation "() => void".toList :=
    ⟨by decide, by decide, by decide, ⟨by decide, by decide⟩, by decide⟩
  have hv : IsPlainExpression "noop".toList :=
    ⟨by decide, by decide, by decide, by decide, by decide, by decide, by decide, by decide, by decide⟩
  have hindent : "  ".toList.all isLineBlank = true := by decide
  have hname : isIdentifier "done".toList = true := by decide
  obtain ⟨hplain, -, hvalued⟩ := contributes_annotated_iff hindent hname ht hv
  refine ⟨ht, hv, fun h => ?_, fun h => ?_⟩
  · exact absurd (hplain.1 h) (by decide)
  · exact absurd (hvalued.1 h) (by decide)

end Field

end Script

end SnippetPreview
