import SnippetPreview.Proofs.Pattern.Twins
import SnippetPreview.Proofs.Script.Names
import SnippetPreview.Script.Members

/-!
# Members on lines of their own

* `mayOpen`, `readings_member_eq_nil`: a member starts with a letter, `_`, `$` or `@`, behind the blanks at the start of a
  line or behind a semicolon or a closing brace;
* `first_field`, `first_methodPattern`: what is read at the start of the line of a field and of a method;
* `findsFrom_nested`: nothing is found inside the masked body of a method.
-/

namespace SnippetPreview.Script

open Pattern

/-! ### Parts of the patterns -/

def decorator : Pattern := chain ["@", many1 isWord, "(", many (charNotOf ")"), ")", many isBlank]

def modifier (words : List Pattern) : Pattern := chain [oneOf words, many1 isBlank]

def ident : Pattern := chain [one isIdentStart, many isIdentRest]

/-- A field from behind its name on. -/
def fieldValue : Pattern :=
  chain [optional (one (charOf "?!")), many isBlank, optional (chain [":", many (charNotOf "=;\n")]), "=", many isBlank,
    group 2 (many (charNotOf ";\n"))]

/-- A field from behind its decorators and modifiers on. -/
def namedField : Pattern := seq (group 1 ident) fieldValue

/-- A field from behind its start on. -/
def fieldTail : Pattern :=
  seq (star decorator) (seq (star (modifier ["public", "private", "protected", "readonly", "static"])) namedField)

theorem fieldPattern_eq : fieldPattern = seq memberStart fieldTail := rfl

/-- A method from behind its name on. -/
def methodHead : Pattern :=
  chain [many isBlank, "(", many isBlank, ")", many isBlank,
    optional (chain [":", many isBlank, fewest1 (charNotOf "\x7b;\n")]), many isBlank, "\x7b"]

def asyncWord : Pattern := chain ["async", many1 isBlank]

/-- A method from behind its modifiers on. -/
def namedMethod : Pattern := seq (optional (group 1 asyncWord)) (seq (group 2 ident) methodHead)

/-- A method from behind its start on. -/
def methodTail : Pattern := seq (star (modifier ["public", "private", "protected", "static"])) namedMethod

theorem methodPattern_eq : methodPattern = seq memberStart methodTail := rfl

/-! ### Where a member can start -/

def opensMember (c : Char) : Bool := isIdentStart c || c == '@'

/-- A member may follow behind blanks. -/
def mayOpen (t : Text) : Bool := (t.dropWhile isLineBlank).head?.any opensMember

theorem opensMember_of_starts_fieldTail {c : Char} (h : fieldTail.starts c = true) : opensMember c = true := by
  have hc : c = '@' ∨ (c = 'p' ∨ c = 'r' ∨ c = 's') ∨ isIdentStart c = true := by
    simpa [fieldTail, decorator, namedField, modifier, ident, starts, consumes, chain, oneOf, text, group, many1,
      many] using h
  unfold opensMember
  rcases hc with rfl | (rfl | rfl | rfl) | hc
  · decide
  · decide
  · decide
  · decide
  · rw [hc]
    rfl

theorem opensMember_of_starts_methodTail {c : Char} (h : methodTail.starts c = true) : opensMember c = true := by
  have hc : (c = 'p' ∨ c = 's') ∨ c = 'a' ∨ isIdentStart c = true := by
    simpa [methodTail, namedMethod, modifier, asyncWord, ident, starts, consumes, chain, oneOf, text, Pattern.optional,
      group, many1, many] using h
  unfold opensMember
  rcases hc with (rfl | rfl) | rfl | hc
  · decide
  · decide
  · decide
  · rw [hc]
    rfl

/-- What may follow the start of a member: it reads something that starts like one. -/
structure IsMemberTail (tail : Pattern) : Prop where
  consumes : tail.consumes = true
  starts : ∀ c, tail.starts c = true → opensMember c = true

theorem isMemberTail_fieldTail : IsMemberTail fieldTail := ⟨rfl, fun _ => opensMember_of_starts_fieldTail⟩

theorem isMemberTail_methodTail : IsMemberTail methodTail := ⟨rfl, fun _ => opensMember_of_starts_methodTail⟩

theorem isLineBlank_eq_false_of_opensMember {c : Char} (h : opensMember c = true) : isLineBlank c = false := by
  unfold isLineBlank
  rw [Bool.or_eq_false_iff, beq_eq_false_iff_ne, beq_eq_false_iff_ne]
  constructor <;> rintro rfl <;> exact absurd h (by decide)

theorem dropWhile_isLineBlank {t : Text} (h : t.head?.any isLineBlank = false) : t.dropWhile isLineBlank = t := by
  cases t with
  | nil => rfl
  | cons c t => exact List.dropWhile_cons_of_neg (Bool.eq_false_iff.1 h)

/-- A member is read behind the blanks at the start of a line or behind a semicolon or a closing brace. -/
theorem reads_member {tail : Pattern} (htail : IsMemberTail tail) {b : Option Char} {u y : Text}
    (h : Reads (seq memberStart tail) b u y) :
    ∃ v b', Reads tail b' v y ∧
      (b.all (· == '\n') = true ∧ (u ++ y).dropWhile isLineBlank = v ++ y ∨
        ∃ c t, u ++ y = c :: t ∧ charOf ";\x7d" c = true ∧ t.dropWhile isLineBlank = v ++ y) := by
  obtain ⟨u, v, rfl, hstart, hv⟩ := reads_seq_iff.1 h
  obtain ⟨c, v, rfl, hc⟩ := hv.exists_first htail.consumes
  refine ⟨c :: v, _, hv, ?_⟩
  -- the blanks in front of a member are all that is dropped, since no member opens with one
  have hskip : ∀ {w : Text}, w.all isLineBlank = true →
      (w ++ (c :: v ++ y)).dropWhile isLineBlank = c :: v ++ y := by
    intro w hw
    rw [List.dropWhile_append_of_pos (List.all_eq_true.1 hw)]
    exact dropWhile_isLineBlank (isLineBlank_eq_false_of_opensMember (htail.starts c hc))
  obtain ⟨s, w, rfl, hs, hw⟩ := reads_seq_iff.1 hstart
  have hblanks : w.all isLineBlank = true := hw.all ⟨fun d hd => hd, trivial⟩
  rcases reads_alt_iff.1 hs with hs | hs
  · cases hs with
    | lineStart _ hb =>
      left
      rw [List.nil_append, List.append_assoc]
      exact ⟨hb, hskip hblanks⟩
  · obtain ⟨d, rfl, hd⟩ := reads_one_iff.1 hs
    right
    rw [List.append_assoc, List.append_assoc]
    exact ⟨d, _, rfl, hd, hskip hblanks⟩

/-- No member is read where none can start. -/
theorem readings_member_eq_nil {tail : Pattern} (htail : IsMemberTail tail) {k : Cursor}
    (hline : k.atLineStart = true → mayOpen k.after = false)
    (hsign : ∀ c t, k.after = c :: t → charOf ";\x7d" c = true → mayOpen t = false) :
    (seq memberStart tail).readings k = [] := by
  refine readings_eq_nil_iff.2 fun u y hk h => ?_
  obtain ⟨v, b', hv, hwhere⟩ := reads_member htail h
  obtain ⟨c, v, rfl, hc⟩ := hv.exists_first htail.consumes
  have hopens : ∀ {t : Text}, t.dropWhile isLineBlank = c :: v ++ y → mayOpen t = true := by
    intro t ht
    unfold mayOpen
    rw [ht]
    exact htail.starts c hc
  rcases hwhere with ⟨hb, hv⟩ | ⟨d, t, ht, hd, hv⟩
  · rw [← hk] at hv
    exact Bool.noConfusion ((hline hb).symm.trans (hopens hv))
  · exact Bool.noConfusion ((hsign d t (hk.trans ht) hd).symm.trans (hopens hv))

section Skipping

variable {tail : Pattern} {k : Cursor}

/-- Nothing is found within a line, up to a character that a member may follow. -/
theorem findsFrom_inside (htail : IsMemberTail tail) {u y : Text} (hk : k.after = u ++ y)
    (hline : k.atLineStart = false) (hu : u.all (charNotOf ";\x7d\n") = true) :
    (seq memberStart tail).findsFrom k = (seq memberStart tail).findsFrom (k.behind u y) := by
  induction u generalizing k with
  | nil =>
    rw [List.nil_append] at hk
    rw [← hk, Cursor.behind_nil]
  | cons c u ih =>
    rw [List.all_cons, Bool.and_eq_true] at hu
    obtain ⟨hsemicolon, hbrace, hfeed⟩ : c ≠ ';' ∧ c ≠ '\x7d' ∧ c ≠ '\n' := by simpa [charNotOf] using hu.1
    have hnone : (seq memberStart tail).readings k = [] := by
      refine readings_member_eq_nil htail (fun h => ?_) fun d t hd h => ?_
      · rw [hline] at h
        exact absurd h Bool.false_ne_true
      · obtain ⟨rfl, -⟩ := List.cons.inj (hd.symm.trans hk)
        have hsign : d = ';' ∨ d = '\x7d' := by simpa [charOf] using h
        exact absurd hsign (not_or.2 ⟨hsemicolon, hbrace⟩)
    rw [List.cons_append] at hk
    rw [findsFrom_skip hk hnone, @ih (k.past c (u ++ y)) rfl _ hu.2, Cursor.past_behind]
    exact beq_eq_false_iff_ne.2 hfeed

theorem findsFrom_end (htail : IsMemberTail tail) (hk : k.after = []) : (seq memberStart tail).findsFrom k = [] := by
  refine findsFrom_nil hk (readings_member_eq_nil htail (fun _ => ?_) fun c t ht _ => ?_)
  · rw [hk]
    rfl
  · rw [hk] at ht
    exact absurd ht (List.cons_ne_nil c t).symm

/-- Nothing is found at the end of a line, behind a semicolon or a closing brace. -/
theorem findsFrom_lineEnd (htail : IsMemberTail tail) {c : Char} {y : Text} (hk : k.after = c :: '\n' :: y)
    (hc : mayOpen (c :: '\n' :: y) = false) :
    (seq memberStart tail).findsFrom k = (seq memberStart tail).findsFrom (k.behind [c, '\n'] y) := by
  have hnone : (seq memberStart tail).readings k = [] := by
    refine readings_member_eq_nil htail (fun _ => by rw [hk, hc]) fun d t hd _ => ?_
    obtain ⟨-, rfl⟩ := List.cons.inj (hk.symm.trans hd)
    rfl
  have hnone' : (seq memberStart tail).readings (k.past c ('\n' :: y)) = [] := by
    refine readings_member_eq_nil htail (fun _ => rfl) fun d t hd h => ?_
    obtain ⟨rfl, -⟩ := List.cons.inj hd
    exact absurd h (by decide)
  rw [findsFrom_skip hk hnone, findsFrom_skip rfl hnone']
  rfl

/-- Nothing is found in the masked body of a method, nor up to the end of its last line. -/
theorem findsFrom_nested (htail : IsMemberTail tail) {s y : Text} (hk : k.after = s ++ '\x7d' :: '\n' :: y)
    (hs : ∀ c ∈ s, c = ' ' ∨ c = '\n') :
    (seq memberStart tail).findsFrom k
      = (seq memberStart tail).findsFrom (k.behind (s ++ ['\x7d', '\n']) y) := by
  have hopen : ∀ {s : Text}, (∀ c ∈ s, c = ' ' ∨ c = '\n') → mayOpen (s ++ '\x7d' :: '\n' :: y) = false := by
    intro s hs
    induction s with
    | nil => rfl
    | cons c s ih =>
      rcases hs c List.mem_cons_self with rfl | rfl
      · exact ih fun d hd => hs d (List.mem_cons_of_mem _ hd)
      · rfl
  induction s generalizing k with
  | nil => exact findsFrom_lineEnd htail hk rfl
  | cons c s ih =>
    have hc := hs c List.mem_cons_self
    have hnone : (seq memberStart tail).readings k = [] := by
      refine readings_member_eq_nil htail (fun _ => ?_) fun d t hd h => ?_
      · rw [hk]
        exact hopen hs
      · obtain ⟨rfl, -⟩ := List.cons.inj (hd.symm.trans hk)
        rcases hc with rfl | rfl <;> exact absurd h (by decide)
    rw [List.cons_append] at hk
    rw [findsFrom_skip hk hnone, ih rfl fun d hd => hs d (List.mem_cons_of_mem c hd), Cursor.past_behind]
    rfl

end Skipping

/-! ### Names and modifiers -/

/-- A character of a modifier or of the blanks behind it. -/
def isNameOrBlank (c : Char) : Bool := isNameRest c || isBlank c

theorem within_blanks : (many1 isBlank).Within isNameOrBlank := by
  have hblank : ∀ c, isBlank c = true → isNameOrBlank c = true := fun c hc => by rw [isNameOrBlank, hc, Bool.or_true]
  exact ⟨hblank, hblank⟩

theorem within_modifier {words : List Pattern} (h : (oneOf words).Within isNameOrBlank) :
    (modifier words).Within isNameOrBlank := ⟨h, within_blanks, trivial⟩

theorem within_fieldModifier :
    (modifier ["public", "private", "protected", "readonly", "static"]).Within isNameOrBlank :=
  within_modifier ⟨within_text (by decide), within_text (by decide), within_text (by decide), within_text (by decide),
    within_text (by decide)⟩

theorem within_methodModifier : (modifier ["public", "private", "protected", "static"]).Within isNameOrBlank :=
  within_modifier ⟨within_text (by decide), within_text (by decide), within_text (by decide), within_text (by decide)⟩

theorem needs_modifier (words : List Pattern) : (modifier words).Needs isBlank := .inr (.inl (.inl fun _ hc => hc))

theorem within_asyncWord : (group 1 asyncWord).Within isNameOrBlank :=
  ⟨trivial, ⟨within_text (by decide), within_blanks, trivial⟩, trivial⟩

theorem needs_asyncWord : (group 1 asyncWord).Needs isBlank := .inr (.inl (.inr (.inl (.inl fun _ hc => hc))))

/-- A word with blanks behind it does not end within a name. -/
theorem readings_eq_nil_of_name {p : Pattern} (hwithin : p.Within isNameOrBlank) (hneeds : p.Needs isBlank) {k : Cursor}
    {name z : Text} {c : Char} (hname : name.all isNameRest = true) (hc : isNameOrBlank c = false)
    (hk : k.after = name ++ c :: z) : p.readings k = [] := by
  refine readings_eq_nil_iff.2 fun u y hu h => ?_
  obtain ⟨w, rfl, -⟩ := eq_append_of_append_eq (h.all hwithin) hc (hu.symm.trans hk)
  obtain ⟨d, hd, hblank⟩ := h.exists_mem hneeds
  rw [List.all_append, Bool.and_eq_true] at hname
  rw [isBlank_eq_false_of_isNameRest (List.all_eq_true.1 hname.1 d hd)] at hblank
  exact Bool.false_ne_true hblank

section Reading

variable {k : Cursor} {name value y z : Text}

theorem first_memberStart (indent : Text) (hline : k.atLineStart = true) (hindent : indent.all isLineBlank = true)
    (hk : k.after = indent ++ y) (hy : y.head?.any isLineBlank = false) :
    First memberStart k (.nothing (k.behind indent y)) := by
  have hblanks : First (many isLineBlank) k (.nothing (k.behind indent y)) := first_many hk hindent hy
  exact ((first_lineStart hline).altLeft _).andThen (hblanks.andThen (first_empty _))

theorem first_ident (hname : isIdentifier name = true) (hk : k.after = name ++ y)
    (hy : y.head?.any isIdentRest = false) : First ident k (.nothing (k.behind name y)) := by
  cases name with
  | nil => exact absurd hname Bool.false_ne_true
  | cons c rest =>
    rw [isIdentifier, Bool.and_eq_true] at hname
    have hmany := first_many (k := k.behind [c] (rest ++ y)) rfl hname.2 hy
    rw [Cursor.behind_behind] at hmany
    exact (first_one hk hname.1).andThen (hmany.andThen (first_empty _))

/-! ### Fields -/

/-- A type in front of the sign that introduces a value, or nothing. -/
def IsFieldType (t : Text) : Prop := t = [] ∨ ∃ u, t = ':' :: u ∧ u.all (charNotOf "=;\n") = true

/-- What a field may have between its name and its value. -/
def IsSigned (mid : Text) : Prop :=
  ∃ blanks type gap, mid = blanks ++ (type ++ '=' :: gap) ∧ blanks.all isBlank = true ∧ IsFieldType type ∧
    gap.all isBlank = true

theorem IsFieldType.exists_head {t : Text} (h : IsFieldType t) (y : Text) :
    ∃ c w, t ++ '=' :: y = c :: w ∧ (c = '=' ∨ c = ':') := by
  rcases h with rfl | ⟨u, rfl, -⟩
  · exact ⟨'=', y, rfl, .inl rfl⟩
  · exact ⟨':', u ++ '=' :: y, rfl, .inr rfl⟩

/-- Behind some blanks, a type or a sign follows. -/
theorem head?_any_eq_false {blanks type : Text} {S : Char → Bool} (hblanks : blanks.all isBlank = true)
    (htype : IsFieldType type) (hS : ∀ c, isBlank c = true → S c = false) (heq : S '=' = false) (hcolon : S ':' = false)
    (y : Text) : (blanks ++ (type ++ '=' :: y)).head?.any S = false := by
  cases blanks with
  | nil =>
    obtain ⟨c, w, hw, hc⟩ := htype.exists_head y
    rw [List.nil_append, hw]
    rcases hc with rfl | rfl
    · exact heq
    · exact hcolon
  | cons c blanks =>
    rw [List.all_cons, Bool.and_eq_true] at hblanks
    exact hS c hblanks.1

theorem first_fieldType {type : Text} (htype : IsFieldType type) (hk : k.after = type ++ '=' :: y) :
    First (Pattern.optional (chain [":", many (charNotOf "=;\n")])) k (.nothing (k.behind type ('=' :: y))) := by
  rcases htype with rfl | ⟨u, rfl, hu⟩
  · rw [List.nil_append] at hk
    rw [← hk, Cursor.behind_nil]
    exact first_optional (readings_eq_nil_of_starts hk rfl (by decide))
  · have hcolon : First ":" k (.nothing (k.behind [':'] (u ++ '=' :: y))) :=
      first_text (w := [':']) (y := u ++ '=' :: y) hk
    have hrest := first_many (k := k.behind [':'] (u ++ '=' :: y)) (v := u) (y := '=' :: y) rfl hu rfl
    rw [Cursor.behind_behind] at hrest
    exact (hcolon.andThen (hrest.andThen (first_empty _))).altLeft _

theorem first_fieldValue {mid : Text} (hmid : IsSigned mid) (hk : k.after = mid ++ (value ++ z))
    (hvalue : value.all (charNotOf ";\n") = true) (hz : z.head?.any (charNotOf ";\n") = false)
    (hblank : (value ++ z).head?.any isBlank = false) :
    First fieldValue k ⟨k.behind (mid ++ value) z,
      [(4, k.behind mid (value ++ z)), (5, k.behind (mid ++ value) z)]⟩ := by
  obtain ⟨blanks, type, gap, rfl, hblanks, htype, hgap⟩ := hmid
  have hk : k.after = blanks ++ (type ++ '=' :: (gap ++ (value ++ z))) := by
    rw [hk, List.append_assoc, List.append_assoc]
    rfl
  have hsign : First (Pattern.optional (one (charOf "?!"))) k (.nothing k) := by
    refine first_optional (readings_eq_nil_of_head? rfl ?_)
    rw [hk]
    refine head?_any_eq_false hblanks htype (fun c hc => Bool.eq_false_iff.2 fun hs => ?_) rfl rfl _
    have hmark : c = '?' ∨ c = '!' := by simpa [starts, charOf] using hs
    rcases hmark with rfl | rfl <;> exact absurd hc (by decide)
  have hhead : (type ++ '=' :: (gap ++ (value ++ z))).head?.any isBlank = false := by
    obtain ⟨c, w, hw, rfl | rfl⟩ := htype.exists_head (gap ++ (value ++ z)) <;> rw [hw] <;> rfl
  have hblanks := first_many hk hblanks hhead
  have htype := first_fieldType (k := k.behind blanks (type ++ '=' :: (gap ++ (value ++ z)))) htype rfl
  have hequals : First "=" (k.behind (blanks ++ type) ('=' :: (gap ++ (value ++ z)))) (.nothing _) :=
    first_text (w := ['=']) (y := gap ++ (value ++ z)) rfl
  have hgap := first_many (k := k.behind (blanks ++ type ++ ['=']) (gap ++ (value ++ z))) rfl hgap hblank
  have hvalue := first_many (k := k.behind (blanks ++ type ++ ['='] ++ gap) (value ++ z)) rfl hvalue hz
  rw [Cursor.behind_behind] at htype hequals hgap hvalue
  have hmid : blanks ++ (type ++ '=' :: gap) = blanks ++ type ++ ['='] ++ gap := by simp
  rw [hmid]
  exact hsign.andThen (hblanks.andThen (htype.andThen (hequals.andThen (hgap.andThen
    ((first_group 2 hvalue).seq (first_empty _))))))

/-- Words that are read as modifiers in front of a sign read the whole name and some of the blanks behind it. -/
theorem eq_of_reads_modifiers {p : Pattern} {b : Option Char} {u blanks : Text} {c : Char}
    (hwithin : p.Within isNameOrBlank) (hneeds : p.Needs isBlank) (hname : ∀ d ∈ name, isBlank d = false)
    (hc : isNameOrBlank c = false) (h : Reads (star p) b u y) (hu : u ≠ []) (hk : name ++ blanks ++ c :: z = u ++ y) :
    ∃ blanks', blanks' <:+ blanks ∧ y = blanks' ++ c :: z := by
  have hall : u.all isNameOrBlank = true := h.all hwithin
  obtain ⟨w, hw, hy⟩ := eq_append_of_append_eq hall hc hk.symm
  obtain ⟨d, hd, hblank⟩ := h.exists_mem_of_star hu hneeds
  rcases List.append_eq_append_iff.1 hw with ⟨v, hv, hv'⟩ | ⟨v, hv, hv'⟩
  · exact ⟨w, ⟨v, hv'.symm⟩, hy⟩
  · -- within the name there is none of the blanks that a modifier has behind it
    have hmem : d ∈ name := by
      rw [hv]
      exact List.mem_append_left v hd
    rw [hname d hmem] at hblank
    exact absurd hblank Bool.false_ne_true

/-- What is read at the start of the line of a field. -/
theorem first_field (indent : Text) {mid : Text} (hline : k.atLineStart = true) (hindent : indent.all isLineBlank = true)
    (hname : isIdentifier name = true) (hmid : IsSigned mid) (hvalue : value.all (charNotOf ";\n") = true)
    (hz : z.head?.any (charNotOf ";\n") = false) (hblank : (value ++ z).head?.any isBlank = false)
    (hk : k.after = indent ++ (name ++ (mid ++ (value ++ z)))) :
    First fieldPattern k ⟨k.behind (indent ++ (name ++ (mid ++ value))) z,
      [(2, k.behind indent (name ++ (mid ++ (value ++ z)))), (3, k.behind (indent ++ name) (mid ++ (value ++ z))),
        (4, k.behind (indent ++ (name ++ mid)) (value ++ z)),
        (5, k.behind (indent ++ (name ++ (mid ++ value))) z)]⟩ := by
  obtain ⟨c, rest, rfl⟩ : ∃ c rest, name = c :: rest := by
    cases name with
    | nil => exact absurd hname Bool.false_ne_true
    | cons c rest => exact ⟨c, rest, rfl⟩
  have hall := all_isIdentRest_of_isIdentifier hname
  have hstart : isIdentStart c = true := (Bool.and_eq_true_iff.1 hname).1
  have hopens : opensMember c = true := by rw [opensMember, hstart, Bool.true_or]
  have hlead := first_memberStart indent hline hindent hk (isLineBlank_eq_false_of_opensMember hopens)
  have hident : First ident (k.behind indent (c :: rest ++ (mid ++ (value ++ z))))
      (.nothing (k.behind (indent ++ c :: rest) (mid ++ (value ++ z)))) := by
    have h := first_ident (k := k.behind indent (c :: rest ++ (mid ++ (value ++ z)))) hname rfl (by
      obtain ⟨blanks, type, gap, rfl, hblanks, htype, -⟩ := hmid
      rw [List.append_assoc, List.append_assoc]
      refine head?_any_eq_false hblanks htype (fun d hd => Bool.eq_false_iff.2 fun hrest => ?_) (by decide)
        (by decide) _
      rw [isBlank_eq_false_of_isIdentRest hrest] at hd
      exact Bool.false_ne_true hd)
    rwa [Cursor.behind_behind] at h
  have hfield := first_fieldValue (k := k.behind (indent ++ c :: rest) (mid ++ (value ++ z))) hmid rfl hvalue hz hblank
  simp only [Cursor.behind_behind, List.append_assoc] at hfield hident
  refine hlead.andThen ((first_star ?_).andThen (first_seq_star (fun u y hu hne h => ?_)
    ((first_group 1 hident).seq hfield)))
  · refine readings_eq_nil_of_starts (c := c) (t := rest ++ (mid ++ (value ++ z))) rfl rfl ?_
    have hat : c ≠ '@' := ne_of_class (isIdentRest_of_isIdentStart hstart) (by decide)
    simpa [decorator, starts, consumes, chain, text] using hat
  · -- modifiers may read the name, too, and then there is none left in front of the sign
    obtain ⟨blanks, type, gap, rfl, hblanks, htype, -⟩ := hmid
    obtain ⟨d, w, hd, hsign⟩ := htype.exists_head (gap ++ (value ++ z))
    have hafter : c :: rest ++ blanks ++ d :: w = u ++ y := by
      rw [← hd]
      simpa using hu
    have hname' : ∀ e ∈ c :: rest, isBlank e = false := fun e he =>
      isBlank_eq_false_of_isIdentRest (List.all_eq_true.1 hall e he)
    have hsign' : isNameOrBlank d = false := by rcases hsign with rfl | rfl <;> decide
    obtain ⟨blanks', hsuffix, rfl⟩ := eq_of_reads_modifiers within_fieldModifier (needs_modifier _) hname' hsign' h hne
      hafter
    refine readings_eq_nil_of_head? rfl ?_
    rw [Cursor.after_behind, ← hd]
    refine head?_any_eq_false (List.all_eq_true.2 fun e he => List.all_eq_true.1 hblanks e (hsuffix.subset he)) htype
      (fun e he => Bool.eq_false_iff.2 fun hs => ?_) rfl rfl _
    have hstart : isIdentStart e = true := by
      simpa [namedField, ident, starts, consumes, chain, group] using hs
    rw [isBlank_eq_false_of_isIdentRest (isIdentRest_of_isIdentStart hstart)] at he
    exact Bool.false_ne_true he

theorem first_fieldPattern (hline : k.atLineStart = true) (hname : isName name = true)
    (hvalue : value.all (charNotOf ";\n") = true) (hblank : (value ++ ';' :: z).head?.any isBlank = false)
    (hk : k.after = ' ' :: ' ' :: (name ++ ' ' :: '=' :: ' ' :: (value ++ ';' :: z))) :
    First fieldPattern k ⟨k.behind (' ' :: ' ' :: (name ++ ' ' :: '=' :: ' ' :: value)) (';' :: z),
      [(2, k.behind [' ', ' '] (name ++ ' ' :: '=' :: ' ' :: (value ++ ';' :: z))),
        (3, k.behind (' ' :: ' ' :: name) (' ' :: '=' :: ' ' :: (value ++ ';' :: z))),
        (4, k.behind (' ' :: ' ' :: (name ++ [' ', '=', ' '])) (value ++ ';' :: z)),
        (5, k.behind (' ' :: ' ' :: (name ++ ' ' :: '=' :: ' ' :: value)) (';' :: z))]⟩ :=
  have hsigned : IsSigned [' ', '=', ' '] := ⟨[' '], [], [' '], rfl, by decide, .inl rfl, by decide⟩
  first_field [' ', ' '] hline rfl (isIdentifier_of_isName hname) hsigned hvalue rfl hblank hk

theorem head?_name (hname : isName name = true) (y : Text) : ∃ c, (name ++ y).head? = some c ∧ isNameRest c = true := by
  cases name with
  | nil => exact absurd hname Bool.false_ne_true
  | cons c rest =>
    rw [isName, Bool.and_eq_true] at hname
    exact ⟨c, rfl, isNameRest_of_isIdentStart hname.1⟩

theorem isLineBlank_of_isNameRest {c : Char} (h : isNameRest c = true) : isLineBlank c = false := by
  unfold isLineBlank
  rw [Bool.or_eq_false_iff, beq_eq_false_iff_ne, beq_eq_false_iff_ne]
  exact ⟨ne_of_class h (by decide), ne_of_class h (by decide)⟩

theorem isLineBlank_head?_name (hname : isName name = true) (y : Text) :
    (name ++ y).head?.any isLineBlank = false := by
  obtain ⟨c, hhead, hc⟩ := head?_name hname y
  rw [hhead, Option.any_some]
  exact isLineBlank_of_isNameRest hc

/-! ### Methods -/

theorem first_methodHead (hk : k.after = '(' :: ')' :: ' ' :: '\x7b' :: z) :
    First methodHead k (.nothing (k.behind ['(', ')', ' ', '\x7b'] z)) := by
  have hblanks : First (many isBlank) k (.nothing k) := by
    have h := first_many (v := []) hk rfl (rfl : ('(' :: ')' :: ' ' :: '\x7b' :: z).head?.any isBlank = false)
    rwa [← hk, Cursor.behind_nil] at h
  have hopen : First "(" k (.nothing (k.behind ['('] (')' :: ' ' :: '\x7b' :: z))) :=
    first_text (w := ['(']) (y := ')' :: ' ' :: '\x7b' :: z) hk
  have hblanks' : First (many isBlank) (k.behind ['('] (')' :: ' ' :: '\x7b' :: z)) (.nothing _) :=
    first_many (v := []) (y := ')' :: ' ' :: '\x7b' :: z) rfl rfl rfl
  have hclose : First ")" (k.behind ['('] (')' :: ' ' :: '\x7b' :: z)) (.nothing _) :=
    first_text (w := [')']) (y := ' ' :: '\x7b' :: z) rfl
  have hblank : First (many isBlank) (k.behind ['(', ')'] (' ' :: '\x7b' :: z)) (.nothing _) :=
    first_many (v := [' ']) (y := '\x7b' :: z) rfl rfl rfl
  have htype : First (Pattern.optional (chain [":", many isBlank, fewest1 (charNotOf "\x7b;\n")]))
      (k.behind ['(', ')', ' '] ('\x7b' :: z)) (.nothing _) :=
    first_optional (readings_eq_nil_of_starts rfl rfl (by decide))
  have hblanks'' : First (many isBlank) (k.behind ['(', ')', ' '] ('\x7b' :: z)) (.nothing _) :=
    first_many (v := []) (y := '\x7b' :: z) rfl rfl rfl
  have hbrace : First "\x7b" (k.behind ['(', ')', ' '] ('\x7b' :: z)) (.nothing _) :=
    first_text (w := ['\x7b']) (y := z) rfl
  exact hblanks.andThen (hopen.andThen (hblanks'.andThen (hclose.andThen (hblank.andThen (htype.andThen
    (hblanks''.andThen (hbrace.andThen (first_empty _))))))))

theorem first_method (hname : isName name = true) (hk : k.after = name ++ '(' :: ')' :: ' ' :: '\x7b' :: z) :
    First (seq (group 2 ident) methodHead) k ⟨k.behind (name ++ ['(', ')', ' ', '\x7b']) z,
      [(4, k), (5, k.behind name ('(' :: ')' :: ' ' :: '\x7b' :: z))]⟩ := by
  have hhead := first_methodHead (k := k.behind name ('(' :: ')' :: ' ' :: '\x7b' :: z)) rfl
  rw [Cursor.behind_behind] at hhead
  exact (first_group 2 (first_ident (isIdentifier_of_isName hname) hk rfl)).seq hhead

/-- What is read at the start of the line of a method. -/
theorem first_methodPattern (hline : k.atLineStart = true) (hname : isName name = true)
    (hk : k.after = ' ' :: ' ' :: (name ++ '(' :: ')' :: ' ' :: '\x7b' :: z)) :
    First methodPattern k ⟨k.behind (' ' :: ' ' :: (name ++ ['(', ')', ' ', '\x7b'])) z,
      [(4, k.behind [' ', ' '] (name ++ '(' :: ')' :: ' ' :: '\x7b' :: z)),
        (5, k.behind (' ' :: ' ' :: name) ('(' :: ')' :: ' ' :: '\x7b' :: z))]⟩ := by
  -- a modifier or `async` has a blank behind it, which a name in front of a parenthesis does not have
  have hall := all_isNameRest_of_isName hname
  have hstart := first_memberStart [' ', ' '] hline rfl hk (isLineBlank_head?_name hname _)
  have hmethod := first_method (k := k.behind [' ', ' '] (name ++ '(' :: ')' :: ' ' :: '\x7b' :: z)) hname rfl
  rw [Cursor.behind_behind, Cursor.behind_behind] at hmethod
  refine hstart.andThen ((first_star ?_).andThen ((first_optional ?_).andThen hmethod))
  · exact readings_eq_nil_of_name within_methodModifier (needs_modifier _) hall rfl rfl
  · exact readings_eq_nil_of_name within_asyncWord needs_asyncWord hall rfl rfl

theorem first_methodPattern_async (hline : k.atLineStart = true) (hname : isName name = true)
    (hk : k.after = ' ' :: ' ' :: ("async ".toList ++ (name ++ '(' :: ')' :: ' ' :: '\x7b' :: z))) :
    First methodPattern k ⟨k.behind (' ' :: ' ' :: ("async ".toList ++ (name ++ ['(', ')', ' ', '\x7b']))) z,
      [(2, k.behind [' ', ' '] ("async ".toList ++ (name ++ '(' :: ')' :: ' ' :: '\x7b' :: z))),
        (3, k.behind (' ' :: ' ' :: "async ".toList) (name ++ '(' :: ')' :: ' ' :: '\x7b' :: z)),
        (4, k.behind (' ' :: ' ' :: "async ".toList) (name ++ '(' :: ')' :: ' ' :: '\x7b' :: z)),
        (5, k.behind (' ' :: ' ' :: ("async ".toList ++ name)) ('(' :: ')' :: ' ' :: '\x7b' :: z))]⟩ := by
  have hstart := first_memberStart [' ', ' '] hline rfl hk rfl
  have hblank : (name ++ '(' :: ')' :: ' ' :: '\x7b' :: z).head?.any isBlank = false := by
    obtain ⟨c, hhead, hc⟩ := head?_name hname ('(' :: ')' :: ' ' :: '\x7b' :: z)
    rw [hhead]
    exact isBlank_eq_false_of_isNameRest hc
  have hword : First asyncWord (k.behind [' ', ' '] ("async ".toList ++ (name ++ '(' :: ')' :: ' ' :: '\x7b' :: z)))
      (.nothing (k.behind (' ' :: ' ' :: "async ".toList) (name ++ '(' :: ')' :: ' ' :: '\x7b' :: z))) := by
    have htext := first_text (k := k.behind [' ', ' '] ("async ".toList ++ (name ++ '(' :: ')' :: ' ' :: '\x7b' :: z)))
      (w := "async".toList) (y := ' ' :: (name ++ '(' :: ')' :: ' ' :: '\x7b' :: z)) rfl
    have hblanks := first_many1 (k := k.behind (' ' :: ' ' :: "async".toList)
      (' ' :: (name ++ '(' :: ')' :: ' ' :: '\x7b' :: z))) (c := ' ') (v := []) rfl (by decide) rfl hblank
    rw [Cursor.behind_behind] at htext hblanks
    exact htext.andThen (hblanks.andThen (first_empty _))
  have hmethod := first_method (k := k.behind (' ' :: ' ' :: "async ".toList)
    (name ++ '(' :: ')' :: ' ' :: '\x7b' :: z)) hname rfl
  rw [Cursor.behind_behind, Cursor.behind_behind] at hmethod
  refine hstart.andThen ((first_star ?_).andThen (((first_group 1 hword).altLeft _).seq hmethod))
  exact readings_eq_nil_of_starts rfl rfl (by decide)

/-- A character that a field has in front of its type or value. -/
def isFieldHead (c : Char) : Bool := isIdentRest c || isBlank c || charOf "?!" c

theorem isFieldHead_of_isNameOrBlank {c : Char} (h : isNameOrBlank c = true) : isFieldHead c = true := by
  rw [isNameOrBlank, Bool.or_eq_true] at h
  unfold isFieldHead
  rcases h with h | h
  · rw [isIdentRest_of_isNameRest h]
    rfl
  · rw [h, Bool.or_true]
    rfl

theorem within_ident (i : Nat) : (group i ident).Within isFieldHead := by
  have hrest : ∀ c, isIdentRest c = true → isFieldHead c = true := fun c hc => by
    rw [isFieldHead, hc]
    rfl
  exact ⟨trivial, ⟨fun c hc => hrest c (isIdentRest_of_isNameRest (isNameRest_of_isIdentStart hc)), hrest, trivial⟩,
    trivial⟩

theorem within_fieldSign : (Pattern.optional (one (charOf "?!"))).Within isFieldHead :=
  ⟨fun c hc => by rw [isFieldHead, hc, Bool.or_true], trivial⟩

theorem within_fieldBlanks : (many isBlank).Within isFieldHead := fun c hc => by
  rw [isFieldHead, hc, Bool.or_true]
  rfl

/-- Behind characters of a class nothing is read that starts neither with one of them nor with what follows them. -/
theorem not_reads_of_starts {p : Pattern} {S : Char → Bool} {b : Option Char} {u y w z : Text} {c : Char}
    (hp : p.consumes = true) (hw : w.all S = true) (hstarts : ∀ d, p.starts d = true → S d = false ∧ d ≠ c)
    (ht : u ++ y = w ++ c :: z) : ¬ Reads p b u y := by
  intro h
  obtain ⟨d, v, rfl, hd⟩ := h.exists_first hp
  obtain ⟨hS, hne⟩ := hstarts d hd
  cases w with
  | nil => exact hne (List.cons.inj ht).1
  | cons e w =>
    obtain ⟨rfl, -⟩ := List.cons.inj ht
    rw [List.all_cons, hS] at hw
    exact Bool.false_ne_true hw

/-- The line of a method is not the line of a field. -/
theorem readings_fieldPattern_eq_nil {w : Text} (hw : w.all isNameOrBlank = true)
    (hhead : ∃ c t, w = c :: t ∧ isNameRest c = true) (hk : k.after = ' ' :: ' ' :: (w ++ '(' :: z)) :
    fieldPattern.readings k = [] := by
  obtain ⟨e, t, rfl, he⟩ := hhead
  have hhead : (e :: t ++ '(' :: z).head?.any isLineBlank = false := isLineBlank_of_isNameRest he
  refine readings_eq_nil_iff.2 fun u y hu h => ?_
  rw [hk] at hu
  obtain ⟨v, b, hv, ⟨-, htext⟩ | ⟨c, t, ht, hc, -⟩⟩ := reads_member isMemberTail_fieldTail h
  · rw [← hu] at htext
    replace htext : v ++ y = (e :: t) ++ '(' :: z := htext.symm.trans (dropWhile_isLineBlank hhead)
    -- what is in front of the parenthesis is no decorator, and a field has more than a name there
    obtain ⟨v₁, v₂, rfl, hdecor, hrest⟩ := reads_seq_iff.1 hv
    cases v₁ with
    | cons d v₁ =>
      have hat : d = '@' := by
        simpa [decorator, starts, consumes, chain, text] using hdecor.starts rfl
      obtain ⟨hde, -⟩ := List.cons.inj htext
      exact ne_of_class he (rfl : isNameRest '@' = false) (hde.symm.trans hat)
    | nil =>
      have hparen : isFieldHead '(' = false := by decide
      have hmodifier : (modifier ["public", "private", "protected", "readonly", "static"]).Within isFieldHead :=
        within_fieldModifier.mono fun _ => isFieldHead_of_isNameOrBlank
      obtain ⟨w₁, w, v, b₁, hw₁, htext, hrest⟩ := reads_seq_within hrest hmodifier hparen htext
      obtain ⟨w₂, w, v, b₂, rfl, htext, hrest⟩ := reads_seq_within hrest (within_ident 1) hparen htext
      obtain ⟨w₃, w, v, b₃, rfl, htext, hrest⟩ := reads_seq_within hrest within_fieldSign hparen htext
      obtain ⟨w₄, w, v, b₄, rfl, htext, hrest⟩ := reads_seq_within hrest within_fieldBlanks hparen htext
      rw [hw₁] at hw
      simp only [List.all_append, Bool.and_eq_true] at hw
      refine not_reads_of_starts rfl hw.2.2.2.2 (fun d hd => ?_) htext hrest
      have hsign : d = ':' ∨ d = '=' := by
        simpa [starts, consumes, chain, text, Pattern.optional] using hd
      rcases hsign with rfl | rfl <;> decide
  · obtain ⟨rfl, -⟩ := List.cons.inj (hu.trans ht)
    exact absurd hc (by decide)

/-- The line of a field is not the line of a method. -/
theorem readings_methodPattern_eq_nil (hname : isName name = true)
    (hk : k.after = ' ' :: ' ' :: (name ++ ' ' :: '=' :: z)) :
    methodPattern.readings k = [] := by
  refine readings_eq_nil_iff.2 fun u y hu h => ?_
  rw [hk] at hu
  obtain ⟨v, b, hv, ⟨-, htext⟩ | ⟨c, t, ht, hc, -⟩⟩ := reads_member isMemberTail_methodTail h
  · rw [← hu] at htext
    have hskip := dropWhile_isLineBlank (isLineBlank_head?_name hname (' ' :: '=' :: z))
    have hw : (name ++ [' ']).all isNameOrBlank = true := by
      rw [List.all_append, List.all_eq_true.2 fun c hc => ?_]
      · decide
      · rw [isNameOrBlank, List.all_eq_true.1 (all_isNameRest_of_isName hname) c hc, Bool.true_or]
    have hsign : isFieldHead '=' = false := by decide
    replace htext : v ++ y = (name ++ [' ']) ++ '=' :: z := by
      rw [List.append_assoc]
      exact htext.symm.trans hskip
    -- all that a method has in front of its parenthesis stands in front of the sign, so none is left to follow it
    have hmodifier : (modifier ["public", "private", "protected", "static"]).Within isFieldHead :=
      within_methodModifier.mono fun _ => isFieldHead_of_isNameOrBlank
    have hasync : (Pattern.optional (group 1 asyncWord)).Within isFieldHead :=
      ⟨within_asyncWord.mono fun _ => isFieldHead_of_isNameOrBlank, trivial⟩
    obtain ⟨w₁, w, v, b₁, hw₁, htext, hrest⟩ := reads_seq_within hv hmodifier hsign htext
    obtain ⟨w₂, w, v, b₂, rfl, htext, hrest⟩ := reads_seq_within hrest hasync hsign htext
    obtain ⟨w₃, w, v, b₃, rfl, htext, hrest⟩ := reads_seq_within hrest (within_ident 2) hsign htext
    obtain ⟨w₄, w, v, b₄, rfl, htext, hrest⟩ := reads_seq_within hrest within_fieldBlanks hsign htext
    rw [hw₁] at hw
    simp only [List.all_append, Bool.and_eq_true] at hw
    refine not_reads_of_starts rfl hw.2.2.2.2 (fun d hd => ?_) htext hrest
    obtain rfl : d = '(' := by simpa [starts, consumes, chain, text] using hd
    decide
  · obtain ⟨rfl, -⟩ := List.cons.inj (hu.trans ht)
    exact absurd hc (by decide)

end Reading

end SnippetPreview.Script
