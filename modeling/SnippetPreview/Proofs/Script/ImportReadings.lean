import SnippetPreview.Proofs.Pattern.Groups
import SnippetPreview.Proofs.Pattern.Leads
import SnippetPreview.Proofs.Script.Specifiers

/-!
# What is read on the lines of imports

* `IsEnd`: what stands behind the module of an import up to the rest, `isEnd_text` for a whole line and `isEnd_unbroken` for
  one without its line break, `exists_isEnd` for any text;
* `first_back`: the module with its end;
* `NamesImport`: an import of names, maybe over several lines;
* `NamesImport.first_namedImport`, `first_namedImport`: a list of names is read up to its end;
* `first_anyImport`: so is every import;
* `readings_namedImport_eq_nil`: no list of names is read on the line of any other import;
* `readings_importing_eq_nil`: nothing is read on a line that does not start like an import.
-/

namespace SnippetPreview.Script

open Pattern

variable {k : Cursor} {rest : Text}

/-! ### Ends of lines -/

/-- What stands behind the module of an import is read up to the rest. -/
def IsEnd (ending rest : Text) : Prop :=
  ∀ k : Cursor, k.after = ending ++ rest → First importEnd k (.nothing (k.behind ending rest))

/-- A line break, if there is one. -/
def breakPart : List Pattern := [Pattern.optional "\r", Pattern.optional "\n"]

/-- Blanks, maybe a semicolon, and what is read as a line break. -/
theorem isEnd_append {e : LineEnd} {w : Text}
    (hbreak : ∀ k : Cursor, k.after = w ++ rest → First (chain breakPart) k (.nothing (k.behind w rest)))
    (hblank : (w ++ rest).head?.any isLineBlank = false)
    (hsign : e.semicolon? = none → (w ++ rest).head?.any (· == ';') = false) : IsEnd (e.unbroken ++ w) rest := by
  obtain ⟨blanks, semicolon?, returns⟩ := e
  have hend (b : LineBlanks) (d : Cursor) (hd : d.after = b.1 ++ (w ++ rest)) :
      First (chain ([many isLineBlank] ++ breakPart)) d (.nothing (d.behind (b.1 ++ w) rest)) := by
    have hbreak := hbreak (d.behind b.1 (w ++ rest)) rfl
    rw [Cursor.behind_behind] at hbreak
    exact (first_many hd b.2 hblank).andThen hbreak
  intro k hk
  cases semicolon? with
  | none =>
    change k.after = blanks.1 ++ [] ++ w ++ rest at hk
    rw [List.append_nil, List.append_assoc] at hk
    have hblanks := first_many hk blanks.2 hblank
    have hnone : Pattern.readings ";" (k.behind blanks.1 (w ++ rest)) = [] := readings_letter_eq_nil (hsign rfl)
    have hlast := hend ⟨[], rfl⟩ (k.behind blanks.1 (w ++ rest)) rfl
    rw [Cursor.behind_behind] at hlast
    show First importEnd k (.nothing (k.behind (blanks.1 ++ [] ++ w) rest))
    rw [List.append_assoc]
    exact hblanks.andThen ((first_optional hnone).andThen hlast)
  | some more =>
    change k.after = blanks.1 ++ ';' :: more.1 ++ w ++ rest at hk
    rw [List.append_assoc, List.append_assoc] at hk
    have hblanks := first_many hk blanks.2 rfl
    have hsign := (first_text (k := k.behind blanks.1 (';' :: (more.1 ++ (w ++ rest)))) (w := [';']) rfl).altLeft empty
    have hlast := hend more (k.behind (blanks.1 ++ [';']) (more.1 ++ (w ++ rest))) rfl
    rw [Cursor.behind_behind] at hsign hlast
    rw [List.append_assoc] at hlast
    show First importEnd k (.nothing (k.behind (blanks.1 ++ ';' :: more.1 ++ w) rest))
    rw [List.append_assoc]
    exact hblanks.andThen (hsign.andThen hlast)

theorem first_lineBreak (returns : Bool) (hk : k.after = lineBreak returns ++ rest) :
    First (chain breakPart) k (.nothing (k.behind (lineBreak returns) rest)) := by
  have hfeed (d : Cursor) (hd : d.after = '\n' :: rest) :
      First (chain [Pattern.optional "\n"]) d (.nothing (d.behind ['\n'] rest)) :=
    ((first_text (w := ['\n']) hd).altLeft empty).last
  cases returns with
  | false =>
    have hnone : First (Pattern.optional "\r") k (.nothing k) :=
      first_optional (readings_eq_nil_of_starts hk rfl (by decide))
    exact hnone.andThen (hfeed k hk)
  | true =>
    have hreturn : First (Pattern.optional "\r") k (.nothing (k.behind ['\r'] ('\n' :: rest))) :=
      (first_text (w := ['\r']) hk).altLeft empty
    exact hreturn.andThen (hfeed _ rfl)

theorem isEnd_text (e : LineEnd) (rest : Text) : IsEnd e.text rest := by
  have hparts : e.text = e.unbroken ++ lineBreak e.returns := (List.append_assoc ..).symm
  rw [hparts]
  refine isEnd_append (fun k => first_lineBreak e.returns) ?_ fun _ => ?_
  · cases e.returns <;> rfl
  · cases e.returns <;> rfl

theorem isEnd_unbroken {e : LineEnd} (h : e.stopsAt rest = true) : IsEnd e.unbroken rest := by
  have hstops (S : Char → Bool)
      (hS : ∀ c, S c = true → (charNotOf " \t\r\n" c && (e.semicolon?.isSome || c != ';')) = false) :
      rest.head?.any S = false := by
    cases hrest : rest.head? with
    | none => rfl
    | some c =>
      rw [LineEnd.stopsAt, hrest, Option.all_some] at h
      refine Bool.eq_false_iff.2 fun hc => ?_
      rw [hS c hc] at h
      exact Bool.false_ne_true h
  have hletter (d : Char) (hd : charNotOf " \t\r\n" d = false) : rest.head?.any (· == d) = false :=
    hstops _ fun c hc => by rw [beq_iff_eq.1 hc, hd, Bool.false_and]
  have hbreak (k : Cursor) (hk : k.after = [] ++ rest) : First (chain breakPart) k (.nothing (k.behind [] rest)) := by
    rw [List.nil_append] at hk
    rw [← hk, Cursor.behind_nil]
    have hreturn := first_optional (readings_letter_eq_nil (hk ▸ hletter '\r' rfl))
    have hfeed := first_optional (readings_letter_eq_nil (hk ▸ hletter '\n' rfl))
    exact hreturn.andThen hfeed.last
  have hblank : rest.head?.any isLineBlank = false := by
    refine hstops _ fun c hc => ?_
    rw [isLineBlank, Bool.or_eq_true, beq_iff_eq, beq_iff_eq] at hc
    rcases hc with rfl | rfl <;> rfl
  have hsign (hnone : e.semicolon? = none) : rest.head?.any (· == ';') = false :=
    hstops _ fun c hc => by rw [beq_iff_eq.1 hc, hnone]; rfl
  have hend := isEnd_append hbreak hblank hsign
  rwa [List.append_nil] at hend

/-- A sign is read if it is there. -/
theorem exists_first_sign (c : Char) (z : Text) :
    ∃ w y, z = w ++ y ∧ ∀ k : Cursor, k.after = w ++ y →
      First (Pattern.optional (Pattern.text [c])) k (.nothing (k.behind w y)) := by
  by_cases hc : z.head?.any (· == c) = true
  · cases z with
    | nil => exact absurd hc Bool.false_ne_true
    | cons d z =>
      obtain rfl : d = c := beq_iff_eq.1 hc
      exact ⟨[d], z, rfl, fun k hk => (first_text (w := [d]) hk).altLeft empty⟩
  · refine ⟨[], z, rfl, fun k hk => ?_⟩
    rw [List.nil_append] at hk
    rw [← hk, Cursor.behind_nil]
    exact first_optional (readings_letter_eq_nil (by rw [hk, Bool.eq_false_iff.2 hc]))

theorem exists_lineBlanks (z : Text) : ∃ (b : LineBlanks) (y : Text), z = b.1 ++ y ∧ y.head?.any isLineBlank = false := by
  refine ⟨⟨z.takeWhile isLineBlank, List.all_takeWhile⟩, z.dropWhile isLineBlank, List.takeWhile_append_dropWhile.symm, ?_⟩
  have hstop := List.head?_dropWhile_not isLineBlank z
  cases hz : (z.dropWhile isLineBlank).head? with
  | none => rfl
  | some c =>
    rw [hz] at hstop
    exact hstop

/-- Behind every module something is read up to some rest, maybe nothing. -/
theorem exists_isEnd (z : Text) : ∃ e y, z = e ++ y ∧ IsEnd e y := by
  have hbreak (z : Text) : ∃ w y, z = w ++ y ∧ ∀ k : Cursor, k.after = w ++ y →
      First (chain breakPart) k (.nothing (k.behind w y)) := by
    obtain ⟨r, z, rfl, hreturn⟩ := exists_first_sign '\r' z
    obtain ⟨f, y, rfl, hfeed⟩ := exists_first_sign '\n' z
    refine ⟨r ++ f, y, (List.append_assoc ..).symm, fun k hk => ?_⟩
    rw [List.append_assoc] at hk
    have hlast := hfeed (k.behind r (f ++ y)) rfl
    rw [Cursor.behind_behind] at hlast
    exact (hreturn k hk).andThen hlast.last
  obtain ⟨b, z, rfl, hblank⟩ := exists_lineBlanks z
  by_cases hsign : z.head?.any (· == ';') = true
  · cases z with
    | nil => exact absurd hsign Bool.false_ne_true
    | cons d z =>
      obtain rfl : d = ';' := beq_iff_eq.1 hsign
      obtain ⟨b', z, rfl, hblank'⟩ := exists_lineBlanks z
      obtain ⟨w, y, rfl, hread⟩ := hbreak z
      exact ⟨_, y, by simp [LineEnd.unbroken], isEnd_append (e := ⟨b, some b', false⟩) hread hblank' nofun⟩
  · obtain ⟨w, y, rfl, hread⟩ := hbreak z
    exact ⟨_, y, by simp [LineEnd.unbroken], isEnd_append (e := ⟨b, none, false⟩) hread hblank fun _ =>
      Bool.eq_false_iff.2 hsign⟩

theorem charNotOf_quote (q : {c : Char // charOf "'\"" c = true}) : charNotOf "'\"" q.1 = false := by
  unfold charNotOf
  rw [Bool.not_eq_false']
  exact q.2

variable {e : Text}

/-- A module in its quotes is read up to its end, and its group is the module. -/
theorem first_back {quote : Char} {module : Text} (hquote : charOf "'\"" quote = true) (hne : module ≠ [])
    (hmodule : module.all (charNotOf "'\"") = true) (i : Nat) (he : IsEnd e rest)
    (hk : k.after = quote :: (module ++ quote :: (e ++ rest))) :
    ∃ r a b, First (chain [moduleName i, importEnd]) k r ∧ r.stop = k.behind (quote :: (module ++ quote :: e)) rest ∧
      r.marks = [(2 * i, a), (2 * i + 1, b)] ∧ Span.text ⟨a, b⟩ = module := by
  obtain ⟨c, m, rfl⟩ := List.exists_cons_of_ne_nil hne
  rw [List.all_cons, Bool.and_eq_true] at hmodule
  have hopen := first_one hk hquote
  have hname : First (group i (many1 (charNotOf "'\""))) (k.behind [quote] (c :: m ++ quote :: (e ++ rest))) _ :=
    first_group i (first_many1 rfl hmodule.1 hmodule.2 (charNotOf_quote ⟨quote, hquote⟩))
  rw [Cursor.behind_behind] at hname
  have hclose := first_one (k := k.behind ([quote] ++ c :: m) (quote :: (e ++ rest))) rfl hquote
  have hend := he (k.behind ([quote] ++ c :: m ++ [quote]) (e ++ rest)) rfl
  rw [Cursor.behind_behind] at hclose hend
  have hmodule' : First (moduleName i) k _ := hopen.andThen (hname.seq hclose.last)
  refine ⟨_, _, _, hmodule'.seq hend.last, ?_, rfl, ?_⟩
  · refine congrArg (fun t => k.behind t rest) ?_
    simp
  · exact Span.text_behind k [quote] (c :: m) _ _

/-! ### Characters -/

theorem isGap_of_isLineBlank {c : Char} (h : isLineBlank c = true) : isGap c = true := by
  rw [isLineBlank, Bool.or_eq_true, beq_iff_eq, beq_iff_eq] at h
  rcases h with rfl | rfl <;> decide

/-- The characters between the braces of an import. -/
def isListed (c : Char) : Bool := isWording c || c == ','

theorem isListed_listing (entries : List Entry) : (listing entries).all isListed = true := by
  refine List.all_eq_true.2 fun c hc => ?_
  unfold isListed
  rw [Bool.or_eq_true, beq_iff_eq]
  rcases Text.mem_of_mem_join hc with h | ⟨t, ht, h⟩
  · exact .inr (List.mem_singleton.1 h)
  · obtain ⟨e, -, rfl⟩ := List.mem_map.1 ht
    exact .inl (List.all_eq_true.1 e.isWording_text c h)

section Classes

variable {S : Char → Bool} (hgap : ∀ c, isGap c = true → S c = true)

include hgap

/-- A class with white space and the letters of `import` has the start of an import line. -/
theorem all_importLead (hword : "import".toList.all S = true) (l : ImportLine) {v : Text} (hv : v.all S = true) :
    (l.indent.1 ++ ("import".toList ++ (l.gap.1 ++ v))).all S = true := by
  have hindent := all_mono (fun c hc => hgap c (isGap_of_isLineBlank hc)) l.indent.2
  have hspace := all_mono hgap l.gap.2.2
  rw [List.all_append, List.all_append, List.all_append, hindent, hword, hspace, hv]
  rfl

theorem DefaultImport.all_text (hrest : ∀ c, isIdentRest c = true → S c = true) (hcomma : S ',' = true)
    (default? : Option DefaultImport) : (default?.elim [] DefaultImport.text).all S = true := by
  cases default? with
  | none => rfl
  | some d =>
    show (d.name.1 ++ (d.before.1 ++ ',' :: d.behind.1)).all S = true
    rw [List.all_append, List.all_append, List.all_cons, all_mono hrest d.name.2.2, all_mono hgap d.before.2,
      all_mono hgap d.behind.2, hcomma]
    rfl

end Classes

/-! ### The start of a line -/

/-- An import up to what it binds, and what a pattern reads of that. -/
def importLead (p : Pattern) : List Pattern := [lineStart, many isLineBlank, "import", many1 isBlank, p]

/-- A default import in front of a list of names. -/
def defaultPart : Pattern := chain [many1 isIdentRest, many isBlank, ",", many isBlank]

/-- What an import binds, with the word `from` behind it. -/
def originPart : Pattern := chain [fewest (charNotOf ";\n'\""), many isBlank, "from", many isBlank]

/-- An import of names from their opening brace on. -/
def listPart : List Pattern :=
  ["\x7b", group 1 (many (charNotOf "\x7d")), "\x7d", many isBlank, "from", many isBlank, moduleName 2, importEnd]

theorem namedImport_eq : namedImport = chain (importLead (Pattern.optional defaultPart) ++ listPart) := rfl

theorem anyImport_eq : anyImport = chain (importLead (Pattern.optional originPart) ++ [moduleName 1, importEnd]) := rfl

/-- The start of an import line is read when the rest of what it has in front of the sign is. -/
theorem reads_importLead {p : Pattern} {b : Option Char} {v y : Text} (hb : b.all (· == '\n') = true)
    (indent : LineBlanks) (gap : Space) (hp : ∀ b, Reads p b v y) :
    Reads (chain (importLead p)) b (indent.1 ++ ("import".toList ++ (gap.1 ++ v))) y := by
  refine reads_lineStart_seq_iff.2 ⟨hb, .seq (reads_run_iff.2 indent.2) (reads_text_seq_iff.2 ⟨_, rfl, ?_⟩)⟩
  exact .seq (reads_many1_iff.2 ⟨gap.2.1, isBlank_space gap⟩) (reads_last_iff.2 (hp _))

/-! ### Lists of names -/

theorem within_importLead {S : Char → Bool} {p : Pattern} (hline : ∀ c, isLineBlank c = true → S c = true)
    (hblank : ∀ c, isBlank c = true → S c = true) (hword : "import".toList.all S = true) (hp : p.Within S) :
    (chain (importLead p)).Within S :=
  ⟨trivial, hline, within_text hword, ⟨hblank, hblank⟩, hp, trivial⟩

theorem within_namedLead : (chain (importLead (Pattern.optional defaultPart))).Within (· != '\x7b') := by
  have hrest := bne_of_class (S := isIdentRest) (d := '\x7b') (by decide)
  have hblank := bne_of_class (S := isBlank) (d := '\x7b') (by decide)
  have hline := bne_of_class (S := isLineBlank) (d := '\x7b') (by decide)
  exact within_importLead hline hblank (by decide)
    ⟨⟨⟨hrest, hrest⟩, hblank, within_text (by decide), hblank, trivial⟩, trivial⟩

theorem Origin.text_named (default? : Option DefaultImport) (entries : List Entry) (before behind : Gap) :
    Origin.text ⟨.named default? entries, before, behind⟩ = default?.elim [] DefaultImport.text
      ++ '\x7b' :: (listing entries ++ '\x7d' :: (before.1 ++ ("from".toList ++ behind.1))) := by
  simp [Origin.text, Clause.text]

theorem ImportLine.quote_eq (l : ImportLine) : l.quote.1 = '\'' ∨ l.quote.1 = '"' := by
  have h := l.quote.2
  simpa [charOf] using h

/-- White space, maybe none. -/
abbrev Blanks := {t : Text // t.all isBlank = true}

/-- An import of names up to its module, with any white space. -/
structure NamesImport where
  gap : {t : Text // t ≠ [] ∧ t.all isBlank = true}
  /-- A default import in front of the names, with the white space around its comma. -/
  default? : Option (Name × Blanks × Blanks)
  names : {t : Text // t.all (charNotOf "\x7d'\"") = true}
  before : Blanks
  behind : Blanks
  quote : {c : Char // charOf "'\"" c = true}
  module : {t : Text // t ≠ [] ∧ t.all (charNotOf "'\"") = true}

namespace NamesImport

variable (n : NamesImport)

def defaultText : Text := n.default?.elim [] fun (name, before, behind) => name.1 ++ (before.1 ++ ',' :: behind.1)

/-- What stands in front of the braces. -/
def front : Text := "import".toList ++ (n.gap.1 ++ n.defaultText)

theorem front_eq : n.front = "import".toList ++ (n.gap.1 ++ n.defaultText) := rfl

/-- The module in its quotes, and an end behind it. -/
def moduleTo (e : Text) : Text := n.quote.1 :: (n.module.1 ++ n.quote.1 :: e)

/-- The import with an end behind it, from its opening brace on. -/
def listTo (e : Text) : Text :=
  '\x7b' :: (n.names.1 ++ '\x7d' :: (n.before.1 ++ ("from".toList ++ (n.behind.1 ++ n.moduleTo e))))

def text : Text := n.front ++ n.listTo []

theorem listTo_append (e rest : Text) : n.listTo e ++ rest = n.listTo (e ++ rest) := by simp [listTo, moduleTo]

theorem text_append (e : Text) : n.text ++ e = n.front ++ n.listTo e := by
  rw [text, List.append_assoc, listTo_append, List.nil_append]

theorem isBlank_head?_moduleTo (e : Text) : (n.moduleTo e).head?.any isBlank = false := by
  have hquote : n.quote.1 = '\'' ∨ n.quote.1 = '"' := by simpa [charOf] using n.quote.2
  show isBlank n.quote.1 = false
  rcases hquote with h | h <;> rw [h] <;> decide

/-- From its opening brace on, a list of names is read up to its end. -/
theorem first_listPart {e : Text} (he : IsEnd e rest) (hk : k.after = n.listTo (e ++ rest)) :
    ∃ r a b c d, First (chain listPart) k r ∧ r.stop = k.behind (n.listTo e) rest ∧
      r.marks = [(2, a), (3, b), (4, c), (5, d)] ∧ Span.text ⟨a, b⟩ = n.names.1 ∧ Span.text ⟨c, d⟩ = n.module.1 := by
  have hnames : n.names.1.all (charNotOf "\x7d") = true := all_mono (charNotOf_mono (by decide)) n.names.2
  let z₄ := n.behind.1 ++ n.moduleTo (e ++ rest)
  let z₃ := "from".toList ++ z₄
  let z₂ := n.before.1 ++ z₃
  let u₁ := ['\x7b'] ++ n.names.1
  let u₂ := u₁ ++ ['\x7d']
  let u₃ := u₂ ++ n.before.1
  let u₄ := u₃ ++ "from".toList
  have hopen := first_text (w := ['\x7b']) hk
  have hlist := first_group 1 (first_many (k := k.behind ['\x7b'] (n.names.1 ++ '\x7d' :: z₂)) rfl hnames rfl)
  have hclose := first_text (k := k.behind u₁ ('\x7d' :: z₂)) (w := ['\x7d']) rfl
  have hbefore := first_many (k := k.behind u₂ (n.before.1 ++ z₃)) rfl n.before.2 rfl
  have hfrom := first_text (k := k.behind u₃ ("from".toList ++ z₄)) rfl
  have hbehind := first_many (k := k.behind u₄ z₄) rfl n.behind.2 (n.isBlank_head?_moduleTo (e ++ rest))
  obtain ⟨r, c, d, hback, hstop, hmarks, hmodule⟩ := first_back (k := k.behind (u₄ ++ n.behind.1) (n.moduleTo (e ++ rest)))
    n.quote.2 n.module.2.1 n.module.2.2 2 he rfl
  rw [Cursor.behind_behind] at hlist hclose hbefore hfrom hbehind hstop
  have hrest := hclose.andThen (hbefore.andThen (hfrom.andThen (hbehind.andThen hback)))
  refine ⟨_, k.behind ['\x7b'] (n.names.1 ++ '\x7d' :: z₂), k.behind u₁ ('\x7d' :: z₂), c, d,
    hopen.andThen (hlist.seq hrest), ?_, ?_, ?_, hmodule⟩
  · refine hstop.trans (congrArg (fun t => k.behind t rest) ?_)
    simp [u₁, u₂, u₃, u₄, listTo, moduleTo]
  · show _ :: _ :: r.marks = _
    rw [hmarks]
  · exact Span.text_behind k ['\x7b'] n.names.1 _ _

theorem reads_default (b : Option Char) (y : Text) : Reads (Pattern.optional defaultPart) b n.defaultText y := by
  unfold defaultText
  cases n.default? with
  | none => exact .altRight _ (.empty _ _)
  | some d =>
    obtain ⟨name, before, behind⟩ := d
    show Reads (Pattern.optional defaultPart) b (name.1 ++ (before.1 ++ (",".toList ++ behind.1))) y
    have hbehind : Reads (chain [",", many isBlank]) (lastOf (lastOf b name.1) before.1) (",".toList ++ behind.1) y :=
      reads_text_seq_iff.2 ⟨_, rfl, reads_last_iff.2 (reads_run_iff.2 behind.2)⟩
    exact .altLeft _ (.seq (reads_many1_iff.2 name.2) (.seq (reads_run_iff.2 before.2) hbehind))

/-- Every character class with blanks, the letters of names and the comma has all that stands in front of the braces. -/
theorem all_front {S : Char → Bool} (hblank : ∀ c, isBlank c = true → S c = true)
    (hrest : ∀ c, isIdentRest c = true → S c = true) (hcomma : S ',' = true) : n.front.all S = true := by
  have hdefault : n.defaultText.all S = true := by
    unfold defaultText
    cases n.default? with
    | none => rfl
    | some d =>
      obtain ⟨name, before, behind⟩ := d
      show (name.1 ++ (before.1 ++ ',' :: behind.1)).all S = true
      rw [List.all_append, List.all_append, List.all_cons, all_mono hrest name.2.2, all_mono hblank before.2,
        all_mono hblank behind.2, hcomma]
      rfl
  rw [front_eq, List.all_append, List.all_append, all_mono hrest (by decide), all_mono hblank n.gap.2.2, hdefault]
  rfl

/-- An import of names at the start of a line is read up to its end. -/
theorem first_namedImport {e indent : Text} (he : IsEnd e rest) (hindent : indent.all isLineBlank = true)
    (hline : k.atLineStart = true) (hk : k.after = indent ++ (n.text ++ (e ++ rest))) :
    ∃ r, First namedImport k r ∧ r.stop = k.behind (indent ++ (n.text ++ e)) rest ∧
      (Match.ofReading k r).groupText 1 = n.names.1 ∧ (Match.ofReading k r).groupText 2 = n.module.1 := by
  have hbrace {S : Char → Bool} (hS : S '\x7b' = false) : ∀ c, S c = true → (c != '\x7b') = true := bne_of_class hS
  have hlist : n.listTo (e ++ rest) = '\x7b' :: (n.listTo (e ++ rest)).tail := rfl
  have hafter : k.after = (indent ++ n.front) ++ '\x7b' :: (n.listTo (e ++ rest)).tail := by
    rw [hk, text_append, ← hlist, List.append_assoc]
  have hfront : (indent ++ n.front).all (· != '\x7b') = true := by
    rw [List.all_append, all_mono (hbrace (by decide)) hindent,
      n.all_front (hbrace (by decide)) (hbrace (by decide)) (by decide)]
    rfl
  have hlead : Reads (chain (importLead (Pattern.optional defaultPart))) k.before (indent ++ n.front)
      ('\x7b' :: (n.listTo (e ++ rest)).tail) := by
    refine reads_lineStart_seq_iff.2 ⟨hline, .seq (reads_run_iff.2 hindent) (reads_text_seq_iff.2 ⟨_, rfl, ?_⟩)⟩
    exact .seq (reads_many1_iff.2 n.gap.2) (reads_last_iff.2 (n.reads_default _ _))
  have hstarts : ∀ c, (c != '\x7b') = true → (chain listPart).starts c = false := by
    intro c hc
    simpa [listPart, chain, Pattern.text, starts, consumes] using hc
  obtain ⟨r, a, b, c, d, hread, hstop, hmarks, hnames, hmodule⟩ :=
    n.first_listPart (k := k.behind (indent ++ n.front) (n.listTo (e ++ rest))) he rfl
  refine ⟨r, ?_, ?_, ?_, ?_⟩
  · rw [namedImport_eq, first_chain_append]
    exact first_of_lead within_namedLead rfl rfl hstarts hfront (by decide) hafter hlead hread
  · rw [hstop, Cursor.behind_behind, text_append, List.append_assoc]
  · obtain ⟨stop, marks⟩ := r
    obtain rfl : marks = _ := hmarks
    exact hnames
  · obtain ⟨stop, marks⟩ := r
    obtain rfl : marks = _ := hmarks
    exact hmodule

end NamesImport

/-- A line that imports names, up to its end. -/
def ImportLine.toNames (l : ImportLine) (default? : Option DefaultImport) (entries : List Entry) (before behind : Gap) :
    NamesImport where
  gap := ⟨l.gap.1, l.gap.2.1, isBlank_space l.gap⟩
  default? := default?.map fun d => (d.name, ⟨d.before.1, isBlank_gap d.before⟩, ⟨d.behind.1, isBlank_gap d.behind⟩)
  names := ⟨listing entries, all_mono (fun _ => charNotOf_of_class (by decide)) (isListed_listing entries)⟩
  before := ⟨before.1, isBlank_gap before⟩
  behind := ⟨behind.1, isBlank_gap behind⟩
  quote := l.quote
  module := ⟨l.module.1, l.module.2.1, all_mono (charNotOf_mono (by decide)) l.module.2.2⟩

/-- A list of names is read up to its end. -/
theorem first_namedImport (l : ImportLine) {default? : Option DefaultImport} {entries : List Entry} {before behind : Gap}
    (ho : l.origin? = some ⟨.named default? entries, before, behind⟩) (he : IsEnd e rest)
    (hline : k.atLineStart = true) (hk : k.after = l.textTo e ++ rest) :
    ∃ r, First namedImport k r ∧ r.stop = k.behind (l.textTo e) rest ∧
      (Match.ofReading k r).groupText 1 = listing entries ∧ (Match.ofReading k r).groupText 2 = l.module.1 := by
  have htext : l.textTo e = l.indent.1 ++ ((l.toNames default? entries before behind).text ++ e) := by
    rw [NamesImport.text_append]
    unfold ImportLine.textTo ImportLine.front
    rw [ho, Option.elim_some, Origin.text_named]
    cases default? <;>
      simp [ImportLine.toNames, NamesImport.front_eq, NamesImport.defaultText, NamesImport.listTo, NamesImport.moduleTo,
        ImportLine.backTo, DefaultImport.text]
  rw [htext, List.append_assoc, List.append_assoc] at hk
  rw [htext]
  exact (l.toNames default? entries before behind).first_namedImport he l.indent.2 hline hk

/-! ### All imports -/

theorem plain_gap (g : Gap) : g.1.all (charNotOf ";\n'\"") = true :=
  all_mono (fun _ => charNotOf_of_class (by decide)) g.2

theorem plain_listing (entries : List Entry) : (listing entries).all (charNotOf ";\n'\"") = true :=
  all_mono (fun _ => charNotOf_of_class (by decide)) (isListed_listing entries)

theorem Clause.plain_text (c : Clause) : c.text.all (charNotOf ";\n'\"") = true := by
  cases c with
  | names t h => exact all_mono (charNotOf_mono (by decide)) h
  | types gap inner h =>
    show (("type".toList ++ gap.1) ++ '\x7b' :: (inner ++ ['\x7d'])).all _ = true
    rw [List.all_append, List.all_append, List.all_cons, List.all_append, plain_gap, h]
    decide
  | named default? entries =>
    have hdefault : (default?.elim [] DefaultImport.text).all (charNotOf ";\n'\"") = true :=
      DefaultImport.all_text (fun _ => charNotOf_of_class (by decide)) (fun _ => charNotOf_of_class (by decide)) (by decide)
        default?
    show (default?.elim [] DefaultImport.text ++ '\x7b' :: (listing entries ++ ['\x7d'])).all _ = true
    rw [List.all_append, List.all_cons, List.all_append, hdefault, plain_listing]
    decide

theorem reads_originPart (o : Origin) (b : Option Char) (y : Text) : Reads originPart b o.text y := by
  refine .seq (reads_run_iff.2 o.clause.plain_text) (.seq (reads_run_iff.2 (isBlank_gap o.before)) ?_)
  exact reads_text_seq_iff.2 ⟨_, rfl, reads_last_iff.2 (reads_run_iff.2 (isBlank_gap o.behind))⟩

theorem within_anyLead : (chain (importLead (Pattern.optional originPart))).Within (charNotOf "'\"") := by
  have hblank : ∀ c, isBlank c = true → charNotOf "'\"" c = true := fun _ => charNotOf_of_class (by decide)
  have hline : ∀ c, isLineBlank c = true → charNotOf "'\"" c = true := fun _ => charNotOf_of_class (by decide)
  exact within_importLead hline hblank (by decide)
    ⟨⟨charNotOf_mono (by decide), hblank, within_text (by decide), hblank, trivial⟩, trivial⟩

namespace ImportLine

variable (l : ImportLine)

theorem plain_front : l.front.all (charNotOf "\n'\"") = true := by
  have hgap (c : Char) (hc : isGap c = true) : charNotOf "\n'\"" c = true := charNotOf_of_class (by decide) hc
  have hfrom : "from".toList.all (charNotOf "\n'\"") = true := by decide
  refine all_importLead hgap (by decide) l ?_
  cases l.origin? with
  | none => rfl
  | some o =>
    have hclause := all_mono (charNotOf_mono (by decide : "\n'\"".toList ⊆ ";\n'\"".toList)) o.clause.plain_text
    show (o.clause.text ++ (o.before.1 ++ ("from".toList ++ o.behind.1))).all _ = true
    rw [List.all_append, List.all_append, List.all_append, hclause, all_mono hgap o.before.2, all_mono hgap o.behind.2,
      hfrom]
    rfl

end ImportLine

/-- Every import is read up to its end. -/
theorem first_anyImport (l : ImportLine) (he : IsEnd e rest) (hline : k.atLineStart = true)
    (hk : k.after = l.textTo e ++ rest) :
    ∃ r, First anyImport k r ∧ r.stop = k.behind (l.textTo e) rest ∧
      (Match.ofReading k r).groupText 1 = l.module.1 := by
  have hafter : k.after = l.front ++ (l.backTo e ++ rest) := by rw [hk, ImportLine.textTo, List.append_assoc]
  have hstarts : ∀ c, charNotOf "'\"" c = true → (chain [moduleName 1, importEnd]).starts c = false := by
    intro c hc
    unfold charNotOf at hc
    simpa [moduleName, chain, starts, consumes, charOf] using hc
  have horigin : ∀ b, Reads (Pattern.optional originPart) b (l.origin?.elim [] Origin.text) (l.backTo e ++ rest) := by
    intro b
    cases l.origin? with
    | none => exact .altRight _ (.empty _ _)
    | some o => exact .altLeft _ (reads_originPart o b _)
  have hlead := reads_importLead hline l.indent l.gap horigin
  have hfront := all_mono (charNotOf_mono (by decide : "'\"".toList ⊆ "\n'\"".toList)) l.plain_front
  have hbackTo : (k.behind l.front (l.backTo e ++ rest)).after = l.quote.1 :: (l.module.1 ++ l.quote.1 :: (e ++ rest)) := by
    simp [ImportLine.backTo]
  obtain ⟨r, a, b, hback, hstop, hmarks, hmodule⟩ := first_back l.quote.2 l.module.2.1
    (all_mono (charNotOf_mono (by decide)) l.module.2.2) 1 he hbackTo
  refine ⟨r, ?_, ?_, ?_⟩
  · rw [anyImport_eq, first_chain_append]
    exact first_of_lead within_anyLead rfl rfl hstarts hfront (charNotOf_quote l.quote) hafter hlead hback
  · rw [Cursor.behind_behind] at hstop
    exact hstop
  · obtain ⟨stop, marks⟩ := r
    obtain rfl : marks = _ := hmarks
    exact hmodule

/-! ### Lines where nothing is read -/

/-- What is read in front of the part that an import binds. -/
theorem exists_cut_of_reads {q : Pattern} {b : Option Char} {u y : Text}
    (h : Reads (.seq lineStart (.seq (many isLineBlank) (.seq "import" (.seq (many1 isBlank) q)))) b u y) :
    ∃ v₁ v₂ v b', u = v₁ ++ ("import".toList ++ (v₂ ++ v)) ∧ v₁.all isLineBlank = true ∧ v₂.all isBlank = true ∧ v₂ ≠ [] ∧
      Reads q b' v y := by
  obtain ⟨-, h⟩ := reads_lineStart_seq_iff.1 h
  obtain ⟨v₁, u, rfl, hindent, h⟩ := reads_seq_iff.1 h
  obtain ⟨u, rfl, hrest⟩ := reads_text_seq_iff.1 h
  obtain ⟨v₂, v, rfl, hgap, h⟩ := reads_seq_iff.1 hrest
  obtain ⟨hne, hgap⟩ := reads_many1_iff.1 hgap
  exact ⟨v₁, v₂, v, _, rfl, reads_run_iff.1 hindent, hgap, hne, h⟩

theorem opensImport_of_cut {v₁ v₂ v : Text} (h₁ : v₁.all isLineBlank = true) (h₂ : v₂.all isBlank = true) (hne : v₂ ≠ []) :
    opensImport (v₁ ++ ("import".toList ++ (v₂ ++ v))) = true := by
  obtain ⟨c, v₂, rfl⟩ := List.exists_cons_of_ne_nil hne
  rw [List.all_cons, Bool.and_eq_true] at h₂
  have hdrop : (v₁ ++ ("import".toList ++ (c :: v₂ ++ v))).dropWhile isLineBlank = "import".toList ++ (c :: v₂ ++ v) := by
    rw [List.dropWhile_append_of_pos (List.all_eq_true.1 h₁)]
    rfl
  unfold opensImport
  rw [hdrop, Text.stripLead?_append, Option.any_some]
  exact h₂.1

/-- Nothing is read on a line that does not start like an import. -/
theorem readings_importing_eq_nil {q : Pattern} (h : opensImport k.after = false) :
    Pattern.readings (.seq lineStart (.seq (many isLineBlank) (.seq "import" (.seq (many1 isBlank) q)))) k = [] := by
  refine readings_eq_nil_iff.2 fun u y hk hreads => ?_
  obtain ⟨v₁, v₂, v, b', rfl, h₁, h₂, hne, -⟩ := exists_cut_of_reads hreads
  have hopens := opensImport_of_cut (v := v ++ y) h₁ h₂ hne
  rw [hk] at h
  simp only [List.append_assoc] at h
  exact Bool.eq_false_iff.1 h hopens

/-- The characters in front of the opening brace, behind the word `import`. -/
def isDefaulting (c : Char) : Bool := isIdentRest c || isBlank c || c == ','

theorem isDefaulting_of_isBlank {c : Char} (h : isBlank c = true) : isDefaulting c = true := by
  rw [isDefaulting, h, Bool.or_true, Bool.true_or]

/-- What is read in front of the opening brace of a list of names. -/
theorem exists_cut_of_reads_namedImport {b : Option Char} {u y : Text} (h : Reads namedImport b u y) :
    ∃ v₁ v₂ v₃ z, u ++ y = v₁ ++ ("import".toList ++ (v₂ ++ (v₃ ++ '\x7b' :: z))) ∧ v₁.all isLineBlank = true ∧
      v₂.all isBlank = true ∧ v₃.all isDefaulting = true ∧ (v₃ = [] ∨ ',' ∈ v₃) := by
  obtain ⟨v₁, v₂, v, b', rfl, h₁, h₂, -, h⟩ := exists_cut_of_reads h
  obtain ⟨v₃, v₄, rfl, hdefault, hlist⟩ := reads_seq_iff.1 h
  obtain ⟨c, z, rfl, hc⟩ := hlist.exists_first rfl
  obtain rfl : c = '\x7b' := by
    simpa [chain, text, starts, consumes] using hc
  have hrest : ∀ c, isIdentRest c = true → isDefaulting c = true := fun c hc => by
    rw [isDefaulting, hc, Bool.true_or, Bool.true_or]
  have hblank : ∀ c, isBlank c = true → isDefaulting c = true := fun c hc => isDefaulting_of_isBlank hc
  have hwithin : defaultPart.Within isDefaulting := ⟨⟨hrest, hrest⟩, hblank, within_text (by decide), hblank, trivial⟩
  have hcomma : defaultPart.Needs (· == ',') := .inr (.inr (.inl (.inl fun _ hc => hc)))
  refine ⟨v₁, v₂, v₃, z ++ y, by simp only [List.append_assoc, List.cons_append], h₁, h₂, ?_, ?_⟩
  · exact hdefault.all (p := Pattern.optional defaultPart) ⟨hwithin, trivial⟩
  · rcases reads_alt_iff.1 hdefault with hdefault | hnone
    · obtain ⟨d, hd, hcomma⟩ := hdefault.exists_mem hcomma
      exact .inr (beq_iff_eq.1 hcomma ▸ hd)
    · exact .inl (reads_empty_iff.1 hnone)

/-- In front of the first brace stands a list of types, or the brace stands behind the module. -/
theorem not_cut_of_not_mem {v x y z : Text} {q : Char} (hv : v.all isDefaulting = true) (hq : isDefaulting q = false)
    (hbrace : q ≠ '\x7b') (hx : '\x7b' ∉ x) : v ++ '\x7b' :: z ≠ x ++ q :: y := by
  intro h
  obtain ⟨w, rfl, hw⟩ := eq_append_of_append_eq hv hq h
  cases w with
  | nil => exact hbrace (List.cons.inj hw).1.symm
  | cons c w =>
    obtain ⟨rfl, -⟩ := List.cons.inj hw
    exact hx (List.mem_append_right _ List.mem_cons_self)

/-- No list of names is read on the line of any other import. -/
theorem readings_namedImport_eq_nil (l : ImportLine)
    (hother : ∀ default? entries before behind, l.origin? ≠ some ⟨.named default? entries, before, behind⟩)
    (hk : k.after = l.textTo e ++ rest) : namedImport.readings k = [] := by
  refine readings_eq_nil_iff.2 fun u y hu hreads => ?_
  obtain ⟨v₁, v₂, v₃, z, hcut, h₁, h₂, h₃, hcomma⟩ := exists_cut_of_reads_namedImport hreads
  have hsame : l.indent.1 ++ ("import".toList ++ (l.gap.1 ++ (l.origin?.elim [] Origin.text ++ (l.backTo e ++ rest))))
      = v₁ ++ ("import".toList ++ (v₂ ++ (v₃ ++ '\x7b' :: z))) := by
    rw [← hcut, ← hu, hk]
    simp only [ImportLine.textTo, ImportLine.front, List.append_assoc]
  have hword : ∀ t : Text, "import".toList ++ t = 'i' :: ("mport".toList ++ t) := fun _ => rfl
  rw [hword, hword] at hsame
  obtain ⟨-, hbehind⟩ := eq_of_append_eq l.indent.2 h₁ (by decide) (by decide) hsame
  have hgap := List.append_cancel_left (List.cons.inj hbehind).2
  rw [← List.append_assoc v₂] at hgap
  have hfront : (v₂ ++ v₃).all isDefaulting = true := by
    rw [List.all_append, all_mono (fun _ => isDefaulting_of_isBlank) h₂, h₃]
    rfl
  have hquote : isDefaulting l.quote.1 = false ∧ l.quote.1 ≠ '\x7b' := by
    rcases l.quote_eq with h | h <;> rw [h] <;> decide
  have hbrace (g : Gap) : '\x7b' ∉ g.1 := not_mem_of_class (by decide) g.2
  have hspace : '\x7b' ∉ l.gap.1 := not_mem_of_class (by decide) l.gap.2.2
  cases ho : l.origin? with
  | none =>
    rw [ho] at hgap
    exact not_cut_of_not_mem hfront hquote.1 hquote.2 hspace hgap.symm
  | some o =>
    obtain ⟨c, before, behind⟩ := o
    rw [ho, Option.elim_some] at hgap
    cases c with
    | named default? entries => exact hother default? entries before behind ho
    | names t ht =>
      have ht : '\x7b' ∉ t := not_mem_of_class (by decide) ht
      have hfrom : '\x7b' ∉ "from".toList := by decide
      have hback : l.backTo e ++ rest = l.quote.1 :: (l.module.1 ++ l.quote.1 :: e ++ rest) := rfl
      rw [hback, ← List.append_assoc] at hgap
      refine not_cut_of_not_mem hfront hquote.1 hquote.2 ?_ hgap.symm
      simp only [Origin.text, Clause.text, List.mem_append, hspace, hbrace, ht, hfrom, or_self, not_false_eq_true]
    | types gap inner hinner =>
      have htypes : l.gap.1 ++ ("type".toList ++ gap.1) ++ '\x7b' :: (inner ++ '\x7d' :: (before.1 ++ ("from".toList
          ++ (behind.1 ++ (l.backTo e ++ rest))))) = (v₂ ++ v₃) ++ '\x7b' :: z := by
        refine Eq.trans ?_ hgap
        simp [Origin.text, Clause.text]
      have hword : (l.gap.1 ++ ("type".toList ++ gap.1)).all isDefaulting = true := by
        have hgap : gap.1.all isDefaulting = true := all_mono (fun _ => isDefaulting_of_isBlank) (isBlank_gap gap)
        have hspace : l.gap.1.all isDefaulting = true := all_mono (fun _ => isDefaulting_of_isBlank) (isBlank_space l.gap)
        rw [List.all_append, List.all_append, hspace, hgap]
        decide
      have hsame := (eq_of_append_eq hword hfront (by decide) (by decide) htypes).1
      -- the word `type` is no white space, and there is no comma behind it
      rcases hcomma with rfl | hcomma
      · rw [List.append_nil] at hsame
        have ht : 't' ∈ v₂ := hsame ▸ List.mem_append_right _ (List.mem_append_left _ (by decide))
        exact not_mem_of_class (by decide) h₂ ht
      · have hmem : ',' ∈ l.gap.1 ++ ("type".toList ++ gap.1) := hsame ▸ List.mem_append_right _ hcomma
        have hgap : ',' ∉ gap.1 := not_mem_of_class (by decide) gap.2
        have hspace : ',' ∉ l.gap.1 := not_mem_of_class (by decide) l.gap.2.2
        have htype : ',' ∉ "type".toList := by decide
        simp only [List.mem_append, hspace, hgap, htype, or_self] at hmem

end SnippetPreview.Script
