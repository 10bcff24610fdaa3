import SnippetPreview.Proofs.Script.ImportReadings

/-!
# Imports as reads from a global, line by line

* `Passes`: a text of whole lines that both passes over the imports turn into another one;
* `IsUnopened.passes`: lines that do not start like imports stay;
* `SourceLine.passes_text`: an import of the packages becomes the declaration for its names, any other import stays;
* `globalizeImports_lines`, `globalizeImports_rewritten`: so code in lines is rewritten line by line, once and again;
* `globalizeImports_linewise`: a line becomes what it means exactly when none of its names is misread. To rewrite code again
  changes nothing, and packages that have no module in common can be done in either order.
-/

namespace SnippetPreview.Script

open Pattern

/-- No further line of the global starts like an import. -/
def OpensNoImport (global : Text) : Prop := ∀ x y, global ++ ";\n".toList = x ++ '\n' :: y → opensImport y = false

theorem eq_nil_of_line {t u v : Text} (ht : '\n' ∉ t) (h : t ++ ['\n'] = u ++ '\n' :: v) : v = [] := by
  have hall : t.all (· != '\n') = true :=
    List.all_eq_true.2 fun c hc => bne_iff_ne.2 fun hfeed => ht (hfeed ▸ hc)
  obtain ⟨w, -, hw⟩ := eq_append_of_append_eq hall (by decide) h
  cases w with
  | nil => exact (List.cons.inj hw).2.symm
  | cons c w => exact absurd (List.cons.inj hw).2.symm (by simp)

theorem opensNoImport_of_not_mem {global : Text} (h : '\n' ∉ global) : OpensNoImport global := by
  intro x y hsplit
  have hline : '\n' ∉ global ++ [';'] := by simp [h]
  have hend : (global ++ [';']) ++ ['\n'] = x ++ '\n' :: y := by
    rw [← hsplit, List.append_assoc]
    rfl
  obtain rfl := eq_nil_of_line hline hend
  rfl

/-! ### Two passes -/

section Passing

variable (packages : List Text) (global : Text) (provided : List Text)

/-- What takes the place of an import of names. -/
def namedImage (m : Match) : Text :=
  if isWithin packages (m.groupText 2) then destructuring global provided (m.groupText 1) else m.text

/-- What takes the place of any import. -/
def otherImage (m : Match) : Text := if isWithin packages (m.groupText 1) then [] else m.text

/-- The two passes make the one text of the other, whatever lines stand around it. -/
def Passes (t out : Text) : Prop :=
  ∃ mid, Rewrites namedImport (namedImage packages global provided) t mid ∧ Rewrites anyImport (otherImage packages) mid out

end Passing

variable {packages provided : List Text} {global : Text}

namespace Passes

variable {t t' out out' : Text}

theorem append (h : Passes packages global provided t out) (h' : Passes packages global provided t' out') :
    Passes packages global provided (t ++ t') (out ++ out') := by
  obtain ⟨mid, hnamed, hany⟩ := h
  obtain ⟨mid', hnamed', hany'⟩ := h'
  exact ⟨mid ++ mid', hnamed.append hnamed', hany.append hany'⟩

theorem flatMap {α : Type} {text image : α → Text} {parts : List α}
    (h : ∀ a ∈ parts, Passes packages global provided (text a) (image a)) :
    Passes packages global provided (parts.flatMap text) (parts.flatMap image) := by
  induction parts with
  | nil => exact ⟨[], .nil, .nil⟩
  | cons a parts ih =>
    rw [List.flatMap_cons, List.flatMap_cons]
    exact (h a List.mem_cons_self).append (ih fun b hb => h b (List.mem_cons_of_mem a hb))

theorem globalizeImports_eq (h : Passes packages global provided t out) :
    globalizeImports packages global provided t = out := by
  obtain ⟨mid, hnamed, hany⟩ := h
  show anyImport.replaceAll (otherImage packages) (namedImport.replaceAll (namedImage packages global provided) t) = out
  rw [hnamed.replaceAll_eq rfl, hany.replaceAll_eq rfl]

/-- Whatever follows is rewritten by itself. -/
theorem globalizeImports_append (h : Passes packages global provided t out) (rest : Text) :
    globalizeImports packages global provided (t ++ rest) = out ++ globalizeImports packages global provided rest := by
  obtain ⟨mid, hnamed, hany⟩ := h
  have hnamedImage : ∀ m m' : Match, m.Alike m' →
      namedImage packages global provided m = namedImage packages global provided m' := by
    intro m m' hm
    rw [namedImage, namedImage, hm.groups, hm.groups, hm.text]
  have hotherImage : ∀ m m' : Match, m.Alike m' → otherImage packages m = otherImage packages m' := by
    intro m m' hm
    rw [otherImage, otherImage, hm.groups, hm.text]
  show anyImport.replaceAll (otherImage packages) (namedImport.replaceAll (namedImage packages global provided) _) = _
  rw [hnamed.replaceAll_append rfl hnamedImage, hany.replaceAll_append rfl hotherImage]
  rfl

end Passes

/-! ### Lines that do not start like imports -/

theorem dropWhile_append_cons {S : Char → Bool} {c : Char} (hc : S c = false) (t rest : Text) :
    (t ++ c :: rest).dropWhile S = t.dropWhile S ++ c :: rest := by
  induction t with
  | nil => exact List.dropWhile_cons_of_neg (Bool.eq_false_iff.1 hc)
  | cons d t ih =>
    rw [List.cons_append]
    by_cases hd : S d = true
    · rw [List.dropWhile_cons_of_pos hd, List.dropWhile_cons_of_pos hd, ih]
    · rw [List.dropWhile_cons_of_neg hd, List.dropWhile_cons_of_neg hd, List.cons_append]

/-- Whether a line starts like an import does not depend on the lines behind it. -/
theorem opensImport_append (t rest : Text) : opensImport (t ++ '\n' :: rest) = opensImport (t ++ ['\n']) := by
  have hfeed : isLineBlank '\n' = false := by decide
  unfold opensImport
  rw [dropWhile_append_cons hfeed, dropWhile_append_cons hfeed]
  generalize t.dropWhile isLineBlank = t
  by_cases hword : "import".toList <+: t
  · obtain ⟨z, rfl⟩ := hword
    rw [List.append_assoc, List.append_assoc, Text.stripLead?_append, Text.stripLead?_append]
    cases z <;> rfl
  · have hnone (rest : Text) : Text.stripLead? "import" (t ++ '\n' :: rest) = none := by
      refine if_neg fun hprefix => hword ?_
      obtain ⟨z, hz⟩ := List.isPrefixOf_iff_prefix.1 hprefix
      obtain ⟨w, hw, -⟩ := eq_append_of_append_eq (S := (· != '\n')) (by decide) (by decide) hz
      exact ⟨w, hw.symm⟩
    rw [hnone, hnone]

/-- A line that starts behind a text starts behind its last line feed. -/
theorem eq_concat_of_lineStart {u : Text} (hne : u ≠ []) (hu : (lastOf (some '\n') u).all (· == '\n') = true) :
    ∃ u', u = u' ++ ['\n'] := by
  obtain ⟨u', c, rfl⟩ := List.eq_nil_or_concat u |>.resolve_left hne
  rw [List.concat_eq_append] at *
  rw [lastOf_append] at hu
  exact ⟨u', by rw [beq_iff_eq.1 hu]⟩

/-- Whole lines that do not start like imports. -/
structure IsUnopened (t : Text) : Prop where
  lines : lastOf (some '\n') t = some '\n'
  opens : ∀ u v, t = u ++ v → v ≠ [] → (lastOf (some '\n') u).all (· == '\n') = true → opensImport v = false

theorem isUnopened_nil : IsUnopened [] := ⟨rfl, fun _ _ h hv => absurd (List.append_eq_nil_iff.1 h.symm).2 hv⟩

namespace IsUnopened

variable {t : Text}

/-- Nothing is replaced in such lines. -/
theorem rewrites (h : IsUnopened t) {q : Pattern} {f : Match → Text} :
    Rewrites (.seq lineStart (.seq (many isLineBlank) (.seq "import" (.seq (many1 isBlank) q)))) f t t := by
  refine .of_unread h.lines fun u v ht hv hu k rest hk => readings_importing_eq_nil ?_
  have hopens := h.opens u v ht hv hu
  have hlines := h.lines
  obtain ⟨v', c, rfl⟩ := List.eq_nil_or_concat v |>.resolve_left hv
  rw [List.concat_eq_append] at *
  rw [ht, ← List.append_assoc, lastOf_append] at hlines
  obtain rfl : c = '\n' := Option.some.inj hlines
  rw [hk, List.append_assoc, List.singleton_append, opensImport_append, hopens]

theorem passes (h : IsUnopened t) : Passes packages global provided t t := ⟨t, h.rewrites, h.rewrites⟩

end IsUnopened

/-- A cut of a single line at the start of a line is none. -/
theorem eq_nil_of_lineStart {t u v : Text} (ht : '\n' ∉ t) (h : t ++ ['\n'] = u ++ v) (hv : v ≠ [])
    (hu : (lastOf (some '\n') u).all (· == '\n') = true) : u = [] := by
  refine Classical.byContradiction fun hne => hv ?_
  obtain ⟨u', rfl⟩ := eq_concat_of_lineStart hne hu
  rw [List.append_assoc, List.singleton_append] at h
  exact eq_nil_of_line ht h

theorem isUnopened_plain {t : Text} (hline : '\n' ∉ t) (h : opensImport (t ++ ['\n']) = false) :
    IsUnopened (t ++ ['\n']) := by
  refine ⟨by rw [lastOf_append]; rfl, fun u v ht hv hu => ?_⟩
  obtain rfl := eq_nil_of_lineStart hline ht hv hu
  rw [List.nil_append] at ht
  rw [← ht, h]

/-! ### Declarations -/

/-- Up to the global, a declaration is on one line. -/
theorem feed_not_mem_front {bindings : List Text} (h : ∀ b ∈ bindings, '\n' ∉ b) :
    '\n' ∉ "const \x7b ".toList ++ (Text.join ", " bindings ++ " \x7d = ".toList) := by
  intro hmem
  rcases List.mem_append.1 hmem with hmem | hmem
  · exact absurd hmem (by decide)
  · rcases List.mem_append.1 hmem with hmem | hmem
    · rcases Text.mem_of_mem_join hmem with hmem | ⟨b, hb, hmem⟩
      · exact absurd hmem (by decide)
      · exact h b hb hmem
    · exact absurd hmem (by decide)

theorem isUnopened_declaration (hglobal : OpensNoImport global) {bindings : List Text} (h : ∀ b ∈ bindings, '\n' ∉ b) :
    IsUnopened (declaration global bindings) := by
  cases bindings with
  | nil => exact isUnopened_nil
  | cons b bs =>
    let front := "const \x7b ".toList ++ (Text.join ", " (b :: bs) ++ " \x7d = ".toList)
    have htext : declaration global (b :: bs) = (front ++ (global ++ [';'])) ++ ['\n'] := by
      simp [declaration, front]
    have hfront : front.all (· != '\n') = true :=
      List.all_eq_true.2 fun c hc => bne_iff_ne.2 fun hfeed => feed_not_mem_front h (hfeed ▸ hc)
    rw [htext]
    refine ⟨by rw [lastOf_append]; rfl, fun u v hsplit hv hu => ?_⟩
    by_cases hne : u = []
    · rw [hne, List.nil_append] at hsplit
      rw [← hsplit]
      rfl
    · -- the start of a further line lies in the global
      obtain ⟨u', rfl⟩ := eq_concat_of_lineStart hne hu
      have hrest : front ++ (global ++ ";\n".toList) = u' ++ '\n' :: v := by
        simpa using hsplit
      obtain ⟨w, -, hw⟩ := eq_append_of_append_eq hfront (by decide) hrest
      exact hglobal w v hw

theorem isUnopened_destructuring (hglobal : OpensNoImport global) (provided : List Text) (entries : List Entry) :
    IsUnopened (destructuring global provided (listing entries)) := by
  rw [destructuring_listing]
  refine isUnopened_declaration hglobal fun b hb => ?_
  obtain ⟨e, -, he⟩ := List.mem_filterMap.1 hb
  exact not_mem_of_class (by decide) (e.isDeclaring_reading he)

/-! ### Imports -/

namespace ImportLine

variable (l : ImportLine)

/-- The line break is the only one. -/
theorem feed_not_mem_unbroken : '\n' ∉ l.unbroken := by
  have hblanks (b : LineBlanks) : '\n' ∉ b.1 := not_mem_of_class (by decide) b.2
  have hsemicolon : '\n' ∉ l.ending.semicolon?.elim [] fun b => ';' :: b.1 := by
    cases l.ending.semicolon? with
    | none => exact List.not_mem_nil
    | some b => exact List.not_mem_cons_of_ne_of_not_mem (by decide) (hblanks b)
  have hquote : '\n' ≠ l.quote.1 := by
    rcases l.quote_eq with h | h <;> rw [h] <;> decide
  have hfront : '\n' ∉ l.front := not_mem_of_class (by decide) l.plain_front
  have hmodule : '\n' ∉ l.module.1 := not_mem_of_class (by decide) l.module.2.2
  simp only [unbroken, textTo, backTo, LineEnd.unbroken, List.mem_append, List.mem_cons, hfront, hquote, hmodule, hblanks,
    hsemicolon, or_self, not_false_eq_true]

theorem exists_line : ∃ t, l.text = t ++ ['\n'] ∧ '\n' ∉ t := by
  have hbreak : ∃ b, lineBreak l.ending.returns = b ++ ['\n'] ∧ '\n' ∉ b := by
    cases l.ending.returns
    · exact ⟨[], rfl, List.not_mem_nil⟩
    · exact ⟨['\r'], rfl, by decide⟩
  obtain ⟨b, hb, hnot⟩ := hbreak
  refine ⟨l.unbroken ++ b, ?_, ?_⟩
  · simp [text, back, unbroken, textTo, backTo, LineEnd.text, LineEnd.unbroken, hb]
  · rw [List.mem_append]
    exact not_or_intro l.feed_not_mem_unbroken hnot

theorem text_ne_nil : l.text ≠ [] := by
  obtain ⟨t, ht, -⟩ := l.exists_line
  rw [ht]
  exact List.append_ne_nil_of_right_ne_nil _ (List.cons_ne_nil _ _)

theorem lastOf_text : lastOf (some '\n') l.text = some '\n' := by
  obtain ⟨t, ht, -⟩ := l.exists_line
  rw [ht, lastOf_append]
  rfl

/-- The names, if they are listed. -/
theorem entries_of_named {default? : Option DefaultImport} {entries : List Entry} {before behind : Gap}
    (h : l.origin? = some ⟨.named default? entries, before, behind⟩) : l.entries = entries := by
  unfold ImportLine.entries
  rw [h]

theorem entries_of_other
    (hother : ∀ default? entries before behind, l.origin? ≠ some ⟨.named default? entries, before, behind⟩) :
    l.entries = [] := by
  unfold ImportLine.entries
  split
  · next ho => exact absurd ho (hother _ _ _ _)
  · rfl

end ImportLine

theorem text_ofReading {k : Cursor} {r : Reading} {t rest : Text} (hk : k.after = t ++ rest)
    (hstop : r.stop = k.behind t rest) : (Match.ofReading k r).text = t := by
  have h := Span.text_behind k [] t rest rest
  rw [List.nil_append, ← hk, Cursor.behind_nil, ← hstop] at h
  exact h

/-- What the first pass makes of a list of names. -/
theorem exists_namedImage (l : ImportLine) {default? : Option DefaultImport} {entries : List Entry} {before behind : Gap}
    (ho : l.origin? = some ⟨.named default? entries, before, behind⟩) {k : Cursor} {e rest : Text} (he : IsEnd e rest)
    (hline : k.atLineStart = true) (hk : k.after = l.textTo e ++ rest) :
    ∃ r, First namedImport k r ∧ r.stop = k.behind (l.textTo e) rest ∧
      namedImage packages global provided (.ofReading k r)
        = if isWithin packages l.module.1 then destructuring global provided (listing entries) else l.textTo e := by
  obtain ⟨r, hfirst, hstop, hentries, hmodule⟩ := first_namedImport l ho he hline hk
  refine ⟨r, hfirst, hstop, ?_⟩
  rw [namedImage, hentries, hmodule, text_ofReading hk hstop]

/-- What the second pass makes of any import. -/
theorem exists_otherImage (l : ImportLine) {k : Cursor} {e rest : Text} (he : IsEnd e rest) (hline : k.atLineStart = true)
    (hk : k.after = l.textTo e ++ rest) :
    ∃ r, First anyImport k r ∧ r.stop = k.behind (l.textTo e) rest ∧
      otherImage packages (.ofReading k r) = if isWithin packages l.module.1 then [] else l.textTo e := by
  obtain ⟨r, hfirst, hstop, hmodule⟩ := first_anyImport l he hline hk
  refine ⟨r, hfirst, hstop, ?_⟩
  rw [otherImage, hmodule, text_ofReading hk hstop]

/-- In the first pass, a list of names of a package becomes a declaration. -/
theorem rewrites_namedImport (l : ImportLine) {default? : Option DefaultImport} {entries : List Entry} {before behind : Gap}
    (ho : l.origin? = some ⟨.named default? entries, before, behind⟩) :
    Rewrites namedImport (namedImage packages global provided) l.text
      (if isWithin packages l.module.1 then destructuring global provided (listing entries) else l.text) :=
  .of_first l.text_ne_nil l.lastOf_text fun _ rest hline hk =>
    exists_namedImage l ho (isEnd_text l.ending rest) hline hk

/-- Any other import stays in the first pass. -/
theorem rewrites_namedImport_of_other (l : ImportLine)
    (hother : ∀ default? entries before behind, l.origin? ≠ some ⟨.named default? entries, before, behind⟩) :
    Rewrites namedImport (namedImage packages global provided) l.text l.text := by
  refine .of_unread l.lastOf_text fun u v ht hv hu k rest hk => ?_
  obtain ⟨t, htext, hline⟩ := l.exists_line
  obtain rfl := eq_nil_of_lineStart hline (htext ▸ ht) hv hu
  have hwhole : k.after = l.text ++ rest := by
    rw [ht, hk]
    rfl
  exact readings_namedImport_eq_nil l hother hwhole

/-- In the second pass, all imports of the packages that are left vanish. -/
theorem rewrites_anyImport (l : ImportLine) :
    Rewrites anyImport (otherImage packages) l.text (if isWithin packages l.module.1 then [] else l.text) :=
  .of_first l.text_ne_nil l.lastOf_text fun _ rest hline hk =>
    exists_otherImage l (isEnd_text l.ending rest) hline hk

/-! ### Line by line -/

namespace SourceLine

/-- The line imports one of the packages. -/
def isOf (packages : List Text) : SourceLine → Bool
  | plain _ _ _ => false
  | imports l => isWithin packages l.module.1

/-- What the two passes make of a line. -/
def rewritten (packages : List Text) (global : Text) (provided : List Text) : SourceLine → Text
  | plain t _ _ => t ++ ['\n']
  | imports l => if isWithin packages l.module.1 then destructuring global provided (listing l.entries) else l.text

theorem rewritten_imports (l : ImportLine) : (imports l).rewritten packages global provided
    = if isWithin packages l.module.1 then destructuring global provided (listing l.entries) else l.text := rfl

theorem rewritten_of_isOf_eq_false {l : SourceLine} (h : l.isOf packages = false) :
    l.rewritten packages global provided = l.text := by
  cases l with
  | plain t hline hopens => rfl
  | imports l => exact if_neg (Bool.eq_false_iff.1 h)

theorem isOf_eq_false_of_disjoint {packages' : List Text}
    (h : ∀ module, isWithin packages module = true → isWithin packages' module = false) {l : SourceLine}
    (hl : l.isOf packages = true) : l.isOf packages' = false := by
  cases l with
  | plain t hline hopens => rfl
  | imports l => exact h _ hl

theorem isUnopened_rewritten (hglobal : OpensNoImport global) {l : SourceLine} (h : l.isOf packages = true) :
    IsUnopened (l.rewritten packages global provided) := by
  cases l with
  | plain t hline hopens => exact absurd h Bool.false_ne_true
  | imports l =>
    have hwithin : isWithin packages l.module.1 = true := h
    rw [rewritten_imports, if_pos hwithin]
    exact isUnopened_destructuring hglobal provided l.entries

/-- The two passes over a line. -/
theorem passes_text (hglobal : OpensNoImport global) (l : SourceLine) :
    Passes packages global provided l.text (l.rewritten packages global provided) := by
  cases l with
  | plain t hline hopens => exact (isUnopened_plain hline hopens).passes
  | imports l =>
    by_cases hnamed : ∃ default? entries before behind, l.origin? = some ⟨.named default? entries, before, behind⟩
    · obtain ⟨default?, entries, before, behind, ho⟩ := hnamed
      have hfirst : Rewrites namedImport (namedImage packages global provided) l.text _ := rewrites_namedImport l ho
      refine ⟨_, hfirst, ?_⟩
      rw [rewritten_imports, l.entries_of_named ho]
      split
      · exact (isUnopened_destructuring hglobal provided entries).rewrites
      · next hwithin =>
        have hsecond : Rewrites anyImport (otherImage packages) l.text _ := rewrites_anyImport l
        rwa [if_neg hwithin] at hsecond
    · simp only [not_exists] at hnamed
      refine ⟨l.text, rewrites_namedImport_of_other l hnamed, ?_⟩
      have hsecond : Rewrites anyImport (otherImage packages) l.text _ := rewrites_anyImport l
      have hnone : destructuring global provided (listing l.entries) = [] := by
        rw [l.entries_of_other hnamed]
        rfl
      rwa [rewritten_imports, hnone]

end SourceLine

/-- Code in lines is rewritten line by line. -/
theorem globalizeImports_lines (hglobal : OpensNoImport global) (lines : List SourceLine) :
    globalizeImports packages global provided (lines.flatMap SourceLine.text)
      = lines.flatMap (SourceLine.rewritten packages global provided) :=
  (Passes.flatMap fun l _ => l.passes_text hglobal).globalizeImports_eq

/-- Rewritten again, for the same or for other packages, the lines that were not rewritten are. -/
theorem globalizeImports_rewritten {packages' provided' : List Text} {global' : Text} (hglobal : OpensNoImport global)
    (hglobal' : OpensNoImport global') (lines : List SourceLine) :
    globalizeImports packages' global' provided' (lines.flatMap (SourceLine.rewritten packages global provided))
      = lines.flatMap fun l => if l.isOf packages then l.rewritten packages global provided
          else l.rewritten packages' global' provided' := by
  refine (Passes.flatMap fun l _ => ?_).globalizeImports_eq
  split
  · next h => exact (SourceLine.isUnopened_rewritten hglobal h).passes
  · next h =>
    rw [l.rewritten_of_isOf_eq_false (Bool.eq_false_iff.2 h)]
    exact l.passes_text hglobal'

/-! ### What the imports mean -/

namespace SourceLine

theorem rewritten_eq_iff (l : SourceLine) :
    l.rewritten packages global provided = l.globalized packages global provided ↔
      l.isMisread packages provided = false := by
  cases l with
  | plain t hline hopens => exact iff_of_true rfl rfl
  | imports l =>
    rw [rewritten_imports]
    unfold globalized isMisread
    dsimp only
    cases isWithin packages l.module.1 with
    | true =>
      rw [if_pos rfl, if_pos rfl, Bool.true_and]
      exact destructuring_listing_eq_iff global provided l.entries
    | false => exact iff_of_true rfl rfl

end SourceLine

/-- **Imports, line by line.** Code in lines, each of which is one import or does not start like one, is rewritten line by
line, and a line becomes what it means exactly when none of its names is misread. To rewrite code again changes nothing, and
packages that have no module in common can be done in either order. -/
theorem globalizeImports_linewise (packages provided : List Text) {global : Text} (hglobal : OpensNoImport global)
    (lines : List SourceLine) :
    globalizeImports packages global provided (lines.flatMap SourceLine.text)
        = lines.flatMap (fun l => globalizeImports packages global provided l.text) ∧
    (∀ l : SourceLine, globalizeImports packages global provided l.text = l.globalized packages global provided ↔
      l.isMisread packages provided = false) ∧
    globalizeImports packages global provided (globalizeImports packages global provided (lines.flatMap SourceLine.text))
      = globalizeImports packages global provided (lines.flatMap SourceLine.text) ∧
    ∀ packages' global' provided', OpensNoImport global' →
      (∀ module, isWithin packages module = true → isWithin packages' module = false) →
      globalizeImports packages' global' provided'
          (globalizeImports packages global provided (lines.flatMap SourceLine.text))
        = globalizeImports packages global provided
          (globalizeImports packages' global' provided' (lines.flatMap SourceLine.text)) := by
  have hline (l : SourceLine) : globalizeImports packages global provided l.text = l.rewritten packages global provided :=
    (l.passes_text hglobal).globalizeImports_eq
  refine ⟨?_, fun l => ?_, ?_, fun packages' global' provided' hglobal' hdisjoint => ?_⟩
  · simp only [globalizeImports_lines hglobal, hline]
  · rw [hline, l.rewritten_eq_iff]
  · rw [globalizeImports_lines hglobal, globalizeImports_rewritten hglobal hglobal]
    simp only [ite_self]
  · rw [globalizeImports_lines hglobal, globalizeImports_lines hglobal', globalizeImports_rewritten hglobal hglobal',
      globalizeImports_rewritten hglobal' hglobal]
    refine congrArg lines.flatMap (funext fun l => ?_)
    have hboth := SourceLine.isOf_eq_false_of_disjoint hdisjoint (l := l)
    cases hof : l.isOf packages with
    | true =>
      rw [hboth hof]
      rfl
    | false =>
      cases hother : l.isOf packages' with
      | true => rfl
      | false => exact (SourceLine.rewritten_of_isOf_eq_false hother).trans (SourceLine.rewritten_of_isOf_eq_false hof).symm

/-- The line `import { type as kind } from 'react';`. -/
def renamedType : ImportLine where
  indent := ⟨[], rfl⟩
  gap := ⟨" ", by decide⟩
  origin? := some {
    clause := .named none [{
      lead := ⟨" ", by decide⟩
      specifier := .value ⟨⟨"type", by decide⟩, some ⟨⟨" ", by decide⟩, ⟨" ", by decide⟩, ⟨"kind", by decide⟩⟩⟩
      trail := ⟨" ", by decide⟩ }]
    before := ⟨" ", by decide⟩
    behind := ⟨" ", by decide⟩ }
  quote := ⟨'\'', by decide⟩
  module := ⟨"react", by decide⟩
  ending := ⟨⟨[], rfl⟩, some ⟨[], rfl⟩, false⟩

/-- A name that is called `type` is lost, and this stays so in either order of the packages of React. -/
theorem globalizeImports_renamedType :
    let source : Text := "import \x7b type as kind \x7d from 'react';\n"
    globalizeImports ["react"] "React" [] source ≠ "const \x7b type: kind \x7d = React;\n".toList ∧
      globalizeImports ["react-dom"] "ReactDOM" [] (globalizeImports ["react"] "React" [] source)
        = globalizeImports ["react"] "React" [] (globalizeImports ["react-dom"] "ReactDOM" [] source) := by
  intro source
  have hreact : OpensNoImport "React" := opensNoImport_of_not_mem (by decide)
  have hreactDom : OpensNoImport "ReactDOM" := opensNoImport_of_not_mem (by decide)
  have hdisjoint : ∀ module, isWithin ["react"] module = true → isWithin ["react-dom"] module = false := by
    intro module h
    simp only [isWithin, List.any_cons, List.any_nil, Bool.or_false, Bool.or_eq_true, beq_iff_eq,
      List.isPrefixOf_iff_prefix] at h
    rcases h with rfl | ⟨z, rfl⟩
    · decide
    · rfl
  obtain ⟨-, hexact, -, hcommute⟩ := globalizeImports_linewise ["react"] [] hreact [.imports renamedType]
  have hsource : [SourceLine.imports renamedType].flatMap SourceLine.text = source := by decide +kernel
  have hline : (SourceLine.imports renamedType).text = source := by decide +kernel
  have hglobalized : (SourceLine.imports renamedType).globalized ["react"] "React" []
      = "const \x7b type: kind \x7d = React;\n".toList := by decide +kernel
  have hmisread : SourceLine.isMisread ["react"] [] (.imports renamedType) = true := by decide +kernel
  rw [hsource] at hcommute
  refine ⟨fun h => ?_, hcommute ["react-dom"] "ReactDOM" [] hreactDom hdisjoint⟩
  rw [← hglobalized, ← hline, hexact, hmisread] at h
  exact Bool.false_ne_true h.symm

end SnippetPreview.Script
