import SnippetPreview.Proofs.Renderer.ReactReads
import SnippetPreview.Proofs.Script.ImportHead

/-!
# Code that begins with imports of React

* `React.isUnread_declaration`: in a declaration that takes the place of an import, no default export is found;
* `React.dropExports_declared`: so such declarations stay when the exports are dropped;
* `React.dropModuleSyntax_imports`: lines that import from React become the declarations for their names, and the code behind
  them loses its module syntax by itself.
-/

namespace SnippetPreview.React

open Pattern Script

/-! ### Exports -/

/-- A default export has white space between two letters. -/
theorem exists_cut_of_reads {b : Option Char} {u y : Text} (h : Reads exportDefault b u y) :
    ∃ v w c, u = v ++ c :: w ∧ isBlank c = true ∧ 'e' ∈ v ∧ 'd' ∈ w := by
  obtain ⟨v, u, rfl, -, h₁⟩ := reads_seq_iff.1 h
  obtain ⟨u, rfl, h₂⟩ := reads_text_seq_iff.1 h₁
  obtain ⟨s, u, rfl, hs, h₃⟩ := reads_seq_iff.1 h₂
  obtain ⟨u, rfl, -⟩ := reads_text_seq_iff.1 h₃
  obtain ⟨hne, hall⟩ := reads_many1_iff.1 hs
  obtain ⟨c, s, rfl⟩ := List.exists_cons_of_ne_nil hne
  rw [List.all_cons, Bool.and_eq_true] at hall
  exact ⟨v ++ "export".toList, s ++ ("default".toList ++ u), c, by simp, hall.1, by simp, by simp⟩

/-- A character that a default export can have. -/
def isExporting (c : Char) : Bool := isBlank c || "exportdefault".toList.elem c

theorem within_exportDefault : exportDefault.Within isExporting := by
  have hblank : ∀ c, isBlank c = true → isExporting c = true := fun c hc => by rw [isExporting, hc, Bool.true_or]
  exact ⟨trivial, within_text (by decide), ⟨hblank, hblank⟩, within_text (by decide), ⟨hblank, hblank⟩, trivial⟩

/-- One word, or none, in front of a sign. -/
theorem isUnread_word {a n b : Text} {c : Char} (ha : a.all isBlank = true) (hn : n.all isIdentRest = true)
    (hb : b.all isBlank = true) (hc : isExporting c = false) : exportDefault.IsUnread (a ++ (n ++ (b ++ [c]))) := by
  intro u v ht hv k rest hk
  refine readings_eq_nil_iff.2 fun w y hw hreads => ?_
  have hword : ∀ d ∈ n, isBlank d = false := fun d hd =>
    isBlank_eq_false_of_isIdentRest (List.all_eq_true.1 hn d hd)
  have hlast : n.getLast?.any isBlank = false := by
    cases hd : n.getLast? with
    | none => rfl
    | some d => exact hword d (List.mem_of_getLast? hd)
  have hfirst : n.head?.any isBlank = false := by
    cases n with
    | nil => rfl
    | cons d n => exact hword d List.mem_cons_self
  have htrim : (a ++ (n ++ b)).trim = n := Text.trim_padded ha hb hfirst hlast
  -- the reading ends in front of the sign, so it has white space within a trimmed text
  obtain ⟨v', d, rfl⟩ := List.eq_nil_or_concat v |>.resolve_left hv
  have hsplit : a ++ (n ++ b) ++ [c] = u ++ v' ++ [d] := by simpa using ht
  obtain ⟨hfront, hsign⟩ := List.append_inj' hsplit rfl
  obtain rfl := List.singleton_inj.1 hsign
  rw [hk, List.concat_eq_append, List.append_assoc] at hw
  obtain ⟨w', rfl, -⟩ := eq_append_of_append_eq (hreads.all within_exportDefault) hc hw.symm
  obtain ⟨x, z, d, rfl, hd, he, hd'⟩ := exists_cut_of_reads hreads
  have hmem : d ∈ (u ++ x ++ d :: (z ++ w')).trim :=
    Text.mem_trim (List.mem_append_right u he) (by decide) (List.mem_append_left w' hd') (by decide) d
  have hparts : a ++ (n ++ b) = u ++ x ++ d :: (z ++ w') := by
    rw [hfront]
    simp
  rw [← hparts, htrim] at hmem
  exact Bool.false_ne_true ((hword d hmem).symm.trans hd)

/-! ### Declarations -/

/-- What a specifier becomes, in front of a sign. -/
theorem isUnread_binding {s : Specifier} {t a b : Text} {c : Char} (ht : s.binding? hooks = some t)
    (ha : a.all isBlank = true) (hb : b.all isBlank = true) (hc : isExporting c = false) :
    exportDefault.IsUnread (a ++ (t ++ (b ++ [c]))) := by
  obtain ⟨n, ⟨-, rfl⟩ | ⟨r, -, rfl⟩⟩ := s.exists_of_binding? ht
  · exact isUnread_word ha n.2.2 hb hc
  · have hfront := isUnread_word (b := []) (c := ':') ha n.2.2 rfl (by decide)
    have hback := isUnread_word (a := " ") (by decide) r.name.2.2 hb hc
    have hparts : a ++ (n.1 ++ ": ".toList ++ r.name.1 ++ (b ++ [c]))
        = (a ++ (n.1 ++ ([] ++ [':']))) ++ (" ".toList ++ (r.name.1 ++ (b ++ [c]))) := by simp
    rw [hparts]
    exact hfront.append hback

/-- The list of a declaration up to its closing brace. -/
theorem isUnread_list {b : Text} {bs : List Text} (h : ∀ t ∈ b :: bs, ∃ s : Specifier, s.binding? hooks = some t) :
    exportDefault.IsUnread (' ' :: (Text.join ", " (b :: bs) ++ " \x7d".toList)) := by
  induction bs generalizing b with
  | nil =>
    obtain ⟨s, hs⟩ := h b List.mem_cons_self
    have hlast := isUnread_binding (a := " ") (b := " ") (c := '\x7d') hs (by decide) (by decide) (by decide)
    rwa [Text.join_cons, if_pos rfl]
  | cons b' bs ih =>
    obtain ⟨s, hs⟩ := h b List.mem_cons_self
    have hfirst := isUnread_binding (a := " ") (b := []) (c := ',') hs (by decide) rfl (by decide)
    have hrest := ih fun t ht => h t (List.mem_cons_of_mem b ht)
    have hparts : ' ' :: (Text.join ", " (b :: b' :: bs) ++ " \x7d".toList)
        = (" ".toList ++ (b ++ ([] ++ [',']))) ++ ' ' :: (Text.join ", " (b' :: bs) ++ " \x7d".toList) := by
      rw [Text.join_cons, if_neg (List.cons_ne_nil b' bs)]
      simp
    rw [hparts]
    exact hfirst.append hrest

/-- No default export is found in a declaration that takes the place of an import. -/
theorem isUnread_declaration {bs : List Text} (h : ∀ t ∈ bs, ∃ s : Specifier, s.binding? hooks = some t) :
    exportDefault.IsUnread (declaration "React" bs) := by
  cases bs with
  | nil => exact fun u v ht hv => absurd (List.append_eq_nil_iff.1 ht.symm).2 hv
  | cons b bs =>
    have hconst := isUnread_word (a := []) (n := "const") (b := " ") (c := '\x7b') rfl (by decide) (by decide) (by decide)
    have hsign := isUnread_word (a := " ") (n := []) (b := []) (c := '=') (by decide) rfl rfl (by decide)
    have hglobal := isUnread_word (a := " ") (n := "React") (b := []) (c := ';') (by decide) (by decide) rfl (by decide)
    have hend : exportDefault.IsUnread ['\n'] := .singleton rfl (by decide)
    have hparts : declaration "React" (b :: bs) = ([] ++ ("const".toList ++ (" ".toList ++ ['\x7b'])))
        ++ (' ' :: (Text.join ", " (b :: bs) ++ " \x7d".toList)) ++ (" ".toList ++ ([] ++ ([] ++ ['='])))
        ++ (" ".toList ++ ("React".toList ++ ([] ++ [';']))) ++ ['\n'] := by
      simp [declaration]
    rw [hparts]
    exact (((hconst.append (isUnread_list h)).append hsign).append hglobal).append hend

/-- An exported declaration starts with its keyword, so none is found in a declaration on one line. -/
theorem rewrites_exportedDeclaration {f : Match → Text} {bs : List Text} (h : ∀ b ∈ bs, '\n' ∉ b) :
    Rewrites exportedDeclaration f (declaration "React" bs) (declaration "React" bs) := by
  cases bs with
  | nil => exact .nil
  | cons b bs =>
    let front := "const \x7b ".toList ++ (Text.join ", " (b :: bs) ++ " \x7d = ".toList)
    have htext : declaration "React" (b :: bs) = front ++ "React;".toList ++ ['\n'] := by simp [declaration, front]
    have hline : '\n' ∉ front ++ "React;".toList := by
      intro hmem
      rcases List.mem_append.1 hmem with hmem | hmem
      · exact feed_not_mem_front h hmem
      · exact absurd hmem (by decide)
    refine .of_unread (by rw [htext, lastOf_append]; rfl) fun u v ht hv hu k rest hk => ?_
    obtain rfl := eq_nil_of_lineStart hline (htext ▸ ht) hv hu
    rw [List.nil_append] at ht
    rw [← ht, htext] at hk
    exact readings_eq_nil_of_starts hk rfl (by decide)

/-! ### Lines of imports -/

/-- The declaration that takes the place of an import from React. -/
def declared (l : ImportLine) : Text := declaration "React" (l.entries.filterMap (Entry.binding? hooks))

theorem exists_specifier {l : ImportLine} {t : Text} (ht : t ∈ l.entries.filterMap (Entry.binding? hooks)) :
    ∃ s : Specifier, s.binding? hooks = some t := by
  obtain ⟨e, -, he⟩ := List.mem_filterMap.1 ht
  exact ⟨e.specifier, he⟩

theorem feed_not_mem_binding {l : ImportLine} {t : Text} (ht : t ∈ l.entries.filterMap (Entry.binding? hooks)) :
    '\n' ∉ t := by
  obtain ⟨e, -, he⟩ := List.mem_filterMap.1 ht
  exact not_mem_of_class (by decide) (e.isDeclaring_meaning he)

theorem isWithin_reactDom {module : Text} (h : isWithin ["react"] module = true) : isWithin ["react-dom"] module = false := by
  simp only [isWithin, List.any_cons, List.any_nil, Bool.or_false, Bool.or_eq_true, beq_iff_eq,
    List.isPrefixOf_iff_prefix] at h
  rcases h with rfl | ⟨z, rfl⟩
  · decide
  · rfl

/-- What takes the place of an exported declaration. -/
def declarationImage (m : Match) : Text := m.groupText 1 ++ m.groupText 2

/-- Code without its exports. -/
def dropExports (code : Text) : Text :=
  exportedDeclaration.replaceAll (fun m => m.groupText 1 ++ m.groupText 2) (exportDefault.replaceAll (fun _ => []) code)

theorem dropModuleSyntax_eq (source : Text) : dropModuleSyntax source
    = dropExports (globalizeImports ["react"] "React" hooks (globalizeImports ["react-dom"] "ReactDOM" [] source)) := rfl

/-- Declarations in front of code stay when the exports are dropped. -/
theorem dropExports_declared (lines : List ImportLine) (rest : Text) :
    dropExports (lines.flatMap declared ++ rest) = lines.flatMap declared ++ dropExports rest := by
  have hlines (l : ImportLine) : lastOf (some '\n') (declared l) = some '\n' :=
    (isUnopened_declaration (opensNoImport_of_not_mem (by decide)) fun _ => feed_not_mem_binding).lines
  have hdefault : Rewrites exportDefault (fun _ => []) (lines.flatMap declared) (lines.flatMap declared) :=
    .flatMap fun l _ => .of_isUnread (isUnread_declaration fun _ => exists_specifier) (hlines l)
  have hexported : Rewrites exportedDeclaration (fun m => m.groupText 1 ++ m.groupText 2) (lines.flatMap declared)
      (lines.flatMap declared) := .flatMap fun l _ => rewrites_exportedDeclaration fun _ => feed_not_mem_binding
  have hgroups : ∀ m m' : Match, m.Alike m' → m.groupText 1 ++ m.groupText 2 = m'.groupText 1 ++ m'.groupText 2 :=
    fun m m' h => by rw [h.groups, h.groups]
  rw [dropExports, hdefault.replaceAll_append rfl fun _ _ _ => rfl, hexported.replaceAll_append rfl hgroups]
  rfl

/-- Lines that import from React become the declarations for their names, and the code behind them loses its module syntax
by itself. -/
theorem dropModuleSyntax_imports {lines : List ImportLine} {rest source : Text} (hsource : BeginsWith lines rest source)
    (hreact : ∀ l ∈ lines, isWithin ["react"] l.module.1 = true)
    (hread : ∀ l ∈ lines, l.entries.any (Entry.isMisread hooks) = false) :
    dropModuleSyntax source = lines.flatMap declared ++ dropModuleSyntax rest := by
  have hdom : BeginsWith lines (globalizeImports ["react-dom"] "ReactDOM" [] rest) _ :=
    hsource.globalizeImports_of_other (opensNoImport_of_not_mem (by decide)) fun l hl => isWithin_reactDom (hreact l hl)
  have hdeclared : lines.flatMap (fun l => destructuring "React" hooks (listing l.entries)) = lines.flatMap declared :=
    List.flatMap_congr fun l hl => (destructuring_listing_eq_iff "React" hooks l.entries).2 (hread l hl)
  rw [dropModuleSyntax_eq, hdom.globalizeImports_eq (opensNoImport_of_not_mem (by decide)) hreact, hdeclared,
    dropExports_declared]
  rfl

end SnippetPreview.React
