import SnippetPreview.Proofs.Pattern.Remains
import SnippetPreview.Proofs.Script.Globalizing

/-!
# Which imported names are kept

* `importsIn`: how often the word `import` stands in a text;
* `eq_of_meets`: a match that meets an import begins with the blanks in front of it;
* `NamesImport.groupText_of_meets`: then it reads the names and the module of this import;
* `not_meets_of_isStatement`: the second pass leaves the declarations of the first one alone;
* `lt_of_endsLine`: a match across the start of a line goes on behind its blanks;
* `globalizeImports_keeps`: an import of names stays, or its names are declared, or it stands behind another import on one
  line.
-/

namespace SnippetPreview.Script

open Pattern

/-! ### The word `import` -/

/-- The word `import` with white space behind it. -/
def startsImport (t : Text) : Bool := "import".toList.isPrefixOf t && (t.drop 6).head?.any isBlank

/-- How often the word `import` stands in the text. -/
def importsIn : Text → Nat
  | [] => 0
  | c :: t => (if startsImport (c :: t) then 1 else 0) + importsIn t

section Words

variable {e s t x x' s' : Text}

theorem startsImport_append {c : Char} (hc : isBlank c = true) (z : Text) :
    startsImport ("import".toList ++ c :: z) = true := by
  show (("import".toList.isPrefixOf ("import".toList ++ c :: z)) && isBlank c) = true
  rw [List.isPrefixOf_iff_prefix.2 (List.prefix_append _ _), hc]
  rfl

theorem exists_of_startsImport (h : startsImport t = true) : ∃ c z, t = "import".toList ++ c :: z ∧ isBlank c = true := by
  unfold startsImport at h
  rw [Bool.and_eq_true, List.isPrefixOf_iff_prefix] at h
  obtain ⟨⟨z, rfl⟩, hblank⟩ := h
  cases z with
  | nil => exact absurd hblank Bool.false_ne_true
  | cons c z => exact ⟨c, z, rfl, hblank⟩

theorem importsIn_le_append (x t : Text) : importsIn t ≤ importsIn (x ++ t) := by
  induction x with
  | nil => exact Nat.le_refl _
  | cons c x ih => exact Nat.le_trans ih (Nat.le_add_left _ _)

theorem importsIn_cons_of_startsImport {c : Char} (h : startsImport (c :: t) = true) :
    importsIn (c :: t) = 1 + importsIn t := congrArg (· + importsIn t) (if_pos h)

theorem one_le_importsIn (h : startsImport t = true) : 1 ≤ importsIn t := by
  cases t with
  | nil => exact absurd h Bool.false_ne_true
  | cons c t =>
    rw [importsIn_cons_of_startsImport h]
    exact Nat.le_add_right 1 _

/-- The word stands in one place only. -/
theorem eq_nil_of_importsIn_le (h : importsIn (e ++ s) ≤ 1) (hes : startsImport (e ++ s) = true)
    (hs : startsImport s = true) : e = [] := by
  cases e with
  | nil => rfl
  | cons c e =>
    rw [List.cons_append] at h hes
    have hcount := importsIn_cons_of_startsImport hes
    have hfirst := one_le_importsIn hs
    have hle := importsIn_le_append e s
    omega

end Words

/-- An import up to its module, with the word `import` nowhere else. -/
structure IsImport (d : Text) : Prop where
  starts : startsImport d = true
  once : importsIn d ≤ 1
  quoted : d.getLast?.any (charOf "'\"") = true

theorem exists_getLast? {t : Text} (h : t ≠ []) : ∃ c, t.getLast? = some c ∧ c ∈ t :=
  ⟨t.getLast h, List.getLast?_eq_some_getLast h, List.getLast_mem h⟩

section Positions

variable {b d e w y z : Text}

/-- The word of an import does not stand in front of that of a match, if the import reaches into the match. -/
theorem eq_nil_of_behind (hd : IsImport d) (hw : startsImport w = true) (hb : b.all isLineBlank = true)
    (h : d ++ z = e ++ (b ++ (w ++ y))) (hlt : e.length < d.length) : e ++ b = [] := by
  obtain ⟨c, v, rfl, hc⟩ := exists_of_startsImport hw
  rcases List.append_eq_append_iff.1 h with ⟨g, rfl, -⟩ | ⟨g, rfl, hg⟩
  · rw [List.length_append] at hlt
    omega
  · have hword : (b ++ ("import".toList ++ [c])) ++ (v ++ y) = g ++ z := by
      rw [← hg]
      simp
    rcases List.append_eq_append_iff.1 hword with ⟨r, rfl, -⟩ | ⟨r, hr, -⟩
    · refine eq_nil_of_importsIn_le (s := "import".toList ++ c :: r) ?_ ?_ (startsImport_append hc r)
      · have hone := hd.once
        rwa [show e ++ (b ++ ("import".toList ++ [c]) ++ r) = e ++ b ++ ("import".toList ++ c :: r) by simp] at hone
      · have hstarts := hd.starts
        rwa [show e ++ (b ++ ("import".toList ++ [c]) ++ r) = e ++ b ++ ("import".toList ++ c :: r) by simp] at hstarts
    · -- the import ends within the blanks and the word, but its last character is a quote
      have hg : g ≠ [] := by
        rintro rfl
        rw [List.append_nil] at hlt
        exact Nat.lt_irrefl _ hlt
      obtain ⟨q, hlast, hmem⟩ := exists_getLast? hg
      have hquoted := hd.quoted
      rw [List.getLast?_append, hlast] at hquoted
      have hmem : q ∈ b ++ ("import".toList ++ [c]) := hr ▸ List.mem_append_left r hmem
      have hsign : ∀ q, charOf "'\"" q = true → isLineBlank q = false ∧ q ∉ "import".toList ∧ isBlank q = false := by
        intro q hq
        have hq : q = '\'' ∨ q = '"' := by simpa [charOf] using hq
        rcases hq with rfl | rfl <;> decide
      obtain ⟨hblank, hletter, hspace⟩ := hsign q hquoted
      rw [List.mem_append, List.mem_append, List.mem_singleton] at hmem
      rcases hmem with hmem | hmem | rfl
      · exact absurd hmem (not_mem_of_class hblank hb)
      · exact absurd hmem hletter
      · exact absurd (hspace.symm.trans hc) Bool.false_ne_true

/-- The word of an import does not stand behind that of a match, if the match reaches into the import. -/
theorem eq_nil_of_front (hd : startsImport d = true) (hw : startsImport w = true) (hone : importsIn w ≤ 1)
    (hlast : ∀ c ∈ w.getLast?, c ∉ "import".toList) (h : w ++ y = e ++ (d ++ z)) (hlt : e.length < w.length) : e = [] := by
  rcases List.append_eq_append_iff.1 h with ⟨f, rfl, -⟩ | ⟨f, rfl, hf⟩
  · rw [List.length_append] at hlt
    omega
  · obtain ⟨c, v, rfl, hc⟩ := exists_of_startsImport hd
    have hne : f ≠ [] := by
      rintro rfl
      rw [List.append_nil] at hlt
      exact Nat.lt_irrefl _ hlt
    have hword : ("import".toList ++ [c]) ++ (v ++ z) = f ++ y := by
      rw [← hf]
      simp
    rcases List.append_eq_append_iff.1 hword with ⟨r, rfl, -⟩ | ⟨r, hr, -⟩
    · refine eq_nil_of_importsIn_le hone hw ?_
      rw [List.append_assoc]
      exact startsImport_append hc r
    · -- the match ends within the word
      rcases snoc_cases hr with ⟨rfl, rfl⟩ | ⟨r, rfl, hletters⟩
      · exact eq_nil_of_importsIn_le hone hw (startsImport_append hc [])
      · obtain ⟨q, hq, hmem⟩ := exists_getLast? hne
        have hq' : (e ++ f).getLast? = some q := by rw [List.getLast?_append, hq, Option.some_or]
        exact absurd (hletters ▸ List.mem_append_left r hmem) (hlast q hq')

end Positions

/-- What the patterns of imports have in common. -/
abbrev importing (q : Pattern) : Pattern :=
  .seq lineStart (.seq (many isLineBlank) (.seq "import" (.seq (many1 isBlank) q)))

/-- A match that meets an import begins with the blanks in front of it. -/
theorem eq_of_meets {q : Pattern} {m : Match} {t x u y a d z : Text}
    (hends : "import".toList.all (fun c => !(importing q).ends c) = true) (hcuts : m.Cuts (importing q) t x u y)
    (hu : importsIn u ≤ 1) (hd : IsImport d) (ht : t = a ++ (d ++ z)) (hmeets : m.Meets (importing q) t a d) :
    ∃ b, a = x ++ b ∧ b.all isLineBlank = true ∧ EndsLine x := by
  obtain ⟨x', u', y', hcuts', hstart, hstop⟩ := hmeets
  obtain ⟨rfl, rfl, rfl⟩ := hcuts.unique hcuts'
  obtain ⟨b, v₂, v, b', rfl, hb, hv₂, hne, -⟩ := exists_cut_of_reads hcuts.reads
  obtain ⟨c, v₂, rfl⟩ := List.exists_cons_of_ne_nil hne
  rw [List.all_cons, Bool.and_eq_true] at hv₂
  have hw : startsImport ("import".toList ++ (c :: v₂ ++ v)) = true := startsImport_append hv₂.1 _
  have hone := Nat.le_trans (importsIn_le_append b ("import".toList ++ (c :: v₂ ++ v))) hu
  have hlast : ∀ c' ∈ ("import".toList ++ (c :: v₂ ++ v)).getLast?, c' ∉ "import".toList := by
    intro c' hc' hmem
    have hlast : (b ++ ("import".toList ++ (c :: v₂ ++ v))).getLast? = some c' := by
      rw [List.getLast?_append, hc', Option.some_or]
    have hends := List.all_eq_true.1 hends c' hmem
    rw [hcuts.reads.ends hlast] at hends
    exact Bool.false_ne_true hends
  generalize "import".toList ++ (c :: v₂ ++ v) = w at *
  have hline : EndsLine x := (reads_lineStart_seq_iff.1 hcuts.reads).1
  have hsame : (x ++ b) ++ (w ++ y) = a ++ (d ++ z) := by
    rw [← ht, hcuts.text_eq]
    simp only [List.append_assoc]
  rcases List.append_eq_append_iff.1 hsame with ⟨e, rfl, hrest⟩ | ⟨e, hxb, hrest⟩
  · obtain rfl : e = [] := by
      refine eq_nil_of_front hd.starts hw hone hlast hrest ?_
      simp only [List.length_append] at hstop
      omega
    exact ⟨b, List.append_nil _, hb, hline⟩
  · rcases List.append_eq_append_iff.1 hxb with ⟨e', rfl, rfl⟩ | ⟨e', rfl, rfl⟩
    · have hblank : e.all isLineBlank = true := by
        rw [List.all_append, Bool.and_eq_true] at hb
        exact hb.2
      have hpos : ([] : Text).length < d.length := by
        obtain ⟨c, z, rfl, -⟩ := exists_of_startsImport hd.starts
        exact Nat.zero_lt_succ _
      obtain rfl : e = [] := eq_nil_of_behind hd hw hblank (e := []) hrest hpos
      exact ⟨e', rfl, by rwa [List.append_nil] at hb, hline⟩
    · rw [List.append_assoc] at hrest
      have hnil : e' ++ b = [] := by
        refine eq_nil_of_behind hd hw hb hrest ?_
        simp only [List.length_append] at hstart
        omega
      obtain ⟨rfl, rfl⟩ := List.append_eq_nil_iff.1 hnil
      exact ⟨[], by simp, rfl, hline⟩

/-! ### What is read of an import -/

/-- A match is the reading that a search takes at its start. -/
theorem exists_first_of_mem_finds {p : Pattern} {t x u y : Text} {m : Match} (hm : m ∈ p.finds t) (hcuts : m.Cuts p t x u y) :
    ∃ r, First p ((Cursor.start t).behind x (u ++ y)) r ∧ m = .ofReading ((Cursor.start t).behind x (u ++ y)) r := by
  obtain ⟨x', z, r, -, hr, rfl⟩ := exists_first_of_mem_findsFrom (k := .start t) hm
  have hstart : (Cursor.start t).behind x' z = (Cursor.start t).behind x (u ++ y) := hcuts.start
  exact ⟨r, hstart ▸ hr, congrArg (Match.ofReading · r) hstart⟩

namespace NamesImport

variable (n : NamesImport) {t a b z : Text}

/-- An import of names is read at the start of a line. -/
theorem exists_first {x : Text} (hb : b.all isLineBlank = true) (hx : EndsLine x) :
    ∃ r, First namedImport ((Cursor.start t).behind x (b ++ (n.text ++ z))) r ∧
      (Match.ofReading ((Cursor.start t).behind x (b ++ (n.text ++ z))) r).groupText 1 = n.names.1 ∧
      (Match.ofReading ((Cursor.start t).behind x (b ++ (n.text ++ z))) r).groupText 2 = n.module.1 := by
  obtain ⟨e, y, rfl, he⟩ := exists_isEnd z
  obtain ⟨r, hfirst, -, hnames, hmodule⟩ := n.first_namedImport
    (k := (Cursor.start t).behind x (b ++ (n.text ++ (e ++ y)))) he hb hx rfl
  exact ⟨r, hfirst, hnames, hmodule⟩

theorem isImport (h : importsIn n.text ≤ 1) : IsImport n.text := by
  obtain ⟨c, g, hgap⟩ := List.exists_cons_of_ne_nil n.gap.2.1
  have hc : isBlank c = true := by
    have hall := n.gap.2.2
    rw [hgap, List.all_cons, Bool.and_eq_true] at hall
    exact hall.1
  refine ⟨?_, h, ?_⟩
  · have hstarts := startsImport_append hc (g ++ (n.defaultText ++ n.listTo []))
    rw [text, front_eq, hgap, List.append_assoc, List.append_assoc]
    exact hstarts
  · have hlast : n.text = (n.front ++ '\x7b' :: (n.names.1 ++ '\x7d' :: (n.before.1 ++ ("from".toList ++ (n.behind.1
        ++ n.quote.1 :: n.module.1))))) ++ [n.quote.1] := by
      simp [text, listTo, moduleTo]
    rw [hlast, List.getLast?_concat]
    exact n.quote.2

/-- A match that meets the import reads its names and its module. -/
theorem groupText_of_meets {m : Match} (hone : importsIn n.text ≤ 1) (hm : m ∈ namedImport.finds t)
    (hu : importsIn m.text ≤ 1) (ht : t = a ++ (n.text ++ z)) (hmeets : m.Meets namedImport t a n.text) :
    m.groupText 1 = n.names.1 ∧ m.groupText 2 = n.module.1 := by
  obtain ⟨x, u, y, hcuts⟩ := exists_cuts hm
  rw [hcuts.text] at hu
  obtain ⟨b, rfl, hb, hline⟩ := eq_of_meets (by decide +kernel) hcuts hu (n.isImport hone) ht hmeets
  obtain ⟨r, hr, rfl⟩ := exists_first_of_mem_finds hm hcuts
  have hrest : u ++ y = b ++ (n.text ++ z) := by
    rw [hcuts.text_eq, List.append_assoc] at ht
    exact List.append_cancel_left ht
  obtain ⟨r', hr', hnames, hmodule⟩ := n.exists_first (t := t) (z := z) hb hline
  rw [← hrest] at hr' hnames hmodule
  obtain rfl := Option.some.inj (hr.symm.trans hr')
  exact ⟨hnames, hmodule⟩

end NamesImport

/-! ### Declarations -/

/-- A character that may stand behind the module of an import. -/
def endsImport (c : Char) : Bool := isLineBlank c || charOf ";\r\n" c

theorem within_importEnd : importEnd.Within endsImport := by
  have hblank : ∀ c, isLineBlank c = true → endsImport c = true := fun c hc => by rw [endsImport, hc, Bool.true_or]
  have hsign {c : Char} (hc : endsImport c = true) : (Pattern.optional (Pattern.text [c])).Within endsImport :=
    ⟨within_text (by rw [List.all_cons, hc]; rfl), trivial⟩
  exact ⟨hblank, hsign rfl, hblank, hsign rfl, hsign rfl, trivial⟩

/-- What is read in front of the module of an import has no semicolon and no quote. -/
theorem all_anyLead {b : Option Char} {l y : Text} (h : Reads (chain (importLead (Pattern.optional originPart))) b l y) :
    l.all (charNotOf ";'\"") = true ∧ l.head?.any (· == '\n') = false := by
  constructor
  · have hblank : ∀ c, isBlank c = true → charNotOf ";'\"" c = true := fun _ => charNotOf_of_class (by decide)
    have hline : ∀ c, isLineBlank c = true → charNotOf ";'\"" c = true := fun _ => charNotOf_of_class (by decide)
    exact h.all (within_importLead hline hblank (by decide)
      ⟨⟨charNotOf_mono (by decide), hblank, within_text (by decide), hblank, trivial⟩, trivial⟩)
  · cases l with
    | nil => rfl
    | cons c l =>
      refine Bool.eq_false_iff.2 fun hc => ?_
      obtain rfl : c = '\n' := beq_iff_eq.1 hc
      exact absurd (h.starts rfl) (by decide +kernel)

/-- An import that is read is cut by the quotes around its module. -/
theorem exists_module {t : Text} {m : Match} (hm : m ∈ anyImport.finds t) :
    ∃ x l q q' e y, m.Cuts anyImport t x (l ++ q :: (m.groupText 1 ++ q' :: e)) y ∧ l.all (charNotOf ";'\"") = true ∧
      l.head?.any (· == '\n') = false ∧ charOf "'\"" q = true ∧ charOf "'\"" q' = true ∧ e.all endsImport = true := by
  obtain ⟨x, t', r, ht, hr, rfl⟩ := exists_first_of_mem_findsFrom (k := .start t) hm
  have hmem := List.mem_of_mem_head? hr
  have hflat : r ∈ (chain ((importLead (Pattern.optional originPart) ++ [one (charOf "'\"")])
      ++ group 1 (many1 (charNotOf "'\"")) :: [one (charOf "'\""), importEnd])).readings
        ((Cursor.start t).behind x t') := by
    have hnest := readings_chain_nest (importLead (Pattern.optional originPart))
      [one (charOf "'\""), group 1 (many1 (charNotOf "'\"")), one (charOf "'\"")] [importEnd]
      ((Cursor.start t).behind x t')
    exact hnest ▸ hmem
  obtain ⟨u, v, w, y, hafter, hend, hu, -, hw, hgroup⟩ := exists_group_of_mem_readings rfl rfl rfl hflat
  obtain ⟨l, o, rfl, hl, ho⟩ := reads_chain_append_iff.1 hu
  obtain ⟨q, rfl, hq⟩ := reads_one_iff.1 (reads_last_iff.1 ho)
  obtain ⟨o, e, rfl, ho', he⟩ := reads_seq_iff.1 hw
  obtain ⟨q', rfl, hq'⟩ := reads_one_iff.1 ho'
  replace he := reads_last_iff.1 he
  have hassoc : l ++ [q] ++ (v ++ ([q'] ++ e ++ y)) = l ++ q :: (v ++ q' :: e) ++ y := by simp
  have hwhole : l ++ [q] ++ (v ++ ([q'] ++ e)) = l ++ q :: (v ++ q' :: e) := by simp
  obtain rfl : t' = _ := hafter.trans hassoc
  rw [hwhole] at hend
  obtain ⟨hsigns, hhead⟩ := all_anyLead hl
  refine ⟨x, l, q, q', e, y, ?_, hsigns, hhead, hq, hq', he.all within_importEnd⟩
  rw [hgroup]
  exact cuts_ofReading ht hmem hend

/-- A sign between two texts lies in front of a cut or behind it. -/
theorem cut_of_append_cons {α : Type} {l r p s : List α} {q : α} (h : l ++ q :: r = p ++ s) :
    (∃ l', l = p ++ l' ∧ s = l' ++ q :: r) ∨ ∃ p', p = l ++ q :: p' ∧ r = p' ++ s := by
  rcases List.append_eq_append_iff.1 h with ⟨p', rfl, hr⟩ | ⟨l', rfl, hs⟩
  · rcases List.cons_eq_append_iff.1 hr with ⟨rfl, rfl⟩ | ⟨p', rfl, rfl⟩
    · exact .inl ⟨[], by simp, rfl⟩
    · exact .inr ⟨p', rfl, rfl⟩
  · exact .inl ⟨l', rfl, hs⟩

/-- A text as declarations are: without quotes, and with a semicolon at the end of its last line. -/
structure IsStatement (d : Text) : Prop where
  quotes : d.all (charNotOf "'\"") = true
  ends : ∃ v, d = v ++ ";\n".toList
  starts : d.head?.any endsImport = false

/-- What is left of a declaration is its last line feed, or has the semicolon. -/
theorem eq_feed_or_mem {v p g : Text} (h : v ++ ";\n".toList = p ++ g) (hg : g ≠ []) : g = ['\n'] ∨ ';' ∈ g := by
  have hsame : (v ++ [';']) ++ ['\n'] = p ++ g := by rw [← h, List.append_assoc]; rfl
  obtain ⟨g, rfl, hfront⟩ := (snoc_cases hsame).resolve_left fun hnil => hg hnil.1
  rcases snoc_cases hfront with ⟨rfl, -⟩ | ⟨g, rfl, -⟩
  · exact .inl rfl
  · exact .inr (by simp)

/-- What has no quote and goes on to one lies in front of it. -/
theorem exists_of_quote {g s r z : Text} {q : Char} (hq : charOf "'\"" q = true) (hg : g.all (charNotOf "'\"") = true)
    (h : g ++ s = r ++ q :: z) : ∃ w, r = g ++ w := by
  obtain ⟨w, hw, -⟩ := eq_append_of_append_eq hg (charNotOf_quote ⟨q, hq⟩) h
  exact ⟨w, hw⟩

/-- What is read in front of a module does not begin within a declaration. -/
theorem IsStatement.not_begins {d p g l r z : Text} {q : Char} (hd : IsStatement d) (hsplit : d = p ++ g) (hg : g ≠ [])
    (hq : charOf "'\"" q = true) (hsigns : ';' ∉ l) (hhead : l.head?.any (· == '\n') = false) :
    l ++ q :: r ≠ g ++ z := by
  intro h
  obtain ⟨w, hw⟩ := hd.ends
  have hall := hd.quotes
  rw [hsplit, List.all_append, Bool.and_eq_true] at hall
  obtain ⟨l', rfl⟩ := exists_of_quote hq hall.2 h.symm
  rcases eq_feed_or_mem (hw.symm.trans hsplit) hg with rfl | hmem
  · exact Bool.false_ne_true hhead.symm
  · exact hsigns (List.mem_append_left _ hmem)

/-- What is read behind a module does not end within a declaration. -/
theorem IsStatement.not_ends {d p e y z : Text} (hd : IsStatement d) (hd' : d ≠ []) (he : e.all endsImport = true)
    (hlt : p.length < e.length) : p ++ (d ++ z) ≠ e ++ y := by
  intro h
  rcases List.append_eq_append_iff.1 h with ⟨g, rfl, hg⟩ | ⟨g, rfl, -⟩
  · obtain ⟨c, d, rfl⟩ := List.exists_cons_of_ne_nil hd'
    cases g with
    | nil => simp at hlt
    | cons c' g =>
      obtain ⟨rfl, -⟩ := List.cons.inj hg
      rw [List.all_append, List.all_cons, Bool.and_eq_true, Bool.and_eq_true] at he
      exact Bool.false_ne_true (hd.starts.symm.trans he.2.1)
  · simp only [List.length_append] at hlt
    omega

/-- No import is read that meets a declaration, when its module is on one line. -/
theorem not_meets_of_isStatement {t o d z : Text} {m : Match} (hd : IsStatement d) (hm : m ∈ anyImport.finds t)
    (hfeed : '\n' ∉ m.groupText 1) (ht : t = o ++ (d ++ z)) : ¬ m.Meets anyImport t o d := by
  rintro ⟨x', u', y', hcuts', hstart, hstop⟩
  obtain ⟨x, l, q, q', e, y, hcuts, hsigns, hhead, hq, hq', he⟩ := exists_module hm
  obtain ⟨rfl, rfl, rfl⟩ := hcuts.unique hcuts'
  generalize m.groupText 1 = v at *
  have hsemicolon : ';' ∉ l := not_mem_of_class (by decide) hsigns
  have hmem : ';' ∈ d ∧ '\n' ∈ d := by
    obtain ⟨w, hw⟩ := hd.ends
    rw [hw]
    simp
  have hsame : o ++ (d ++ z) = x ++ (l ++ q :: (v ++ q' :: (e ++ y))) := by
    rw [← ht, hcuts.text_eq]
    simp
  rcases List.append_eq_append_iff.1 hsame with ⟨p, rfl, hrest⟩ | ⟨p, rfl, hrest⟩
  · -- the match begins in the declaration
    rcases List.append_eq_append_iff.1 hrest with ⟨g, rfl, -⟩ | ⟨g, hdg, hg⟩
    · simp only [List.length_append] at hstart
      omega
    · have hgne : g ≠ [] := by
        rintro rfl
        rw [List.append_nil] at hdg
        simp [hdg] at hstart
      exact hd.not_begins hdg hgne hq hsemicolon hhead hg
  · -- it begins in front of the declaration, so it has the module there, too, and ends in it
    rcases cut_of_append_cons hrest with ⟨l', rfl, hl⟩ | ⟨p, rfl, hl⟩
    · obtain ⟨g, rfl⟩ := exists_of_quote hq hd.quotes hl
      exact hsemicolon (List.mem_append_right _ (List.mem_append_left _ hmem.1))
    rcases cut_of_append_cons hl with ⟨v', rfl, hv⟩ | ⟨p, rfl, hv⟩
    · obtain ⟨g, rfl⟩ := exists_of_quote hq' hd.quotes hv
      exact hfeed (List.mem_append_right _ (List.mem_append_left _ hmem.2))
    refine hd.not_ends (List.ne_nil_of_mem hmem.1) he ?_ hv.symm
    simp only [List.length_append, List.length_cons] at hstop
    omega

theorem isStatement_declaration {global : Text} {bindings : List Text} (hglobal : global.all (charNotOf "'\"") = true)
    (hbindings : ∀ b ∈ bindings, b.all (charNotOf "'\"") = true) (hne : bindings ≠ []) :
    IsStatement (declaration global bindings) := by
  obtain ⟨b, bs, rfl⟩ := List.exists_cons_of_ne_nil hne
  have hjoin : (Text.join ", " (b :: bs)).all (charNotOf "'\"") = true := by
    refine List.all_eq_true.2 fun c hc => ?_
    rcases Text.mem_of_mem_join hc with h | ⟨t, ht, h⟩
    · exact (List.all_eq_true.1 (by decide : (", ".toList).all (charNotOf "'\"") = true)) c h
    · exact List.all_eq_true.1 (hbindings t ht) c h
  refine ⟨?_, ⟨"const \x7b " ++ Text.join ", " (b :: bs) ++ " \x7d = " ++ global, rfl⟩, rfl⟩
  simp only [declaration, List.all_append, hjoin, hglobal]
  decide

theorem mem_declaration {global b : Text} {bindings : List Text} {c : Char} (hb : b ∈ bindings) (hc : c ∈ b) :
    c ∈ declaration global bindings := by
  have hjoin : c ∈ Text.join ", " bindings := Text.mem_join hb hc
  cases bindings with
  | nil => exact absurd hb List.not_mem_nil
  | cons => simp only [declaration, List.mem_append, hjoin, true_or, or_true]

theorem all_binding {provided : List Text} {names b : Text} (hnames : names.all (charNotOf "'\"") = true)
    (hb : b ∈ (Text.splitOn ',' names).filterMap (binding? provided)) : b.all (charNotOf "'\"") = true := by
  obtain ⟨piece, hpiece, hb⟩ := List.mem_filterMap.1 hb
  refine List.all_eq_true.2 fun c hc => ?_
  rcases mem_of_binding? hb hc with hmem | hmem
  · exact List.all_eq_true.1 hnames c ((Text.isInfix_of_mem_splitWhere hpiece).subset hmem)
  · exact List.all_eq_true.1 (by decide : (": ".toList).all (charNotOf "'\"") = true) c hmem

/-! ### Starts of lines -/

/-- A line feed is the last character that is read behind a module. -/
theorem eq_nil_of_reads_importEnd {b : Option Char} {p s y : Text} (h : Reads importEnd b (p ++ '\n' :: s) y) :
    s = [] := by
  let front : List Pattern := [many isLineBlank, Pattern.optional ";", many isLineBlank, Pattern.optional "\r"]
  have hline := bne_of_class (S := isLineBlank) (d := '\n') (by decide)
  have hwithin : (chain front).Within (· != '\n') :=
    ⟨hline, ⟨within_text (by decide), trivial⟩, hline, ⟨within_text (by decide), trivial⟩, trivial⟩
  have h : Reads (chain (front ++ [Pattern.optional "\n"])) b (p ++ '\n' :: s) y := h
  obtain ⟨u, v, hsplit, hu, hv⟩ := reads_chain_append_iff.1 h
  have hfeed : '\n' ∉ u := not_mem_of_class rfl (hu.all hwithin)
  rcases cut_of_append_cons hsplit with ⟨l, rfl, hl⟩ | ⟨l, rfl, -⟩
  · rcases reads_alt_iff.1 (reads_last_iff.1 hv) with hv | hv
    · obtain rfl := reads_text_iff.1 hv
      exact eq_nil_of_line (t := []) List.not_mem_nil hl
    · rw [reads_empty_iff.1 hv] at hl
      exact absurd hl.symm (by simp)
  · exact absurd (by simp) hfeed

/-- What is read ends behind the quote of a module. -/
def EndsWithModule (p : Pattern) : Prop :=
  ∀ {b u y}, Reads p b u y → ∃ w q e b', u = w ++ q :: e ∧ charOf "'\"" q = true ∧ Reads importEnd b' e y

theorem endsWithModule_chain (ps : List Pattern) (i : Nat) : EndsWithModule (chain (ps ++ [moduleName i, importEnd])) := by
  intro b u y h
  obtain ⟨v, w, rfl, -, hw⟩ := reads_chain_append_iff.1 h
  obtain ⟨w, e, rfl, hmodule, he⟩ := reads_seq_iff.1 hw
  obtain ⟨w, q, rfl⟩ := (List.eq_nil_or_concat w).resolve_left (hmodule.ne_nil rfl)
  rw [List.concat_eq_append] at *
  have hq := hmodule.ends (List.getLast?_concat)
  refine ⟨v ++ w, q, e, _, by simp, ?_, reads_last_iff.1 he⟩
  simpa [moduleName, chain, group, ends, consumes] using hq

theorem endsWithModule_namedImport : EndsWithModule namedImport :=
  let list : List Pattern := ["\x7b", group 1 (many (charNotOf "\x7d")), "\x7d", many isBlank, "from", many isBlank]
  endsWithModule_chain (importLead (Pattern.optional defaultPart) ++ list) 2

/-- An import that is read across the start of a line goes on behind its blanks. -/
theorem lt_of_endsLine {p : Pattern} {m : Match} {t x u y a b z : Text} (hp : EndsWithModule p) (hcuts : m.Cuts p t x u y)
    (ht : t = a ++ (b ++ z)) (ha : EndsLine a) (hb : b.all isLineBlank = true) (hstart : x.length ≤ a.length)
    (hstop : a.length < (x ++ u).length) : (a ++ b).length < (x ++ u).length := by
  refine Nat.lt_of_not_le fun hle => ?_
  have hwhole : t = (x ++ u) ++ y := by rw [hcuts.text_eq, List.append_assoc]
  have hlines : t = (a ++ b) ++ z := by rw [ht, List.append_assoc]
  obtain ⟨p, rfl⟩ : x <+: a := List.prefix_of_prefix_length_le ⟨_, hcuts.text_eq.symm⟩ ⟨_, ht.symm⟩ hstart
  obtain ⟨v, hv⟩ : x ++ p <+: x ++ u := List.prefix_of_prefix_length_le ⟨_, ht.symm⟩ ⟨_, hwhole.symm⟩ (Nat.le_of_lt hstop)
  obtain ⟨r, hr⟩ : x ++ u <+: x ++ p ++ b := List.prefix_of_prefix_length_le ⟨_, hwhole.symm⟩ ⟨_, hlines.symm⟩ hle
  rw [List.append_assoc] at hv
  obtain rfl := List.append_cancel_left hv
  obtain rfl : v ++ r = b := by
    rw [List.append_assoc, List.append_assoc, List.append_assoc] at hr
    exact List.append_cancel_left (List.append_cancel_left hr)
  rw [List.all_append, Bool.and_eq_true] at hb
  obtain ⟨w, q, e, b', hquote, hq, he⟩ := hp hcuts.reads
  have hmem {c : Char} (hc : c ≠ q) : q ∉ c :: v := by
    have hq : q = '\'' ∨ q = '"' := by simpa [charOf] using hq
    have hv : q ∉ v := not_mem_of_class (by rcases hq with rfl | rfl <;> decide) hb.1
    exact List.not_mem_cons_of_ne_of_not_mem hc.symm hv
  rcases List.eq_nil_or_concat p with rfl | ⟨p, c, rfl⟩
  · -- the match is blank
    have hq' : q ∈ v := by
      rw [List.nil_append] at hquote
      rw [hquote]
      simp
    exact hmem (c := '\n') (by rintro rfl; exact absurd hq (by decide)) (List.mem_cons_of_mem _ hq')
  · rw [List.concat_eq_append] at *
    rw [← List.append_assoc] at ha
    obtain rfl := endsLine_concat.1 ha
    rw [List.append_assoc] at hquote
    rcases cut_of_append_cons hquote.symm with ⟨l, -, hl⟩ | ⟨l, -, hl⟩
    · refine hmem (c := '\n') (by rintro rfl; exact absurd hq (by decide)) ?_
      rw [show '\n' :: v = l ++ q :: e from hl]
      simp
    · obtain rfl : v = [] := eq_nil_of_reads_importEnd (p := l) (hl ▸ he)
      simp at hstop

/-! ### Both passes -/

/-- The code behind the first pass. -/
def declared (packages : List Text) (global : Text) (provided : List Text) (source : Text) : Text :=
  namedImport.replaceAll (namedImage packages global provided) source

/-- All that the first pass reads, and all that the second one removes, is one import each, and no module that is removed
goes on over the end of a line. -/
def readsApart (packages : List Text) (global : Text) (provided : List Text) (source : Text) : Bool :=
  (namedImport.finds source).all (fun m => decide (importsIn m.text ≤ 1)) &&
    (anyImport.finds (declared packages global provided source)).all fun m =>
      !isWithin packages (m.groupText 1) || (decide (importsIn m.text ≤ 1) && !(m.groupText 1).elem '\n')

/-- At the end of this text stands an import of the packages, and blanks behind it on its last line. -/
def EndsWithImport (packages : List Text) (source a : Text) : Prop :=
  ∃ m ∈ namedImport.finds source, isWithin packages (m.groupText 2) = true ∧
    ∃ x u y b, m.Cuts namedImport source x u y ∧ a = x ++ (u ++ b) ∧ b.all isLineBlank = true ∧ ¬ EndsLine (x ++ u)

section Passes

variable {packages provided : List Text} {global source : Text}

theorem mem_bindings {names piece b : Text} {s : Specifier} (hpiece : piece ∈ Text.splitOn ',' names)
    (htrim : piece.trim = s.text) (hread : s.isMisread provided = false) (hb : s.binding? provided = some b) :
    b ∈ (Text.splitOn ',' names).filterMap (binding? provided) :=
  List.mem_filterMap.2 ⟨piece, hpiece, (Specifier.binding?_of_trim htrim hread).trans hb⟩

/-- An import of the packages at the start of a line meets a match of the first pass. -/
theorem exists_meets_of_endsLine {n : NamesImport} {a b z : Text} (hsource : source = a ++ (b ++ (n.text ++ z)))
    (hb : b.all isLineBlank = true) (ha : EndsLine a) :
    ∃ m ∈ namedImport.finds source, m.Meets namedImport source (a ++ b) n.text := by
  obtain ⟨r, hr, -, -⟩ := n.exists_first (t := source) (z := z) hb ha
  have hread : namedImport.readings ((Cursor.start source).behind a (b ++ (n.text ++ z))) ≠ [] :=
    List.ne_nil_of_mem (List.mem_of_mem_head? hr)
  obtain ⟨m, hm, x, u, y, hcuts, hstart, hstop⟩ := exists_match_of_readings rfl hsource hread
  refine ⟨m, hm, x, u, y, hcuts, ?_, lt_of_endsLine endsWithModule_namedImport hcuts hsource ha hb hstart hstop⟩
  have hpos : 0 < n.text.length := Nat.zero_lt_succ _
  simp only [List.length_append]
  omega

theorem namedImage_eq_text (packages : List Text) (global : Text) (provided : List Text) (t : Text) :
    ∀ m ∈ namedImport.finds t, isWithin packages (m.groupText 2) = false →
      namedImage packages global provided m = m.text :=
  fun _ _ h => if_neg (Bool.eq_false_iff.1 h)

theorem otherImage_eq_text (packages : List Text) (t : Text) : ∀ m ∈ anyImport.finds t,
    isWithin packages (m.groupText 1) = false → otherImage packages m = m.text :=
  fun _ _ h => if_neg (Bool.eq_false_iff.1 h)

variable (hapart : readsApart packages global provided source = true)

include hapart

theorem importsIn_named {m : Match} (hm : m ∈ namedImport.finds source) : importsIn m.text ≤ 1 := by
  rw [readsApart, Bool.and_eq_true] at hapart
  exact of_decide_eq_true (List.all_eq_true.1 hapart.1 m hm)

theorem importsIn_other {m : Match} (hm : m ∈ anyImport.finds (declared packages global provided source))
    (hwithin : isWithin packages (m.groupText 1) = true) : importsIn m.text ≤ 1 ∧ '\n' ∉ m.groupText 1 := by
  rw [readsApart, Bool.and_eq_true] at hapart
  have h := List.all_eq_true.1 hapart.2 m hm
  rw [hwithin, Bool.not_true, Bool.false_or, Bool.and_eq_true, Bool.not_eq_true', List.elem_eq_mem,
    decide_eq_false_iff_not] at h
  exact ⟨of_decide_eq_true h.1, h.2⟩

/-- A declaration stays in the second pass. -/
theorem declaration_isInfix {bindings : List Text} (hglobal : global.all (charNotOf "'\"") = true)
    (hbindings : ∀ b ∈ bindings, b.all (charNotOf "'\"") = true)
    (h : declaration global bindings <:+: declared packages global provided source) :
    declaration global bindings <:+: globalizeImports packages global provided source := by
  by_cases hne : bindings = []
  · rw [hne]
    exact List.nil_infix
  · obtain ⟨o, z, hdeclared⟩ := h
    rw [List.append_assoc] at hdeclared
    obtain ⟨v, w, hresult, -⟩ := exists_front_of_not_meets rfl (otherImage_eq_text packages _) hdeclared.symm
      fun m hm hwithin => not_meets_of_isStatement (isStatement_declaration hglobal hbindings hne) hm
        (importsIn_other hapart hm hwithin).2 hdeclared.symm
    exact ⟨v, w, by rw [List.append_assoc]; exact hresult.symm⟩

variable {n : NamesImport} {a z : Text} (hone : importsIn n.text ≤ 1) (hwithin : isWithin packages n.module.1 = true)
  (hsource : source = a ++ (n.text ++ z))

include hone hwithin hsource

/-- An import of the packages that the first pass meets becomes its declaration. -/
theorem declaration_of_meets {m : Match} (hm : m ∈ namedImport.finds source) (hmeets : m.Meets namedImport source a n.text) :
    isWithin packages (m.groupText 2) = true ∧
      destructuring global provided n.names.1 <:+: declared packages global provided source := by
  obtain ⟨hnames, hmodule⟩ := n.groupText_of_meets hone hm (importsIn_named hapart hm) hsource hmeets
  rw [← hmodule] at hwithin
  have himage : namedImage packages global provided m = destructuring global provided n.names.1 := by
    rw [namedImage, if_pos hwithin, hnames]
  obtain ⟨o, -, v, hdeclared⟩ := exists_puts rfl (namedImage_eq_text packages global provided source) hm hwithin
  refine ⟨hwithin, o, v, ?_⟩
  rw [← himage, List.append_assoc]
  exact hdeclared.symm

/-- An import of the packages that the first pass leaves alone stays, unless it stands behind another one on its line. -/
theorem isInfix_of_not_meets (hnone : ∀ m ∈ namedImport.finds source, isWithin packages (m.groupText 2) = true →
      ¬ m.Meets namedImport source a n.text) :
    n.text <:+: globalizeImports packages global provided source ∨ EndsWithImport packages source a := by
  obtain ⟨o, v, hdeclared, hfront⟩ := exists_front_of_not_meets rfl (namedImage_eq_text packages global provided source)
    hsource hnone
  by_cases hkept : ∀ m ∈ anyImport.finds (declared packages global provided source),
      isWithin packages (m.groupText 1) = true → ¬ m.Meets anyImport (declared packages global provided source) o n.text
  · obtain ⟨w, w', hresult, -⟩ := exists_front_of_not_meets rfl (otherImage_eq_text packages _) hdeclared hkept
    exact .inl ⟨w, w', by rw [List.append_assoc]; exact hresult.symm⟩
  · simp only [not_forall, not_not] at hkept
    obtain ⟨m, hm, hremoved, hmeets⟩ := hkept
    obtain ⟨x, u, y, hcuts⟩ := exists_cuts hm
    have hu := (importsIn_other hapart hm hremoved).1
    rw [hcuts.text] at hu
    obtain ⟨b, rfl, hb, hx⟩ := eq_of_meets (by decide +kernel) hcuts hu (n.isImport hone) hdeclared hmeets
    -- at the start of a line of the source, the first pass would have read the import
    have hread {c b : Text} (hb : b.all isLineBlank = true) (ha : a = c ++ b) : ¬ EndsLine c := by
      intro hc
      have hline : source = c ++ (b ++ (n.text ++ z)) := by rw [hsource, ha, List.append_assoc]
      obtain ⟨m', hm', hmeets'⟩ := exists_meets_of_endsLine hline hb hc
      rw [← ha] at hmeets'
      exact hnone m' hm' (declaration_of_meets hapart hone hwithin hsource hm' hmeets').1 hmeets'
    rcases hfront.exists_endsLine hx with ⟨c, ha, hc⟩ | ⟨m', hm', hwithin', c, w, y', b', hcuts', ha, e, rfl⟩
    · exact absurd hc (hread hb ha)
    · rw [List.all_append, Bool.and_eq_true] at hb
      refine .inr ⟨m', hm', hwithin', c, w, y', b', hcuts', ha, hb.2, ?_⟩
      exact hread hb.2 (by rw [ha, List.append_assoc])

end Passes

/-- **Imported names are kept.** Take an import of names from one of the packages, anywhere in a source in which imports are
read one by one. It stays in the code, or all its names that are not provided are read from the global, each as what it
means unless it is misread, or the import stands behind another one of the packages on the same line. -/
theorem globalizeImports_keeps {packages provided : List Text} {global source a z : Text} {n : NamesImport}
    (hglobal : global.all (charNotOf "'\"") = true) (hapart : readsApart packages global provided source = true)
    (hone : importsIn n.text ≤ 1) (hwithin : isWithin packages n.module.1 = true) (hsource : source = a ++ (n.text ++ z)) :
    n.text <:+: globalizeImports packages global provided source ∨
      (∃ bindings, declaration global bindings <:+: globalizeImports packages global provided source ∧
        ∀ piece ∈ Text.splitOn ',' n.names.1, ∀ s : Specifier, piece.trim = s.text → s.isMisread provided = false →
          ∀ b, s.binding? provided = some b → b ∈ bindings) ∨
      EndsWithImport packages source a := by
  by_cases hnone : ∀ m ∈ namedImport.finds source, isWithin packages (m.groupText 2) = true →
      ¬ m.Meets namedImport source a n.text
  · exact (isInfix_of_not_meets hapart hone hwithin hsource hnone).imp_right .inr
  · simp only [not_forall, not_not] at hnone
    obtain ⟨m, hm, -, hmeets⟩ := hnone
    obtain ⟨-, hdeclared⟩ := declaration_of_meets hapart hone hwithin hsource hm hmeets
    rw [destructuring_eq] at hdeclared
    have hnames : n.names.1.all (charNotOf "'\"") = true := all_mono (charNotOf_mono (by decide)) n.names.2
    have hresult := declaration_isInfix hapart hglobal (fun b hb => all_binding hnames hb) hdeclared
    exact .inr (.inl ⟨_, hresult, fun piece hpiece s htrim hread b hb => mem_bindings hpiece htrim hread hb⟩)

theorem isBlanks_space : (" " : Text).all isBlank = true := by decide

theorem isBlankGap_space : (" " : Text) ≠ [] ∧ (" " : Text).all isBlank = true := by decide

/-- The import `import { b } from 'react'`, with this list of names in its braces. -/
def ofReact (names : Text) (h : names.all (charNotOf "\x7d'\"") = true) : NamesImport where
  gap := ⟨" ", isBlankGap_space⟩
  default? := none
  names := ⟨names, h⟩
  before := ⟨" ", isBlanks_space⟩
  behind := ⟨" ", isBlanks_space⟩
  quote := renamedType.quote
  module := ⟨"react", by decide⟩

/-- An import over several lines is kept, and the second one of two imports on one line is lost. -/
theorem globalizeImports_keeps_lines :
    let lines : Text := "import \x7b\n  useState,\n  useEffect as effect\n\x7d from 'react';\n"
    let twice : Text := "import \x7b a \x7d from 'react'; import \x7b b \x7d from 'react';\n"
    readsApart ["react"] "React" [] lines = true ∧
      (∃ bindings : List Text, declaration "React" bindings <:+: globalizeImports ["react"] "React" [] lines ∧
        "useState".toList ∈ bindings ∧ "useEffect: effect".toList ∈ bindings) ∧
      readsApart ["react"] "React" [] twice = true ∧
      globalizeImports ["react"] "React" [] twice = "const \x7b a \x7d = React;\n".toList ∧
      EndsWithImport ["react"] twice "import \x7b a \x7d from 'react'; " := by
  intro lines twice
  have hlines : readsApart ["react"] "React" [] lines = true := by decide +kernel
  have htwice : readsApart ["react"] "React" [] twice = true := by decide +kernel
  have hresult : globalizeImports ["react"] "React" [] twice = "const \x7b a \x7d = React;\n".toList := by decide +kernel
  let hooks := ofReact "\n  useState,\n  useEffect as effect\n" (by decide)
  let second := ofReact " b " (by decide)
  have hkept := globalizeImports_keeps (n := hooks) (a := []) (z := ";\n") (by decide) hlines (by decide) (by decide)
    (by decide)
  have hlost := globalizeImports_keeps (n := second) (a := "import \x7b a \x7d from 'react'; ") (z := ";\n") (by decide)
    htwice (by decide) (by decide) (by decide)
  refine ⟨hlines, ?_, htwice, hresult, ?_⟩
  · rcases hkept with hstays | ⟨bindings, hdeclared, hall⟩ | ⟨m, -, -, x, u, y, b, hcuts, hfront, -⟩
    · exact absurd hstays (by decide +kernel)
    · refine ⟨bindings, hdeclared, ?_, ?_⟩
      · exact hall "\n  useState" (by decide) (.value ⟨⟨"useState", by decide⟩, none⟩) (by decide) (by decide) _ rfl
      · exact hall "\n  useEffect as effect\n" (by decide) (.value ⟨⟨"useEffect", by decide⟩, some ⟨⟨" ", by decide⟩,
          ⟨" ", by decide⟩, ⟨"effect", by decide⟩⟩⟩) (by decide) (by decide) _ rfl
    · obtain ⟨-, hrest⟩ := List.append_eq_nil_iff.1 hfront.symm
      exact absurd (List.append_eq_nil_iff.1 hrest).1 (hcuts.reads.ne_nil rfl)
  · rcases hlost with hstays | ⟨bindings, hdeclared, hall⟩ | hbehind
    · exact absurd hstays (by decide +kernel)
    · have hb := hall " b " (by decide) (.value ⟨⟨"b", by decide⟩, none⟩) (by decide) (by decide) _ rfl
      have hmem := hdeclared.subset (mem_declaration hb (List.mem_singleton_self 'b'))
      rw [hresult] at hmem
      exact absurd hmem (by decide)
    · exact hbehind

end SnippetPreview.Script
