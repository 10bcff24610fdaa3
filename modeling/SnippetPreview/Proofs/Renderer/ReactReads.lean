import SnippetPreview.Proofs.Pattern.Leads
import SnippetPreview.Proofs.Script.GlobalNames
import SnippetPreview.Renderer.React

/-!
# The names that code reads from React

* `React.exists_readList?_of_reads`, `React.exists_first_of_readList?`: the pattern for reads from `React` takes the
  declarations from this global, up to the global, and its group is the list of names;
* `React.groupTexts_finds`: so a search finds the lists of all declarations, in order;
* `React.declaredNames_eq`: the declared names are those in these lists;
* `React.declaredNames_declaration_append`: what a declaration that is written out adds.
-/

namespace SnippetPreview.React

open Pattern Script

theorem isGlobal_react : IsGlobal "React" := ⟨by decide, by decide⟩

/-! ### One declaration -/

/-- What the pattern reads is a declaration. -/
theorem exists_readList?_of_reads {b : Option Char} {u y : Text} (h : Reads readFromReact b u y) :
    ∃ list, readList? "React" (u ++ y) = some (list, y) := by
  obtain ⟨word, u, rfl, hword, h₁⟩ := reads_seq_iff.1 h
  obtain ⟨a, u, rfl, ha, h₂⟩ := reads_seq_iff.1 h₁
  obtain ⟨u, rfl, h₃⟩ := reads_text_seq_iff.1 h₂
  obtain ⟨list, u, rfl, hlist, h₄⟩ := reads_seq_iff.1 h₃
  obtain ⟨u, rfl, h₅⟩ := reads_text_seq_iff.1 h₄
  obtain ⟨b', u, rfl, hb', h₆⟩ := reads_seq_iff.1 h₅
  obtain ⟨u, rfl, h₇⟩ := reads_text_seq_iff.1 h₆
  obtain ⟨e, u, rfl, he, h₈⟩ := reads_seq_iff.1 h₇
  obtain ⟨v, rfl, h₉⟩ := reads_text_seq_iff.1 h₈
  have hedge := reads_last_iff.1 h₉
  have hmem : word ∈ (["const", "let", "var"] : List Text) := by
    rcases reads_alt_iff.1 hword with h | h
    · simp [reads_text_iff.1 h]
    · rcases reads_alt_iff.1 h with h | h
      · simp [reads_text_iff.1 h]
      · simp [reads_text_iff.1 h]
  have hbrace : '\x7d' ∉ list := not_mem_of_class (by decide) (reads_run_iff.1 (reads_group_iff.1 hlist))
  -- the global ends with a letter, so an edge means that no letter follows
  have hhead : y.head?.any isWord = false := by
    cases hedge with
    | wordEdge h =>
      change (isWord 't' != y.head?.any isWord) = true at h
      rw [show isWord 't' = true by decide] at h
      simpa using h
  have hnil : v = [] := by
    cases hedge
    rfl
  refine ⟨list, (readList?_eq_some_iff isGlobal_react).2
    ⟨word, hmem, a, b', e, ⟨reads_run_iff.1 ha, reads_run_iff.1 hb', reads_run_iff.1 he⟩, hbrace, hhead, ?_⟩⟩
  simp [hnil]

variable {k : Cursor} {list r : Text}

theorem first_declarator {word y : Text} (hword : word ∈ (["const", "let", "var"] : List Text)) (hk : k.after = word ++ y) :
    First (oneOf ["const", "let", "var"]) k (.nothing (k.behind word y)) := by
  simp only [List.mem_cons, List.not_mem_nil, or_false] at hword
  rcases hword with rfl | rfl | rfl
  · exact (first_text hk).altLeft _
  · have hconst : Pattern.readings "const" k = [] := readings_eq_nil_of_starts hk rfl (by decide)
    exact .altRight hconst ((first_text hk).altLeft _)
  · have hconst : Pattern.readings "const" k = [] := readings_eq_nil_of_starts hk rfl (by decide)
    have hlet : Pattern.readings "let" k = [] := readings_eq_nil_of_starts hk rfl (by decide)
    exact .altRight hconst (.altRight hlet (first_text hk))

/-- A declaration is read up to the global, and the group is the list of names. -/
theorem exists_first_of_readList? (h : readList? "React" k.after = some (list, r)) :
    ∃ u s, u ≠ [] ∧ k.after = u ++ r ∧ First readFromReact k s ∧ s.stop = k.behind u r ∧
      (Match.ofReading k s).groupText 1 = list := by
  obtain ⟨word, hword, a, b, e, ⟨ha, hb, he⟩, hbrace, hhead, hk⟩ := (readList?_eq_some_iff isGlobal_react).1 h
  have hlist : list.all (charNotOf "\x7d") = true := by
    refine List.all_eq_true.2 fun c hc => ?_
    have hne : c ≠ '\x7d' := fun heq => hbrace (heq ▸ hc)
    simpa [charNotOf] using hne
  have hblank {c : Char} (hc : isBlank c = false) (y : Text) : (c :: y : Text).head?.any isBlank = false := hc
  let z₄ := e ++ ("React".toList ++ r)
  let z₃ := b ++ '=' :: z₄
  let z₂ := list ++ '\x7d' :: z₃
  let u₂ := word ++ a ++ ['\x7b']
  let u₃ := u₂ ++ list ++ ['\x7d']
  let u₄ := u₃ ++ b ++ ['=']
  have hdeclarator := first_declarator hword hk
  have ha := first_many (k := k.behind word (a ++ '\x7b' :: z₂)) rfl ha (hblank (by decide) _)
  have hopen := first_text (k := k.behind (word ++ a) ('\x7b' :: z₂)) (w := ['\x7b']) rfl
  have hgroup := first_group 1 (first_many (k := k.behind u₂ (list ++ '\x7d' :: z₃)) rfl hlist rfl)
  have hclose := first_text (k := k.behind (u₂ ++ list) ('\x7d' :: z₃)) (w := ['\x7d']) rfl
  have hb := first_many (k := k.behind u₃ (b ++ '=' :: z₄)) rfl hb (hblank (by decide) _)
  have hsign := first_text (k := k.behind (u₃ ++ b) ('=' :: z₄)) (w := ['=']) rfl
  have he := first_many (k := k.behind u₄ (e ++ ("React".toList ++ r))) rfl he (hblank (by decide) _)
  have hglobal := first_text (k := k.behind (u₄ ++ e) ("React".toList ++ r)) rfl
  have hedge := first_wordEdge (k := k.behind (u₄ ++ e ++ "React".toList) r) <| by
    rw [Cursor.atWordEdge, Cursor.before_behind, Cursor.after_behind, lastOf_append, hhead]
    show (isWord 't' != false) = true
    decide
  rw [Cursor.behind_behind] at ha hopen hgroup hclose hb hsign he hglobal
  have hrest := hclose.andThen (hb.andThen (hsign.andThen (he.andThen (hglobal.andThen hedge.last))))
  refine ⟨u₄ ++ e ++ "React".toList, _, ?_, ?_, hdeclarator.andThen (ha.andThen (hopen.andThen (hgroup.seq hrest))), rfl, ?_⟩
  · simp
  · rw [hk]
    simp [u₄, u₃, u₂]
  · exact Span.text_behind k u₂ list _ _

/-! ### All declarations -/

theorem readings_of_readList? (h : readList? "React" k.after = none) : readFromReact.readings k = [] := by
  refine readings_eq_nil_iff.2 fun u y hk hreads => ?_
  obtain ⟨list, hlist⟩ := exists_readList?_of_reads hreads
  rw [hk, hlist] at h
  exact absurd h (Option.some_ne_none _)

/-- From each place on, the lists are those of the text behind it. -/
theorem groupTexts_findsFrom (k : Cursor) :
    (readFromReact.findsFrom k).map (fun m => m.groupText 1) = readLists "React" k.after := by
  -- the search goes on behind a declaration, so the induction is on the length of what follows
  induction hn : k.after.length using Nat.strongRecOn generalizing k with
  | ind n ih =>
    cases hread : readList? "React" k.after with
    | none =>
      have hnone := readings_of_readList? hread
      cases hk : k.after with
      | nil =>
        rw [findsFrom_nil hk hnone]
        rfl
      | cons c t =>
        rw [hk] at hread hn
        rw [findsFrom_skip hk hnone, readLists_of_none hread]
        exact ih t.length (hn ▸ Nat.lt_succ_self _) (k.past c t) rfl
    | some p =>
      obtain ⟨list, r⟩ := p
      obtain ⟨u, s, hu, hk, hfirst, hstop, hgroup⟩ := exists_first_of_readList? hread
      have hlength : r.length < n := by
        have hpos := List.length_pos_iff.2 hu
        rw [← hn, hk, List.length_append]
        omega
      rw [findsFrom_match hk hu hfirst hstop, readLists_of_some hread, List.map_cons, hgroup]
      exact congrArg (list :: ·) (ih r.length hlength (k.behind u r) rfl)

/-- **The program's reader.** The pattern finds the lists of all declarations, in order. -/
theorem groupTexts_finds (t : Text) : (readFromReact.finds t).map (fun m => m.groupText 1) = readLists "React" t :=
  groupTexts_findsFrom (.start t)

/-! ### Declared names -/

/-- What the code calls a name between two commas. -/
def calledName (spec : Text) : Text := ((Text.splitOn ':' spec).getLastD spec).trim

theorem calledName_blank_append {a : Text} (ha : a.all isBlank = true) (s : Text) : calledName (a ++ s) = calledName s := by
  have hcolon : ':' ∉ a := not_mem_of_class (by decide) ha
  obtain ⟨first, rest, hs, hsplit⟩ := Text.exists_splitOn_pad hcolon s
  rw [calledName, calledName, hs, hsplit]
  cases rest with
  | nil => exact Text.trim_blank_append ha first
  | cons piece rest => simp only [List.getLastD_cons]

theorem calledName_append_blank {b : Text} (hb : b.all isBlank = true) (s : Text) : calledName (s ++ b) = calledName s := by
  have hcolon : ':' ∉ b := not_mem_of_class (by decide) hb
  obtain ⟨pieces, last, hs, hsplit⟩ := Text.exists_splitOn_append hcolon s
  rw [calledName, calledName, hs, hsplit, List.getLastD_concat, List.getLastD_concat]
  exact Text.trim_append_blank hb last

theorem ignoresBlanks_calledName : IgnoresBlanks (some ∘ calledName) where
  front ha s := congrArg some (calledName_blank_append ha s)
  back hb s := congrArg some (calledName_append_blank hb s)

/-- What a specifier becomes goes by the name that the specifier introduces. -/
theorem calledName_of_binding? {provided : List Text} {s : Specifier} {t : Text} (h : s.binding? provided = some t) :
    s.read?.map NameRead.bound = some (calledName t) := by
  obtain ⟨n, ⟨rfl, rfl⟩ | ⟨r, rfl, rfl⟩⟩ := s.exists_of_binding? h
  · rw [calledName, splitOn_name (by decide)]
    exact congrArg some (trim_name n).symm
  · rw [calledName, splitOn_renamed]
    exact congrArg some (trim_append_name r.name (g := [' ']) (by decide)).symm

/-- The declared names are those in the lists of the declarations. -/
theorem declaredNames_eq (t : Text) :
    declaredNames t = (readLists "React" t).flatMap fun list => (Text.splitOn ',' list).filterMap (some ∘ calledName) := by
  rw [← groupTexts_finds, List.flatMap_map]
  simp only [List.filterMap_eq_map]
  rfl

/-- What a declaration that is written out adds. -/
theorem declaredNames_declaration_append {bs : List Text} (hbs : ∀ b ∈ bs, ',' ∉ b ∧ '\x7d' ∉ b) (rest : Text) :
    declaredNames (declaration "React" bs ++ rest) = bs.map calledName ++ declaredNames rest := by
  rw [declaredNames_eq, declaredNames_eq, ignoresBlanks_calledName.flatMap_readLists_declaration isGlobal_react hbs,
    List.filterMap_eq_map]

end SnippetPreview.React
