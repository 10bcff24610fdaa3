import Mathlib.Data.List.Nodup
import SnippetPreview.Proofs.Renderer.ReactImports

/-!
# Names in the script of a React snippet

* `React.imported`, `React.importedTypes`: what lines of imports mean;
* `React.declaredReads`: what their declarations read, which is all that they mean but the hooks that keep their names;
* `React.globalReads_declared`, `React.declaredNames_declared`: these are the reads and the declared names in front of the
  code behind the imports;
* `React.globalReads_hookPrelude_declared`: the reads of the whole script, where that code reads nothing from `React` itself;
* `React.prelude_binds`: so the hooks that are added in front and the imports complement each other.
-/

namespace SnippetPreview.React

open Pattern Script

/-! ### What imports mean -/

/-- The names that lines of imports mean. -/
def imported (lines : List ImportLine) : List NameRead :=
  (lines.flatMap ImportLine.entries).filterMap fun e => e.specifier.read?

/-- The names that lines of imports have as types only. -/
def importedTypes (lines : List ImportLine) : List Text :=
  (lines.flatMap ImportLine.entries).filterMap fun e => e.specifier.type?

/-- The names that the declarations for lines of imports read. -/
def declaredReads (lines : List ImportLine) : List NameRead :=
  (lines.flatMap ImportLine.entries).filterMap fun e => (e.binding? hooks).bind nameRead?

variable {lines : List ImportLine} {rest source : Text}

theorem declaredReads_sublist (lines : List ImportLine) : (declaredReads lines).Sublist (imported lines) := by
  refine filterMap_sublist fun e _ r hr => ?_
  obtain ⟨t, ht, hr⟩ := Option.bind_eq_some_iff.1 hr
  rwa [← Specifier.nameRead?_of_binding? ht]

/-- A name that is not read by a declaration is a hook that keeps its name. -/
theorem mem_declaredReads_or_hook {r : NameRead} (hr : r ∈ imported lines) :
    r ∈ declaredReads lines ∨ r = ⟨r.bound, r.bound⟩ ∧ r.bound ∈ hooks := by
  obtain ⟨e, he, hread⟩ := List.mem_filterMap.1 hr
  cases hbinding : e.binding? hooks with
  | none => exact .inr (Specifier.eq_of_binding?_eq_none hbinding hread)
  | some t =>
    refine .inl (List.mem_filterMap.2 ⟨e, he, ?_⟩)
    rw [hbinding, Option.bind_some, Specifier.nameRead?_of_binding? hbinding, hread]

/-! ### What declarations read -/

theorem plain_binding {l : ImportLine} {t : Text} (ht : t ∈ l.entries.filterMap (Entry.binding? hooks)) :
    ',' ∉ t ∧ '\x7d' ∉ t := by
  obtain ⟨e, -, he⟩ := List.mem_filterMap.1 ht
  have hall := e.isDeclaring_meaning he
  exact ⟨not_mem_of_class (by decide) hall, not_mem_of_class (by decide) hall⟩

theorem globalReads_declared (lines : List ImportLine) (rest : Text) :
    globalReads "React" (lines.flatMap declared ++ rest) = declaredReads lines ++ globalReads "React" rest := by
  induction lines with
  | nil => rfl
  | cons l lines ih =>
    have hline : (l.entries.filterMap (Entry.binding? hooks)).filterMap nameRead?
        = l.entries.filterMap fun e => (e.binding? hooks).bind nameRead? := List.filterMap_filterMap
    rw [List.flatMap_cons, List.append_assoc, declared, globalReads_declaration_append isGlobal_react fun _ => plain_binding,
      ih, hline, declaredReads, declaredReads, List.flatMap_cons, List.filterMap_append, List.append_assoc]

theorem declaredNames_declared (lines : List ImportLine) (rest : Text) :
    declaredNames (lines.flatMap declared ++ rest) = (declaredReads lines).map NameRead.bound ++ declaredNames rest := by
  induction lines with
  | nil => rfl
  | cons l lines ih =>
    have hline : (l.entries.filterMap (Entry.binding? hooks)).map calledName
        = (l.entries.filterMap fun e => (e.binding? hooks).bind nameRead?).map NameRead.bound := by
      rw [List.map_filterMap, List.map_filterMap]
      refine List.filterMap_congr fun e _ => ?_
      cases hbinding : e.binding? hooks with
      | none => rfl
      | some t =>
        rw [Option.bind_some, Specifier.nameRead?_of_binding? hbinding, calledName_of_binding? hbinding]
        rfl
    rw [List.flatMap_cons, List.append_assoc, declared, declaredNames_declaration_append fun _ => plain_binding, ih, hline,
      declaredReads, declaredReads, List.flatMap_cons, List.filterMap_append, List.map_append, List.append_assoc]

/-! ### The code behind the imports -/

/-- A closing brace to which `React` is assigned. -/
def assignsReact : Pattern := chain ["\x7d", many isBlank, "=", many isBlank, "React", wordEdge]

/-- Code without such a brace reads nothing from `React`. -/
theorem readLists_eq_nil {t : Text} (h : assignsReact.isMatch t = false) : readLists "React" t = [] := by
  have hnone : readFromReact.isMatch t = false := by
    refine Bool.eq_false_iff.2 fun hmatch => Bool.eq_false_iff.1 h ?_
    obtain ⟨x, u, y, rfl, hreads⟩ := isMatch_iff.1 hmatch
    obtain ⟨v₁, u, rfl, -, hreads⟩ := reads_seq_iff.1 hreads
    obtain ⟨v₂, u, rfl, -, hreads⟩ := reads_seq_iff.1 hreads
    obtain ⟨v₃, u, rfl, -, hreads⟩ := reads_seq_iff.1 hreads
    obtain ⟨v₄, u, rfl, -, hreads⟩ := reads_seq_iff.1 hreads
    refine isMatch_iff.2 ⟨x ++ v₁ ++ v₂ ++ v₃ ++ v₄, u, y, by simp, ?_⟩
    simp only [lastOf_append]
    exact hreads
  rw [← groupTexts_finds, finds_eq_nil hnone, List.map_nil]

/-- Code in which no import and no export is found stays. -/
theorem dropModuleSyntax_eq_self {t : Text} (himports : IsImportFree t)
    (hexports : exportDefault.isMatch t = false ∧ exportedDeclaration.isMatch t = false) : dropModuleSyntax t = t := by
  rw [dropModuleSyntax_eq, himports.passesEnd.globalizeImports_eq, himports.passesEnd.globalizeImports_eq, dropExports,
    replaceAll_eq_self hexports.1, replaceAll_eq_self hexports.2]

/-! ### Hooks -/

/-- The hooks that the code does not declare. -/
def missingHooks (code : Text) : List Text := hooks.filter fun h => !(declaredNames code).contains h

theorem missingHooks_sublist (code : Text) : (missingHooks code).Sublist hooks := List.filter_sublist

theorem nameRead?_hook : ∀ h ∈ hooks, nameRead? h = some ⟨h, h⟩ := by decide

/-- The prelude reads the hooks that the code does not declare, each under its own name. -/
theorem globalReads_hookPrelude_append (code rest : Text) :
    globalReads "React" (hookPrelude code ++ rest)
      = (missingHooks code).map (fun h => ⟨h, h⟩) ++ globalReads "React" rest := by
  have hreads : (missingHooks code).filterMap nameRead? = (missingHooks code).map fun h => ⟨h, h⟩ := by
    rw [← List.filterMap_eq_map]
    exact List.filterMap_congr fun h hh => nameRead?_hook h ((missingHooks_sublist code).subset hh)
  have hplain : ∀ h ∈ missingHooks code, ',' ∉ h ∧ '\x7d' ∉ h := by
    have hall : ∀ h ∈ hooks, ',' ∉ h ∧ '\x7d' ∉ h := by decide
    exact fun h hh => hall h ((missingHooks_sublist code).subset hh)
  rw [← hreads, hookPrelude, ← missingHooks]
  cases hmissing : missingHooks code with
  | nil => rfl
  | cons b bs =>
    rw [hmissing] at hplain
    have hlists := ignoresBlanks_nameRead?.flatMap_readLists isGlobal_react hplain rest
    have hparts : "const \x7b " ++ Text.join ", " (b :: bs) ++ " \x7d = React;" ++ rest
        = "const \x7b " ++ (Text.join ", " (b :: bs) ++ (" \x7d = " ++ ("React" ++ ';' :: rest))) := by simp
    dsimp only
    rw [hparts]
    exact hlists

/-! ### The script -/

/-- What a script of imports and code that reads nothing from `React` itself reads, with the hooks in front. -/
theorem globalReads_hookPrelude_declared (lines : List ImportLine) (hrest : readLists "React" rest = []) :
    let code := lines.flatMap declared ++ rest
    globalReads "React" (hookPrelude code ++ code)
      = (hooks.filter fun h => !((declaredReads lines).map NameRead.bound).contains h).map (fun h => ⟨h, h⟩)
        ++ declaredReads lines := by
  intro code
  have hreads : globalReads "React" rest = [] := by
    rw [globalReads, hrest]
    rfl
  have hnames : declaredNames rest = [] := by
    rw [declaredNames_eq, hrest]
    rfl
  rw [globalReads_hookPrelude_append, globalReads_declared, hreads, List.append_nil, missingHooks, declaredNames_declared,
    hnames, List.append_nil]

/-- **Imports and hooks complement each other.** Let code begin with lines that import from React, with names that are all
different and none of which is misread. None is misread with single spaces around `as` and behind `type`, where no name that
gets another one is called `type` (`any_isMisread_of_isSpaced`). The code behind the imports assigns `React` to no closing
brace, once its own module syntax is dropped; it stays as it is when it has none (`dropModuleSyntax_eq_self`). Then the script
of the hooks that are added and the rewritten code binds no name of `React` twice. It binds each name that is imported as a
value, and reads it under the name it is imported by; it binds each hook; and no name that is imported as a type only, unless
a hook goes by this name. -/
theorem prelude_binds (hsource : BeginsWith lines rest source)
    (hreact : ∀ l ∈ lines, isWithin ["react"] l.module.1 = true)
    (hread : ∀ l ∈ lines, l.entries.any (Entry.isMisread hooks) = false)
    (hnames : ((imported lines).map NameRead.bound ++ importedTypes lines).Nodup)
    (hrest : assignsReact.isMatch (dropModuleSyntax rest) = false) :
    let code := dropModuleSyntax source
    let reads := globalReads "React" (hookPrelude code ++ code)
    (reads.map NameRead.bound).Nodup
      ∧ (∀ r ∈ imported lines, r ∈ reads)
      ∧ (∀ h ∈ hooks, h ∈ reads.map NameRead.bound)
      ∧ ∀ n ∈ importedTypes lines, n ∉ hooks → n ∉ reads.map NameRead.bound := by
  intro code reads
  let own := (declaredReads lines).map NameRead.bound
  let missing := hooks.filter fun h => !own.contains h
  have hcode : code = lines.flatMap declared ++ dropModuleSyntax rest := dropModuleSyntax_imports hsource hreact hread
  have hreads : reads = missing.map (fun h => ⟨h, h⟩) ++ declaredReads lines := by
    have hdeclared := globalReads_hookPrelude_declared lines (readLists_eq_nil hrest)
    rwa [← hcode] at hdeclared
  have hbound : reads.map NameRead.bound = missing ++ own := by
    rw [hreads, List.map_append, List.map_map]
    exact congrArg (· ++ own) (List.map_id missing)
  have hmissing {h : Text} : h ∈ missing ↔ h ∈ hooks ∧ h ∉ own := by simp [missing]
  rw [List.nodup_append] at hnames
  obtain ⟨himported, -, htypes⟩ := hnames
  have hown : own.Sublist ((imported lines).map NameRead.bound) := (declaredReads_sublist lines).map NameRead.bound
  refine ⟨?_, fun r hr => ?_, fun h hh => ?_, fun n hn hhook => ?_⟩
  · rw [hbound, List.nodup_append]
    have hhooks : hooks.Nodup := by decide
    exact ⟨hhooks.filter _, hown.nodup himported, fun h hh n hn heq => (hmissing.1 hh).2 (heq ▸ hn)⟩
  · rw [hreads]
    rcases mem_declaredReads_or_hook hr with hdeclared | ⟨heq, hhook⟩
    · exact List.mem_append_right _ hdeclared
    · by_cases hmem : r.bound ∈ own
      · -- another name that is declared under the name of the hook would be the same one
        obtain ⟨r', hr', hbound'⟩ := List.mem_map.1 hmem
        have hsame := List.inj_on_of_nodup_map himported ((declaredReads_sublist lines).subset hr') hr hbound'
        exact List.mem_append_right _ (hsame ▸ hr')
      · exact List.mem_append_left _ (List.mem_map.2 ⟨r.bound, hmissing.2 ⟨hhook, hmem⟩, heq.symm⟩)
  · rw [hbound]
    by_cases hmem : h ∈ own
    · exact List.mem_append_right _ hmem
    · exact List.mem_append_left _ (hmissing.2 ⟨hh, hmem⟩)
  · rw [hbound]
    intro hmem
    rcases List.mem_append.1 hmem with hmem | hmem
    · exact hhook (hmissing.1 hmem).1
    · exact htypes n (hown.subset hmem) n hn rfl

theorem isGap_space : (" " : Text).all isGap = true := by decide

theorem isSpace_space : (" " : Text) ≠ [] ∧ (" " : Text).all isGap = true := by decide

/-- An import from React with one space between its parts. -/
def importLine (default? : Option DefaultImport) (specifiers : List Specifier) : ImportLine :=
  { renamedType with
    origin? := some {
      clause := .named default? (specifiers.map fun s => ⟨⟨" ", isGap_space⟩, s, ⟨" ", isGap_space⟩⟩)
      before := ⟨" ", isGap_space⟩
      behind := ⟨" ", isGap_space⟩ } }

/-- A default import, a hook, another hook under the name of a third one, and a type. -/
def renamedHook : List ImportLine := [
  importLine (some ⟨⟨"React", by decide⟩, ⟨[], rfl⟩, ⟨" ", isGap_space⟩⟩) [
    .value ⟨⟨"useState", by decide⟩, none⟩,
    .value ⟨⟨"useRef", by decide⟩, some ⟨⟨" ", isSpace_space⟩, ⟨" ", isSpace_space⟩, ⟨"useMemo", by decide⟩⟩⟩],
  importLine none [.type ⟨" ", isSpace_space⟩ ⟨⟨"FC", by decide⟩, none⟩, .value ⟨⟨"memo", by decide⟩, none⟩]]

/-- The hook is bound under its new name only once, and the type is not bound. -/
theorem prelude_binds_renamedHook :
    let code := dropModuleSyntax ("import React, \x7b useState , useRef as useMemo \x7d from 'react';\n" ++
      "import \x7b type FC , memo \x7d from 'react';\n" ++ "const App = memo(() => useState(0)[0]);")
    let reads := globalReads "React" (hookPrelude code ++ code)
    (reads.map NameRead.bound).Nodup ∧ ⟨"useRef", "useMemo"⟩ ∈ reads ∧ ("useMemo" : Text) ∈ reads.map NameRead.bound ∧
      ("FC" : Text) ∉ reads.map NameRead.bound := by
  let rest : Text := "const App = memo(() => useState(0)[0]);"
  have hsource : renamedHook.flatMap ImportLine.text ++ rest
      = "import React, \x7b useState , useRef as useMemo \x7d from 'react';\n" ++
        "import \x7b type FC , memo \x7d from 'react';\n" ++ "const App = memo(() => useState(0)[0]);" := by decide +kernel
  have hreact : ∀ l ∈ renamedHook, isWithin ["react"] l.module.1 = true := by decide +kernel
  have hspaced : ∀ l ∈ renamedHook, l.entries.all (fun e => e.specifier.isSpaced) = true := by decide +kernel
  have hread : ∀ l ∈ renamedHook, l.entries.any (Entry.isMisread hooks) = false :=
    fun l hl => any_isMisread_of_isSpaced (hspaced l hl)
  have hnames : ((imported renamedHook).map NameRead.bound ++ importedTypes renamedHook).Nodup := by decide +kernel
  have hstays : dropModuleSyntax rest = rest :=
    dropModuleSyntax_eq_self ⟨by decide +kernel, by decide +kernel⟩ (by decide +kernel)
  have hrest : assignsReact.isMatch (dropModuleSyntax rest) = false := by
    rw [hstays]
    decide +kernel
  obtain ⟨honce, hvalues, hhooks, htypes⟩ := prelude_binds (.whole renamedHook rest) hreact hread hnames hrest
  rw [hsource] at honce hvalues hhooks htypes
  exact ⟨honce, hvalues _ (by decide +kernel), hhooks _ (by decide), htypes _ (by decide +kernel) (by decide)⟩

end SnippetPreview.React
