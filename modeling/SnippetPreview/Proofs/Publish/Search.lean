import SnippetPreview.Proofs.Files.Tree
import SnippetPreview.Publish.Discover

/-!
# The search for snippets

* `Visits`: names along which a search comes;
* `mem_filesBelow_iff`, `pairwise_filesBelow`: a search finds the files along such names, in the order of their names;
* `isSnippetName_iff`: the names of snippets;
* `soughtFiles`, `IsSought`, `mem_soughtFiles_iff`: the files that are published;
* `discover_eq`, `exists_sources`, `mem_paths_iff`: what is found, once the source directory is.
-/

namespace SnippetPreview

variable {excluded : List Text → Bool} {place names rest : List Text} {name : Text} {n m : Node}
  {es : List (Text × Node)} {c : Content} {f : List Text × Content}

/-! ### One entry after the other -/

/-- The files of one entry. -/
def filesOfEntry (excluded : List Text → Bool) (here : List Text) (name : Text) (n : Node) :
    List (List Text × Content) :=
  if isHidden name then []
  else
    match n with
    | .file c => [(here, c)]
    | .directory es =>
      if skippedDirectories.contains name || excluded here then [] else filesBelow excluded here (.directory es)

theorem filesByEntry_eq (excluded : List Text → Bool) (place : List Text) (es : List (Text × Node)) :
    filesByEntry excluded place es
      = es.map fun e => (e.1, filesOfEntry excluded (place ++ [e.1]) e.1 e.2) := by
  induction es with
  | nil => rfl
  | cons e es ih =>
    obtain ⟨name, m⟩ := e
    rw [List.map_cons, ← ih]
    cases m with
    | file c => rfl
    | directory es => rfl

/-- Names along which a search comes: none is hidden, and no directory on the way is left out. -/
structure Visits (excluded : List Text → Bool) (place names : List Text) : Prop where
  shown : ∀ name ∈ names, isHidden name = false
  wanted : ∀ name ∈ names.dropLast, name ∉ skippedDirectories
  included : ∀ d, d ≠ [] → d <+: names.dropLast → excluded (place ++ d) = false

theorem visits_singleton : Visits excluded place [name] ↔ isHidden name = false := by
  refine ⟨fun h => h.shown name List.mem_cons_self, fun h => ⟨List.forall_mem_singleton.2 h, List.forall_mem_nil _, ?_⟩⟩
  intro d hd hpre
  exact absurd (List.prefix_nil.1 hpre) hd

theorem visits_cons {next : Text} : Visits excluded place (name :: next :: rest) ↔
    isHidden name = false ∧ name ∉ skippedDirectories ∧ excluded (place ++ [name]) = false ∧
      Visits excluded (place ++ [name]) (next :: rest) := by
  have hdrop : (name :: next :: rest).dropLast = name :: (next :: rest).dropLast := rfl
  constructor
  · intro ⟨hshown, hwanted, hincluded⟩
    rw [hdrop] at hwanted hincluded
    obtain ⟨hname, hrest⟩ := List.forall_mem_cons.1 hshown
    obtain ⟨hskip, hskips⟩ := List.forall_mem_cons.1 hwanted
    have hhere := hincluded [name] (List.cons_ne_nil _ _) (List.cons_prefix_cons.2 ⟨rfl, List.nil_prefix⟩)
    refine ⟨hname, hskip, hhere, hrest, hskips, fun d hd hpre => ?_⟩
    rw [List.append_assoc]
    exact hincluded (name :: d) (List.cons_ne_nil _ _) (List.cons_prefix_cons.2 ⟨rfl, hpre⟩)
  · intro ⟨hname, hskip, hhere, hrest, hskips, hincluded⟩
    refine ⟨List.forall_mem_cons.2 ⟨hname, hrest⟩, hdrop ▸ List.forall_mem_cons.2 ⟨hskip, hskips⟩, ?_⟩
    intro d hd hpre
    rw [hdrop] at hpre
    cases d with
    | nil => exact absurd rfl hd
    | cons a d =>
      obtain ⟨rfl, htail⟩ := List.cons_prefix_cons.1 hpre
      rw [List.append_cons]
      cases d with
      | nil => rwa [List.append_nil]
      | cons b d => exact hincluded (b :: d) (List.cons_ne_nil _ _) htail

/-! ### What a search finds -/

/-- Names from `place` on along which a search comes to a file. -/
def LeadsTo (excluded : List Text → Bool) (place : List Text) (n : Node) (names : List Text) (f : List Text × Content) :
    Prop := f.1 = place ++ names ∧ n.at? names = some (.file f.2) ∧ Visits excluded place names

theorem mem_filesOfEntry_iff
    (hm : f ∈ filesBelow excluded (place ++ [name]) m ↔ ∃ rest, rest ≠ [] ∧ LeadsTo excluded (place ++ [name]) m rest f) :
    f ∈ filesOfEntry excluded (place ++ [name]) name m ↔
      ∃ rest, f.1 = place ++ name :: rest ∧ m.at? rest = some (.file f.2) ∧ Visits excluded place (name :: rest) := by
  unfold filesOfEntry
  by_cases hname : isHidden name = true
  · rw [if_pos hname]
    refine ⟨fun h => absurd h List.not_mem_nil, fun ⟨rest, _, _, hvisits⟩ => ?_⟩
    exact absurd hname (Bool.eq_false_iff.1 (hvisits.shown name List.mem_cons_self))
  · rw [if_neg hname]
    have hname : isHidden name = false := Bool.eq_false_iff.2 hname
    cases m with
    | file c =>
      rw [List.mem_singleton]
      constructor
      · rintro rfl
        exact ⟨[], rfl, rfl, visits_singleton.2 hname⟩
      · rintro ⟨rest, hf, hat, -⟩
        cases rest with
        | nil =>
          obtain rfl := Node.file.inj (Option.some.inj hat)
          exact Prod.ext hf rfl
        | cons next rest => exact absurd hat nofun
    | directory es =>
      dsimp only
      by_cases hout : (skippedDirectories.contains name || excluded (place ++ [name])) = true
      · rw [if_pos hout]
        refine ⟨fun h => absurd h List.not_mem_nil, fun ⟨rest, _, hat, hvisits⟩ => ?_⟩
        cases rest with
        | nil => exact absurd hat nofun
        | cons next rest =>
          obtain ⟨-, hskip, hincluded, -⟩ := visits_cons.1 hvisits
          rw [hincluded, Bool.or_false] at hout
          exact absurd (List.contains_iff_mem.1 hout) hskip
      · rw [if_neg hout, hm]
        rw [Bool.not_eq_true, Bool.or_eq_false_iff] at hout
        obtain ⟨hskip, hincluded⟩ := hout
        have hskip : name ∉ skippedDirectories := fun h => Bool.eq_false_iff.1 hskip (List.contains_iff_mem.2 h)
        constructor
        · rintro ⟨rest, hne, hf, hat, hvisits⟩
          refine ⟨rest, by rw [hf, List.append_assoc]; rfl, hat, ?_⟩
          cases rest with
          | nil => exact absurd rfl hne
          | cons next rest => exact visits_cons.2 ⟨hname, hskip, hincluded, hvisits⟩
        · rintro ⟨rest, hf, hat, hvisits⟩
          cases rest with
          | nil => exact absurd hat nofun
          | cons next rest =>
            exact ⟨next :: rest, List.cons_ne_nil _ _, by rw [hf, List.append_assoc]; rfl, hat,
              (visits_cons.1 hvisits).2.2.2⟩

theorem pairwise_filesOfEntry (hm : (filesBelow excluded (place ++ [name]) m).Pairwise fun f g => f.1 < g.1) :
    (filesOfEntry excluded (place ++ [name]) name m).Pairwise fun f g => f.1 < g.1 := by
  unfold filesOfEntry
  split
  · exact List.Pairwise.nil
  · split
    · exact List.pairwise_singleton _ _
    · split
      · exact List.Pairwise.nil
      · exact hm

theorem mem_filesBelow_directory : f ∈ filesBelow excluded place (.directory es) ↔
    ∃ e ∈ es, f ∈ filesOfEntry excluded (place ++ [e.1]) e.1 e.2 := by
  rw [filesBelow, filesByEntry_eq, List.mem_flatMap]
  constructor
  · rintro ⟨files, hfiles, hf⟩
    obtain ⟨e, he, rfl⟩ := List.mem_map.1 (List.mem_mergeSort.1 hfiles)
    exact ⟨e, he, hf⟩
  · rintro ⟨e, he, hf⟩
    exact ⟨_, List.mem_mergeSort.2 (List.mem_map.2 ⟨e, he, rfl⟩), hf⟩

/-- Entries that stand in order are searched one after the other. -/
theorem filesBelow_of_pairwise (h : es.Pairwise fun a b => a.1 < b.1) :
    filesBelow excluded place (.directory es) = es.flatMap fun e => filesOfEntry excluded (place ++ [e.1]) e.1 e.2 := by
  rw [filesBelow, filesByEntry_eq, List.mergeSort_of_pairwise, List.flatMap_map]
  refine List.pairwise_map.2 (h.imp fun {a b} hab => ?_)
  rw [Bool.not_eq_true', decide_eq_false_iff_not]
  exact List.le_of_lt hab

/-- A search finds the files along the names that it visits. -/
theorem mem_filesBelow_iff (hn : n.HasDistinctNames) :
    f ∈ filesBelow excluded place n ↔ ∃ names, names ≠ [] ∧ LeadsTo excluded place n names f := by
  induction n using Node.entriesInduction generalizing place with
  | file c =>
    rw [filesBelow]
    refine ⟨fun h => absurd h List.not_mem_nil, ?_⟩
    rintro ⟨names, hne, -, hat, -⟩
    cases names with
    | nil => exact absurd rfl hne
    | cons name rest => exact absurd hat nofun
  | directory es ih =>
    rw [mem_filesBelow_directory]
    constructor
    · rintro ⟨⟨name, m⟩, he, hf⟩
      obtain ⟨rest, hname, hat, hvisits⟩ := (mem_filesOfEntry_iff (ih (name, m) he (hn.of_mem he))).1 hf
      refine ⟨name :: rest, List.cons_ne_nil _ _, hname, ?_, hvisits⟩
      rw [Node.at?_cons, Node.child?_directory, hn.mem_iff.1 he]
      exact hat
    · rintro ⟨names, hne, hf, hat, hvisits⟩
      cases names with
      | nil => exact absurd rfl hne
      | cons name rest =>
        obtain ⟨m, hm, hat⟩ := Option.bind_eq_some_iff.1 hat
        have he : (name, m) ∈ es := hn.mem_iff.2 hm
        exact ⟨(name, m), he, (mem_filesOfEntry_iff (ih (name, m) he (hn.of_mem he))).2 ⟨rest, hf, hat, hvisits⟩⟩

/-- The files of an entry begin with its name. -/
theorem eq_append_of_mem_filesOfEntry (hn : m.HasDistinctNames)
    (hf : f ∈ filesOfEntry excluded (place ++ [name]) name m) : ∃ rest, f.1 = place ++ name :: rest := by
  obtain ⟨rest, hrest, -⟩ := (mem_filesOfEntry_iff (mem_filesBelow_iff hn)).1 hf
  exact ⟨rest, hrest⟩

/-- Entries in the order of their names, when no two have the same name. -/
theorem pairwise_mergeSort_name {α : Type} {le : Text × α → Text × α → Bool}
    (hle : ∀ a b, le a b = true ↔ ¬ b.1 < a.1) {entries : List (Text × α)} (hnodup : (entries.map Prod.fst).Nodup) :
    (entries.mergeSort le).Pairwise fun a b => a.1 < b.1 := by
  have htrans : ∀ a b c : Text × α, le a b = true → le b c = true → le a c = true := by
    intro a b c hab hbc
    rw [hle] at *
    exact List.le_trans hab hbc
  have htotal : ∀ a b : Text × α, (le a b || le b a) = true := by
    intro a b
    rw [Bool.or_eq_true, hle, hle]
    exact List.le_total a.1 b.1
  have hne : (entries.mergeSort le).Pairwise fun a b => a.1 ≠ b.1 :=
    List.pairwise_map.1 (((List.mergeSort_perm entries le).map Prod.fst).nodup_iff.2 hnodup)
  refine ((List.pairwise_mergeSort htrans htotal entries).and hne).imp fun {a b} ⟨hab, hne⟩ => ?_
  rw [hle] at hab
  exact Decidable.byContradiction fun hba => hne (List.le_antisymm hab hba)

/-- A search comes to the files in the order of their names. -/
theorem pairwise_filesBelow (hn : n.HasDistinctNames) :
    (filesBelow excluded place n).Pairwise fun f g => f.1 < g.1 := by
  induction n using Node.entriesInduction generalizing place with
  | file c =>
    rw [filesBelow]
    exact List.Pairwise.nil
  | directory es ih =>
    rw [filesBelow, filesByEntry_eq, List.pairwise_flatMap]
    constructor
    · intro files hfiles
      obtain ⟨⟨name, m⟩, he, rfl⟩ := List.mem_map.1 (List.mem_mergeSort.1 hfiles)
      exact pairwise_filesOfEntry (ih (name, m) he (hn.of_mem he))
    · have hle : ∀ a b : Text × List (List Text × Content), (!decide (b.1 < a.1)) = true ↔ ¬ b.1 < a.1 := by simp
      have hnames : ((es.map fun e => (e.1, filesOfEntry excluded (place ++ [e.1]) e.1 e.2)).map Prod.fst).Nodup := by
        rw [List.map_map]
        exact hn.nodup
      refine (pairwise_mergeSort_name hle hnames).imp_of_mem fun {a b} ha hb hab f hf g hg => ?_
      obtain ⟨d, hd, rfl⟩ := List.mem_map.1 (List.mem_mergeSort.1 ha)
      obtain ⟨e, he, rfl⟩ := List.mem_map.1 (List.mem_mergeSort.1 hb)
      obtain ⟨rest, hf⟩ := eq_append_of_mem_filesOfEntry (hn.of_mem hd) hf
      obtain ⟨rest', hg⟩ := eq_append_of_mem_filesOfEntry (hn.of_mem he) hg
      rw [hf, hg]
      exact List.append_left_lt (List.cons_lt_cons_iff.2 (.inl hab))

/-! ### The names of snippets -/

/-- A name with a dot is cut at its last one, unless that is also the first character. -/
theorem splitName_append {stem ext : Text} (hext : '.' ∉ ext) :
    Path.splitName (stem ++ '.' :: ext) = if stem = [] then ('.' :: ext, none) else (stem, some ext) := by
  have hextension : ((stem ++ '.' :: ext).reverse.takeWhile (· != '.')).reverse = ext := by
    have hall : ∀ c ∈ ext.reverse, (c != '.') = true := fun c hc =>
      bne_iff_ne.2 fun h => hext (h ▸ List.mem_reverse.1 hc)
    rw [List.reverse_append, List.reverse_cons, List.append_assoc, List.takeWhile_append_of_pos hall]
    simp
  have hstem : (stem ++ '.' :: ext).length - ext.length - 1 = stem.length := by
    simp only [List.length_append, List.length_cons]
    omega
  have hshort : ext.length ≠ (stem ++ '.' :: ext).length := by
    simp only [List.length_append, List.length_cons]
    omega
  unfold Path.splitName
  simp only [hextension, hstem, hshort, decide_false, Bool.false_or, List.take_left]
  cases stem with
  | nil => rfl
  | cons c stem => rfl

theorem exists_of_extension? {ext : Text} (h : Path.extension? name = some ext) :
    ∃ stem, name = stem ++ '.' :: ext ∧ stem ≠ [] := by
  unfold Path.extension? at h
  by_cases hdot : '.' ∈ name
  · obtain ⟨back, front, hname, hback⟩ := List.eq_append_cons_of_mem (List.mem_reverse.2 hdot)
    have hname : name = front.reverse ++ '.' :: back.reverse := by
      rw [← List.reverse_reverse name, hname]
      simp
    rw [hname, splitName_append fun hmem => hback (List.mem_reverse.1 hmem)] at h
    by_cases hstem : front.reverse = []
    · rw [if_pos hstem] at h
      exact absurd h nofun
    · rw [if_neg hstem] at h
      exact ⟨_, Option.some.inj h ▸ hname, hstem⟩
  · have hall : ∀ c ∈ name.reverse, (c != '.') = true := fun c hc =>
      bne_iff_ne.2 fun h => hdot (h ▸ List.mem_reverse.1 hc)
    have hwhole : name.reverse.takeWhile (· != '.') = name.reverse := by
      have happend : (name.reverse ++ []).takeWhile (· != '.') = name.reverse ++ [].takeWhile (· != '.') :=
        List.takeWhile_append_of_pos hall
      rwa [List.append_nil, List.takeWhile_nil, List.append_nil] at happend
    unfold Path.splitName at h
    simp [hwhole] at h

/-- A name is that of a snippet when it ends with one of the extensions, in small or capital letters. -/
theorem isSnippetName_iff : isSnippetName name = true ↔
    ∃ stem ext, name = stem ++ '.' :: ext ∧ stem ≠ [] ∧ Text.lowerAscii ext ∈ snippetExtensions := by
  constructor
  · intro h
    obtain ⟨ext, hext, hlisted⟩ := (Option.any_eq_true _ _).1 h
    obtain ⟨stem, hname, hstem⟩ := exists_of_extension? hext
    exact ⟨stem, ext, hname, hstem, List.contains_iff_mem.1 hlisted⟩
  · rintro ⟨stem, ext, rfl, hstem, hlisted⟩
    have hdot : '.' ∉ ext := by
      have hnone : ∀ e ∈ snippetExtensions, '.' ∉ e := by decide
      intro h
      exact hnone _ hlisted (List.mem_map_of_mem (f := Char.toLower) h)
    have hextension : Path.extension? (stem ++ '.' :: ext) = some ext := by
      unfold Path.extension?
      rw [splitName_append hdot, if_neg hstem]
    unfold isSnippetName
    rw [hextension]
    exact List.contains_iff_mem.2 hlisted

/-! ### The files that are published -/

variable {source output : Text}

/-- The files that are published, in the tree `n` with the source directory `m` at `place`. -/
def soughtFiles (n : Node) (source output : Text) (place : List Text) (m : Node) : List (List Text × Content) :=
  (filesBelow (fun names => (n.canonical output).toOption == some (place ++ names)) [] m).filter fun (names, _) =>
    names.getLast?.any isSnippetName && isWithinReach (Path.join source (slashPath names))

/-- The names, in the source directory at `place`, are those of a file to be published: it has the extension of a snippet,
nothing on the way to it is hidden, and none of the directories on the way is one of those that hold no snippets or the
output directory. -/
structure IsSought (n : Node) (output : Text) (place names : List Text) : Prop where
  isSnippet : ∃ dirs stem ext, names = dirs ++ [stem ++ '.' :: ext] ∧ stem ≠ [] ∧ Text.lowerAscii ext ∈ snippetExtensions
  shown : ∀ name ∈ names, name.head? ≠ some '.'
  wanted : ∀ name ∈ names.dropLast, name ∉ skippedDirectories
  apart : ∀ d, d ≠ [] → d <+: names.dropLast → n.canonical output ≠ .ok (place ++ d)

theorem any_isSnippetName_iff : names.getLast?.any isSnippetName = true ↔
    ∃ dirs stem ext, names = dirs ++ [stem ++ '.' :: ext] ∧ stem ≠ [] ∧ Text.lowerAscii ext ∈ snippetExtensions := by
  constructor
  · intro h
    obtain ⟨name, hlast, hname⟩ := (Option.any_eq_true _ _).1 h
    obtain ⟨dirs, rfl⟩ := List.getLast?_eq_some_iff.1 hlast
    obtain ⟨stem, ext, rfl, hstem, hext⟩ := isSnippetName_iff.1 hname
    exact ⟨dirs, stem, ext, rfl, hstem, hext⟩
  · rintro ⟨dirs, stem, ext, rfl, hstem, hext⟩
    rw [List.getLast?_concat]
    exact isSnippetName_iff.2 ⟨stem, ext, rfl, hstem, hext⟩

theorem isSought_iff : IsSought n output place names ↔ names.getLast?.any isSnippetName = true ∧
    Visits (fun names => (n.canonical output).toOption == some (place ++ names)) [] names := by
  have happart : ∀ d, ((n.canonical output).toOption == some (place ++ d)) = false
      ↔ n.canonical output ≠ .ok (place ++ d) := by
    intro d
    rw [beq_eq_false_iff_ne]
    refine not_congr ?_
    cases n.canonical output with
    | ok p => exact ⟨fun h => congrArg _ (Option.some.inj h), fun h => congrArg _ (Except.ok.inj h)⟩
    | error e => exact ⟨nofun, nofun⟩
  have hshown : ∀ name : Text, isHidden name = false ↔ name.head? ≠ some '.' := fun name => beq_eq_false_iff_ne
  constructor
  · intro ⟨hsnippet, hshow, hwanted, hapart⟩
    exact ⟨any_isSnippetName_iff.2 hsnippet, fun name hname => (hshown name).2 (hshow name hname), hwanted,
      fun d hd hpre => (happart d).2 (hapart d hd hpre)⟩
  · intro ⟨hsnippet, hshow, hwanted, hincluded⟩
    exact ⟨any_isSnippetName_iff.1 hsnippet, fun name hname => (hshown name).1 (hshow name hname), hwanted,
      fun d hd hpre => (happart d).1 (hincluded d hd hpre)⟩

theorem mem_soughtFiles_iff (hm : m.HasDistinctNames) : f ∈ soughtFiles n source output place m ↔
    m.at? f.1 = some (.file f.2) ∧ IsSought n output place f.1 ∧
      Text.byteSize (Path.join source (slashPath f.1)) ≤ maxPathBytes := by
  unfold soughtFiles
  rw [List.mem_filter, mem_filesBelow_iff hm, Bool.and_eq_true, isSought_iff]
  have hreach : isWithinReach (Path.join source (slashPath f.1)) = true
      ↔ Text.byteSize (Path.join source (slashPath f.1)) ≤ maxPathBytes := decide_eq_true_iff
  rw [hreach]
  constructor
  · rintro ⟨⟨names, _, hf, hat, hvisits⟩, hsnippet, hshort⟩
    rw [List.nil_append] at hf
    exact ⟨hf ▸ hat, ⟨hsnippet, hf ▸ hvisits⟩, hshort⟩
  · rintro ⟨hat, ⟨hsnippet, hvisits⟩, hshort⟩
    have hne : f.1 ≠ [] := fun h => by rw [h] at hsnippet; exact absurd hsnippet nofun
    exact ⟨⟨f.1, hne, rfl, hat, hvisits⟩, hsnippet, hshort⟩

theorem pairwise_soughtFiles (hm : m.HasDistinctNames) :
    (soughtFiles n source output place m).Pairwise fun f g => f.1 < g.1 :=
  (pairwise_filesBelow hm).filter _

/-! ### Finding them -/

theorem readSources_eq_ok_iff {files : List (List Text × Content)} {sources : List (List Text × Text)} :
    readSources source files = .ok sources ↔ files = sources.map fun s => (s.1, .text s.2) := by
  induction files generalizing sources with
  | nil =>
    cases sources with
    | nil => exact iff_of_true rfl rfl
    | cons s rest => exact iff_of_false nofun nofun
  | cons file files ih =>
    obtain ⟨names, c⟩ := file
    cases c with
    | text t =>
      rw [readSources]
      constructor
      · intro h
        cases hread : readSources source files with
        | error e => rw [hread] at h; exact absurd h nofun
        | ok rest =>
          rw [hread] at h
          obtain rfl := Except.ok.inj h
          rw [List.map_cons, ← ih.1 hread]
      · intro h
        cases sources with
        | nil => exact absurd h nofun
        | cons s rest =>
          obtain ⟨hfile, hfiles⟩ := List.cons.inj h
          obtain ⟨rfl, ht⟩ := Prod.mk.inj hfile
          rw [ih.2 hfiles, Content.text.inj ht]
          rfl
    | binary bytes =>
      refine ⟨fun h => absurd h nofun, fun h => ?_⟩
      cases sources with
      | nil => exact absurd h nofun
      | cons s rest => exact absurd (Prod.mk.inj (List.cons.inj h).1).2 nofun

/-- The first file that is no text is what is said to be unreadable. -/
theorem readSources_of_binary {front back : List (List Text × Content)} {bytes : List UInt8}
    (hfront : ∀ f ∈ front, ∃ t, f.2 = .text t) :
    readSources source (front ++ (names, .binary bytes) :: back)
      = .error (.unreadable (Path.join source (slashPath names)) .notText) := by
  induction front with
  | nil => rfl
  | cons f front ih =>
    obtain ⟨⟨t, ht⟩, htail⟩ := List.forall_mem_cons.1 hfront
    obtain ⟨names', c⟩ := f
    obtain rfl : c = .text t := ht
    rw [List.cons_append, readSources, ih htail]
    rfl

theorem map_withSlugs (taken : List Text) (sources : List (List Text × Text)) :
    (withSlugs taken sources).map (fun s => (s.path, s.source)) = sources.map fun s => (slashPath s.1, s.2) := by
  induction sources generalizing taken with
  | nil => rfl
  | cons s sources ih => exact congrArg _ (ih _)

/-- Once the source directory is found, the files in it that are sought are read, and get their slugs. -/
theorem discover_eq (hplace : n.resolve source = .ok place) (hes : n.at? place = some (.directory es)) :
    discover n source output
      = (readSources source (soughtFiles n source output place (.directory es))).map (withSlugs []) := by
  have hfind := Node.find_eq_ok_iff.2 ⟨place, hplace, hes⟩
  unfold discover
  rw [hplace, hfind]
  show (readSources source (soughtFiles n source output place (.directory es)) >>= _) = _
  cases readSources source (soughtFiles n source output place (.directory es)) <;> rfl

/-- Nothing is found unless the source directory is. -/
theorem exists_of_discover_eq_ok {snippets : List Snippet} (h : discover n source output = .ok snippets) :
    ∃ place es, n.resolve source = .ok place ∧ n.at? place = some (.directory es) := by
  unfold discover at h
  split at h
  · next place es hplace hfind =>
    obtain ⟨place', hplace', hes⟩ := Node.find_eq_ok_iff.1 hfind
    obtain rfl := Except.ok.inj (hplace.symm.trans hplace')
    exact ⟨place, es, hplace, hes⟩
  · exact absurd h nofun

/-- The snippets are the files that are sought, all of them texts. -/
theorem exists_sources {snippets : List Snippet} (h : discover n source output = .ok snippets) :
    ∃ place es sources, n.resolve source = .ok place ∧ n.at? place = some (.directory es) ∧
      soughtFiles n source output place (.directory es) = sources.map (fun s => (s.1, .text s.2)) ∧
      snippets = withSlugs [] sources := by
  obtain ⟨place, es, hplace, hes⟩ := exists_of_discover_eq_ok h
  rw [discover_eq hplace hes] at h
  cases hread : readSources source (soughtFiles n source output place (.directory es)) with
  | error e =>
    rw [hread] at h
    exact absurd h nofun
  | ok sources =>
    rw [hread] at h
    exact ⟨place, es, sources, hplace, hes, readSources_eq_ok_iff.1 hread, (Except.ok.inj h).symm⟩

/-- The paths of the snippets are those of the files that are sought, as far as the system reaches them. -/
theorem mem_paths_iff {snippets : List Snippet} (hn : n.HasDistinctNames) (h : discover n source output = .ok snippets)
    (hplace : n.resolve source = .ok place) {path : Text} : path ∈ snippets.map Snippet.path ↔
      ∃ names c, n.at? (place ++ names) = some (.file c) ∧ IsSought n output place names ∧
        Text.byteSize (Path.join source (slashPath names)) ≤ maxPathBytes ∧ path = slashPath names := by
  obtain ⟨place', es, sources, hplace', hes, hfiles, rfl⟩ := exists_sources h
  obtain rfl := Except.ok.inj (hplace.symm.trans hplace')
  have hpaths : (withSlugs [] sources).map Snippet.path
      = (soughtFiles n source output place (.directory es)).map fun f => slashPath f.1 := by
    have := congrArg (List.map Prod.fst) (map_withSlugs [] sources)
    rw [List.map_map, List.map_map] at this
    rw [hfiles, List.map_map]
    exact this
  rw [hpaths, List.mem_map]
  constructor
  · rintro ⟨f, hf, rfl⟩
    obtain ⟨hat, hsought, hshort⟩ := (mem_soughtFiles_iff (hn.of_at? hes)).1 hf
    exact ⟨f.1, f.2, by rw [Node.at?_append, hes]; exact hat, hsought, hshort, rfl⟩
  · rintro ⟨names, c, hat, hsought, hshort, rfl⟩
    rw [Node.at?_append, hes] at hat
    exact ⟨(names, c), (mem_soughtFiles_iff (hn.of_at? hes)).2 ⟨hat, hsought, hshort⟩, rfl⟩

end SnippetPreview
