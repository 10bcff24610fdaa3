import Mathlib.Data.List.Sort
import SnippetPreview.Proofs.Publish.Directory

/-!
# Publishing once more

* `discover_eq_of_sought`: a tree that has grown gives the same snippets when the files that are sought are the same;
* `StaysApart`: what was published is not in the way of the next search;
* `publishScheduled_again`: then a second publication returns the same previews and changes nothing;
* `publishToDirectory_into_source`, `publishToDirectory_through_new`: what comes of it otherwise, be it that the output
  directory is the source directory, or that its path leads there only after the first publication.
-/

namespace SnippetPreview

open Attempt

variable {n n' : Node} {source output : Text} {place out names : List Text} {written : List Text → Prop}
  {c : PublishConfig} {snippets : List Snippet}

/-! ### The same search in a tree that has grown -/

theorem isSought_congr (h : n.canonical output = n'.canonical output) :
    IsSought n output place names ↔ IsSought n' output place names :=
  ⟨fun ⟨hsnippet, hshown, hwanted, hapart⟩ => ⟨hsnippet, hshown, hwanted, h ▸ hapart⟩,
    fun ⟨hsnippet, hshown, hwanted, hapart⟩ => ⟨hsnippet, hshown, hwanted, h.symm ▸ hapart⟩⟩

/-- Where the same files are sought, the same snippets are found. -/
theorem discover_eq_of_sought (hn : n.HasDistinctNames) (hgrows : n.Grows written n')
    (hfound : discover n source output = .ok snippets)
    (hsame : ∀ place names body, n.resolve source = .ok place →
      (n'.at? (place ++ names) = some (.file body) ∧ IsSought n' output place names ↔
        n.at? (place ++ names) = some (.file body) ∧ IsSought n output place names)) :
    discover n' source output = .ok snippets := by
  obtain ⟨place, es, hplace, hes⟩ := exists_of_discover_eq_ok hfound
  obtain ⟨es', hes'⟩ := Node.look_directory_iff.1 (hgrows.directory (Node.look_directory_iff.2 ⟨es, hes⟩))
  have hm := hn.of_at? hes
  have hm' := (hgrows.distinct hn).of_at? hes'
  have hfiles : soughtFiles n' source output place (.directory es')
      = soughtFiles n source output place (.directory es) := by
    have hantisymm : Std.Antisymm fun f g : List Text × Content => f.1 < g.1 :=
      ⟨fun f g hfg hgf => absurd hgf (List.lt_asymm hfg)⟩
    have hirrefl : Std.Irrefl fun f g : List Text × Content => f.1 < g.1 := ⟨fun f => List.lt_irrefl f.1⟩
    refine (pairwise_soughtFiles hm').eq_of_mem_iff (pairwise_soughtFiles hm) fun f => ?_
    have hiff := hsame place f.1 f.2 hplace
    rw [Node.at?_append, Node.at?_append, hes, hes', Option.bind_some, Option.bind_some] at hiff
    rw [mem_soughtFiles_iff hm, mem_soughtFiles_iff hm', ← and_assoc, ← and_assoc, hiff]
  rw [discover_eq (hgrows.resolve hplace) hes', hfiles, ← discover_eq hplace hes, hfound]

/-! ### What is published does not disturb the search -/

/-- A publication from the tree `n`, which left the tree `n'`, is not in the way of the next search. -/
structure StaysApart (n n' : Node) (c : PublishConfig) : Prop where
  /-- The path of the output directory leads to the same place in both trees, or nothing was at that place before. -/
  output : ∀ out, n'.walk [] (Path.steps c.output) = .ok out →
    n.canonical c.output = n'.canonical c.output ∨ n.at? out = none
  /-- When the output directory is the source directory or one around it, each object that a search could find there was
  there before. -/
  objects : ∀ snippets place out, discover n c.source c.output = .ok snippets → n.resolve c.source = .ok place →
    n'.walk [] (Path.steps c.output) = .ok out → out <+: place →
    ∀ o ∈ publishedObjects c.directory.storage c snippets, ∀ names,
      n'.canonical (Path.join c.output o.1) = .ok (place ++ names) → IsSought n' c.output place names →
      n.at? (place ++ names) = some (.file o.2)

/-- The search looks for the same names in both trees, as far as there are files. -/
theorem isSought_iff_of_grows (hgrows : n.Grows written n') (hout : n'.Leads [] (Path.steps output) out)
    (houtput : n.canonical output = n'.canonical output ∨ n.at? out = none)
    (hthere : ∃ m, n.at? (place ++ names) = some m) :
    IsSought n' output place names ↔ IsSought n output place names := by
  rcases houtput with hsame | hfresh
  · exact (isSought_congr hsame).symm
  · cases hcanonical : n.canonical output with
    | ok p => exact isSought_congr ((hgrows.canonical hcanonical).trans hcanonical.symm)
    | error e =>
      refine ⟨fun h => ⟨h.isSnippet, h.shown, h.wanted, fun d _ _ => by rw [hcanonical]; exact nofun⟩, fun h => ?_⟩
      refine ⟨h.isSnippet, h.shown, h.wanted, fun d _ hpre hd => ?_⟩
      -- the output directory would be on the way to what is there
      obtain rfl := hout.unique (Node.canonical_eq_ok_iff.1 hd).2
      obtain ⟨m, hm⟩ := hthere
      obtain ⟨rest, hrest⟩ := hpre.trans (List.dropLast_prefix names)
      rw [← hrest, ← List.append_assoc, Node.at?_append, hfresh] at hm
      exact absurd hm nofun

theorem checkText_of_join {base path : Text} (habs : Path.isAbsolute path = false) (hbase : base ≠ [])
    (h : Node.checkText (Path.join base path) = .ok ()) : Node.checkText base = .ok () := by
  have hsub : base ⊆ Path.join base path := by
    unfold Path.join
    rw [habs, Bool.false_or, if_neg fun hnil => hbase (List.isEmpty_iff.1 hnil)]
    split <;> exact List.subset_append_left _ _
  exact Node.checkText_eq_ok_iff.2 ⟨fun hzero => (Node.checkText_eq_ok_iff.1 h).1 (hsub hzero), hbase⟩

/-- What is in an output directory below the source directory is not sought. -/
theorem not_isSought_of_output {rest : List Text} (hcanonical : n.canonical output = .ok out) (hpre : ¬ out <+: place)
    (hrest : rest ≠ []) (hq : place ++ names = out ++ rest) : ¬ IsSought n output place names := by
  intro hsought
  have hnames : place <+: out ++ rest := hq ▸ List.prefix_append place names
  have hcontains : place <+: out :=
    (List.prefix_or_prefix_of_prefix (List.prefix_append out rest) hnames).resolve_left hpre
  obtain ⟨d, rfl⟩ := hcontains
  have hd : d ≠ [] := by
    rintro rfl
    rw [List.append_nil] at hpre
    exact hpre List.prefix_rfl
  have hdirs : d <+: names.dropLast := by
    rw [List.append_assoc] at hq
    rw [List.append_cancel_left hq, List.dropLast_append_of_ne_nil hrest]
    exact List.prefix_append _ _
  exact hsought.apart d hd hdirs hcanonical

/-- An object that a search could find was there before, since the output directory is left out below the source
directory. -/
theorem at?_iff_of_isSought (hapart : StaysApart n n' c)
    (hdiscover : discover n c.source c.output = .ok snippets) (hplace : n.resolve c.source = .ok place)
    (hgrows : n.Grows (c.directory.IsPlaceOf n' (publishedObjects c.directory.storage c snippets)) n')
    (hkeeps : ∀ o ∈ publishedObjects c.directory.storage c snippets, ∃ q, c.directory.Keeps n' q o)
    (hsought : IsSought n' c.output place names) {body : Content} :
    n'.at? (place ++ names) = some (.file body) ↔ n.at? (place ++ names) = some (.file body) := by
  by_cases hwritten : c.directory.IsPlaceOf n' (publishedObjects c.directory.storage c snippets) (place ++ names)
  · obtain ⟨o, ho, out, hout, hq⟩ := hwritten
    obtain ⟨q, hkept⟩ := hkeeps o ho
    obtain ⟨out', hout', rfl⟩ := hkept.exists_root
    obtain rfl := hout.unique hout'
    have hcheck := Node.checkText_of_checkPath hkept.file.check
    by_cases hpre : out <+: place
    · have hcanonical : n'.canonical (Path.join c.output o.1) = .ok (place ++ names) :=
        Node.canonical_eq_ok_iff.2 ⟨hcheck, hq ▸ hkept.file.leads⟩
      have hbefore := hapart.objects _ _ _ hdiscover hplace (Node.walk_eq_ok_iff.2 hout) hpre o ho names hcanonical
        hsought
      have hafter : n'.at? (place ++ names) = some (.file o.2) := hq ▸ Node.look_file_iff.1 hkept.file.look
      rw [hafter, hbefore]
    · have houtput : c.output ≠ [] := by
        intro hnil
        have hroot : c.directory.root = [] := hnil
        rw [hroot] at hout
        obtain rfl := hout.unique (.done [])
        exact hpre List.nil_prefix
      have hcanonical : n'.canonical c.output = .ok out := Node.canonical_eq_ok_iff.2
        ⟨checkText_of_join (Directory.isAbsolute_of_isPlain hkept.plain) houtput hcheck, hout⟩
      exact absurd hsought (not_isSought_of_output hcanonical hpre (Directory.names_ne_nil hkept.plain) hq)
  · rw [← Node.look_file_iff, ← Node.look_file_iff]
    exact hgrows.file hwritten

/-- What a publication into a directory has done when it succeeds. -/
theorem publishScheduled_written {schedule : List Snippet → List Snippet}
    (hschedule : ∀ snippets, (schedule snippets).Perm snippets) {previews : List PublishedPreview}
    (h : perform (publishScheduled c.directory.storage schedule n c) n = (.ok previews, n')) :
    ∃ snippets, discover n c.source c.output = .ok snippets ∧
      previews = snippets.map (Snippet.published c.directory.storage) ∧
      n.Grows (c.directory.IsPlaceOf n' (publishedObjects c.directory.storage c snippets)) n' ∧
      ∀ o ∈ publishedObjects c.directory.storage c snippets, ∃ q, c.directory.Keeps n' q o := by
  obtain ⟨snippets, hdiscover, hpreviews, hput⟩ := publishScheduled_ok _ h
  have hperm := perm_publishedObjects c.directory.storage c (hschedule snippets)
  have hnames := Directory.nodup_names c.directory.storage c (isSlug_slugs hdiscover) (nodup_slugs hdiscover)
  obtain ⟨hgrows, hkeeps⟩ := Directory.putAll_ok hput ((hperm.map _).nodup_iff.2 hnames)
  refine ⟨snippets, hdiscover, hpreviews, ?_, fun o ho => hkeeps o (hperm.mem_iff.2 ho)⟩
  exact hgrows.mono fun q ⟨o, ho, hq⟩ => ⟨o, hperm.mem_iff.1 ho, hq⟩

/-- An output directory that neither is the source directory nor is around it stays apart, if its path does not go up or
nothing was at its place before. -/
theorem staysApart_of_not_prefix (hgrows : n.Grows written n') (hplace : n.resolve c.source = .ok place)
    (hout : n'.walk [] (Path.steps c.output) = .ok out) (hpre : ¬ out <+: place)
    (hfresh : .up ∉ Path.steps c.output ∨ n.at? out = none) : StaysApart n n' c where
  output out' hout' := by
    obtain rfl := Except.ok.inj (hout.symm.trans hout')
    have hout := Node.walk_eq_ok_iff.1 hout
    rcases hfresh with hup | hfresh
    · by_cases hthere : n.look out = none
      · exact .inr (Node.look_eq_none_iff.1 hthere)
      · have hbefore := hgrows.leads_of_ne_none hout hup hthere
        unfold Node.canonical
        rw [Node.walk_eq_ok_iff.2 hbefore, Node.walk_eq_ok_iff.2 hout]
        exact .inl rfl
    · exact .inr hfresh
  objects snippets place' out' _ hplace' hout' hpre' := by
    obtain rfl := Except.ok.inj (hplace.symm.trans hplace')
    obtain rfl := Except.ok.inj (hout.symm.trans hout')
    exact absurd hpre' hpre

/-- **A publication can be repeated.** When snippets are published from a tree into a directory of the same tree, in any
order, the files of all objects hold what was put. If they are not in the way of the next search, a second publication, in
any order again, returns the same previews and leaves the tree as it is. -/
theorem publishScheduled_again (hn : n.HasDistinctNames) {schedule schedule' : List Snippet → List Snippet}
    (hschedule : ∀ snippets, (schedule snippets).Perm snippets)
    (hschedule' : ∀ snippets, (schedule' snippets).Perm snippets) {previews : List PublishedPreview}
    (hfirst : perform (publishScheduled c.directory.storage schedule n c) n = (.ok previews, n'))
    (hapart : StaysApart n n' c) :
    (∃ snippets, discover n c.source c.output = .ok snippets ∧
      previews = snippets.map (Snippet.published c.directory.storage) ∧
      ∀ o ∈ publishedObjects c.directory.storage c snippets, n'.read (Path.join c.output o.1) = .ok o.2) ∧
    perform (publishScheduled c.directory.storage schedule' n' c) n' = (.ok previews, n') := by
  obtain ⟨snippets, hdiscover, rfl, hgrows, hkeeps⟩ := publishScheduled_written hschedule hfirst
  refine ⟨⟨snippets, hdiscover, rfl, fun o ho => (hkeeps o ho).elim fun _ h => h.file.read⟩, ?_⟩
  have hagain : discover n' c.source c.output = .ok snippets := by
    refine discover_eq_of_sought hn hgrows hdiscover fun place names body hplace => ?_
    obtain ⟨q, hkept⟩ := hkeeps _ (List.mem_append_right _ List.mem_cons_self)
    obtain ⟨out, hout, -⟩ := hkept.exists_root
    have houtput := hapart.output out (Node.walk_eq_ok_iff.2 hout)
    constructor
    · rintro ⟨hat, hsought⟩
      have hat := (at?_iff_of_isSought hapart hdiscover hplace hgrows hkeeps hsought).1 hat
      exact ⟨hat, (isSought_iff_of_grows hgrows hout houtput ⟨_, hat⟩).1 hsought⟩
    · rintro ⟨hat, hsought⟩
      have hsought := (isSought_iff_of_grows hgrows hout houtput ⟨_, hat⟩).2 hsought
      exact ⟨(at?_iff_of_isSought hapart hdiscover hplace hgrows hkeeps hsought).2 hat, hsought⟩
  have hperm := perm_publishedObjects c.directory.storage c (hschedule' snippets)
  rw [perform_publishScheduled c.directory.storage hagain,
    Directory.perform_putAll_of_keeps fun o ho => hkeeps o (hperm.mem_iff.1 ho)]

/-- Two snippets in the source directory. The path of the output directory leaves the source directory and comes back into
it. The snippets are stored in the opposite order the second time. -/
theorem publishScheduled_again_reversed :
    let site : Node := .directory [("in", .directory [("x.js", .file (.text "1")), ("y.js", .file (.text "2"))])]
    let c : PublishConfig := ⟨"in", "in/../in/out", "/", "Previews", true⟩
    site.HasDistinctNames ∧ (∀ snippets : List Snippet, (id snippets).Perm snippets) ∧
      (∀ snippets : List Snippet, snippets.reverse.Perm snippets) ∧ ∃ previews n',
        perform (publishScheduled c.directory.storage id site c) site = (.ok previews, n') ∧ StaysApart site n' c ∧
        n'.read "in/../in/out/previews/y/index.html" = .ok (.text (preview "2").document) ∧
        perform (publishScheduled c.directory.storage List.reverse n' c) n' = (.ok previews, n') := by
  intro site c
  have hn : site.HasDistinctNames := by decide +kernel
  have hid : ∀ snippets : List Snippet, (id snippets).Perm snippets := fun _ => List.Perm.refl _
  have hreverse : ∀ snippets : List Snippet, snippets.reverse.Perm snippets := List.reverse_perm
  have hplace : site.resolve c.source = .ok ["in"] := by decide +kernel
  let snippets : List Snippet := [⟨"x.js", "x", "1"⟩, ⟨"y.js", "y", "2"⟩]
  have hdiscover : discover site c.source c.output = .ok snippets := by
    rw [discover_eq hplace rfl]
    unfold soughtFiles
    rw [filesBelow_of_pairwise]
    · decide +kernel
    · decide +kernel
  have hput : (perform (c.directory.storage.putAll
      ((id snippets).map Snippet.object ++ listingObjects c.directory.storage c snippets)) site).1 = .ok () := by
    decide +kernel
  obtain ⟨n', hfirst, hout⟩ : ∃ n', perform (publishScheduled c.directory.storage id site c) site
      = (.ok (snippets.map (Snippet.published c.directory.storage)), n') ∧
        n'.walk [] (Path.steps c.output) = .ok ["in", "out"] :=
    ⟨_, perform_publishScheduled_of_ok c.directory.storage hdiscover hput, by decide +kernel⟩
  obtain ⟨_, -, -, hgrows, -⟩ := publishScheduled_written hid hfirst
  have hapart := staysApart_of_not_prefix hgrows hplace hout (by decide) (.inr rfl)
  obtain ⟨⟨found, hfound, -, hread⟩, hagain⟩ := publishScheduled_again hn hid hreverse hfirst hapart
  obtain rfl := Except.ok.inj (hdiscover.symm.trans hfound)
  have hdocument := hread (Snippet.object ⟨"y.js", "y", "2"⟩)
    (List.mem_append_left _ (List.mem_cons_of_mem _ List.mem_cons_self))
  exact ⟨hn, hid, hreverse, _, n', hfirst, hapart, hdocument, hagain⟩

theorem perform_publishToDirectory (c : PublishConfig) (n : Node) :
    perform (publishToDirectory c) n = perform (publishScheduled c.directory.storage id n c) n := rfl

/-- The previews that a publication returns are those of the files that are sought. -/
theorem mem_sources_iff (hn : n.HasDistinctNames) (hplace : n.resolve c.source = .ok place)
    {previews : List PublishedPreview} (h : perform (publishToDirectory c) n = (.ok previews, n')) {path : Text} :
    path ∈ previews.map PublishedPreview.source ↔
      ∃ names body, n.at? (place ++ names) = some (.file body) ∧ IsSought n c.output place names ∧
        Text.byteSize (Path.join c.source (slashPath names)) ≤ maxPathBytes ∧ path = slashPath names := by
  rw [perform_publishToDirectory] at h
  obtain ⟨snippets, hdiscover, rfl, -⟩ := publishScheduled_ok _ h
  rw [List.map_map]
  exact mem_paths_iff hn hdiscover hplace

/-- A publication into the source directory finds its own index page the next time. -/
theorem publishToDirectory_into_source :
    let site : Node := .directory [("a", .directory [("x.js", .file (.text "1"))])]
    let c : PublishConfig := ⟨"a", "a", "/", "Previews", true⟩
    site.HasDistinctNames ∧ ∃ previews n', perform (publishToDirectory c) site = (.ok previews, n') ∧
      ∀ n'', perform (publishToDirectory c) n' ≠ (.ok previews, n'') := by
  intro site c
  have hn : site.HasDistinctNames := by decide +kernel
  have hplace : site.resolve c.source = .ok ["a"] := by decide +kernel
  have hroot : site.walk [] (Path.steps c.output) = .ok ["a"] := by decide +kernel
  let snippets : List Snippet := [⟨"x.js", "x", "1"⟩]
  have hdiscover : discover site c.source c.output = .ok snippets := by
    rw [discover_eq hplace rfl]
    unfold soughtFiles
    rw [filesBelow_of_pairwise]
    · decide +kernel
    · decide +kernel
  have hput : (perform (c.directory.storage.putAll
      ((id snippets).map Snippet.object ++ listingObjects c.directory.storage c snippets)) site).1 = .ok () := by
    decide +kernel
  obtain ⟨n', hfirst⟩ : ∃ n', perform (publishScheduled c.directory.storage id site c) site
      = (.ok (snippets.map (Snippet.published c.directory.storage)), n') :=
    ⟨_, perform_publishScheduled_of_ok c.directory.storage hdiscover hput⟩
  refine ⟨hn, _, n', hfirst, fun n'' hsecond => ?_⟩
  obtain ⟨_, -, -, hgrows, hkeeps⟩ := publishScheduled_written (fun _ => List.Perm.refl _) hfirst
  -- the index page stands in the source directory, as a file with the extension of a snippet
  obtain ⟨q, hkept⟩ := hkeeps _ (List.mem_append_right _ (List.mem_cons_of_mem _ List.mem_cons_self))
  obtain ⟨out, hout, rfl⟩ := hkept.exists_root
  obtain rfl := hout.unique (hgrows.leads (Node.walk_eq_ok_iff.1 hroot))
  have hindex := (mem_sources_iff (hgrows.distinct hn) (hgrows.resolve hplace) hsecond).2 ⟨["index.html"], _,
    Node.look_file_iff.1 hkept.file.look, ⟨⟨[], "index", "html", rfl, by decide, by decide⟩, by decide, by decide,
      fun d hd hpre => absurd (List.prefix_nil.1 hpre) hd⟩, by decide, rfl⟩
  exact absurd hindex (by decide)

/-- The path of an output directory leads through a directory that is not there yet. Then what is in the output directory
is found the first time, and not the second time. -/
theorem publishToDirectory_through_new :
    let site : Node := .directory [("s", .directory [("out", .directory [("x.js", .file (.text "1"))])])]
    let c : PublishConfig := ⟨"s", "s/new/../out", "/", "Previews", true⟩
    site.HasDistinctNames ∧ ∃ previews n', perform (publishToDirectory c) site = (.ok previews, n') ∧
      ∀ n'', perform (publishToDirectory c) n' ≠ (.ok previews, n'') := by
  intro site c
  have hn : site.HasDistinctNames := by decide +kernel
  have hplace : site.resolve c.source = .ok ["s"] := by decide +kernel
  let snippets : List Snippet := [⟨"out/x.js", "out-x", "1"⟩]
  have hdiscover : discover site c.source c.output = .ok snippets := by
    rw [discover_eq hplace rfl]
    unfold soughtFiles
    rw [filesBelow_of_pairwise (List.pairwise_singleton _ _), List.flatMap_singleton]
    show (readSources c.source ((filesBelow _ ["out"] (.directory [("x.js", .file (.text "1"))])).filter _)).map _ = _
    rw [filesBelow_of_pairwise (List.pairwise_singleton _ _)]
    decide +kernel
  have hput : (perform (c.directory.storage.putAll
      ((id snippets).map Snippet.object ++ listingObjects c.directory.storage c snippets)) site).1 = .ok () := by
    decide +kernel
  obtain ⟨n', hfirst, hcanonical⟩ : ∃ n', perform (publishScheduled c.directory.storage id site c) site
      = (.ok (snippets.map (Snippet.published c.directory.storage)), n') ∧ n'.canonical c.output = .ok ["s", "out"] :=
    ⟨_, perform_publishScheduled_of_ok c.directory.storage hdiscover hput, by decide +kernel⟩
  refine ⟨hn, _, n', hfirst, fun n'' hsecond => ?_⟩
  obtain ⟨found, -, -, hgrows, hkeeps⟩ := publishScheduled_written (fun _ => List.Perm.refl _) hfirst
  have hout : n'.Leads [] (Path.steps c.output) ["s", "out"] := (Node.canonical_eq_ok_iff.1 hcanonical).2
  obtain ⟨names, body, hat, hsought, -⟩ :=
    (mem_sources_iff (hgrows.distinct hn) (hgrows.resolve hplace) hsecond).1 List.mem_cons_self
  -- all files below the source directory are in the output directory
  obtain ⟨rest, hrest, hq⟩ : ∃ rest, rest ≠ [] ∧ ["s".toList] ++ names = ["s".toList, "out".toList] ++ rest := by
    by_cases hwritten : c.directory.IsPlaceOf n' (publishedObjects c.directory.storage c found) (["s".toList] ++ names)
    · obtain ⟨o, ho, out, hroot, hq⟩ := hwritten
      obtain rfl := hroot.unique hout
      obtain ⟨_, hkept⟩ := hkeeps o ho
      exact ⟨_, Directory.names_ne_nil hkept.plain, hq⟩
    · have hbefore := (hgrows.file hwritten).1 (Node.look_file_iff.2 hat)
      obtain ⟨below, hs, hbelow⟩ := Node.look_singleton hbefore nofun
      obtain ⟨rest, rfl, hrest⟩ := Node.look_singleton hbelow nofun
      obtain ⟨_, rfl, -⟩ := Node.look_singleton hrest nofun
      exact ⟨_, List.cons_ne_nil _ _, hs⟩
  exact not_isSought_of_output hcanonical (by decide) hrest hq hsought

end SnippetPreview
