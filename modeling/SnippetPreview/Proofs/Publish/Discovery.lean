import SnippetPreview.Proofs.Files.Path
import SnippetPreview.Proofs.Publish.Search

/-!
# What is found

* `discover_sought`: the snippets are the files with the extension of a snippet that nothing hides and no directory leaves
  out, each once and in the order of their names, or the first of them that is no text is reported;
* `discover_beyond_reach`: a file whose path is too long for the system is not among them.
-/

namespace SnippetPreview

/-- **The search is exact.** The files that are sought in a source directory are those whose names from there on are those
of a snippet, as far as the system reaches them. Each is there once, in the order of the names. When all are texts, they
are the snippets; otherwise the first that is none is reported. -/
theorem discover_sought {n : Node} (hn : n.HasDistinctNames) {source : Text} (output : Text) {place : List Text}
    {es : List (Text × Node)} (hplace : n.resolve source = .ok place) (hes : n.at? place = some (.directory es)) :
    ∃ files : List (List Text × Content),
      (∀ names c, (names, c) ∈ files ↔ n.at? (place ++ names) = some (.file c) ∧ IsSought n output place names ∧
        Text.byteSize (Path.join source (slashPath names)) ≤ maxPathBytes) ∧
      files.Pairwise (fun f g => f.1 < g.1) ∧
      (∀ texts : List (List Text × Text), files = texts.map (fun t => (t.1, .text t.2)) →
        ∃ snippets, discover n source output = .ok snippets ∧
          snippets.map (fun s => (s.path, s.source)) = texts.map fun t => (slashPath t.1, t.2)) ∧
      (∀ front names bytes back, files = front ++ (names, .binary bytes) :: back → (∀ f ∈ front, ∃ t, f.2 = .text t) →
        discover n source output = .error (.unreadable (Path.join source (slashPath names)) .notText)) := by
  have hm : (Node.directory es).HasDistinctNames := hn.of_at? hes
  have hdiscover : discover n source output = _ := discover_eq hplace hes
  refine ⟨soughtFiles n source output place (.directory es), ?_, pairwise_soughtFiles hm, ?_, ?_⟩
  · intro names c
    rw [mem_soughtFiles_iff hm, Node.at?_append, hes]
    exact Iff.rfl
  · intro texts htexts
    rw [hdiscover, readSources_eq_ok_iff.2 htexts]
    exact ⟨withSlugs [] texts, rfl, map_withSlugs [] texts⟩
  · intro front names bytes back hfiles hfront
    rw [hdiscover, hfiles, readSources_of_binary hfront]
    rfl

/-- A source directory with the output directory in it, a hidden file, a dependency folder, an extension in capitals, a
directory whose name is the beginning of a file name, and a file that is no text. -/
def mixedSite : Node :=
  .directory [("site", .directory [("b.HTML", .file (.text "<p>b</p>")), ("a.js", .file (.binary [255])),
    ("a", .directory [("x.vue", .file (.text "<template></template>"))]), (".draft.js", .file (.text "1")),
    ("target", .directory [("y.js", .file (.text "2"))]),
    ("out", .directory [("index.html", .file (.text "<ul></ul>"))])])]

theorem discover_sought_mixed :
    mixedSite.HasDistinctNames ∧ mixedSite.resolve "site" = .ok ["site"] ∧
      (∃ es, mixedSite.at? ["site"] = some (.directory es)) ∧
      ∃ files : List (List Text × Content), files.Pairwise (fun f g => f.1 < g.1) ∧
        (["a".toList, "x.vue"], .text "<template></template>") ∈ files ∧
        (["out".toList, "index.html"], .text "<ul></ul>") ∉ files := by
  have hn : mixedSite.HasDistinctNames := by decide +kernel
  have hout : mixedSite.canonical "site/./out" = .ok ["site", "out"] := rfl
  have hplace : mixedSite.resolve "site" = .ok ["site"] := rfl
  obtain ⟨files, hmem, hsorted, -, -⟩ := discover_sought hn "site/./out" hplace rfl
  refine ⟨hn, hplace, ⟨_, rfl⟩, files, hsorted, (hmem _ _).2 ⟨rfl, ?_, by decide⟩, fun h => ?_⟩
  · refine ⟨⟨["a"], "x", "vue", rfl, by decide, by decide⟩, by decide, by decide, fun d _ hpre h => ?_⟩
    obtain rfl : d = ["out".toList] := (List.append_right_inj ["site".toList]).1 (Except.ok.inj (h.symm.trans hout))
    exact absurd hpre (by decide)
  · exact (((hmem _ _).1 h).2.1.apart ["out"] (by decide) (by decide)) hout

/-- A source directory with so many slashes behind its name that the system takes no longer path. -/
def farSource : Text := 's' :: List.replicate 4094 '/'

theorem byteSize_farSource : Text.byteSize farSource = maxPathBytes := by
  have hslashes : ∀ k, Text.byteSize (List.replicate k '/') = k := by
    intro k
    induction k with
    | zero => rfl
    | succ k ih =>
      rw [List.replicate_succ, Text.byteSize_cons, ih]
      exact Nat.add_comm 1 k
  unfold farSource
  rw [Text.byteSize_cons, hslashes]
  rfl

theorem getLast?_farSource : farSource.getLast? = some '/' := by
  unfold farSource
  rw [List.getLast?_cons, List.getLast?_replicate]
  rfl

theorem resolve_farSource (n : Node) : n.resolve farSource = n.walk [] [.down "s", .stay] := by
  have hsteps : Path.steps farSource = [.down "s", .stay] := by
    have hpieces : Path.pieces farSource = ["s".toList] ++ [] :=
      (Path.pieces_append_slash ['s'] (List.replicate 4093 '/')).trans (by rw [Path.pieces_replicate_slash]; rfl)
    unfold Path.steps
    rw [hpieces, getLast?_farSource]
    rfl
  have hcheck : Node.checkPath farSource = .ok () := by
    have hzero : farSource.elem '\x00' = false := by
      rw [List.elem_eq_mem, decide_eq_false_iff_not]
      intro h
      rcases List.mem_cons.1 h with h | h
      · exact absurd h (by decide)
      · exact absurd (List.eq_of_mem_replicate h) (by decide)
    unfold Node.checkPath Node.checkText
    rw [hzero, byteSize_farSource]
    rfl
  unfold Node.resolve
  rw [hcheck, hsteps]
  rfl

/-- A snippet that nothing hides and no directory leaves out is not found when its path is too long for the system. -/
theorem discover_beyond_reach :
    let site : Node := .directory [("s", .directory [("a.html", .file (.text "<p>x</p>"))])]
    site.HasDistinctNames ∧ site.resolve farSource = .ok ["s"] ∧
      site.at? (["s".toList] ++ ["a.html".toList]) = some (.file (.text "<p>x</p>")) ∧
      IsSought site "dist" ["s"] ["a.html"] ∧ discover site farSource "dist" = .ok [] := by
  intro site
  have hplace : site.resolve farSource = .ok ["s"] := (resolve_farSource site).trans rfl
  have hsought : IsSought site "dist" ["s"] ["a.html"] :=
    ⟨⟨[], "a", "html", rfl, by decide, by decide⟩, by decide, by decide,
      fun d hd hpre => absurd (List.prefix_nil.1 hpre) hd⟩
  have hfar : isWithinReach (Path.join farSource (slashPath ["a.html"])) = false := by
    have hjoin : Path.join farSource (slashPath ["a.html"]) = farSource ++ "a.html".toList := by
      unfold Path.join
      rw [getLast?_farSource]
      rfl
    unfold isWithinReach
    rw [hjoin, Text.byteSize_append, byteSize_farSource]
    rfl
  have hnone : soughtFiles site farSource "dist" ["s"] (.directory [("a.html", .file (.text "<p>x</p>"))]) = [] := by
    refine List.eq_nil_iff_forall_not_mem.2 fun f hf => ?_
    obtain ⟨hfound, hkept⟩ := List.mem_filter.1 hf
    obtain ⟨e, he, hfile⟩ := mem_filesBelow_directory.1 hfound
    obtain rfl := List.mem_singleton.1 he
    obtain rfl : f = (["a.html".toList], Content.text "<p>x</p>") := List.mem_singleton.1 hfile
    have hreach := (Bool.and_eq_true_iff.1 hkept).2
    exact absurd (hfar.symm.trans hreach) nofun
  refine ⟨by decide +kernel, hplace, rfl, hsought, ?_⟩
  rw [discover_eq hplace rfl, hnone]
  rfl

end SnippetPreview
