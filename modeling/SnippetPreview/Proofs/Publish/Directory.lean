import SnippetPreview.Proofs.Files.Disk
import SnippetPreview.Proofs.Publish.Objects

/-!
# Objects in a directory

* `Directory.IsWritten`: a file stands where its path leads, so that to write it once more changes nothing;
* `Directory.Keeps`: an object stands in the directory (`Directory.Keeps.perform_put`), and at the place that the names of
  its path say (`Directory.Keeps.exists_root`);
* `Directory.put_ok`: an object that is put stands in the directory, and nothing else is written;
* `Directory.putAll_ok`, `Directory.perform_putAll_of_keeps`: the same for objects that are put one after the other.
-/

namespace SnippetPreview.Directory

open Attempt

variable {d : Directory} {n n' : Node} {place : List Text} {o : Text × Content} {path file : Text} {body : Content}
  {objects : List (Text × Content)} {written : List Text → Prop}

/-! ### Plain paths -/

theorem mem_parts_of_isPlain (h : isPlain path = true) {p : Path.Part} (hp : p ∈ Path.parts path) :
    ∃ name, p = .name name := by
  have hname := List.all_eq_true.1 (Bool.and_eq_true_iff.1 h).2 p hp
  cases p with
  | name t => exact ⟨t, rfl⟩
  | _ => exact absurd hname nofun

theorem isAbsolute_of_isPlain (h : isPlain path = true) : Path.isAbsolute path = false := by
  refine Bool.eq_false_iff.2 fun habs => ?_
  have hroot : Path.Part.root ∈ Path.parts path := by
    unfold Path.parts
    rw [if_pos habs]
    exact List.mem_cons_self
  obtain ⟨name, hname⟩ := mem_parts_of_isPlain h hroot
  exact absurd hname nofun

theorem up_not_mem_steps (h : isPlain path = true) : .up ∉ Path.steps path := by
  intro hup
  have hpieces : Path.Step.up ∈ (Path.pieces path).map Path.Step.ofPiece := by
    rcases List.mem_append.1 hup with hup | hup
    · exact hup
    · split at hup
      · exact absurd (List.mem_singleton.1 hup) nofun
      · exact absurd hup List.not_mem_nil
  obtain ⟨piece, hpiece, hstep⟩ := List.mem_map.1 hpieces
  have hpart : Path.Part.ofPiece? piece = some .up := by
    unfold Path.Step.ofPiece at hstep
    unfold Path.Part.ofPiece?
    split at hstep
    · exact absurd hstep nofun
    · next hdot =>
      split at hstep
      · next hdots => rw [if_neg hdot, if_pos hdots]
      · exact absurd hstep nofun
  obtain ⟨name, hname⟩ := mem_parts_of_isPlain h (List.mem_append_right _ (List.mem_filterMap.2 ⟨piece, hpiece, hpart⟩))
  exact absurd hname nofun

theorem names_ne_nil (h : isPlain path = true) : Path.names path ≠ [] := by
  have hne : path ≠ [] := by
    rintro rfl
    exact absurd h nofun
  have habs := isAbsolute_of_isPlain h
  cases hpieces : Path.pieces path with
  | nil => exact absurd hpieces (Path.pieces_ne_nil hne habs)
  | cons piece pieces =>
    have hdot : piece ≠ ['.'] := by
      rintro rfl
      have hhere : Path.Part.here ∈ Path.parts path := by
        unfold Path.parts
        rw [habs, hpieces]
        exact List.mem_cons_self
      obtain ⟨name, hname⟩ := mem_parts_of_isPlain h hhere
      exact absurd hname nofun
    have hstep : Path.Step.ofPiece piece ∈ Path.steps path := by
      refine List.mem_append_left _ (List.mem_map_of_mem ?_)
      rw [hpieces]
      exact List.mem_cons_self
    have hdown : Path.Step.ofPiece piece = .down piece := by
      unfold Path.Step.ofPiece at hstep ⊢
      rw [if_neg hdot] at hstep ⊢
      split
      · next hdots =>
        rw [if_pos hdots] at hstep
        exact absurd hstep (up_not_mem_steps h)
      · rfl
    exact List.ne_nil_of_mem (List.mem_filterMap.2 ⟨_, hstep, by rw [hdown]; rfl⟩)

/-! ### One object -/

theorem perform_writeFile (file : Text) (body : Content) (n : Node) : perform (writeFile file body) n =
    match Path.parentText? file with
    | some directory => match perform (Disk.makeDirectories directory) n with
      | (.ok _, n') => perform (Disk.write file body) n'
      | (.error e, n') => (.error e, n')
    | none => perform (Disk.write file body) n := by
  unfold writeFile
  cases Path.parentText? file with
  | none => rfl
  | some directory =>
    dsimp only
    rw [perform_bind]
    rcases perform (Disk.makeDirectories directory) n with ⟨_ | _, n'⟩ <;> rfl

theorem perform_put (d : Directory) (path : Text) (body : Content) (n : Node) : perform (d.put path body) n =
    if isPlain path then
      match perform (writeFile (Path.join d.root path) body) n with
      | (.ok _, n') => (.ok (), n')
      | (.error e, n') => (.error (.writeFailed (Path.join d.root path) e), n')
    else (.error (.invalidPath path), n) := by
  unfold put target
  by_cases hplain : isPlain path = true
  · rw [if_pos hplain, if_pos hplain]
    dsimp only
    rw [perform_mk]
    rcases perform (writeFile (Path.join d.root path) body) n with ⟨_ | _, n'⟩ <;> rfl
  · rw [if_neg hplain, if_neg hplain]
    rfl

/-- A file stands at the place that its path leads to, with the directories of the path around it. -/
structure IsWritten (n : Node) (file : Text) (body : Content) (place : List Text) : Prop where
  check : Node.checkPath file = .ok ()
  around : ∀ directory, Path.parentText? file = some directory → Disk.Stands n directory
  ending : ∃ front name, Path.steps file = front ++ [.down name]
  leads : n.Leads [] (Path.steps file) place
  look : n.look place = some (.file body)

theorem writeFile_ok (h : perform (writeFile file body) n = (.ok (), n')) :
    ∃ place, IsWritten n' file body place ∧ n.Grows (· = place) n' := by
  obtain ⟨n₁, hgrows, haround, hwrite⟩ : ∃ n₁, n.Grows (fun _ => False) n₁ ∧
      (∀ directory, Path.parentText? file = some directory → Disk.Stands n₁ directory) ∧
      perform (Disk.write file body) n₁ = (.ok (), n') := by
    rw [perform_writeFile] at h
    cases hparent : Path.parentText? file with
    | none =>
      rw [hparent] at h
      exact ⟨n, .refl _ _, nofun, h⟩
    | some directory =>
      rw [hparent] at h
      dsimp only at h
      rcases hmake : perform (Disk.makeDirectories directory) n with ⟨e | _, n₁⟩
      · rw [hmake] at h
        exact absurd (Prod.mk.inj h).1 nofun
      · rw [hmake] at h
        obtain ⟨hgrows, hstands⟩ := Disk.makeDirectories_ok hmake
        exact ⟨n₁, hgrows, fun directory' heq => Option.some.inj heq ▸ hstands, h⟩
  obtain ⟨hcheck, hend, place, hleads, hlook, hgrows'⟩ := Disk.write_ok hwrite
  exact ⟨place, ⟨hcheck, fun directory hparent => (haround directory hparent).grow hgrows', hend, hleads, hlook⟩,
    (hgrows.mono fun _ => False.elim).trans hgrows'⟩

/-- A file that cannot be written leaves all files as they are. -/
theorem writeFile_error {e : Refusal} (h : perform (writeFile file body) n = (.error e, n')) :
    n.Grows (fun _ => False) n' := by
  rw [perform_writeFile] at h
  cases hparent : Path.parentText? file with
  | none =>
    rw [hparent] at h
    rw [Disk.write_error h]
    exact .refl _ _
  | some directory =>
    rw [hparent] at h
    dsimp only at h
    have hgrows := Disk.grows_makeDirectories directory n
    rcases hmake : perform (Disk.makeDirectories directory) n with ⟨e' | _, n₁⟩
    · rw [hmake] at h hgrows
      obtain ⟨-, rfl⟩ := Prod.mk.inj h
      exact hgrows
    · rw [hmake] at h hgrows
      rw [Disk.write_error h]
      exact hgrows

theorem IsWritten.grow (h : IsWritten n file body place) (hgrows : n.Grows written n') (hplace : ¬ written place) :
    IsWritten n' file body place :=
  ⟨h.check, fun directory hparent => (h.around directory hparent).grow hgrows, h.ending, hgrows.leads h.leads,
    (hgrows.file hplace).2 h.look⟩

/-- A file that is written already stays as it is. -/
theorem IsWritten.perform_writeFile (h : IsWritten n file body place) :
    perform (writeFile file body) n = (.ok (), n) := by
  have hwrite := Disk.perform_write_of_leads h.check h.ending h.leads h.look
  rw [Directory.perform_writeFile]
  split
  · next directory hparent =>
    rw [Disk.perform_makeDirectories_of_stands (h.around directory hparent)]
    exact hwrite
  · exact hwrite

theorem IsWritten.read (h : IsWritten n file body place) : n.read file = .ok body := by
  have hfind : n.find file = .ok (.file body) :=
    Node.find_eq_ok_iff.2 ⟨place, Node.resolve_eq_ok_iff.2 ⟨h.check, h.leads⟩, Node.look_file_iff.1 h.look⟩
  unfold Node.read
  rw [hfind]
  rfl

/-- The object stands in the directory, at this place. -/
structure Keeps (d : Directory) (n : Node) (place : List Text) (o : Text × Content) : Prop where
  plain : isPlain o.1 = true
  file : IsWritten n (Path.join d.root o.1) o.2 place

theorem put_ok (h : perform (d.put o.1 o.2) n = (.ok (), n')) :
    ∃ place, d.Keeps n' place o ∧ n.Grows (· = place) n' := by
  rw [perform_put] at h
  split at h
  · next hplain =>
    rcases hwrite : perform (writeFile (Path.join d.root o.1) o.2) n with ⟨e | _, n₁⟩
    · rw [hwrite] at h
      exact absurd (Prod.mk.inj h).1 nofun
    · rw [hwrite] at h
      obtain ⟨-, rfl⟩ := Prod.mk.inj h
      obtain ⟨place, hwritten, hgrows⟩ := writeFile_ok hwrite
      exact ⟨place, ⟨hplain, hwritten⟩, hgrows⟩
  · exact absurd (Prod.mk.inj h).1 nofun

theorem Keeps.grow (h : d.Keeps n place o) (hgrows : n.Grows written n') (hplace : ¬ written place) :
    d.Keeps n' place o :=
  ⟨h.plain, h.file.grow hgrows hplace⟩

/-- An object that stands there already changes nothing. -/
theorem Keeps.perform_put (h : d.Keeps n place o) : perform (d.put o.1 o.2) n = (.ok (), n) := by
  rw [Directory.perform_put, if_pos h.plain, h.file.perform_writeFile]

/-- The way to an object goes through the directory, and then along the names of its path. -/
theorem Keeps.exists_root (h : d.Keeps n place o) :
    ∃ out, n.Leads [] (Path.steps d.root) out ∧ place = out ++ Path.names o.1 := by
  have habs := isAbsolute_of_isPlain h.plain
  have hne : o.1 ≠ [] := by
    intro hnil
    exact names_ne_nil h.plain (hnil ▸ rfl)
  have hleads := h.file.leads
  rw [Path.steps_join _ habs hne] at hleads
  obtain ⟨out, hroot, hpath⟩ := Node.leads_append.1 hleads
  refine ⟨out, ?_, hpath.eq_append (up_not_mem_steps h.plain)⟩
  unfold Path.steps
  split
  · refine Node.leads_append_stay.2 ⟨hroot, ?_⟩
    cases hsteps : Path.steps o.1 with
    | nil =>
      refine absurd ?_ (names_ne_nil h.plain)
      unfold Path.names
      rw [hsteps]
      rfl
    | cons s rest =>
      rw [hsteps] at hpath
      exact hpath.start
  · rwa [List.append_nil]

/-! ### One object after the other -/

/-- A place of one of the objects, in the directory as it is in the tree. -/
def IsPlaceOf (d : Directory) (n : Node) (objects : List (Text × Content)) (q : List Text) : Prop :=
  ∃ o ∈ objects, ∃ out, n.Leads [] (Path.steps d.root) out ∧ q = out ++ Path.names o.1

/-- Objects with different names that are put one after the other all stand there in the end, and nothing else is
written. -/
theorem putAll_ok (h : perform (d.storage.putAll objects) n = (.ok (), n'))
    (hnames : (objects.map fun o => Path.names o.1).Nodup) :
    n.Grows (d.IsPlaceOf n' objects) n' ∧ ∀ o ∈ objects, ∃ place, d.Keeps n' place o := by
  induction objects generalizing n with
  | nil =>
    obtain ⟨-, rfl⟩ := Prod.mk.inj h
    exact ⟨.refl _ _, List.forall_mem_nil _⟩
  | cons o objects ih =>
    obtain ⟨hname, hnames⟩ := List.nodup_cons.1 hnames
    rw [Storage.perform_putAll_cons] at h
    rcases hput : perform (d.storage.put o.1 o.2) n with ⟨e | _, n₁⟩
    · rw [hput] at h
      exact absurd (Prod.mk.inj h).1 nofun
    · rw [hput] at h
      obtain ⟨place, hkeeps, hgrows⟩ := put_ok hput
      obtain ⟨hgrows', hrest⟩ := ih h hnames
      obtain ⟨out, hout, rfl⟩ := hkeeps.exists_root
      have hout' := hgrows'.leads hout
      -- the others stand at other places, since their names are different
      have hother : ¬ d.IsPlaceOf n' objects (out ++ Path.names o.1) := by
        rintro ⟨o', ho', out', hroot, hplace⟩
        obtain rfl := hroot.unique hout'
        exact hname (List.mem_map.2 ⟨o', ho', (List.append_cancel_left hplace).symm⟩)
      refine ⟨?_, List.forall_mem_cons.2 ⟨⟨_, hkeeps.grow hgrows' hother⟩, hrest⟩⟩
      refine (hgrows.mono ?_).trans (hgrows'.mono fun q ⟨o', ho', hq⟩ => ⟨o', List.mem_cons_of_mem _ ho', hq⟩)
      rintro q rfl
      exact ⟨o, List.mem_cons_self, out, hout', rfl⟩

/-- Objects that all stand there change nothing, in whatever order they are put. -/
theorem perform_putAll_of_keeps (h : ∀ o ∈ objects, ∃ place, d.Keeps n place o) :
    perform (d.storage.putAll objects) n = (.ok (), n) := by
  induction objects with
  | nil => rfl
  | cons o objects ih =>
    obtain ⟨⟨place, hkeeps⟩, hrest⟩ := List.forall_mem_cons.1 h
    have hput : perform (d.storage.put o.1 o.2) n = (.ok (), n) := hkeeps.perform_put
    rw [Storage.perform_putAll_cons, hput]
    exact ih hrest

/-! ### The objects of a publication -/

theorem names_objectPath {s : Snippet} (h : IsSlug s.slug) :
    Path.names s.objectPath = ["previews".toList, s.slug, "index.html"] := by
  have hpath : s.objectPath = "previews".toList ++ '/' :: (s.slug ++ '/' :: "index.html".toList) := rfl
  rw [hpath, Path.names_append_slash, Path.names_append_slash, Path.names_name h.nonempty h.plain]
  rfl

/-- No two objects of a publication have the same names. -/
theorem nodup_names {σ : Type} (storage : Storage σ) (c : PublishConfig) {snippets : List Snippet}
    (hslugs : ∀ s ∈ snippets, IsSlug s.slug) (hnodup : (snippets.map Snippet.slug).Nodup) :
    ((publishedObjects storage c snippets).map fun o => Path.names o.1).Nodup := by
  have hsnippets : (snippets.map fun s => Path.names s.objectPath).Nodup := by
    refine List.pairwise_map.2 ((List.pairwise_map.1 hnodup).imp_of_mem fun {s t} hs ht hne heq => hne ?_)
    rw [names_objectPath (hslugs s hs), names_objectPath (hslugs t ht)] at heq
    exact (List.cons.inj (List.cons.inj heq).2).1
  unfold publishedObjects
  rw [List.map_append, List.map_map, List.nodup_append]
  refine ⟨hsnippets, ?_, fun names hnames other hother heq => ?_⟩
  · show [["manifest.json".toList], ["index.html"], ["assets", "index.css"]].Nodup
    decide
  · obtain ⟨s, hs, rfl⟩ := List.mem_map.1 hnames
    have hlength : (Path.names s.objectPath).length = 3 := by rw [names_objectPath (hslugs s hs)]; rfl
    have hshort : ∀ names ∈ [["manifest.json".toList], ["index.html"], ["assets", "index.css"]], names.length < 3 := by
      decide
    have := hshort other hother
    rw [← heq] at this
    exact absurd hlength (Nat.ne_of_lt this)

end SnippetPreview.Directory
