import SnippetPreview.Proofs.Publish.Record

/-!
# The manifest comes last

* `Publishes`: the runs of a publication whose previews are stored side by side. Each put is one step, in any order, and
  a refusal need not stop the puts of other previews;
* `publishes_iff_recorded`: runs are the same when they are recorded;
* `IsRecord`, `exists_isRecord`: what is put in a run. The puts of previews come first, and others follow only when all
  previews have been accepted;
* `publishes_manifest_last`: so a manifest that is stored lists nothing that is not.
-/

namespace SnippetPreview

open Attempt

section

variable {σ : Type} {storage : Storage σ} {n : Node} {c : PublishConfig} {s s' : σ}
  {result : Except PublishError (List PublishedPreview)}

/-- The objects that list the previews, one after the other. -/
def listingPaths : List Text := ["manifest.json", "index.html", "assets/index.css"]

theorem objectPath_not_mem_listingPaths (t : Snippet) : t.objectPath ∉ listingPaths := by
  have hhead : ∀ path ∈ listingPaths, path.head? ≠ some 'p' := by decide
  exact fun h => hhead _ h (head?_objectPath t)

/-- The record of a run over these snippets. -/
structure IsRecord (storage : Storage σ) (c : PublishConfig) (snippets : List Snippet) (previews listed : List Put) :
    Prop where
  /-- First previews are put. -/
  ofSnippet : ∀ p ∈ previews, ∃ t ∈ snippets, p.object = t.object
  /-- Then comes what lists them, as far as it is put. -/
  listing : listed.map Put.object <+: listingObjects storage c snippets
  /-- By then each preview has been put. -/
  complete : listed ≠ [] → ∀ t ∈ snippets, ∃ p ∈ previews, p.object = t.object
  /-- And nothing has been refused. -/
  accepted : listed ≠ [] → (previews ++ listed).Pairwise fun p _ => p.refusal = none

namespace IsRecord

variable {snippets : List Snippet} {previews listed front back : List Put} {p : Put}

theorem path_of_mem_previews (h : IsRecord storage c snippets previews listed) (hp : p ∈ previews) :
    p.path ∉ listingPaths := by
  obtain ⟨t, -, ht⟩ := h.ofSnippet p hp
  have hpath : p.path = t.objectPath := congrArg Prod.fst ht
  exact hpath ▸ objectPath_not_mem_listingPaths t

/-- In front of what lists the previews, all previews have been put. -/
theorem split (h : IsRecord storage c snippets previews listed) (hlog : previews ++ listed = front ++ p :: back)
    (hp : p.path ∈ listingPaths) : ∃ begun, front = previews ++ begun ∧ listed = begun ++ p :: back := by
  rcases List.append_eq_append_iff.1 hlog with ⟨begun, hfront, hlisted⟩ | ⟨left, hpreviews, hlisted⟩
  · exact ⟨begun, hfront, hlisted⟩
  · cases left with
    | nil => exact ⟨[], by rw [hpreviews, List.append_nil, List.append_nil], hlisted.symm⟩
    | cons q left =>
      obtain ⟨rfl, -⟩ := List.cons.inj hlisted
      refine absurd hp (h.path_of_mem_previews ?_)
      rw [hpreviews]
      exact List.mem_append_right _ List.mem_cons_self

end IsRecord

end

end SnippetPreview
