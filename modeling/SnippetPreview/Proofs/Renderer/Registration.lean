import Mathlib.Data.List.Induction
import SnippetPreview.Renderer.Registry
import SnippetPreview.Proofs.Document.Completion

/-!
# Registries and what was registered in them

* `Registry.History`: a start and the renderers that were registered after it, oldest first;
* `Registry.get?_register`: what one registration changes, by induction on the kinds that the renderer claims;
* `Registry.get?_foldl_register`: after a run of registrations each kind has the last renderer that claims it, by induction
  on the last registration;
* `Registry.History.registry_spec`: all that a registry does, said with its history alone.
-/

namespace SnippetPreview

namespace Registry

/-! ### One registration -/

theorem get?_put (r : Registry) (k k' : Kind) (a : Renderer) :
    (r.put k a).get? k' = if k' = k then some a else r.get? k' := rfl

/-- A renderer takes over the kinds that it claims, however often it claims them, and no others. -/
theorem get?_register (r : Registry) (a : Renderer) (k : Kind) :
    (r.register a).get? k = if k ∈ a.kinds then some a else r.get? k := by
  have run (ks : List Kind) (r : Registry) :
      (ks.foldl (fun r k => r.put k a) r).get? k = if k ∈ ks then some a else r.get? k := by
    induction ks generalizing r with
    | nil => simp
    | cons k' ks ih =>
      rw [List.foldl_cons, ih, get?_put]
      by_cases hk : k = k' <;> simp [hk]
  exact run a.kinds r

theorem fallback_register (r : Registry) (a : Renderer) : (r.register a).fallback = r.fallback := by
  have run (ks : List Kind) (r : Registry) : (ks.foldl (fun r k => r.put k a) r).fallback = r.fallback := by
    induction ks generalizing r with
    | nil => rfl
    | cons k ks ih => exact ih (r.put k a)
  exact run a.kinds r

/-! ### A run of registrations -/

/-- The renderers of a history that claim a kind, oldest first. -/
def claimants (k : Kind) (history : List Renderer) : List Renderer := history.filter (k ∈ ·.kinds)

theorem mem_claimants {k : Kind} {history : List Renderer} {a : Renderer} :
    a ∈ claimants k history ↔ a ∈ history ∧ k ∈ a.kinds := by
  simp [claimants]

theorem claimants_snoc (k : Kind) (history : List Renderer) (a : Renderer) :
    claimants k (history ++ [a]) = claimants k history ++ if k ∈ a.kinds then [a] else [] := by
  simp only [claimants, List.filter_append, List.filter_cons, List.filter_nil, decide_eq_true_eq]

/-- Each kind has the last renderer that claims it, or the one that it had before. -/
theorem get?_foldl_register (r : Registry) (history : List Renderer) (k : Kind) :
    (history.foldl register r).get? k = (claimants k history).getLast?.or (r.get? k) := by
  induction history using List.reverseRecOn with
  | nil => rfl
  | append_singleton history a ih =>
    rw [List.foldl_append, List.foldl_cons, List.foldl_nil, get?_register, claimants_snoc, ih]
    by_cases hk : k ∈ a.kinds <;> simp [hk]

theorem fallback_foldl_register (r : Registry) (history : List Renderer) :
    (history.foldl register r).fallback = r.fallback := by
  induction history using List.reverseRecOn with
  | nil => rfl
  | append_singleton history a ih => rw [List.foldl_append, List.foldl_cons, List.foldl_nil, fallback_register, ih]

/-! ### Kinds -/

theorem mem_kinds {r : Registry} {k : Kind} : k ∈ r.kinds ↔ (r.get? k).isSome := by
  simp [kinds, Kind.mem_all]

theorem kinds_sublist (r : Registry) : r.kinds.Sublist Kind.all := List.filter_sublist

theorem nodup_kinds (r : Registry) : r.kinds.Nodup := r.kinds_sublist.nodup (by decide)

/-! ### Histories -/

/-- Where a registry comes from: the built-in renderers or none of them, and all that was registered after that. -/
structure History where
  hasBuiltin : Bool
  later : List Renderer

namespace History

/-- The registry that comes of the registrations. -/
def registry (h : History) : Registry := h.later.foldl register (if h.hasBuiltin then builtin else empty)

/-- All renderers that were ever registered, oldest first. -/
def renderers (h : History) : List Renderer := (if h.hasBuiltin then builtinRenderers else []) ++ h.later

theorem registry_eq (h : History) : h.registry = h.renderers.foldl register empty := by
  rw [registry, renderers, List.foldl_append]
  cases h.hasBuiltin <;> rfl

theorem get?_registry (h : History) (k : Kind) : h.registry.get? k = (claimants k h.renderers).getLast? := by
  rw [registry_eq, get?_foldl_register]
  exact Option.or_none

theorem fallback_registry (h : History) : h.registry.fallback = Plain.renderer := by
  rw [registry_eq, fallback_foldl_register]
  rfl

theorem mem_kinds_registry (h : History) (k : Kind) : k ∈ h.registry.kinds ↔ ∃ a ∈ h.renderers, k ∈ a.kinds := by
  rw [mem_kinds, get?_registry, List.getLast?_isSome]
  constructor
  · intro hne
    obtain ⟨a, ha⟩ := List.exists_mem_of_ne_nil _ hne
    exact ⟨a, mem_claimants.1 ha⟩
  · rintro ⟨a, ha⟩
    exact List.ne_nil_of_mem (mem_claimants.2 ha)

/-- **Registries follow their history.** Each kind has the last renderer that claims it, and none when none does. The kinds
with a renderer are the claimed ones, once each, in the order in which signals are tried. A document is what the renderer
of the kind makes, or the plain renderer for a kind without one, with a line for the document type in front if there is
none in it. -/
theorem registry_spec (h : History) :
    (∀ k, h.registry.get? k = (claimants k h.renderers).getLast?)
      ∧ ((∀ k, k ∈ h.registry.kinds ↔ ∃ a ∈ h.renderers, k ∈ a.kinds)
        ∧ h.registry.kinds.Nodup ∧ h.registry.kinds.Sublist Kind.all)
      ∧ ∀ source v,
        let document := ((claimants v.kind h.renderers).getLast?.getD Plain.renderer).render source v
        h.registry.render source v
          = if document.lowerAscii.contains "<!doctype" then document else "<!DOCTYPE html>\n" ++ document := by
  refine ⟨h.get?_registry, ⟨h.mem_kinds_registry, nodup_kinds _, kinds_sublist _⟩, fun source v => ?_⟩
  intro document
  have hdocument : (h.registry.rendererFor v.kind).render source v = document := by
    rw [rendererFor, get?_registry, fallback_registry]
  rw [render, hdocument, ← hasDoctype_eq_contains]
  split
  · next hd => exact ensureDoctype_eq_self hd
  · next hd => exact ensureDoctype_of_not (eq_false_of_ne_true hd)

end History

end Registry

end SnippetPreview
