import Mathlib.Data.List.Basic
import SnippetPreview.Watch.Batch

/-!
# Bursts and what they amount to

* `nextBatch?_spec`: one burst is not empty and leaves the arrivals after it;
* `flatten_batches`: all bursts of a stream together are the stream, by induction on the bursts;
* `coalesce_eq_last`: a burst amounts to its last change to something watched;
* `getLast?_filterMap_coalesce`: wherever a stream is cut, the last burst that amounts to something amounts to what the
  whole stream does;
* `watchEvents_spec`: a watcher loses nothing that matters, whatever the pauses.
-/

namespace SnippetPreview

/-! ### Cutting a stream -/

section

variable {α : Type}

/-- A burst is not empty, and what is left is the rest of the stream. -/
theorem nextBatch?_spec {window : Nat} {stream later : List (Arrival α)} {items : List α}
    (h : nextBatch? window stream = some (items, later)) :
    items ≠ [] ∧ stream.map (·.item) = items ++ later.map (·.item) := by
  cases stream with
  | nil => simp [nextBatch?] at h
  | cons first rest =>
    simp only [nextBatch?, Option.some.injEq, Prod.mk.injEq] at h
    obtain ⟨rfl, rfl⟩ := h
    refine ⟨by simp, ?_⟩
    rw [List.map_cons, List.cons_append, ← List.map_append, List.takeWhile_append_dropWhile]

theorem nextBatch?_eq_none {window : Nat} {stream : List (Arrival α)} (h : nextBatch? window stream = none) :
    stream = [] := by
  cases stream with
  | nil => rfl
  | cons first rest => simp [nextBatch?] at h

theorem batches_of_eq_none {window : Nat} {stream : List (Arrival α)} (h : nextBatch? window stream = none) :
    batches window stream = [] := by
  unfold batches
  split <;> simp_all

theorem batches_of_eq_some {window : Nat} {stream later : List (Arrival α)} {items : List α}
    (h : nextBatch? window stream = some (items, later)) :
    batches window stream = items :: batches window later := by
  rw [batches]
  split <;> simp_all

theorem ne_nil_of_mem_batches {window : Nat} {stream : List (Arrival α)} {burst : List α}
    (hburst : burst ∈ batches window stream) : burst ≠ [] := by
  induction stream using batches.induct window with
  | case1 stream h => simp [batches_of_eq_none h] at hburst
  | case2 stream items later h ih =>
    rw [batches_of_eq_some h] at hburst
    rcases List.mem_cons.1 hburst with rfl | hlater
    · exact (nextBatch?_spec h).1
    · exact ih hlater

/-- Nothing is lost between two bursts, and nothing is moved. -/
theorem flatten_batches (window : Nat) (stream : List (Arrival α)) :
    (batches window stream).flatten = stream.map (·.item) := by
  induction stream using batches.induct window with
  | case1 stream h =>
    rw [batches_of_eq_none h, nextBatch?_eq_none h]
    rfl
  | case2 stream items later h ih => rw [batches_of_eq_some h, List.flatten_cons, ih, (nextBatch?_spec h).2]

end

/-! ### What a burst amounts to -/

/-- All paths of a burst in order, each with what happened to it. -/
def reports (burst : List FileEvent) : List (FileEvent.Kind × Text) := burst.flatMap fun e => e.paths.map (e.kind, ·)

/-- A file is created, modified or removed. -/
def FileEvent.Kind.isChange : FileEvent.Kind → Bool
  | create | modify | remove => true
  | any | other | access => false

theorem FileEvent.Kind.isSome_on (kind : FileEvent.Kind) (path : Text) : (kind.on path).isSome = kind.isChange := by
  cases kind <;> rfl

theorem FileEvent.Kind.path_on {kind : FileEvent.Kind} {path : Text} {w : WatchEvent} (h : kind.on path = some w) :
    w.path = path := by
  cases kind <;> simp [on] at h <;> subst h <;> rfl

/-- Something watched is changed. -/
def Scope.concerns (s : Scope) (report : FileEvent.Kind × Text) : Bool := s.contains report.2 && report.1.isChange

theorem reverse_reports (burst : List FileEvent) : (reports burst).reverse = burst.reverse.flatMap FileEvent.backwards := by
  rw [reports, List.reverse_flatMap]
  congr 1
  funext e
  exact (List.map_reverse (l := e.paths)).symm

/-- The first result of a partial function, looked for where a test holds, is its result at the first place where it has
one and the test holds. -/
theorem findSome?_filter_eq_bind_head? {α β : Type} (f : α → Option β) (p : α → Bool) (l : List α) :
    (l.filter p).findSome? f = (l.filter fun a => p a && (f a).isSome).head?.bind f := by
  induction l with
  | nil => rfl
  | cons a l ih =>
    cases hp : p a <;> cases hf : f a <;> simp [hp, hf, ih]

/-- A burst amounts to its last change to something watched. -/
theorem coalesce_eq_last (s : Scope) (burst : List FileEvent) :
    coalesce s burst = ((reports burst).filter s.concerns).getLast?.bind fun (kind, path) => kind.on path := by
  rw [coalesce, ← reverse_reports, findSome?_filter_eq_bind_head?, List.filter_reverse, List.head?_reverse]
  simp only [FileEvent.Kind.isSome_on]
  rfl

theorem contains_of_coalesce {s : Scope} {burst : List FileEvent} {w : WatchEvent} (h : coalesce s burst = some w) :
    s.contains w.path = true := by
  rw [coalesce_eq_last, Option.bind_eq_some_iff] at h
  obtain ⟨⟨kind, path⟩, hlast, hon⟩ := h
  have hconcerns := (List.mem_filter.1 (List.mem_of_getLast? hlast)).2
  rw [FileEvent.Kind.path_on hon]
  exact (Bool.and_eq_true_iff.1 hconcerns).1

theorem coalesce_eq_none_iff {s : Scope} {burst : List FileEvent} :
    coalesce s burst = none ↔ ((reports burst).filter s.concerns).getLast? = none := by
  rw [coalesce_eq_last]
  cases hlast : ((reports burst).filter s.concerns).getLast? with
  | none => simp
  | some report =>
    have hconcerns := (List.mem_filter.1 (List.mem_of_getLast? hlast)).2
    have hsome : (report.1.on report.2).isSome := by
      rw [FileEvent.Kind.isSome_on]
      exact (Bool.and_eq_true_iff.1 hconcerns).2
    simpa using Option.isSome_iff_ne_none.1 hsome

/-- Wherever a stream is cut, the last burst that amounts to something amounts to what the whole stream does. -/
theorem getLast?_filterMap_coalesce (s : Scope) (bursts : List (List FileEvent)) :
    (bursts.filterMap (coalesce s)).getLast? = coalesce s bursts.flatten := by
  induction bursts with
  | nil => rfl
  | cons burst bursts ih =>
    rw [List.flatten_cons, coalesce_append, ← ih]
    cases h : coalesce s burst with
    | none => simp [h]
    | some w => simp [h, List.getLast?_cons]

/-! ### Watching -/

/-- **Nothing that matters is lost.** The bursts of a stream are not empty and are the stream when they are put together.
The last event that a watcher reports is what the whole stream amounts to, and would be so wherever the stream were cut:
the last change to something watched. It reports nothing if there is no such change, and nothing out of its scope ever. -/
theorem watchEvents_spec (window : Nat) (s : Scope) (stream : List (Arrival FileEvent)) :
    let sent := stream.map (·.item)
    let last := ((reports sent).filter s.concerns).getLast?
    ((∀ burst ∈ batches window stream, burst ≠ []) ∧ (batches window stream).flatten = sent)
      ∧ ((watchEvents window s stream).getLast? = coalesce s sent
        ∧ (∀ bursts : List (List FileEvent), bursts.flatten = sent →
          (bursts.filterMap (coalesce s)).getLast? = coalesce s sent)
        ∧ coalesce s sent = last.bind (fun (kind, path) => kind.on path)
        ∧ (watchEvents window s stream = [] ↔ last = none))
      ∧ ∀ w ∈ watchEvents window s stream, s.contains w.path = true := by
  intro sent last
  have hflatten : (batches window stream).flatten = sent := flatten_batches window stream
  have hcut (bursts : List (List FileEvent)) (h : bursts.flatten = sent) :
      (bursts.filterMap (coalesce s)).getLast? = coalesce s sent := by
    rw [getLast?_filterMap_coalesce, h]
  have hlast : (watchEvents window s stream).getLast? = coalesce s sent := hcut _ hflatten
  refine ⟨⟨fun burst => ne_nil_of_mem_batches, hflatten⟩, ⟨hlast, hcut, coalesce_eq_last s sent, ?_⟩, fun w hw => ?_⟩
  · rw [← List.getLast?_eq_none_iff, hlast, coalesce_eq_none_iff]
  · obtain ⟨burst, -, hburst⟩ := List.mem_filterMap.1 hw
    exact contains_of_coalesce hburst

end SnippetPreview
