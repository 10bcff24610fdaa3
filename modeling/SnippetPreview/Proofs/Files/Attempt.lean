/-!
# Attempts

* `Attempt.perform`: what an attempt to change a state comes to, be it that it fails, and the state behind it;
* `Attempt.perform_bind`, `Attempt.perform_tryCatch`, `Attempt.perform_mk`: from one attempt to the next.
-/

namespace SnippetPreview

/-- An attempt to change a state. What it has done before it fails stays. -/
abbrev Attempt (ε σ α : Type) := ExceptT ε (StateM σ) α

namespace Attempt

variable {ε σ α β : Type} {s s' : σ}

/-- The result of an attempt and the state behind it. -/
def perform (x : Attempt ε σ α) (s : σ) : Except ε α × σ := x.run.run s

theorem perform_get (s : σ) : perform (get : Attempt ε σ σ) s = (.ok s, s) := rfl

theorem perform_bind (x : Attempt ε σ α) (f : α → Attempt ε σ β) (s : σ) :
    perform (x >>= f) s = match perform x s with
      | (.ok a, s') => perform (f a) s'
      | (.error e, s') => (.error e, s') := by
  show (match perform x s with | (r, s') => (ExceptT.bindCont f r).run s') = _
  rcases perform x s with ⟨_ | _, s'⟩ <;> rfl

theorem perform_tryCatch (x : Attempt ε σ α) (handle : ε → Attempt ε σ α) (s : σ) :
    perform (tryCatch x handle) s = match perform x s with
      | (.ok a, s') => (.ok a, s')
      | (.error e, s') => perform (handle e) s' := by
  show (match perform x s with
    | (r, s') => StateT.run (match r with
      | .ok a => (pure (.ok a) : StateM σ (Except ε α))
      | .error e => handle e) s') = _
  rcases perform x s with ⟨_ | _, s'⟩ <;> rfl

/-- An attempt that goes on from the result of another one, be it an error. -/
theorem perform_mk {ε' : Type} (x : Attempt ε σ α) (f : Except ε α → StateM σ (Except ε' β)) (s : σ) :
    perform (ExceptT.mk (x.run >>= f)) s = (f (perform x s).1).run (perform x s).2 := rfl

end Attempt

end SnippetPreview
