import SnippetPreview.Watch.Event

/-!
# Bursts of events

* `Arrival`: something that arrives after a pause;
* `nextBatch?`: the first burst of a stream of arrivals. It goes on as long as no pause is longer than the window;
* `batches`: all bursts of a stream, until nothing more arrives;
* `Inbox`, `Inbox.take`: what waits to be read, and the burst that a reader finds there.
-/

namespace SnippetPreview

/-- Something that arrives after a pause. -/
structure Arrival (α : Type) where
  pause : Nat
  item : α
deriving DecidableEq, Repr

section

variable {α : Type}

/-- The arrival continues a burst. -/
def Arrival.isPrompt (window : Nat) (a : Arrival α) : Bool := a.pause ≤ window

/-- The items of the first burst and the arrivals after it. The first arrival is waited for as long as it takes. -/
def nextBatch? (window : Nat) : List (Arrival α) → Option (List α × List (Arrival α))
  | [] => none
  | first :: rest =>
    some (first.item :: (rest.takeWhile (Arrival.isPrompt window)).map (·.item), rest.dropWhile (Arrival.isPrompt window))

/-- A burst is at least one arrival. -/
theorem length_lt_of_nextBatch? {window : Nat} {stream later : List (Arrival α)} {items : List α}
    (h : nextBatch? window stream = some (items, later)) : later.length < stream.length := by
  cases stream with
  | nil => simp [nextBatch?] at h
  | cons first rest =>
    simp only [nextBatch?, Option.some.injEq, Prod.mk.injEq] at h
    have := (List.dropWhile_suffix (Arrival.isPrompt window) (l := rest)).length_le
    simp only [← h.2, List.length_cons]
    omega

/-- The bursts of a stream that ends. -/
def batches (window : Nat) (stream : List (Arrival α)) : List (List α) :=
  match _h : nextBatch? window stream with
  | none => []
  | some (items, later) => items :: batches window later
termination_by stream.length
decreasing_by exact length_lt_of_nextBatch? _h

end

/-- The events that a watcher reports for a stream of reports. -/
def watchEvents (window : Nat) (s : Scope) (stream : List (Arrival FileEvent)) : List WatchEvent :=
  (batches window stream).filterMap (coalesce s)

/-! ## What waits to be read -/

/-- What has been sent and not been read, and whether more may come. -/
structure Inbox (α : Type) where
  waiting : List α
  isOpen : Bool
deriving DecidableEq, Repr

/-- What a reader finds. -/
inductive Inbox.Finding (α : Type) where
  /-- A burst. -/
  | burst (items : List α)
  /-- Nothing, and nothing will come. -/
  | ended
  /-- Nothing yet. -/
  | blocked
deriving DecidableEq, Repr

namespace Inbox

variable {α : Type}

def new : Inbox α := ⟨[], true⟩

def send (i : Inbox α) (items : List α) : Inbox α := if i.isOpen then { i with waiting := i.waiting ++ items } else i

def close (i : Inbox α) : Inbox α := { i with isOpen := false }

/-- Takes the first burst, when all that waits has come without pauses. -/
def take (window : Nat) (i : Inbox α) : Finding α × Inbox α :=
  match nextBatch? window (i.waiting.map (⟨0, ·⟩)) with
  | some (items, later) => (.burst items, { i with waiting := later.map (·.item) })
  | none => (if i.isOpen then .blocked else .ended, i)

end Inbox

end SnippetPreview
