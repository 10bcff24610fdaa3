import SnippetPreview.Text.Basic

/-!
# Broadcasting

* `Hub`: a stream of messages of which the newest are kept, and subscribers that read it at their own pace;
* `Hub.subscribe`, `Hub.unsubscribe`, `Hub.send`: who listens, and what is said. A subscriber hears what is sent after it
  has subscribed;
* `Hub.receive`: the next message of a subscriber. One that is too far behind is told once how many it has missed, and
  goes on with the oldest message that is kept;
* `Hub.share`, `Hub.release`: a hub without holders is closed, which subscribers notice when they have read all.
-/

namespace SnippetPreview

/-- A stream of messages with its subscribers. Messages are counted from the start of the stream. -/
structure Hub (α : Type) where
  /-- Those who can send. -/
  holders : Nat
  /-- How many messages are no longer kept. -/
  dropped : Nat
  /-- The newest messages, oldest first. -/
  kept : List α
  /-- The number of the next message for each subscriber, in the order in which they came; none for one that has left. -/
  cursors : List (Option Nat)
deriving DecidableEq, Repr

/-- What a subscriber gets. -/
inductive Delivery (α : Type) where
  | message (a : α)
  /-- So many messages were dropped before the subscriber read them. -/
  | lagged (missed : Nat)
  /-- There is no message yet. -/
  | empty
  /-- There will be no further message. -/
  | closed
deriving DecidableEq, Repr

namespace Hub

variable {α : Type}

def capacity : Nat := 128

/-- A hub with one holder and nothing said yet. -/
def new : Hub α := ⟨1, 0, [], []⟩

def sent (h : Hub α) : Nat := h.dropped + h.kept.length

/-- Adds a subscriber. Its number is the count of all that came before. -/
def subscribe (h : Hub α) : Hub α := { h with cursors := h.cursors ++ [some h.sent] }

def nextId (h : Hub α) : Nat := h.cursors.length

def unsubscribe (h : Hub α) (id : Nat) : Hub α := { h with cursors := h.cursors.set id none }

def subscribers (h : Hub α) : Nat := h.cursors.countP Option.isSome

/-- The subscriber of this number has not left. -/
def isSubscribed (h : Hub α) (id : Nat) : Bool := (h.cursors[id]?.join).isSome

def send (h : Hub α) (a : α) : Hub α :=
  let surplus := h.kept.length + 1 - capacity
  { h with dropped := h.dropped + surplus, kept := (h.kept ++ [a]).drop surplus }

def share (h : Hub α) : Hub α := { h with holders := h.holders + 1 }

def release (h : Hub α) : Hub α := { h with holders := h.holders - 1 }

/-- What a subscriber at this place of the stream gets, and where it is then. -/
def deliver (h : Hub α) (cursor : Nat) : Delivery α × Nat :=
  if cursor < h.dropped then (.lagged (h.dropped - cursor), h.dropped)
  else
    match h.kept[cursor - h.dropped]? with
    | some a => (.message a, cursor + 1)
    | none => (if h.holders = 0 then .closed else .empty, cursor)

/-- What a subscriber gets next; nothing when it is unknown or has left. -/
def receive (h : Hub α) (id : Nat) : Option (Delivery α) × Hub α :=
  match h.cursors[id]?.join with
  | none => (none, h)
  | some cursor =>
    let (d, cursor) := h.deliver cursor
    (some d, { h with cursors := h.cursors.set id (some cursor) })

/-- At most as many messages are kept as there is room for. -/
theorem length_kept_send (h : Hub α) (a : α) : (h.send a).kept.length ≤ capacity := by
  simp only [send, List.length_drop, List.length_append, List.length_singleton]
  omega

/-- Every message counts as sent, kept or not. -/
theorem sent_send (h : Hub α) (a : α) (hk : h.kept.length ≤ capacity) : (h.send a).sent = h.sent + 1 := by
  simp only [sent, send, List.length_drop, List.length_append, List.length_singleton, capacity] at hk ⊢
  omega

end Hub

end SnippetPreview
