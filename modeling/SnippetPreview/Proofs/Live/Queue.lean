import SnippetPreview.Live.Hub

/-!
# What a subscriber has yet to hear

* `Hub.ahead`: the messages that are kept for a place in the stream;
* `Hub.ahead_send`: a message that is sent comes last, and nothing else comes in;
* `Hub.deliver_eq`: one step of a subscriber moves the first of these messages to it, and a lag takes none away.
-/

namespace SnippetPreview

variable {α : Type}

/-- What a delivery brings. -/
def Delivery.brought : Delivery α → List α
  | message a => [a]
  | _ => []

namespace Hub

/-- The messages from a place of the stream on, as far as they are kept. -/
def ahead (h : Hub α) (cursor : Nat) : List α := h.kept.drop (cursor - h.dropped)

/-- What is kept for a subscriber; nothing when it is unknown or has left. -/
def queue (h : Hub α) (id : Nat) : List α := (h.cursors[id]?.join.map h.ahead).getD []

theorem queue_eq (h : Hub α) {id cursor : Nat} (hc : h.cursors[id]? = some (some cursor)) :
    h.queue id = h.ahead cursor := by
  unfold queue
  rw [hc]
  rfl

theorem exists_cursor {h : Hub α} {id : Nat} (hid : h.isSubscribed id = true) :
    ∃ cursor, h.cursors[id]? = some (some cursor) := by
  unfold isSubscribed at hid
  obtain ⟨cursor, hc⟩ := Option.isSome_iff_exists.mp hid
  exact ⟨cursor, Option.join_eq_some_iff.mp hc⟩

/-- At the end of the stream nothing is left. -/
theorem ahead_sent (h : Hub α) : h.ahead h.sent = [] := by
  unfold ahead sent
  rw [Nat.add_sub_cancel_left]
  exact List.drop_length

/-! ### Sending -/

@[simp] theorem cursors_send (h : Hub α) (a : α) : (h.send a).cursors = h.cursors := by
  unfold send
  rfl

/-- Whoever has not read beyond the stream finds a new message at its end, and in front of it what there was, or less of
it. -/
theorem ahead_send (h : Hub α) (a : α) {cursor : Nat} (hc : cursor ≤ h.sent) :
    ∃ rest, rest <:+ h.ahead cursor ∧ (h.send a).ahead cursor = rest ++ [a] := by
  unfold ahead send sent at *
  dsimp only
  rw [List.drop_drop]
  have hle : h.kept.length + 1 - capacity + (cursor - (h.dropped + (h.kept.length + 1 - capacity))) ≤ h.kept.length := by
    unfold capacity
    omega
  refine ⟨_, ?_, List.drop_append_of_le_length hle⟩
  obtain ⟨k, hk⟩ : ∃ k, h.kept.length + 1 - capacity + (cursor - (h.dropped + (h.kept.length + 1 - capacity)))
      = cursor - h.dropped + k := Nat.exists_eq_add_of_le (by omega)
  rw [hk, ← List.drop_drop]
  exact List.drop_suffix _ _

/-! ### Receiving -/

/-- A step of a subscriber takes the first message of what it has yet to hear, if anything, and leaves the rest. -/
theorem deliver_eq (h : Hub α) {cursor : Nat} (hc : cursor ≤ h.sent) :
    cursor ≤ (h.deliver cursor).2 ∧ (h.deliver cursor).2 ≤ h.sent ∧
      h.ahead cursor = (h.deliver cursor).1.brought ++ h.ahead (h.deliver cursor).2 := by
  unfold deliver
  split
  case isTrue hlag =>
    refine ⟨Nat.le_of_lt hlag, Nat.le_add_right _ _, ?_⟩
    unfold ahead Delivery.brought
    rw [Nat.sub_self, Nat.sub_eq_zero_of_le (Nat.le_of_lt hlag)]
    rfl
  case isFalse hlag =>
    split
    case h_1 a ha =>
      obtain ⟨hlt, hget⟩ := List.getElem?_eq_some_iff.mp ha
      unfold sent
      refine ⟨Nat.le_succ _, by omega, ?_⟩
      unfold ahead Delivery.brought
      rw [List.drop_eq_getElem_cons hlt, hget, Nat.sub_add_comm (Nat.le_of_not_lt hlag)]
      rfl
    case h_2 =>
      refine ⟨Nat.le_refl _, hc, ?_⟩
      split <;> rfl

theorem receive_of_subscribed (h : Hub α) {id cursor : Nat} (hc : h.cursors[id]? = some (some cursor)) :
    h.receive id
      = (some (h.deliver cursor).1, { h with cursors := h.cursors.set id (some (h.deliver cursor).2) }) := by
  unfold receive
  rw [hc]
  rfl

/-- Nothing happens for someone who does not listen. -/
theorem receive_of_not_subscribed (h : Hub α) {id : Nat} (hc : h.cursors[id]?.join = none) :
    h.receive id = (none, h) := by
  unfold receive
  rw [hc]

end Hub

end SnippetPreview
