import SnippetPreview.Live.Session
import SnippetPreview.Proofs.Live.Queue

/-!
# Listening to a live preview

* `Room`: a session with the pages that listen to it, and what each of them has heard;
* `Room.Action`, `Room.step`, `Room.run`: events of the watcher and steps of the pages, in any order;
* `Listener.UpToDate`: what holds between a listener and the session, whatever happens: the last thing it hears, or is yet
  to hear, shows the current preview;
* `Room.Sound`: this for all listeners, with `Room.Sound.step` for one action and `Room.Sound.run` for all runs.
-/

namespace SnippetPreview

structure Listener where
  /-- How many messages had been sent when it came. -/
  since : Nat
  /-- What it has been told, oldest first. -/
  heard : List PageMessage
deriving DecidableEq, Repr

def Listener.hear (l : Listener) (d : Option (Delivery PageMessage)) : Listener :=
  { l with heard := l.heard ++ (d.map Delivery.brought).getD [] }

/-- A session with its listeners, in the order in which they came. -/
structure Room where
  session : Session
  listeners : List Listener

namespace Room

inductive Action where
  /-- The watcher reports an event. The files are as they are when it is dealt with. -/
  | watch (files : Node) (event : WatchEvent)
  /-- A page begins to listen. -/
  | join
  /-- A listener takes the next thing that there is for it. -/
  | receive (id : Nat)
  /-- A listener goes away. -/
  | leave (id : Nat)

/-- A session that has just begun. -/
def opened (entry : Text) (sandbox : Sandbox) (current : Preview) : Room := ⟨⟨entry, sandbox, current, Hub.new⟩, []⟩

def step (r : Room) : Action → Room
  | .watch files event => { r with session := r.session.handle files event }
  | .join => ⟨r.session.connect.2, r.listeners ++ [⟨r.session.pages.sent, [r.session.connect.1]⟩]⟩
  | .receive id => ⟨{ r.session with pages := (r.session.pages.receive id).2 },
      r.listeners.modify id fun l => l.hear (r.session.pages.receive id).1⟩
  | .leave id => { r with session := { r.session with pages := r.session.pages.unsubscribe id } }

def run (r : Room) (actions : List Action) : Room := actions.foldl step r

/-- Every session begins like this. -/
theorem opened_of_start {n : Node} {c : PreviewConfig} {addressIsFree : Bool} {s : Session} {scope : Scope}
    (h : Session.start n c addressIsFree = .ok (s, scope)) : opened s.entry s.sandbox s.current = ⟨s, []⟩ := by
  have hnew : ∃ current, s = ⟨c.entry, c.sandbox, current, Hub.new⟩ := by
    unfold Session.start at h
    simp only [bind, Except.bind, pure, Except.pure] at h
    repeat' split at h
    all_goals first
      | contradiction
      | exact ⟨_, (congrArg Prod.fst (Except.ok.inj h)).symm⟩
  obtain ⟨current, rfl⟩ := hnew
  rfl

end Room

/-! ### What a step of the session does -/

namespace Session

/-- An event changes nothing, or the current preview, of which all pages are told. -/
theorem handle_cases (n : Node) (s : Session) (e : WatchEvent) :
    s.handle n e = s ∨ ∃ path p, e = .changed path ∧ load n path = .ok p ∧ p ≠ s.current ∧
      s.handle n e = { s with current := p, pages := s.pages.send (update p) } := by
  cases e with
  | removed path => exact .inl rfl
  | changed path =>
    unfold handle
    dsimp only
    split
    case h_1 p hp =>
      unfold refresh
      split
      case isTrue => exact .inl rfl
      case isFalse hne => exact .inr ⟨path, p, rfl, hp, hne, rfl⟩
    case h_2 => exact .inl rfl

end Session

/-! ### A listener and its session -/

/-- What holds for a listener at a place of the stream. -/
structure Listener.UpToDate (l : Listener) (cursor : Nat) (s : Session) : Prop where
  /-- Nobody is ahead of the stream. -/
  inside : cursor ≤ s.pages.sent
  /-- It came after some of the messages. -/
  since_le : l.since ≤ s.pages.sent
  /-- Without a message since it came, it has nothing but the greeting. -/
  greeted : l.since = s.pages.sent → l.heard ++ s.pages.ahead cursor = [.connected]
  /-- Else the last message, heard or yet to be heard, shows the current preview. -/
  newest : l.since < s.pages.sent →
    (l.heard ++ s.pages.ahead cursor).getLast? = some (Session.update s.current)

namespace Listener.UpToDate

variable {l : Listener} {cursor : Nat} {s : Session}

theorem join (s : Session) : UpToDate ⟨s.pages.sent, [s.connect.1]⟩ s.pages.sent s.connect.2 where
  inside := Nat.le_refl _
  since_le := Nat.le_refl _
  greeted _ := by
    show [PageMessage.connected] ++ s.pages.ahead s.pages.sent = _
    rw [Hub.ahead_sent]
    rfl
  newest h := absurd h (Nat.lt_irrefl _)

/-- A preview that is shown is the last thing that a listener is told. -/
theorem send (h : l.UpToDate cursor s) (hk : s.pages.kept.length ≤ Hub.capacity) (p : Preview) :
    l.UpToDate cursor { s with current := p, pages := s.pages.send (Session.update p) } := by
  have hsent : (s.pages.send (Session.update p)).sent = s.pages.sent + 1 := Hub.sent_send _ _ hk
  have hinside := h.inside
  have hsince := h.since_le
  refine ⟨?_, ?_, fun heq => ?_, fun _ => ?_⟩
  · dsimp only
    omega
  · dsimp only
    omega
  · dsimp only at heq
    omega
  · obtain ⟨rest, -, hrest⟩ := Hub.ahead_send s.pages (Session.update p) hinside
    dsimp only
    rw [hrest, ← List.append_assoc]
    exact List.getLast?_concat

/-- What a listener takes was there for it before. -/
theorem receive (h : l.UpToDate cursor s) (cursors : List (Option Nat)) :
    (l.hear (some (s.pages.deliver cursor).1)).UpToDate (s.pages.deliver cursor).2
      { s with pages := { s.pages with cursors } } := by
  obtain ⟨-, hle, hahead⟩ := s.pages.deliver_eq h.inside
  have htold : (l.hear (some (s.pages.deliver cursor).1)).heard ++ s.pages.ahead (s.pages.deliver cursor).2
      = l.heard ++ s.pages.ahead cursor := by
    rw [hahead, ← List.append_assoc]
    rfl
  refine ⟨hle, h.since_le, fun heq => ?_, fun hlt => ?_⟩
  · exact htold.trans (h.greeted heq)
  · exact (congrArg List.getLast? htold).trans (h.newest hlt)

/-- Others may come, go and read. -/
theorem frame (h : l.UpToDate cursor s) (cursors : List (Option Nat)) :
    l.UpToDate cursor { s with pages := { s.pages with cursors } } := ⟨h.inside, h.since_le, h.greeted, h.newest⟩

end Listener.UpToDate

namespace Room

/-- What holds in a room at any time. -/
structure Sound (r : Room) : Prop where
  /-- Not more is kept than there is room for. -/
  capacity : r.session.pages.kept.length ≤ Hub.capacity
  /-- There is a listener for each number that has been given out. -/
  numbered : r.listeners.length = r.session.pages.cursors.length
  /-- Those who have not left are up to date. -/
  upToDate : ∀ {id : Nat} {l : Listener} {cursor : Nat}, r.listeners[id]? = some l →
    r.session.pages.cursors[id]? = some (some cursor) → l.UpToDate cursor r.session

theorem sound_opened (entry : Text) (sandbox : Sandbox) (current : Preview) : (opened entry sandbox current).Sound where
  capacity := Nat.zero_le _
  numbered := rfl
  upToDate h := nomatch h

theorem Sound.watch {r : Room} (h : r.Sound) (files : Node) (event : WatchEvent) :
    (r.step (.watch files event)).Sound := by
  unfold step
  dsimp only
  rcases r.session.handle_cases files event with heq | ⟨path, p, -, -, -, heq⟩
  · rw [heq]
    exact h
  · rw [heq]
    refine ⟨Hub.length_kept_send _ _, ?_, fun hl hc => ?_⟩
    · rw [Hub.cursors_send]
      exact h.numbered
    · rw [Hub.cursors_send] at hc
      exact (h.upToDate hl hc).send h.capacity p

theorem Sound.join {r : Room} (h : r.Sound) : (r.step .join).Sound := by
  refine ⟨h.capacity, ?_, fun {id l cursor} hl hc => ?_⟩
  · show (r.listeners ++ [_]).length = (r.session.pages.cursors ++ [_]).length
    rw [List.length_append, List.length_append, h.numbered]
    rfl
  · -- a listener is one of those before, or the one that comes, whose number is the next one
    change (r.listeners ++ [_])[id]? = some l at hl
    change (r.session.pages.cursors ++ [_])[id]? = some (some cursor) at hc
    rw [List.getElem?_append] at hl hc
    rw [h.numbered] at hl
    split at hc
    case isTrue hid =>
      rw [if_pos hid] at hl
      exact (h.upToDate hl hc).frame _
    case isFalse hid =>
      rw [if_neg hid, List.getElem?_singleton] at hl
      rw [List.getElem?_singleton] at hc
      split at hc
      case isTrue hz =>
        rw [if_pos hz] at hl
        obtain rfl := Option.some.inj hl
        obtain rfl := Option.some.inj (Option.some.inj hc)
        exact Listener.UpToDate.join r.session
      case isFalse => contradiction

theorem Sound.receive {r : Room} (h : r.Sound) (id : Nat) : (r.step (.receive id)).Sound := by
  unfold step
  dsimp only
  cases hcur : r.session.pages.cursors[id]?.join with
  | none =>
    rw [Hub.receive_of_not_subscribed _ hcur]
    refine ⟨h.capacity, by rw [List.length_modify]; exact h.numbered, fun {id' l cursor} hl hc => ?_⟩
    rw [List.getElem?_modify] at hl
    obtain ⟨l', hl', rfl⟩ := Option.map_eq_some_iff.mp hl
    -- the one who reads has left, so those who have not are others
    have hne : id ≠ id' := by
      rintro rfl
      rw [show r.session.pages.cursors[id]? = some (some cursor) from hc] at hcur
      contradiction
    rw [if_neg hne]
    exact h.upToDate hl' hc
  | some c =>
    have hcur := Option.join_eq_some_iff.mp hcur
    rw [Hub.receive_of_subscribed _ hcur]
    refine ⟨h.capacity, ?_, fun {id' l cursor} hl hc => ?_⟩
    · dsimp only
      rw [List.length_modify, List.length_set]
      exact h.numbered
    · dsimp only at hl hc
      rw [List.getElem?_modify] at hl
      obtain ⟨l', hl', rfl⟩ := Option.map_eq_some_iff.mp hl
      by_cases hid : id = id'
      · subst hid
        rw [if_pos rfl]
        rw [List.getElem?_set_self (List.getElem?_eq_some_iff.mp hcur).1] at hc
        obtain rfl := Option.some.inj (Option.some.inj hc)
        exact (h.upToDate hl' hcur).receive _
      · rw [if_neg hid]
        rw [List.getElem?_set_ne hid] at hc
        exact (h.upToDate hl' hc).frame _

theorem Sound.leave {r : Room} (h : r.Sound) (id : Nat) : (r.step (.leave id)).Sound := by
  refine ⟨h.capacity, ?_, fun {id' l cursor} hl hc => ?_⟩
  · exact h.numbered.trans List.length_set.symm
  · change (r.session.pages.cursors.set id none)[id']? = some (some cursor) at hc
    rw [List.getElem?_set] at hc
    split at hc
    case isTrue => split at hc <;> simp at hc
    case isFalse => exact (h.upToDate hl hc).frame _

theorem Sound.step {r : Room} (h : r.Sound) : ∀ a : Action, (r.step a).Sound
  | .watch files event => h.watch files event
  | .join => h.join
  | .receive id => h.receive id
  | .leave id => h.leave id

theorem Sound.run {r : Room} (h : r.Sound) (actions : List Action) : (r.run actions).Sound := by
  induction actions generalizing r with
  | nil => exact h
  | cons a rest ih => exact ih (h.step a)

end Room

end SnippetPreview
