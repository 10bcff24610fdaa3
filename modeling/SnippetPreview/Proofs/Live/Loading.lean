import SnippetPreview.Proofs.Live.Room
import SnippetPreview.Server.Routes

/-!
# A page that loads

A page loads in two steps: its frame asks for the preview, and then the page begins to listen. The snippet may change at
any time.

* `Room.Sound.quiet_run`: as long as nothing is pushed, the current preview stays;
* `Visit`: what happens before, between and after the two steps; `Visit.shown?` is what the frame shows then;
* `Visit.shows_current_iff`: when the page has read all that there is for it, it shows the current preview just when
  something was pushed since it began to listen, or the document was the same at both steps. A change between the two
  steps is not told to the page.
-/

namespace SnippetPreview

/-! ### Between two states of a room -/

namespace Room

/-- A step that pushes nothing leaves the current preview. -/
theorem Sound.quiet_step {r : Room} (h : r.Sound) (a : Action) :
    r.session.pages.sent ≤ (r.step a).session.pages.sent ∧
      ((r.step a).session.pages.sent = r.session.pages.sent → (r.step a).session.current = r.session.current) := by
  cases a with
  | watch files event =>
    unfold Room.step
    dsimp only
    rcases r.session.handle_cases files event with heq | ⟨path, p, -, -, -, heq⟩
    · rw [heq]
      exact ⟨Nat.le_refl _, fun _ => rfl⟩
    · rw [heq]
      dsimp only
      rw [Hub.sent_send _ _ h.capacity]
      exact ⟨Nat.le_succ _, fun hsent => absurd hsent (Nat.succ_ne_self _)⟩
  | join => exact ⟨Nat.le_refl _, fun _ => rfl⟩
  | receive id =>
    have hpages : (r.session.pages.receive id).2.sent = r.session.pages.sent := by
      cases hcur : r.session.pages.cursors[id]?.join with
      | none => rw [Hub.receive_of_not_subscribed _ hcur]
      | some c =>
        rw [Hub.receive_of_subscribed _ (Option.join_eq_some_iff.mp hcur)]
        rfl
    exact ⟨Nat.le_of_eq hpages.symm, fun _ => rfl⟩
  | leave id => exact ⟨Nat.le_refl _, fun _ => rfl⟩

/-- As long as nothing is pushed, the current preview stays. -/
theorem Sound.quiet_run {r : Room} (h : r.Sound) (actions : List Action) :
    r.session.pages.sent ≤ (r.run actions).session.pages.sent ∧
      ((r.run actions).session.pages.sent = r.session.pages.sent →
        (r.run actions).session.current = r.session.current) := by
  induction actions generalizing r with
  | nil => exact ⟨Nat.le_refl _, fun _ => rfl⟩
  | cons a rest ih =>
    obtain ⟨hle, hstep⟩ := h.quiet_step a
    obtain ⟨hle', hrest⟩ := ih (h.step a)
    refine ⟨Nat.le_trans hle hle', fun hsent => ?_⟩
    change ((r.step a).run rest).session.pages.sent = _ at hsent
    have hmid : (r.step a).session.pages.sent = r.session.pages.sent := by omega
    exact (hrest (hsent.trans hmid.symm)).trans (hstep hmid)

theorem exists_listener_step {r : Room} {id : Nat} {l : Listener} (hl : r.listeners[id]? = some l) (a : Action) :
    ∃ l', (r.step a).listeners[id]? = some l' ∧ l'.since = l.since := by
  cases a with
  | watch files event => exact ⟨l, hl, rfl⟩
  | join => exact ⟨l, List.getElem?_append_left (List.getElem?_eq_some_iff.mp hl).1 ▸ hl, rfl⟩
  | receive id' =>
    unfold step
    dsimp only
    rw [List.getElem?_modify, hl]
    refine ⟨_, rfl, ?_⟩
    split <;> rfl
  | leave id => exact ⟨l, hl, rfl⟩

theorem exists_listener_run {r : Room} {id : Nat} {l : Listener} (hl : r.listeners[id]? = some l)
    (actions : List Action) : ∃ l', (r.run actions).listeners[id]? = some l' ∧ l'.since = l.since := by
  induction actions generalizing r l with
  | nil => exact ⟨l, hl, rfl⟩
  | cons a rest ih =>
    obtain ⟨l', hl', hsince⟩ := exists_listener_step hl a
    obtain ⟨l'', hl'', hsince'⟩ := ih hl'
    exact ⟨l'', hl'', hsince'.trans hsince⟩

end Room

/-! ### The frame of a page -/

/-- What the frame of a page asks for. -/
def frameRequest : Request := ⟨.get, "/__preview", none, []⟩

theorem Session.serve_frameRequest (n : Node) (s : Session) :
    s.serve n frameRequest = markupResponse s.current.document := rfl

/-- What a frame shows after a message. -/
def PageMessage.showIn (frame : Content) : PageMessage → Content
  | updatePreview _ document => .text document
  | _ => frame

/-- The last preview that a page was told to show is in its frame. -/
theorem foldl_showIn_of_getLast? {messages : List PageMessage} {p : Preview}
    (h : messages.getLast? = some (Session.update p)) (frame : Content) :
    messages.foldl PageMessage.showIn frame = .text p.document := by
  obtain ⟨earlier, rfl⟩ := List.getLast?_eq_some_iff.mp h
  rw [List.foldl_append]
  rfl

/-! ### Loading -/

/-- What happens while a page loads. -/
structure Visit where
  /-- The files next to the snippet, when the frame asks. -/
  files : Node
  /-- What happens before the frame asks for the preview. -/
  before : List Room.Action
  /-- What happens then, before the page begins to listen. -/
  between : List Room.Action
  /-- What happens afterwards. -/
  after : List Room.Action

namespace Visit

/-- When the frame asks for the preview. -/
def atFetch (v : Visit) (r : Room) : Room := r.run v.before

/-- When the page begins to listen. -/
def atJoin (v : Visit) (r : Room) : Room := (v.atFetch r).run v.between

def now (v : Visit) (r : Room) : Room := ((v.atJoin r).step .join).run v.after

/-- The number of the page among the listeners. -/
def id (v : Visit) (r : Room) : Nat := (v.atJoin r).session.pages.nextId

/-- What the frame of the page shows, when the page listens. -/
def shown? (v : Visit) (r : Room) : Option Content :=
  (v.now r).listeners[v.id r]?.map fun page =>
    page.heard.foldl PageMessage.showIn ((v.atFetch r).session.serve v.files frameRequest).body

/-- The page is among the listeners, and knows when it came. -/
theorem exists_page (v : Visit) {r : Room} (h : r.Sound) :
    ∃ page, (v.now r).listeners[v.id r]? = some page ∧ page.since = (v.atJoin r).session.pages.sent := by
  have hjoin : (v.atJoin r).Sound := (h.run v.before).run v.between
  have hid : v.id r = (v.atJoin r).listeners.length := hjoin.numbered.symm
  refine Room.exists_listener_run (l := ⟨_, [.connected]⟩) ?_ v.after
  rw [hid]
  exact List.getElem?_concat_length

/-- **What a page shows when it has read everything.** It shows the current preview just when something was pushed since
it began to listen, or the document was the same then as when its frame asked. -/
theorem shows_current_iff (v : Visit) (entry : Text) (sandbox : Sandbox) (opening : Preview) :
    let r := Room.opened entry sandbox opening
    ∃ frame, v.shown? r = some frame ∧
      ((v.now r).session.pages.isSubscribed (v.id r) = true → (v.now r).session.pages.queue (v.id r) = [] →
        (frame = .text (v.now r).session.current.document ↔
          (v.atJoin r).session.pages.sent < (v.now r).session.pages.sent ∨
            (v.atJoin r).session.current.document = (v.atFetch r).session.current.document)) := by
  intro r
  have hr : r.Sound := Room.sound_opened entry sandbox opening
  have hjoin : ((v.atJoin r).step .join).Sound := ((hr.run v.before).run v.between).join
  obtain ⟨page, hpage, hsince⟩ := v.exists_page hr
  refine ⟨page.heard.foldl PageMessage.showIn ((v.atFetch r).session.serve v.files frameRequest).body, ?_,
    fun hid hqueue => ?_⟩
  · unfold shown?
    rw [hpage]
    rfl
  · obtain ⟨cursor, hc⟩ := Hub.exists_cursor hid
    rw [Hub.queue_eq _ hc] at hqueue
    have hupToDate := (hjoin.run v.after).upToDate hpage hc
    obtain ⟨hle, hquiet⟩ := hjoin.quiet_run v.after
    rcases Nat.lt_or_eq_of_le hle with hlt | heq
    · -- something was pushed, and the last push is the last thing that the page has heard
      have hlast := hupToDate.newest (hsince ▸ hlt)
      change (page.heard ++ (v.now r).session.pages.ahead cursor).getLast? = _ at hlast
      rw [hqueue, List.append_nil] at hlast
      rw [foldl_showIn_of_getLast? hlast]
      exact ⟨fun _ => .inl hlt, fun _ => rfl⟩
    · -- nothing was pushed, so that the page has only been greeted and shows what its frame got
      have hheard := hupToDate.greeted (hsince.trans heq)
      change page.heard ++ (v.now r).session.pages.ahead cursor = _ at hheard
      rw [hqueue, List.append_nil] at hheard
      have hcurrent : (v.now r).session.current = (v.atJoin r).session.current := hquiet heq.symm
      rw [hheard, hcurrent, Session.serve_frameRequest]
      constructor
      · intro hshown
        exact .inr (Content.text.inj hshown).symm
      · rintro (hlt | hsame)
        · exact absurd heq (Nat.ne_of_lt hlt)
        · exact congrArg Content.text hsame.symm

end Visit

end SnippetPreview
