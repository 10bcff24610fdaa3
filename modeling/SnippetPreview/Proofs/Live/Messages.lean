import SnippetPreview.Live.Message
import SnippetPreview.Proofs.Framework.Wire
import SnippetPreview.Proofs.Json.Objects

/-!
# Messages there and back

* `Json.only?_of_perm`: the only member of a name is found in any order of the members;
* `PageMessage.parse?_object`: a message is read from its members in whatever order and layout;
* `wire_roundTrip`: so verdicts and messages come back from what is written, and no two of them are written alike.
-/

namespace SnippetPreview

open Json (Layout)

theorem Json.only?_eq_some {name : Text} {ms : List (Text × Json)} {j : Json} :
    only? name ms = some j ↔ ∃ other, ms.filter (·.1 == name) = [(other, j)] := by
  rw [only?]
  constructor
  · intro h
    split at h
    next other value heq =>
      obtain rfl := Option.some.inj h
      exact ⟨other, heq⟩
    next => exact nomatch h
  · rintro ⟨other, heq⟩
    rw [heq]

/-- The only member of a name is found in any order of the members. -/
theorem Json.only?_of_perm {name : Text} {ms ms' : List (Text × Json)} {j : Json} (h : ms.Perm ms')
    (hj : only? name ms' = some j) : only? name ms = some j := by
  obtain ⟨other, hother⟩ := only?_eq_some.1 hj
  have hfilter := h.filter (·.1 == name)
  rw [hother, List.perm_singleton] at hfilter
  exact only?_eq_some.2 ⟨other, hfilter⟩

namespace PageMessage

theorem exists_string_of_mem_members {m : PageMessage} {field : Text × Json} (h : field ∈ m.members) :
    ∃ t, field.2 = .string t := by
  cases m with
  | reload =>
    obtain rfl := List.mem_singleton.1 h
    exact ⟨_, rfl⟩
  | updatePreview kind document =>
    simp only [members, List.mem_cons, List.not_mem_nil, or_false] at h
    rcases h with rfl | rfl | rfl <;> exact ⟨_, rfl⟩
  | connected =>
    obtain rfl := List.mem_singleton.1 h
    exact ⟨_, rfl⟩

theorem ofMembers?_of_perm {m : PageMessage} {ms : List (Text × Json)} (h : ms.Perm m.members) :
    ofMembers? ms = some m := by
  cases m with
  | reload =>
    have htype : Json.only? "type" ms = some (.string "reload") := Json.only?_of_perm h rfl
    rw [ofMembers?, htype]
    rfl
  | updatePreview kind document =>
    have htype : Json.only? "type" ms = some (.string "update_preview") := Json.only?_of_perm h rfl
    have hkind : Json.only? "kind" ms = some kind.toJson := Json.only?_of_perm h rfl
    have hhtml : Json.only? "html" ms = some (.string document) := Json.only?_of_perm h rfl
    have hfields : ofFields? kind.toJson (.string document) = some (updatePreview kind document) := by
      rw [ofFields?]
      exact Kind.ofName?_name kind
    rw [ofMembers?, htype, hkind, hhtml]
    exact hfields
  | connected =>
    have htype : Json.only? "type" ms = some (.string "connected") := Json.only?_of_perm h rfl
    rw [ofMembers?, htype]
    rfl

/-- A message is read from an object of its members, in whatever order they stand and however the object is laid out. -/
theorem parse?_object (m : PageMessage) (l : Layout) {ms : List (Text × Json)} (h : ms.Perm m.members) :
    parse? (l.object ms) = some m := by
  have hobject : Json.parse? (l.object ms) = some (.object ms) :=
    l.parse?_object fun _ hfield => exists_string_of_mem_members (h.mem_iff.1 hfield)
  rw [parse?, hobject, Option.bind_some]
  exact ofMembers?_of_perm h

theorem parse?_written (m : PageMessage) {ms : List (Text × Json)} (h : ms.Perm m.members) :
    parse? (Json.object ms).compact = some m ∧ parse? (Json.object ms).pretty = some m := by
  have hms : ms ≠ [] := by
    rintro rfl
    cases m <;> exact List.cons_ne_nil _ _ h.nil_eq.symm
  exact ⟨Layout.object_compact ms ▸ m.parse?_object .compact h, Layout.object_pretty hms ▸ m.parse?_object .pretty h⟩

theorem injective_of_parse? {write : PageMessage → Text} (h : ∀ m, parse? (write m) = some m) :
    Function.Injective write := by
  intro m n heq
  exact Option.some.inj ((h m).symm.trans ((congrArg parse? heq).trans (h n)))

end PageMessage

/-- **Verdicts and messages there and back.** Every verdict and every message to a page comes back from what is written, on
one line or on several, with the members of the object in any order. So no two verdicts and no two messages are written
alike. -/
theorem wire_roundTrip :
    (∀ (v : Verdict) (ms : List (Text × Json)), ms.Perm v.members →
      Verdict.reader.run (Json.object ms).compact = .ok v ∧ Verdict.reader.run (Json.object ms).pretty = .ok v) ∧
    (∀ (m : PageMessage) (ms : List (Text × Json)), ms.Perm m.members →
      PageMessage.parse? (Json.object ms).compact = some m ∧ PageMessage.parse? (Json.object ms).pretty = some m) ∧
    (Function.Injective fun v : Verdict => v.toJson.compact) ∧ (Function.Injective fun v : Verdict => v.toJson.pretty) ∧
    (Function.Injective fun m : PageMessage => m.toJson.compact) ∧
    (Function.Injective fun m : PageMessage => m.toJson.pretty) := by
  refine ⟨fun v _ h => v.run_written h, fun m _ h => m.parse?_written h, ?_, ?_, ?_, ?_⟩
  · exact Verdict.injective_of_run fun v => (v.run_written (List.Perm.refl _)).1
  · exact Verdict.injective_of_run fun v => (v.run_written (List.Perm.refl _)).2
  · exact PageMessage.injective_of_parse? fun m => (m.parse?_written (List.Perm.refl _)).1
  · exact PageMessage.injective_of_parse? fun m => (m.parse?_written (List.Perm.refl _)).2

/-- A document with a quote, a backslash, a line break and a control character, behind which the type comes last; and a
verdict written backwards, with an address that is not ASCII. -/
theorem wire_roundTrip_backwards :
    PageMessage.parse? (Json.object [("html", "<p title=\"\\é\n\x01\">"), ("kind", "vue"),
          ("type", "update_preview")]).compact
        = some (.updatePreview .vue "<p title=\"\\é\n\x01\">") ∧
      Verdict.reader.run (Json.object [("cdn_script_urls", .array [.string "https://é.example/\"", .string ""]),
          ("needs_browser_compilation", true), ("kind", "svelte")]).pretty
        = .ok ⟨.svelte, true, ["https://é.example/\"", ""]⟩ :=
  ⟨(wire_roundTrip.2.1 (.updatePreview .vue "<p title=\"\\é\n\x01\">") _ (List.reverse_perm _)).1,
    (wire_roundTrip.1 ⟨.svelte, true, ["https://é.example/\"", ""]⟩ _ (List.reverse_perm _)).2⟩

end SnippetPreview
