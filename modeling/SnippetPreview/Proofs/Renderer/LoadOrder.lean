import SnippetPreview.Proofs.Document.Nesting
import SnippetPreview.Proofs.Renderer.FirstDoctype

/-!
# Runtimes and the scripts that need them

A complete document that does not load its runtime is given it at the end of its head, if it has one.

* `ScriptRead.needs`: an inline script that mentions the name under which the runtime of a kind is known;
* `LoadsFirst`: a document with a runtime that is found in front of all scripts that need it;
* `read_not_mem_of_addedRuntime?`: no document that is given a runtime had its element before;
* `render_loads_first_iff`: the runtime that is added comes first exactly when it is not put into a script, and none of
  the scripts in front of it needs it.
-/

namespace SnippetPreview

open Pattern

/-- The name under which scripts use the runtime that a complete document of the kind is given. -/
def Kind.globalName? : Kind → Option Text
  | .vue => some "Vue"
  | .angular => some "angular"
  | .html | .react | .svelte | .alpine | .vanilla => none

namespace ScriptRead

/-- The name of the attribute that has the address of a script. -/
def sourceAttribute : Pattern :=
  chain [one fun c => isBlank c || charOf "/\"'" c, anyCase "src", many isBlank, "="]

/-- The script has its code in the document. -/
def isInline (s : ScriptRead) : Bool := !sourceAttribute.isMatch s.attributes

/-- An inline script that mentions the name of the runtime. -/
def needs (k : Kind) (s : ScriptRead) : Bool := s.isInline && k.globalName?.any s.content.contains

end ScriptRead

/-- The document loads the runtime at the address, and no script that is found in front of it needs the runtime. -/
def LoadsFirst (l : Letters) (k : Kind) (url document : Text) : Prop :=
  ∃ front back, scriptsIn l document = front ++ (ScriptElement.src url).read :: back ∧ ∀ s ∈ front, s.needs k = false

variable {l : Letters} {source url : Text} {k : Kind}

/-! ### Documents that do not load their runtime -/

theorem reads_of_readings {p : Pattern} {k : Cursor} (h : (p.readings k).any (fun r => r.stop.after.isEmpty) = true) :
    Reads p k.before k.after [] := by
  obtain ⟨r, hr, hend⟩ := List.any_eq_true.1 h
  obtain ⟨u, hu, -, hreads⟩ := readsTo_of_mem_readings p k r hr
  rw [List.isEmpty_iff.1 hend] at hu hreads
  rwa [hu, List.append_nil]

/-- The start of a script element, in whatever letters, followed by what a pattern reads behind a blank. -/
theorem isMatch_of_element {q : Pattern} {u t : Text} (hu : u.map l.fold = openingTag) (hq : Reads q (some ' ') t []) :
    (Pattern.seq (anyCase "<script") (.seq (many (charNotOf ">")) q)).isMatch (u ++ ' ' :: t) = true := by
  have hletters : u.map foldCase = openingTag := by
    rw [← hu]
    refine List.map_congr_left fun c hc => l.foldCase_eq ?_ rfl
    have hmem : l.fold c ∈ openingTag := hu ▸ List.mem_map_of_mem hc
    exact (by decide : openingTag ⊆ closingTag) hmem
  have hrun : Reads (many (charNotOf ">")) (lastOf none u) [' '] (t ++ []) := .run _ _ (by decide)
  have hopening : Reads (anyCase "<script") none u (' ' :: t ++ []) :=
    reads_anyCase_iff.2 (hletters.trans (by decide))
  have hwhole := Reads.seq hopening (Reads.seq hrun hq)
  exact isMatch_iff.2 ⟨[], u ++ ' ' :: t, [], (List.append_nil _).symm, hwhole⟩

/-- No document that is given a runtime had its element before. -/
theorem read_not_mem_of_addedRuntime? (hruntime : addedRuntime? source k = some url) {t : Text} (ht : t <:+: source) :
    (ScriptElement.src url).read ∉ scriptsIn l t := by
  intro hmem
  obtain ⟨u, hu, hinfix⟩ := exists_infix_of_mem_scriptsIn hmem
  have hsource := hinfix.trans ht
  unfold addedRuntime? at hruntime
  split at hruntime
  · split at hruntime
    · exact absurd hruntime nofun
    · next hmatch =>
      obtain rfl := Option.some.inj hruntime
      refine hmatch (isMatch_of_isInfix rfl rfl (isMatch_of_element (l := l) hu ?_) hsource)
      exact reads_of_readings (k := ⟨0, some ' ', _⟩) (by decide +kernel)
  · split at hruntime
    · exact absurd hruntime nofun
    · next hmatch =>
      obtain rfl := Option.some.inj hruntime
      rw [Bool.or_eq_true, not_or] at hmatch
      refine hmatch.2 (isMatch_of_isInfix rfl rfl (isMatch_of_element (l := l) hu ?_) hsource)
      exact reads_of_readings (k := ⟨0, some ' ', _⟩) (by decide +kernel)
  all_goals exact absurd hruntime nofun

/-! ### Where the runtime is put -/

/-- Around a runtime that stands nowhere else, what stands in front of it is what is found in front of it. -/
theorem loadsFirst_iff_of_scriptsIn {document : Text} {front back : List ScriptRead}
    (hread : scriptsIn l document = front ++ (ScriptElement.src url).read :: back)
    (hfront : (ScriptElement.src url).read ∉ front) :
    LoadsFirst l k url document ↔ ∀ s ∈ front, s.needs k = false := by
  constructor
  · rintro ⟨front', back', hread', hneeds⟩ s hs
    rw [hread] at hread'
    rcases List.append_eq_append_iff.1 hread' with ⟨w, rfl, -⟩ | ⟨w, rfl, hw⟩
    · exact hneeds s (List.mem_append_left _ hs)
    · cases w with
      | nil => exact hneeds s (by simpa using hs)
      | cons a w =>
        obtain ⟨rfl, -⟩ := List.cons_eq_cons.1 hw
        exact absurd (List.mem_append_right _ List.mem_cons_self) hfront
  · exact fun hneeds => ⟨front, back, hread, hneeds⟩

theorem loadsFirst_injectHeadScript_iff (hruntime : addedRuntime? source k = some url) :
    LoadsFirst l k url (injectHeadScript source url) ↔
      leavesOpen l (headCut source).before = false ∧ ∀ s ∈ scriptsIn l (headCut source).before, s.needs k = false := by
  have hcut := (isHeadCut_headCut source).append_eq
  have hurl := mem_scripts_of_addedRuntime? hruntime
  have hbefore : (ScriptElement.src url).read ∉ scriptsIn l (headCut source).before :=
    read_not_mem_of_addedRuntime? hruntime ⟨[], _, hcut.symm⟩
  have hbehind : (ScriptElement.src url).read ∉ scriptsIn l (headCut source).behind :=
    read_not_mem_of_addedRuntime? hruntime ⟨_, [], by rw [List.append_nil, ← hcut]⟩
  cases hopen : leavesOpen l (headCut source).before with
  | true =>
    refine iff_of_false ?_ fun h => Bool.false_ne_true h.1.symm
    rintro ⟨front, back, hread, -⟩
    refine read_not_mem_injectHeadScript hurl hopen hbefore hbehind ?_
    rw [hread]
    exact List.mem_append_right _ List.mem_cons_self
  | false =>
    have hread := scriptsIn_injectHeadScript (l := l) (Kind.isSafe_scripts hurl) hopen
    rw [loadsFirst_iff_of_scriptsIn hread hbefore]
    exact ⟨fun h => ⟨rfl, h⟩, fun h => h.2⟩

theorem scriptsIn_ensureDoctype (l : Letters) (t : Text) : scriptsIn l (ensureDoctype t) = scriptsIn l t := by
  have hline : IsPassed l "<!DOCTYPE html>\n" := .literal rfl (by decide)
  unfold ensureDoctype
  split
  · rfl
  · exact hline.scriptsIn_append t

theorem Kind.ownTest_of_addedRuntime? (h : addedRuntime? source k = some url) : k.ownTest source = true := by
  cases k with
  | vue | angular => rfl
  | html | react | svelte | alpine | vanilla => exact absurd h nofun

/-- **When a runtime loads before the code that needs it.** A complete document that is given the runtime of Vue or
AngularJS loads it in front of every inline script that mentions it exactly when the place where it is put lies outside of
all script elements, and no inline script in front of this place mentions it. -/
theorem render_loads_first_iff (l : Letters) {v : Verdict} (hdoc : isHtmlDocument source = true)
    (hruntime : addedRuntime? source v.kind = some url) :
    LoadsFirst l v.kind url (render source v) ↔
      leavesOpen l (headCut source).before = false ∧
        ∀ s ∈ scriptsIn l (headCut source).before, s.needs v.kind = false := by
  rw [← loadsFirst_injectHeadScript_iff hruntime, render_of_ownTest hdoc (Kind.ownTest_of_addedRuntime? hruntime),
    hruntime, LoadsFirst, LoadsFirst, scriptsIn_ensureDoctype]
  rfl

/-- The runtime comes behind a script in the head, and in front of one in the body. -/
theorem render_loads_first_vue :
    let inHead : Text := "<!doctype html><html><head><script>Vue.h()</script></head></html>"
    let inBody : Text := "<!doctype html><html><head></head><script>Vue.h()</script></html>"
    ¬ LoadsFirst .ascii .vue Kind.vueScript (render inHead (Verdict.ofKind .vue)) ∧
      LoadsFirst .ascii .vue Kind.vueScript (render inBody (Verdict.ofKind .vue)) := by
  intro inHead inBody
  have hdoc : isHtmlDocument inHead = true ∧ isHtmlDocument inBody = true := by decide +kernel
  have hruntime : addedRuntime? inHead .vue = some Kind.vueScript ∧ addedRuntime? inBody .vue = some Kind.vueScript := by
    decide +kernel
  have hcut : (headCut inHead).before = "<!doctype html><html><head><script>Vue.h()</script>".toList ∧
      (headCut inBody).before = "<!doctype html><html><head>".toList := by
    decide +kernel
  have hnext : nextScript? .ascii "<!doctype html><html><head><script>Vue.h()</script>"
      = some ((⟨[], "Vue.h()"⟩ : ScriptRead), ">".toList) := by
    decide +kernel
  have hnone : Scriptless .ascii "<!doctype html><html><head>" := by decide +kernel
  have hread : scriptsIn .ascii "<!doctype html><html><head>" = [] := scriptsIn_of_none (by decide +kernel)
  have hfirst := render_loads_first_iff .ascii (v := Verdict.ofKind .vue) hdoc.1 hruntime.1
  have hfirst' := render_loads_first_iff .ascii (v := Verdict.ofKind .vue) hdoc.2 hruntime.2
  rw [hcut.1, scriptsIn_of_some hnext] at hfirst
  rw [hcut.2, hread] at hfirst'
  refine ⟨fun h => ?_, hfirst'.2 ⟨leavesOpen_of_scriptless hnone, List.forall_mem_nil _⟩⟩
  exact absurd ((hfirst.1 h).2 _ List.mem_cons_self) (by decide +kernel)

end SnippetPreview
