import SnippetPreview.Proofs.Document.Scripts
import SnippetPreview.Proofs.Pattern.Groups
import SnippetPreview.Renderer.React
import SnippetPreview.Script.Lexer

/-!
# The page of a React snippet

* `React.IsPage`: a document with the runtimes in its head, the mount point and the code in a script behind it;
* `React.render_isPage`: what is no complete document becomes such a page;
* `StartsQuoted`: a source whose doctypes and `html` tags all stand in string literals;
* `React.render_of_startsQuoted`: such a source should always become a page. It does so unless one of its strings names one
  of the two, since the test for complete documents does not tell strings from markup.
-/

namespace SnippetPreview

open Pattern

/-! ### The page -/

namespace React

/-- The script that the code of a snippet becomes. -/
def codeElement (code : Text) : ScriptElement :=
  if hasMarkup code then .compiled (script code) else .inline (script code)

/-- The addresses of the scripts that the code needs. -/
def runtimes (code : Text) : List Text :=
  [Kind.reactScript, Kind.reactDomScript] ++ if hasMarkup code then [Kind.babelScript] else []

def mountPoint : Text := "<div id=\"root\"></div>"

/-- The document declares its type. A reader finds the runtimes in its head, and behind the mount point, with which the body
begins, the code and no other script. -/
structure IsPage (code document : Text) : Prop where
  declared : "<!DOCTYPE html>".toList <+: document
  scripts : ∀ l, scriptsIn l document
    = (runtimes code).map (fun url => (ScriptElement.src url).read) ++ [(codeElement code).read]
  parts : ∃ head body, document = head ++ ("</head>\n<body>\n  ".toList ++ (mountPoint ++ '\n' :: body)) ∧
    ∀ l, scriptsIn l head = (runtimes code).map (fun url => (ScriptElement.src url).read) ∧
      scriptsIn l body = [(codeElement code).read]

/-- The steps in which the page is built. -/
def steps (code : Text) : List Shell.Step :=
  .load [Kind.reactScript, Kind.reactDomScript]
    :: ((if hasMarkup code then [.load [Kind.babelScript]] else []) ++ [.body mountPoint, .bodyScript (codeElement code)])

def page (code : Text) : Shell := Shell.built "React Preview" (steps code)

theorem render_eq_finish {source : Text} (h : isHtmlDocument source = false) :
    render source = (page (dropModuleSyntax source)).finish := by
  unfold render page steps codeElement
  rw [h, if_neg Bool.false_ne_true]
  dsimp only
  cases hasMarkup (dropModuleSyntax source) <;> rfl

theorem isTame_steps (l : Letters) (code : Text) : ∀ st ∈ steps code, st.IsTame l := by
  have hcode : (codeElement code).IsSafe := by
    unfold codeElement
    split <;> trivial
  have hmount : Scriptless l mountPoint := by cases l <;> decide +kernel
  have hruntimes : ∀ url ∈ [Kind.reactScript, Kind.reactDomScript], (ScriptElement.src url).IsSafe := by decide +kernel
  have hbabel : ∀ url ∈ [Kind.babelScript], (ScriptElement.src url).IsSafe := by decide +kernel
  intro st hst
  unfold steps at hst
  rcases List.mem_cons.1 hst with rfl | hst
  · exact hruntimes
  rcases List.mem_append.1 hst with hst | hst
  · split at hst
    · rw [List.mem_singleton.1 hst]
      exact hbabel
    · exact absurd hst List.not_mem_nil
  · rcases List.mem_cons.1 hst with rfl | hst
    · exact hmount
    · rw [List.mem_singleton.1 hst]
      exact hcode

theorem headScripts_steps (code : Text) :
    (steps code).flatMap Shell.Step.headScripts = (runtimes code).map .src := by
  unfold steps runtimes
  cases hasMarkup code <;> rfl

theorem bodyScripts_steps (code : Text) : (steps code).flatMap Shell.Step.bodyScripts = [codeElement code] := by
  unfold steps
  cases hasMarkup code <;> rfl

theorem page_spec (l : Letters) (code : Text) : (page code).IsTame l ∧
    (page code).headScripts = (runtimes code).map .src ∧ (page code).bodyScripts = [codeElement code] := by
  have htitle : Scriptless l "React Preview" := by cases l <;> decide +kernel
  have hpage : (page code).IsTame l ∧ _ ∧ _ := (Shell.isTame_titled htitle).steps (isTame_steps l code)
  rw [headScripts_steps, bodyScripts_steps] at hpage
  exact hpage

/-- What stands behind the mount point. -/
def bodyRest (code : Text) : Text := [codeElement code].flatMap Shell.scriptLines ++ "</body>\n</html>\n"

theorem tail_page (code : Text) : (page code).tail = "<body>\n  ".toList ++ (mountPoint ++ '\n' :: bodyRest code) := by
  have hbody : (page code).body = mountPoint ∧ (page code).bodyAttributes = [] := by
    unfold page steps
    cases hasMarkup code <;> exact ⟨rfl, rfl⟩
  rw [Shell.tail, Shell.bodyTag, Shell.bodyLines, hbody.1, hbody.2, (page_spec .ascii code).2.2]
  rfl

theorem finish_page (code : Text) :
    (page code).finish = (page code).headFront ++ ("</head>\n".toList ++ (page code).tail) := by
  rw [Shell.finish_eq, List.append_assoc]

section Reading

variable (l : Letters) (code : Text)

theorem scriptsIn_head (y : Text) : scriptsIn l ((page code).headFront ++ y)
    = (runtimes code).map (fun url => (ScriptElement.src url).read) ++ scriptsIn l y := by
  obtain ⟨htame, hhead, -⟩ := page_spec l code
  rw [htame.scriptsIn_headFront, hhead, List.map_map]
  rfl

theorem scriptsIn_tail : scriptsIn l (page code).tail = [(codeElement code).read] := by
  obtain ⟨htame, -, hbody⟩ := page_spec l code
  rw [htame.scriptsIn_tail, hbody]
  rfl

theorem scriptsIn_bodyRest : scriptsIn l (bodyRest code) = [(codeElement code).read] := by
  have hpassed : IsPassed l ("<body>\n  ".toList ++ (mountPoint ++ ['\n'])) := by cases l <;> decide +kernel
  have htail := scriptsIn_tail l code
  rwa [tail_page, List.append_cons mountPoint, ← List.append_assoc, hpassed.scriptsIn_append] at htail

theorem scriptsIn_page : scriptsIn l (page code).finish
    = (runtimes code).map (fun url => (ScriptElement.src url).read) ++ [(codeElement code).read] := by
  have hclose : IsPassed l "</head>\n" := .literal rfl (by decide)
  rw [finish_page, scriptsIn_head, hclose.scriptsIn_append, scriptsIn_tail]

end Reading

/-- What is no complete document becomes the page of its code. -/
theorem render_isPage {source : Text} (h : isHtmlDocument source = false) :
    IsPage (dropModuleSyntax source) (render source) := by
  rw [render_eq_finish h]
  generalize dropModuleSyntax source = code
  refine ⟨⟨_, rfl⟩, fun l => scriptsIn_page l code, (page code).headFront, bodyRest code, ?_, fun l => ⟨?_, ?_⟩⟩
  · rw [finish_page, tail_page]
    rfl
  · have hhead := scriptsIn_head l code []
    rwa [List.append_nil, scriptsIn_nil, List.append_nil] at hhead
  · exact scriptsIn_bodyRest l code

end React

/-! ### Documents in strings -/

/-- The text opens a document, in capitals or small letters. -/
def IsDocumentStart (u : Text) : Prop :=
  u.map foldCase = "<!doctype".toList.map foldCase ∨ u.map foldCase = "<html".toList.map foldCase

theorem reads_documentStart_iff {b : Option Char} {u y : Text} :
    Reads Signal.documentStart b u y ↔ IsDocumentStart u := by
  have hword {w : String} : Reads (anyCase w) b u y ↔ u.map foldCase = w.toList.map foldCase := reads_anyCase_iff
  exact reads_alt_iff.trans (or_congr hword hword)

theorem isHtmlDocument_iff {t : Text} : isHtmlDocument t = true ↔ ∃ x u y, t = x ++ u ++ y ∧ IsDocumentStart u := by
  simp only [isHtmlDocument, isMatch_iff, reads_documentStart_iff]

/-- What opens a document stands inside a string literal each time. -/
def StartsQuoted (t : Text) : Prop :=
  ∀ x u y, t = x ++ u ++ y → IsDocumentStart u →
    ∃ s ∈ (Script.scan t).strings, s.1 ≤ Text.byteSize x ∧ Text.byteSize (x ++ u) ≤ s.2

theorem startsQuoted_iff {t : Text} :
    StartsQuoted t ↔ ∀ k ∈ (Cursor.start t).places, ∀ r ∈ Signal.documentStart.readings k,
      ∃ s ∈ (Script.scan t).strings, s.1 ≤ k.offset ∧ r.stop.offset ≤ s.2 := by
  constructor
  · intro h k hk r hr
    obtain ⟨x, hx, hkx⟩ := Cursor.mem_placesFrom.1 hk
    obtain ⟨u, hu, hstop, hreads⟩ := readsTo_of_mem_readings _ k r hr
    obtain ⟨s, hs, hstart, hend⟩ :=
      h x u r.stop.after (by rw [List.append_assoc, ← hu]; exact hx) (reads_documentStart_iff.1 hreads)
    have hoffset : k.offset = Text.byteSize x := by rw [hkx]; exact Nat.zero_add _
    refine ⟨s, hs, hoffset ▸ hstart, ?_⟩
    rw [hstop, Cursor.offset_behind, hoffset, ← Text.byteSize_append]
    exact hend
  · rintro h x u y rfl hstart
    have hk : (Cursor.start (x ++ u ++ y)).behind x (u ++ y) ∈ (Cursor.start (x ++ u ++ y)).places :=
      Cursor.mem_placesFrom.2 ⟨x, List.append_assoc x u y, rfl⟩
    obtain ⟨r, hr, hstop⟩ := exists_mem_readings (y := y) (reads_documentStart_iff.2 hstart)
      ((Cursor.start (x ++ u ++ y)).behind x (u ++ y)) rfl rfl
    obtain ⟨s, hs, hopened, hclosed⟩ := h _ hk r hr
    have hoffset : (Cursor.start (x ++ u ++ y)).offset + Text.byteSize x = Text.byteSize x := Nat.zero_add _
    rw [hstop, Cursor.behind_behind, Cursor.offset_behind] at hclosed
    rw [Cursor.offset_behind, hoffset] at hopened
    exact ⟨s, hs, hopened, Nat.le_of_add_left_le hclosed⟩

instance (t : Text) : Decidable (StartsQuoted t) := decidable_of_iff _ startsQuoted_iff.symm

namespace Script

/-- A string literal begins in code. -/
theorem Mode.isString_of_next {m : Mode} {c : Char} {ahead : Option Char} (h : (m.next c ahead).isString = true) :
    m = code ∨ m.isString = true := by
  cases m with
  | code => exact .inl rfl
  | quoted | escaped => exact .inr rfl
  | lineComment | blockComment =>
    rw [next] at h
    split at h <;> exact absurd h Bool.false_ne_true
  | blockOpening | blockClosing => exact absurd h Bool.false_ne_true

/-- The content of a string begins behind its quote. -/
theorem lt_of_mem_strings {mode : Mode} {opened pos : Nat} {t : Text} {s : Nat × Nat}
    (h : s ∈ (scanFrom mode opened pos t).strings) : mode.isString = true ∧ s.1 = opened ∨ pos < s.1 := by
  induction t generalizing s mode opened pos with
  | nil =>
    unfold scanFrom at h
    split at h
    · next hmode => exact .inl ⟨hmode, congrArg Prod.fst (List.mem_singleton.1 h)⟩
    · exact absurd h List.not_mem_nil
  | cons c t ih =>
    have hsize := c.utf8Size_pos
    have hrest : ∀ s ∈ (scanFrom (mode.next c t.head?) (if mode = .code then pos + c.utf8Size else opened)
        (pos + c.utf8Size) t).strings, mode.isString = true ∧ s.1 = opened ∨ pos < s.1 := by
      intro s hs
      rcases ih hs with ⟨hafter, hopened⟩ | hlt
      · split at hopened
        · exact .inr (by omega)
        · next hmode => exact .inl ⟨(Mode.isString_of_next hafter).resolve_left hmode, hopened⟩
      · exact .inr (by omega)
    unfold scanFrom at h
    dsimp only at h
    split at h
    · next hclosed =>
      rcases List.mem_cons.1 h with rfl | h
      · exact .inl ⟨hclosed.1, rfl⟩
      · exact hrest s h
    · exact hrest s h

theorem pos_of_mem_strings {t : Text} {s : Nat × Nat} (h : s ∈ (scan t).strings) : 0 < s.1 :=
  (lt_of_mem_strings h).elim (fun h => absurd h.1 Bool.false_ne_true) id

end Script

namespace Text

theorem isPrefix_slice_go {start stop pos : Nat} {u : Text} (y : Text) (hstart : start ≤ pos)
    (hstop : pos + byteSize u ≤ stop) : u <+: slice.go start stop pos (u ++ y) := by
  induction u generalizing pos with
  | nil => exact List.nil_prefix
  | cons c u ih =>
    have hsize := c.utf8Size_pos
    rw [byteSize_cons] at hstop
    rw [List.cons_append, slice.go, if_neg (by omega), if_pos hstart]
    exact List.cons_prefix_cons.2 ⟨rfl, ih (by omega) (by omega)⟩

theorem isInfix_slice_go {start stop pos : Nat} {x u : Text} (y : Text) (hstart : start ≤ pos + byteSize x)
    (hstop : pos + byteSize (x ++ u) ≤ stop) : u <:+: slice.go start stop pos (x ++ (u ++ y)) := by
  induction x generalizing pos with
  | nil => exact (isPrefix_slice_go y hstart hstop).isInfix
  | cons c x ih =>
    rw [List.cons_append, byteSize_cons] at hstop
    rw [byteSize_cons] at hstart
    have hsize := c.utf8Size_pos
    have hrest : u <:+: slice.go start stop (pos + c.utf8Size) (x ++ (u ++ y)) := ih (by omega) (by omega)
    rw [List.cons_append, slice.go, if_neg (by omega)]
    split
    · exact hrest.trans (List.suffix_cons c _).isInfix
    · exact hrest

/-- What stands within a range of a text is a part of its slice. -/
theorem isInfix_slice {start stop : Nat} {x u : Text} (y : Text) (hstart : start ≤ byteSize x)
    (hstop : byteSize (x ++ u) ≤ stop) : u <:+: slice (x ++ u ++ y) start stop := by
  rw [List.append_assoc]
  exact isInfix_slice_go y (by omega) (by omega)

end Text

theorem isHtmlDocument_of_isInfix {t t' : Text} (h : isHtmlDocument t = true) (ht : t <:+: t') :
    isHtmlDocument t' = true := isMatch_of_isInfix rfl rfl h ht

/-- A source that opens documents in its strings only opens one iff some string does. -/
theorem isHtmlDocument_iff_of_startsQuoted {t : Text} (h : StartsQuoted t) :
    isHtmlDocument t = true ↔ ∃ s ∈ (Script.scan t).strings, isHtmlDocument (t.slice s.1 s.2) = true := by
  constructor
  · intro hdocument
    obtain ⟨x, u, y, rfl, hu⟩ := isHtmlDocument_iff.1 hdocument
    obtain ⟨s, hs, hstart, hstop⟩ := h x u y rfl hu
    obtain ⟨x', y', hslice⟩ := Text.isInfix_slice y hstart hstop
    exact ⟨s, hs, isHtmlDocument_iff.2 ⟨x', u, y', hslice.symm, hu⟩⟩
  · rintro ⟨s, -, hs⟩
    exact isHtmlDocument_of_isInfix hs (Text.slice_isInfix t s.1 s.2)

namespace React

/-- A page declares its type in front of all its strings. -/
theorem IsPage.not_startsQuoted {code document : Text} (h : IsPage code document) : ¬ StartsQuoted document := by
  obtain ⟨y, hy⟩ := h.declared
  intro hquoted
  obtain ⟨s, hs, hstart, -⟩ := hquoted [] "<!DOCTYPE".toList (" html>".toList ++ y) (by rw [← hy]; rfl)
    (.inl (by decide))
  exact absurd (Script.pos_of_mem_strings hs) (by rw [Nat.le_zero.1 hstart]; exact Nat.lt_irrefl 0)

/-- **Documents in strings.** A source that opens documents in its string literals only is no document and should become
the page of its code. It does so iff none of its strings opens a document; when one does, the source is taken for a complete
document and passes through as it is. -/
theorem render_of_startsQuoted {source : Text} (h : StartsQuoted source) :
    (IsPage (dropModuleSyntax source) (render source) ↔
        ∀ s ∈ (Script.scan source).strings, isHtmlDocument (source.slice s.1 s.2) = false) ∧
      (render source = source ↔ ∃ s ∈ (Script.scan source).strings, isHtmlDocument (source.slice s.1 s.2) = true) := by
  have hstrings := isHtmlDocument_iff_of_startsQuoted h
  cases hdocument : isHtmlDocument source with
  | true =>
    have hself : render source = source := if_pos hdocument
    obtain ⟨s, hs, hopens⟩ := hstrings.1 hdocument
    rw [hself]
    refine ⟨iff_of_false (fun hpage => hpage.not_startsQuoted h) fun hnone => ?_, iff_of_true rfl ⟨s, hs, hopens⟩⟩
    exact absurd (hopens.symm.trans (hnone s hs)) nofun
  | false =>
    have hpage := render_isPage hdocument
    have hnone : ∀ s ∈ (Script.scan source).strings, isHtmlDocument (source.slice s.1 s.2) = false := fun s hs =>
      Bool.eq_false_iff.2 fun hopens => Bool.eq_false_iff.1 hdocument (hstrings.2 ⟨s, hs, hopens⟩)
    refine ⟨iff_of_true hpage hnone, iff_of_false (fun hself => ?_) ?_⟩
    · rw [hself] at hpage
      exact hpage.not_startsQuoted h
    · rintro ⟨s, hs, hopens⟩
      exact absurd (hopens.symm.trans (hnone s hs)) nofun

/-- A component that has markup in a string, and one that tells the first tag of a document. -/
theorem render_of_startsQuoted_markup :
    StartsQuoted "const App = () => '<b>';" ∧
      IsPage (dropModuleSyntax "const App = () => '<b>';") (render "const App = () => '<b>';") ∧
      StartsQuoted "const first = '<HTML>';" ∧
      render "const first = '<HTML>';" = "const first = '<HTML>';".toList := by
  have hplain : StartsQuoted "const App = () => '<b>';" := by decide +kernel
  have hopens : StartsQuoted "const first = '<HTML>';" := by decide +kernel
  refine ⟨hplain, (render_of_startsQuoted hplain).1.2 (by decide +kernel), hopens, ?_⟩
  exact (render_of_startsQuoted hopens).2.2 (by decide +kernel)

end React

end SnippetPreview
