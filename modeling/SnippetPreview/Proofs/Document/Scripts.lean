import SnippetPreview.Document.Shell
import SnippetPreview.Proofs.Document.Escaping
import SnippetPreview.Proofs.Document.Reader

/-!
# The scripts of a finished document

* `ScriptElement.read`: an element as a reader is to find it;
* `Shell.scriptsIn_scriptLines`: the line of an element is read as the element;
* `Shell.IsTame`: documents whose texts have no opening tag of a script;
* `Shell.Step`, `Shell.built`: a document built step by step;
* `Shell.scriptsIn_finish`: a finished document has exactly the scripts that were added.
-/

namespace SnippetPreview

/-! ### Elements -/

/-- A literal is passed over when the list of its characters is, whatever counts as a letter. -/
theorem IsPassed.literal {l : Letters} {s : String} {t : Text} (hs : s = String.ofList t)
    (h : IsPassed .ascii t ∧ IsPassed .folded t) : IsPassed l s := by
  refine Text.of_literal hs ?_
  cases l with
  | ascii => exact h.1
  | folded => exact h.2

theorem IsCloser.literal {l : Letters} {s : String} {t : Text} (hs : s = String.ofList t)
    (h : IsCloser .ascii t ∧ IsCloser .folded t) : IsCloser l s := by
  refine Text.of_literal hs ?_
  cases l with
  | ascii => exact h.1
  | folded => exact h.2

namespace ScriptElement

def compiledAttributes : Text := " type=\"text/babel\" data-presets=\"env,react\""

/-- What stands in the opening tag behind its name. -/
def attributes : ScriptElement → Text
  | src url => " src=\"" ++ url ++ "\""
  | deferred url => " defer src=\"" ++ url ++ "\""
  | inline _ => []
  | compiled _ => compiledAttributes

/-- What stands between the tags: code on lines of its own, and nothing for a script at an address. -/
def content : ScriptElement → Text
  | src _ | deferred _ => []
  | inline code | compiled code => "\n" ++ escapeScript code ++ "\n"

/-- The element as a reader is to find it. -/
def read (e : ScriptElement) : ScriptRead := ⟨e.attributes, e.content⟩

/-- An address, if there is one, has no quotation mark and no angle. -/
def IsSafe : ScriptElement → Prop
  | src url | deferred url => '"' ∉ url ∧ '<' ∉ url ∧ '>' ∉ url
  | inline _ | compiled _ => True

instance : DecidablePred IsSafe
  | src _ | deferred _ => inferInstanceAs (Decidable (_ ∧ _))
  | inline _ | compiled _ => inferInstanceAs (Decidable True)

theorem render_eq (e : ScriptElement) :
    e.render = openingTag ++ (e.attributes ++ ('>' :: (e.content ++ (closingTag ++ ['>'])))) := by
  have hloads : ∀ front url : Text, openingTag ++ front ++ url ++ "\"></script>".toList
      = openingTag ++ ((front ++ url ++ "\"".toList) ++ ('>' :: (closingTag ++ ['>']))) := by
    have hend : "\"></script>".toList = "\"".toList ++ '>' :: (closingTag ++ ['>']) := by decide
    intro front url
    rw [hend]
    simp only [List.append_assoc]
  have hholds : ∀ front code : Text, openingTag ++ (front ++ '>' :: "\n".toList) ++ code ++ "\n</script>".toList
      = openingTag ++ (front ++ ('>' :: (("\n".toList ++ code ++ "\n".toList) ++ (closingTag ++ ['>'])))) := by
    have hend : "\n</script>".toList = "\n".toList ++ (closingTag ++ ['>']) := by decide
    intro front code
    rw [hend]
    simp only [List.append_assoc, List.cons_append]
  cases e with
  | src url =>
    have hopen : "<script src=\"".toList = openingTag ++ " src=\"".toList := by decide
    show "<script src=\"".toList ++ url ++ "\"></script>".toList = _
    rw [hopen]
    exact hloads _ url
  | deferred url =>
    have hopen : "<script defer src=\"".toList = openingTag ++ " defer src=\"".toList := by decide
    show "<script defer src=\"".toList ++ url ++ "\"></script>".toList = _
    rw [hopen]
    exact hloads _ url
  | inline code =>
    have hopen : "<script>\n".toList = openingTag ++ ([] ++ '>' :: "\n".toList) := by decide
    show "<script>\n".toList ++ escapeScript code ++ "\n</script>".toList = _
    rw [hopen]
    exact hholds [] _
  | compiled code =>
    have hopen : "<script type=\"text/babel\" data-presets=\"env,react\">\n".toList
        = openingTag ++ (compiledAttributes ++ '>' :: "\n".toList) := by decide
    show "<script type=\"text/babel\" data-presets=\"env,react\">\n".toList ++ escapeScript code
      ++ "\n</script>".toList = _
    rw [hopen]
    exact hholds _ _

theorem IsSafe.not_mem_attributes {e : ScriptElement} (h : e.IsSafe) : '>' ∉ e.attributes := by
  have hquoted : ∀ x y url : Text, '>' ∉ x → '>' ∉ y → '>' ∉ url → '>' ∉ x ++ url ++ y := by
    intro x y url hx hy hurl hmem
    rcases List.mem_append.1 hmem with hmem | hmem
    · exact (List.mem_append.1 hmem).elim hx hurl
    · exact hy hmem
  cases e with
  | src url | deferred url => exact hquoted _ _ _ (by decide) (by decide) h.2.2
  | inline code => exact List.not_mem_nil
  | compiled code => exact show '>' ∉ compiledAttributes by decide

/-- No content closes its element. -/
theorem not_infix_content (l : Letters) (e : ScriptElement) : ¬ closingTag <:+: e.content.map l.fold := by
  intro h
  have h : closingTag <:+: e.content.map foldCase := infix_map_of_infix_map (fun d hd _ => l.foldCase_eq hd) h
  have hcode : ∀ code, ¬ closingTag <:+: ("\n".toList ++ escapeScript code ++ "\n".toList).map foldCase := by
    intro code h
    have hn : foldCase '\n' ∉ closingTag := by decide
    rw [List.append_assoc, List.map_append, List.map_append] at h
    rcases (infix_append_cons (x := []) hn).1 h with h | h
    · exact absurd (List.infix_nil.1 h) (by decide)
    · rcases (infix_append_cons (y := []) hn).1 h with h | h
      · exact not_infix_escapeScript code h
      · exact absurd (List.infix_nil.1 h) (by decide)
  cases e with
  | src url | deferred url => exact absurd (List.infix_nil.1 h) (by decide)
  | inline code | compiled code => exact hcode code h

end ScriptElement

namespace Shell

section Lines

variable {l : Letters}

/-- The line of an element is read as the element. -/
theorem scriptsIn_scriptLines {e : ScriptElement} (he : e.IsSafe) (y : Text) :
    scriptsIn l (scriptLines e ++ y) = e.read :: scriptsIn l y := by
  have hindent : IsPassed l "  " := .literal rfl (by decide)
  have hend : IsPassed l (['>'] ++ "\n".toList) := by cases l <;> decide
  have hline : scriptLines e ++ y = "  ".toList ++ (openingTag ++ (e.attributes ++
      ('>' :: (e.content ++ (closingTag ++ ((['>'] ++ "\n".toList) ++ y)))))) := by
    show "  ".toList ++ e.render ++ "\n".toList ++ y = _
    rw [e.render_eq]
    simp only [List.append_assoc, List.cons_append]
  rw [hline, hindent.scriptsIn_append, scriptsIn_element he.not_mem_attributes (e.not_infix_content l),
    hend.scriptsIn_append]
  rfl

theorem scriptsIn_flatMap_scriptLines {es : List ScriptElement} (hes : ∀ e ∈ es, e.IsSafe) (y : Text) :
    scriptsIn l (es.flatMap scriptLines ++ y) = es.map ScriptElement.read ++ scriptsIn l y := by
  induction es with
  | nil => rfl
  | cons e es ih =>
    have htail := ih fun e' he' => hes e' (List.mem_cons_of_mem e he')
    rw [List.flatMap_cons, List.append_assoc, scriptsIn_scriptLines (hes e List.mem_cons_self), htail]
    rfl

theorem isPassed_styleLines {css : Text} (hcss : Scriptless l css) : IsPassed l (styleLines css) := by
  have hopen : IsPassed l "  <style>\n" := .literal rfl (by decide)
  have hclose : IsCloser l "\n  </style>\n" := .literal rfl (by decide)
  exact hopen.enclose hcss hclose

theorem scriptsIn_flatMap_styleLines {styles : List Text} (hstyles : ∀ css ∈ styles, Scriptless l css) (y : Text) :
    scriptsIn l (styles.flatMap styleLines ++ y) = scriptsIn l y := by
  induction styles with
  | nil => rfl
  | cons css styles ih =>
    have hcss := isPassed_styleLines (hstyles css List.mem_cons_self)
    have htail := ih fun css' hcss' => hstyles css' (List.mem_cons_of_mem css hcss')
    rw [List.flatMap_cons, List.append_assoc, hcss.scriptsIn_append, htail]

-- the literal has about 500 characters
set_option maxRecDepth 3000 in
/-- The base style has no angle at all. -/
theorem scriptless_baseStyle : Scriptless l baseStyle := by
  obtain ⟨t, ht, hangle⟩ : ∃ t, baseStyle = (String.ofList t).toList ∧ '<' ∉ t.map l.fold := by
    cases l <;> exact ⟨_, rfl, by decide +kernel⟩
  rw [ht, String.toList_ofList]
  exact fun h => hangle (h.subset (by decide))

end Lines

/-- No opening tag of a script stands in the texts of the document, and the addresses of its scripts are safe. -/
structure IsTame (l : Letters) (s : Shell) : Prop where
  title : Scriptless l s.title
  headScripts : ∀ e ∈ s.headScripts, e.IsSafe
  styles : ∀ css ∈ s.styles, Scriptless l css
  bodyAttributes : Scriptless l s.bodyAttributes
  body : Scriptless l s.body
  bodyScripts : ∀ e ∈ s.bodyScripts, e.IsSafe

/-- The head up to its closing tag. -/
def headFront (s : Shell) : Text :=
  "<!DOCTYPE html>\n<html lang=\"en\">\n<head>\n  <meta charset=\"UTF-8\">\n"
    ++ "  <meta name=\"viewport\" content=\"width=device-width, initial-scale=1.0\">\n"
    ++ "  <title>" ++ s.title ++ "</title>\n" ++ s.headScripts.flatMap scriptLines ++ styleLines baseStyle
    ++ s.styles.flatMap styleLines

theorem finish_eq (s : Shell) : s.finish = s.headFront ++ "</head>\n".toList ++ s.tail := rfl

namespace IsTame

variable {l : Letters} {s : Shell}

/-- In the head, the scripts of the head are read. -/
theorem scriptsIn_headFront (h : s.IsTame l) (y : Text) :
    scriptsIn l (s.headFront ++ y) = s.headScripts.map ScriptElement.read ++ scriptsIn l y := by
  have hfirst : IsPassed l "<!DOCTYPE html>\n<html lang=\"en\">\n<head>\n  <meta charset=\"UTF-8\">\n" :=
    .literal rfl (by decide +kernel)
  have hmeta : IsPassed l "  <meta name=\"viewport\" content=\"width=device-width, initial-scale=1.0\">\n" :=
    .literal rfl (by decide +kernel)
  have hopen : IsPassed l "  <title>" := .literal rfl (by decide)
  have hclose : IsCloser l "</title>\n" := .literal rfl (by decide)
  have htitle := ((hfirst.append hmeta).append hopen).enclose h.title hclose
  have hbase : IsPassed l (styleLines baseStyle) := isPassed_styleLines scriptless_baseStyle
  unfold headFront
  rw [List.append_assoc, List.append_assoc, List.append_assoc, htitle.scriptsIn_append,
    scriptsIn_flatMap_scriptLines h.headScripts, hbase.scriptsIn_append, scriptsIn_flatMap_styleLines h.styles]

theorem isPassed_bodyTag (h : s.IsTame l) : IsPassed l (s.bodyTag ++ "\n") := by
  have hplain : IsPassed l "<body>" := .literal rfl (by decide)
  have hopen : IsPassed l "<body " := .literal rfl (by decide)
  have hclose : IsCloser l ">" := .literal rfl (by decide)
  have hline : IsPassed l "\n" := .literal rfl (by decide)
  refine IsPassed.append ?_ hline
  unfold bodyTag
  split
  · exact hplain
  · exact hopen.enclose h.bodyAttributes hclose

theorem scriptsIn_bodyLines (h : s.IsTame l) (y : Text) : scriptsIn l (s.bodyLines ++ y) = scriptsIn l y := by
  have hindent : IsPassed l "  " := .literal rfl (by decide)
  have hline : IsCloser l "\n" := .literal rfl (by decide)
  unfold bodyLines
  split
  · rfl
  · exact (hindent.enclose h.body hline).scriptsIn_append y

/-- Behind the head, the scripts of the body are read. -/
theorem scriptsIn_tail (h : s.IsTame l) : scriptsIn l s.tail = s.bodyScripts.map ScriptElement.read := by
  have hend : IsPassed l "</body>\n</html>\n" := .literal rfl (by decide)
  have hnone : scriptsIn l "</body>\n</html>\n" = [] := by
    have hread := hend.scriptsIn_append []
    rwa [List.append_nil, scriptsIn_nil] at hread
  unfold tail
  rw [List.append_assoc, List.append_assoc, h.isPassed_bodyTag.scriptsIn_append, h.scriptsIn_bodyLines,
    scriptsIn_flatMap_scriptLines h.bodyScripts, hnone, List.append_nil]

end IsTame

/-! ### Documents built step by step -/

/-- A step in building a document. -/
inductive Step where
  | headScript (e : ScriptElement)
  | load (urls : List Text)
  | style (css : Text)
  | bodyAttributes (attributes : Text)
  | body (markup : Text)
  | bodyScript (e : ScriptElement)
deriving DecidableEq, Repr

def step (s : Shell) : Step → Shell
  | .headScript e => s.headScript e
  | .load urls => s.load urls
  | .style css => s.style css
  | .bodyAttributes attributes => s.withBodyAttributes attributes
  | .body markup => s.withBody markup
  | .bodyScript e => s.bodyScript e

/-- The document with a title after some steps. -/
def built (title : Text) (steps : List Step) : Shell := steps.foldl step (titled title)

namespace Step

/-- The scripts that a step adds to the head. -/
def headScripts : Step → List ScriptElement
  | headScript e => [e]
  | load urls => urls.map .src
  | style _ | bodyAttributes _ | body _ | bodyScript _ => []

/-- The scripts that a step adds to the body. -/
def bodyScripts : Step → List ScriptElement
  | bodyScript e => [e]
  | headScript _ | load _ | style _ | bodyAttributes _ | body _ => []

/-- A step brings no opening tag of a script but in code, and no address that could leave its attribute. -/
def IsTame (l : Letters) : Step → Prop
  | headScript e | bodyScript e => e.IsSafe
  | load urls => ∀ url ∈ urls, (ScriptElement.src url).IsSafe
  | style t | bodyAttributes t | body t => Scriptless l t

instance (l : Letters) : DecidablePred (IsTame l)
  | headScript e | bodyScript e => inferInstanceAs (Decidable e.IsSafe)
  | load urls => inferInstanceAs (Decidable (∀ url ∈ urls, (ScriptElement.src url).IsSafe))
  | style t | bodyAttributes t | body t => inferInstanceAs (Decidable (Scriptless l t))

end Step

theorem IsTame.step {l : Letters} {s : Shell} (hs : s.IsTame l) {st : Step} (hst : st.IsTame l) :
    (s.step st).IsTame l := by
  cases st with
  | headScript e =>
    refine { hs with headScripts := fun e' he' => ?_ }
    rcases List.mem_append.1 he' with he' | he'
    · exact hs.headScripts e' he'
    · exact List.mem_singleton.1 he' ▸ hst
  | load urls =>
    refine { hs with headScripts := fun e' he' => ?_ }
    rcases List.mem_append.1 he' with he' | he'
    · exact hs.headScripts e' he'
    · obtain ⟨url, hurl, rfl⟩ := List.mem_map.1 he'
      exact hst url hurl
  | style css =>
    show (s.style css).IsTame l
    unfold style
    split
    · exact hs
    · refine { hs with styles := fun css' hcss' => ?_ }
      rcases List.mem_append.1 hcss' with hcss' | hcss'
      · exact hs.styles css' hcss'
      · rw [List.mem_singleton.1 hcss']
        exact Scriptless.of_isInfix hst (Text.trim_isInfix css)
  | bodyAttributes attributes => exact { hs with bodyAttributes := hst }
  | body markup => exact { hs with body := hst }
  | bodyScript e =>
    refine { hs with bodyScripts := fun e' he' => ?_ }
    rcases List.mem_append.1 he' with he' | he'
    · exact hs.bodyScripts e' he'
    · exact List.mem_singleton.1 he' ▸ hst

theorem scripts_step (s : Shell) (st : Step) :
    (s.step st).headScripts = s.headScripts ++ st.headScripts ∧
      (s.step st).bodyScripts = s.bodyScripts ++ st.bodyScripts := by
  cases st with
  | headScript e | load urls | bodyScript e => simp [step, Step.headScripts, Step.bodyScripts, headScript, load, bodyScript]
  | bodyAttributes attributes | body markup =>
    simp [step, Step.headScripts, Step.bodyScripts, withBodyAttributes, withBody]
  | style css =>
    simp only [step, Step.headScripts, Step.bodyScripts, style]
    split <;> simp

/-- A tame document stays tame, and has in the end the scripts of all steps in their order. -/
theorem IsTame.steps {l : Letters} {s : Shell} (hs : s.IsTame l) {steps : List Step}
    (hsteps : ∀ st ∈ steps, st.IsTame l) :
    (steps.foldl Shell.step s).IsTame l ∧
      (steps.foldl Shell.step s).headScripts = s.headScripts ++ steps.flatMap Step.headScripts ∧
      (steps.foldl Shell.step s).bodyScripts = s.bodyScripts ++ steps.flatMap Step.bodyScripts := by
  induction steps generalizing s with
  | nil => exact ⟨hs, by simp, by simp⟩
  | cons st steps ih =>
    have hst := hs.step (hsteps st List.mem_cons_self)
    obtain ⟨htame, hhead, hbody⟩ := ih hst fun st' hst' => hsteps st' (List.mem_cons_of_mem st hst')
    obtain ⟨hheadStep, hbodyStep⟩ := scripts_step s st
    rw [hheadStep] at hhead
    rw [hbodyStep] at hbody
    exact ⟨htame, by simp [hhead], by simp [hbody]⟩

theorem isTame_titled {l : Letters} {title : Text} (h : Scriptless l title) : (titled title).IsTame l where
  title := h
  headScripts := List.forall_mem_nil _
  styles := List.forall_mem_nil _
  bodyAttributes := scriptless_nil l
  body := scriptless_nil l
  bodyScripts := List.forall_mem_nil _

/-- **Code cannot leave its element.** Whatever code the scripts of a document have: as long as none of its texts has an
opening tag of a script and no address could leave its attribute, a reader of the finished document finds the scripts that
were added and nothing else, those of the head in front of the end of the head and those of the body behind it, in the
order in which they were added, each with its code escaped and on lines of its own. -/
theorem scriptsIn_finish (l : Letters) {title : Text} (htitle : Scriptless l title) {steps : List Step}
    (hsteps : ∀ st ∈ steps, st.IsTame l) :
    let document := (built title steps).finish
    let ofHead := (steps.flatMap Step.headScripts).map ScriptElement.read
    let ofBody := (steps.flatMap Step.bodyScripts).map ScriptElement.read
    scriptsIn l document = ofHead ++ ofBody ∧
      ∃ front back, document = front ++ "</head>\n".toList ++ back ∧ scriptsIn l front = ofHead ∧
        scriptsIn l back = ofBody := by
  intro document ofHead ofBody
  obtain ⟨htame, hhead, hbody⟩ : (built title steps).IsTame l ∧ _ ∧ _ := (isTame_titled htitle).steps hsteps
  have hfront : ∀ y, scriptsIn l ((built title steps).headFront ++ y) = ofHead ++ scriptsIn l y := by
    intro y
    rw [htame.scriptsIn_headFront y]
    exact congrArg (fun es => List.map ScriptElement.read es ++ scriptsIn l y) hhead
  have hback : scriptsIn l (built title steps).tail = ofBody :=
    htame.scriptsIn_tail.trans (congrArg (List.map ScriptElement.read) hbody)
  have hclose : IsPassed l "</head>\n" := .literal rfl (by decide)
  refine ⟨?_, (built title steps).headFront, (built title steps).tail, finish_eq _, ?_, hback⟩
  · show scriptsIn l ((built title steps).headFront ++ "</head>\n".toList ++ (built title steps).tail) = _
    rw [List.append_assoc, hfront, hclose.scriptsIn_append, hback]
  · have h := hfront []
    rwa [List.append_nil, scriptsIn_nil, List.append_nil] at h

/-- Code that closes its element in capitals and opens another one, and code that ends inside of a closing tag. -/
theorem scriptsIn_finish_nested :
    let steps : List Step := [.load ["a.js"], .body "<b>Hi</b>", .bodyScript (.inline "w('</SCRIPT><script>')"),
      .headScript (.inline "w('<</script")]
    let document := (built "Nested" steps).finish
    let ofHead : List ScriptRead := [⟨" src=\"a.js\"", []⟩, ⟨[], "\nw('<<\\/script\n"⟩]
    let ofBody : List ScriptRead := [⟨[], "\nw('<\\/script><script>')\n"⟩]
    Scriptless .ascii "Nested" ∧ (∀ st ∈ steps, st.IsTame .ascii) ∧ scriptsIn .ascii document = ofHead ++ ofBody ∧
      ∃ front back, document = front ++ "</head>\n".toList ++ back ∧ scriptsIn .ascii front = ofHead ∧
        scriptsIn .ascii back = ofBody := by
  intro steps document ofHead ofBody
  have htitle : Scriptless .ascii "Nested" := by decide +kernel
  have hsteps : ∀ st ∈ steps, st.IsTame .ascii := by decide +kernel
  have hhead : (steps.flatMap Step.headScripts).map ScriptElement.read = ofHead := by decide +kernel
  have hbody : (steps.flatMap Step.bodyScripts).map ScriptElement.read = ofBody := by decide +kernel
  have hread := scriptsIn_finish .ascii htitle hsteps
  rw [hhead, hbody] at hread
  exact ⟨htitle, hsteps, hread⟩

end Shell

end SnippetPreview
