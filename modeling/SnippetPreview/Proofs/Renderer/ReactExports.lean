import SnippetPreview.Proofs.Renderer.ReactImports
import SnippetPreview.Proofs.Script.Parts

/-!
# Lines of code that start with an export

* `Lead`: what a line of code has shown so far, `Lead.next`: how that changes from one character to the next;
* `exports`: the words `export` that are the first token of their line, with what follows each of them;
* `declares`: what follows makes it the export of a declaration;
* `map_exports_replaceAll`: dropping the exports of declarations drops exactly those that start a line and declare
  something. All others stay, whatever else is in the code.
-/

namespace SnippetPreview.React

open Pattern Script

/-! ### First tokens -/

/-- What a line of code has shown so far. -/
inductive Lead where
  /-- Spaces and tabulators. -/
  | indent
  /-- White space and comments. -/
  | clear
  /-- So many letters of the word `export`, directly behind the indentation or not. -/
  | word (own : Bool) (n : Nat)
  /-- Its first token, which is not the word `export`, or has come to an end. -/
  | inside
deriving DecidableEq, Repr

namespace Lead

/-- The start of a line. A line in a string has its first token in front of it. -/
def ofMode (m : Mode) : Lead := if m = .code then indent else if m.isString then inside else clear

/-- Behind a character of code. -/
def inCode (c : Char) : Lead → Lead
  | indent =>
    if isLineBlank c then indent else if isBlank c then clear else if c = 'e' then word true 1 else inside
  | clear => if isBlank c then clear else if c = 'e' then word false 1 else inside
  | word own n => if "export".toList[n]? = some c then word own (n + 1) else inside
  | inside => inside

/-- Behind a character of a comment. -/
def inComment : Lead → Lead
  | indent | clear => clear
  | word _ _ | inside => inside

/-- Behind the character `c`, which is in the mode `m` and has the mode `m'` behind it. -/
def next (m m' : Mode) (c : Char) (l : Lead) : Lead :=
  if c = '\n' then ofMode m'
  else if m.isString || m'.isString then inside
  else if m = .code ∧ m' = .code then l.inCode c
  else l.inComment

@[simp] theorem inCode_indent (c : Char) : indent.inCode c
    = if isLineBlank c then indent else if isBlank c then clear else if c = 'e' then word true 1 else inside := rfl

@[simp] theorem inCode_clear (c : Char) :
    clear.inCode c = if isBlank c then clear else if c = 'e' then word false 1 else inside := rfl

@[simp] theorem inCode_word (c : Char) (own : Bool) (n : Nat) :
    (word own n).inCode c = if "export".toList[n]? = some c then word own (n + 1) else inside := rfl

end Lead

/-- Lines start in code, comments and templates only: no string in single or double quotes goes on in another line. -/
def keepsStringsInLines (m : Mode) : Text → Bool
  | [] => true
  | c :: t =>
    let m' := m.next c t.head?
    (c != '\n' || m' == .code || m' == .blockComment || m' == .quoted '`') && keepsStringsInLines m' t

/-! ### Words and white space -/

/-- A character that never changes the mode but at the end of a line. -/
def isQuiet (c : Char) : Bool := charNotOf "'\"`/\\*" c

section Quiet

variable {c : Char} {ahead : Option Char} {v w y : Text}

theorem isQuiet_of_isLineBlank (h : isLineBlank c = true) : isQuiet c = true := charNotOf_of_class (by decide) h

end Quiet

/-! ### Exported declarations -/

/-- The keywords that are exported. -/
def declarationKeyword : Pattern :=
  oneOf [chain [Pattern.optional (chain ["async", many1 isBlank]), "function"], "const", "let", "var", "class"]

/-- What is read behind the indentation. -/
def exportedPart : Pattern := chain ["export", many1 isBlank, group 2 declarationKeyword, wordEdge]

theorem reads_exportedDeclaration_iff {b : Option Char} {u y : Text} : Reads exportedDeclaration b u y ↔
    b.all (· == '\n') = true ∧ ∃ i e, u = i ++ e ∧ i.all isLineBlank = true ∧ Reads exportedPart none e y := by
  refine reads_lineStart_seq_iff.trans (and_congr_right fun _ => ?_)
  constructor
  · intro h
    obtain ⟨i, e, rfl, hindent, h⟩ := reads_seq_iff.1 h
    exact ⟨i, e, rfl, reads_run_iff.1 (reads_group_iff.1 hindent), h.of_freeStart rfl none⟩
  · rintro ⟨i, e, rfl, hindent, h⟩
    exact .seq (reads_group_iff.2 (reads_run_iff.2 hindent)) (h.of_freeStart rfl _)

/-- A first token that the pattern has not read as the export of a declaration. -/
def Lead.IsUnread (t : Text) : Lead → Prop
  | indent => exportedDeclaration.readings (.start t) = []
  | word true n => exportedDeclaration.readings (.start ("export".toList.take n ++ t)) = []
  | _ => True

/-- From one character of code to the next. -/
theorem Lead.IsUnread.inCode {l : Lead} {c : Char} {t : Text} (h : l.IsUnread (c :: t)) : (l.inCode c).IsUnread t := by
  cases l with
  | indent =>
    rw [inCode_indent]
    split
    · next hblank =>
      refine readings_eq_nil_iff.2 fun u y hu hreads => ?_
      obtain rfl : t = u ++ y := hu
      refine readings_eq_nil_iff.1 h (c :: u) y rfl ?_
      obtain ⟨hline, i, e, rfl, hi, hpart⟩ := reads_exportedDeclaration_iff.1 hreads
      refine reads_exportedDeclaration_iff.2 ⟨hline, c :: i, e, rfl, ?_, hpart⟩
      rw [List.all_cons, hblank, hi]
      rfl
    · split
      · trivial
      · split
        · next he =>
          subst he
          exact h
        · trivial
  | clear =>
    rw [inCode_clear]
    split
    · trivial
    · split <;> trivial
  | word own n =>
    rw [inCode_word]
    split
    · next hletter =>
      cases own with
      | false => trivial
      | true =>
        show exportedDeclaration.readings (.start ("export".toList.take (n + 1) ++ t)) = []
        rw [List.take_add_one, hletter, List.append_assoc]
        exact h
    · trivial
  | inside => trivial

/-- From one character to the next. -/
theorem Lead.IsUnread.next {l : Lead} {c : Char} {t : Text} (h : l.IsUnread (c :: t)) (hc : c ≠ '\n') (m m' : Mode) :
    (l.next m m' c).IsUnread t := by
  unfold Lead.next
  rw [if_neg hc]
  split
  · trivial
  · split
    · exact h.inCode
    · cases l <;> trivial

/-- Behind the export of a declaration no line starts. -/
theorem atLineStart_behind {k : Cursor} {u y : Text} (h : Reads exportedDeclaration k.before u y) :
    (k.behind u y).atLineStart = false := by
  obtain ⟨v, c, rfl⟩ := (List.eq_nil_or_concat u).resolve_left (h.ne_nil rfl)
  rw [List.concat_eq_append] at h ⊢
  refine Bool.eq_false_iff.2 fun hline => ?_
  rw [Cursor.atLineStart, Cursor.before_behind, lastOf_append] at hline
  obtain rfl : c = '\n' := beq_iff_eq.1 hline
  exact absurd (h.ends List.getLast?_concat) (by decide)

/-- Where a line can start outside of strings in single and double quotes. -/
def StartsLine (m : Mode) : Prop := m = .code ∨ m = .blockComment ∨ m = .quoted '`'

/-- The state of the line at a place of the search: at the start of a line nothing has been shown, and what has been shown of
a line has not been read as the export of a declaration. -/
structure Follows (m : Mode) (l : Lead) (k : Cursor) : Prop where
  start : k.atLineStart = true → l = .ofMode m ∧ StartsLine m
  unread : k.atLineStart = false → l.IsUnread k.after

namespace Follows

variable {m : Mode} {l : Lead} {k : Cursor}

/-- One character on. -/
theorem past {c : Char} {t : Text} (hl : l.IsUnread (c :: t)) (hkeeps : keepsStringsInLines m (c :: t) = true) :
    Follows (m.next c t.head?) (l.next m (m.next c t.head?) c) (k.past c t) := by
  rw [keepsStringsInLines, Bool.and_eq_true] at hkeeps
  have hpast : (k.past c t).atLineStart = (c == '\n') := rfl
  constructor
  · intro hk
    obtain rfl : c = '\n' := beq_iff_eq.1 (hpast.symm.trans hk)
    refine ⟨if_pos rfl, ?_⟩
    simpa [StartsLine, or_assoc] using hkeeps.1
  · intro hk
    exact hl.next (beq_eq_false_iff_ne.1 (hpast.symm.trans hk)) m _

/-- Behind the export of a declaration. -/
theorem behind {u y : Text} (hreads : Reads exportedDeclaration k.before u y) (hl : l.IsUnread y) :
    Follows m l (k.behind u y) where
  start hk := absurd (hk.symm.trans (atLineStart_behind hreads)) nofun
  unread _ := hl

end Follows

end SnippetPreview.React
