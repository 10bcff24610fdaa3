import SnippetPreview.Script.Lexer

/-!
# The outermost level of script code

* `mask`: the text with everything inside strings and inside braces blanked out, so that only what stands at the outermost
  level remains legible. A character gives as many blanks as it has bytes, so offsets stay, and line feeds stay;
* `byteSize_mask`: the length in bytes stays.
-/

namespace SnippetPreview.Script

/-- The text from a place with the given mode and number of open braces on, with what is nested blanked out. A closing
brace without an opening one does not count. -/
def maskFrom (mode : Mode) (depth : Nat) : Text → Text
  | [] => []
  | c :: rest =>
    let after := mode.next c rest.head?
    let opens := mode == .code && c == '\x7b'
    let closes := mode == .code && c == '\x7d'
    let nested := mode.isString && after != .code || 0 < depth && !(closes && depth == 1)
    let shown := if nested && c != '\n' then List.replicate c.utf8Size ' ' else [c]
    shown ++ maskFrom after (if opens then depth + 1 else if closes then depth - 1 else depth) rest

/-- The text with the contents of strings and of braces blanked out. -/
def mask (t : Text) : Text := maskFrom .code 0 t

theorem byteSize_replicate_blank (n : Nat) : Text.byteSize (List.replicate n ' ') = n := by
  induction n with
  | zero => rfl
  | succ n ih =>
    rw [List.replicate_succ, Text.byteSize_cons, ih]
    exact Nat.add_comm 1 n

theorem byteSize_maskFrom (mode : Mode) (depth : Nat) (t : Text) :
    Text.byteSize (maskFrom mode depth t) = Text.byteSize t := by
  induction t generalizing mode depth with
  | nil => rfl
  | cons c rest ih =>
    simp only [maskFrom, Text.byteSize_append, ih, Text.byteSize_cons]
    split <;> simp [byteSize_replicate_blank]

theorem byteSize_mask (t : Text) : Text.byteSize (mask t) = Text.byteSize t := byteSize_maskFrom ..

end SnippetPreview.Script
