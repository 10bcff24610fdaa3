import SnippetPreview.Text.Basic

/-!
# Request targets

* `Authority`, `Authority.accepts`: the name of a server, with a user in front and a port behind;
* `scheme?`: what follows the scheme of an absolute target;
* `pathOf?`: a path without its query and its fragment;
* `targetPath?`: the path that a target asks for. A target that only names a server asks for the empty path.
-/

namespace SnippetPreview

/-! ## Servers -/

/-- What has been seen of the name of a server. -/
structure Authority where
  /-- Colons behind the user and behind brackets. -/
  colons : Nat
  hasOpened : Bool
  hasClosed : Bool
  /-- There is a percent sign behind the user and outside brackets. -/
  hasPercent : Bool
  /-- The last character is an at sign. -/
  endsUser : Bool
deriving DecidableEq, Repr

namespace Authority

def start : Authority := ⟨0, false, false, false, false⟩

/-- A character that may stand anywhere. -/
def isPlain (c : Char) : Bool := c.isAlphanum || "!$&'()*+,-.;=_~".toList.elem c

/-- One character more. An at sign ends the user, in whose name colons and percent signs do not count; neither do they
between brackets. -/
def next? (a : Authority) (c : Char) : Option Authority :=
  if c = ':' then if 8 ≤ a.colons then none else some { a with colons := a.colons + 1, endsUser := false }
  else if c = '[' then
    if a.hasPercent || a.hasOpened then none else some { a with hasOpened := true, endsUser := false }
  else if c = ']' then
    if !a.hasOpened || a.hasClosed then none
    else some { a with hasClosed := true, colons := 0, hasPercent := false, endsUser := false }
  else if c = '@' then some { a with colons := 0, hasPercent := false, endsUser := true }
  else if c = '%' then some { a with hasPercent := true, endsUser := false }
  else if isPlain c then some { a with endsUser := false }
  else none

/-- The name is complete: brackets are closed, at most one colon is in front of a port, and a user has a server. -/
def isComplete (a : Authority) : Bool :=
  a.hasOpened == a.hasClosed && a.colons ≤ 1 && !a.endsUser && !a.hasPercent

def accepts (t : Text) : Bool := (t.foldlM next? start).any isComplete

/-- A character that ends the name. -/
def isEnd (c : Char) : Bool := c == '/' || c == '?' || c == '#'

end Authority

/-! ## Schemes -/

def isSchemeChar (c : Char) : Bool := c.isAlphanum || "+-.~".toList.elem c

/-- The scheme in front of a colon and two slashes, and what follows them. -/
def scheme? (t : Text) : Option (Text × Text) :=
  let (name, t) := t.span isSchemeChar
  (Text.stripLead? "://" t).map (name, ·)

def maxScheme : Nat := 64

/-! ## Paths -/

/-- The characters of a path. Anything outside ASCII is allowed, and so are quotes and braces. -/
def isPathChar (c : Char) : Bool := 0x20 < c.toNat && !"#<>?\x60".toList.elem c

def isQueryChar (c : Char) : Bool := 0x20 < c.toNat && !"\"#<>".toList.elem c

/-- Nothing or a fragment, which is not looked at. -/
def isFragment : Text → Bool
  | [] | '#' :: _ => true
  | _ => false

/-- Nothing, or a query, a fragment or both. -/
def isBehindPath : Text → Bool
  | '?' :: query => isFragment (query.dropWhile isQueryChar)
  | t => isFragment t

def pathOf? (t : Text) : Option Text :=
  if isBehindPath (t.dropWhile isPathChar) then some (t.takeWhile isPathChar) else none

/-! ## Targets -/

/-- The path that a target asks for: a path, a star, or either a server alone or a path on a server behind a scheme. -/
def targetPath? (t : Text) : Option Text :=
  if t = ['*'] then some t
  else if t.head? = some '/' then pathOf? t
  else
    match scheme? t with
    | none => if !t.isEmpty && Authority.accepts t then some [] else none
    | some (name, t) =>
      let (server, t) := t.span (!Authority.isEnd ·)
      if name.length ≤ maxScheme && !server.isEmpty && Authority.accepts server then
        (pathOf? t).map fun path => if path.isEmpty then ['/'] else path
      else none

/-- A path has no question mark, no number sign and no blank in it. -/
theorem isPathChar_of_mem_pathOf? {t path : Text} (h : pathOf? t = some path) : ∀ c ∈ path, isPathChar c = true := by
  have key : path = t.takeWhile isPathChar := by
    simp only [pathOf?, Option.ite_none_right_eq_some, Option.some.injEq] at h
    exact h.2.symm
  subst key
  have all : ∀ u : Text, ∀ c ∈ u.takeWhile isPathChar, isPathChar c = true := by
    intro u
    induction u with
    | nil => simp
    | cons d r ih =>
      intro c hc
      by_cases hd : isPathChar d
      · simp only [List.takeWhile_cons, hd, ↓reduceIte, List.mem_cons] at hc
        exact hc.elim (· ▸ hd) (ih c)
      · simp [hd] at hc
  exact all t

end SnippetPreview
