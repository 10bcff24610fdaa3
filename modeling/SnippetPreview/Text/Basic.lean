/-!
# Texts as lists of characters

* `Text`: a text is the list of its Unicode scalar values; a string literal stands for its text;
* `Text.byteSize`: the length in UTF-8 bytes, the unit of every offset in this library;
* `Text.contains`, `Text.splitOn`, `Text.splitOnce`: substrings and cuts at separators.
-/

namespace SnippetPreview

/-- A text, as the list of its characters. -/
abbrev Text := List Char

/-- A string literal is written where a text is meant. -/
instance : Coe String Text := ⟨String.toList⟩

namespace Text

/-- What holds of the characters of a string holds of its text. -/
theorem of_literal {P : Text → Prop} {s : String} {t : Text} (hs : s = String.ofList t) (h : P t) : P s.toList := by
  rw [hs, String.toList_ofList]
  exact h

/-- The length in UTF-8 bytes. -/
def byteSize (t : Text) : Nat := t.foldr (fun c n => c.utf8Size + n) 0

@[simp] theorem byteSize_nil : byteSize [] = 0 := rfl

@[simp] theorem byteSize_cons (c : Char) (t : Text) : byteSize (c :: t) = c.utf8Size + byteSize t := rfl

@[simp] theorem byteSize_append (s t : Text) : byteSize (s ++ t) = byteSize s + byteSize t := by
  induction s with
  | nil => simp
  | cons c r ih => simp [ih, Nat.add_assoc]

/-- The characters that start at or after the byte offset `start` and before `stop`. -/
def slice (t : Text) (start stop : Nat) : Text := go 0 t
where
  /-- The part of `t` in the range, when `t` itself starts at the byte offset `pos`. -/
  go (pos : Nat) : Text → Text
    | [] => []
    | c :: r =>
      if stop ≤ pos then []
      else if start ≤ pos then c :: go (pos + c.utf8Size) r
      else go (pos + c.utf8Size) r

theorem slice_go_append (start stop pos : Nat) (x t : Text) (h : pos + byteSize x ≤ start) (hs : start ≤ stop) :
    slice.go start stop pos (x ++ t) = slice.go start stop (pos + byteSize x) t := by
  induction x generalizing pos with
  | nil => rfl
  | cons c x ih =>
    have hc := c.utf8Size_pos
    rw [byteSize_cons] at h
    rw [List.cons_append, slice.go, if_neg (by omega), if_neg (by omega), ih (pos + c.utf8Size) (by omega),
      byteSize_cons, Nat.add_assoc]

theorem slice_go_of_le (start pos : Nat) (y z : Text) (h : start ≤ pos) :
    slice.go start (pos + byteSize y) pos (y ++ z) = y := by
  induction y generalizing pos with
  | nil => cases z <;> simp [slice.go]
  | cons c y ih =>
    have hc := c.utf8Size_pos
    rw [byteSize_cons, List.cons_append, slice.go, if_neg (by omega), if_pos h, ← Nat.add_assoc,
      ih (pos + c.utf8Size) (by omega)]

theorem slice_go_append_of_le (start stop pos : Nat) (x z : Text) (h : stop ≤ pos + byteSize x) :
    slice.go start stop pos (x ++ z) = slice.go start stop pos x := by
  induction x generalizing pos with
  | nil =>
    cases z with
    | nil => rfl
    | cons c z => exact if_pos h
  | cons c x ih =>
    rw [byteSize_cons, ← Nat.add_assoc] at h
    rw [List.cons_append, slice.go, slice.go, ih _ h]

theorem slice_append_of_le {start stop : Nat} {x : Text} (z : Text) (h : stop ≤ byteSize x) :
    slice (x ++ z) start stop = slice x start stop :=
  slice_go_append_of_le start stop 0 x z (by rwa [Nat.zero_add])

theorem slice_append (x y z : Text) : slice (x ++ y ++ z) (byteSize x) (byteSize x + byteSize y) = y := by
  rw [slice, List.append_assoc, slice_go_append _ _ _ _ _ (by omega) (by omega), Nat.zero_add,
    slice_go_of_le _ _ _ _ (Nat.le_refl _)]

theorem slice_zero_append (x y : Text) : slice (x ++ y) 0 (byteSize x) = x := by
  simpa using slice_append [] x y

def contains (t needle : Text) : Bool :=
  match t with
  | [] => needle.isEmpty
  | c :: r => needle.isPrefixOf (c :: r) || contains r needle

theorem contains_iff {t needle : Text} : contains t needle = true ↔ ∃ u v, t = u ++ needle ++ v := by
  induction t with
  | nil => cases needle <;> simp [contains]
  | cons c r ih =>
    simp only [contains, Bool.or_eq_true, List.isPrefixOf_iff_prefix, ih]
    constructor
    · rintro (⟨v, hv⟩ | ⟨u, v, rfl⟩)
      · exact ⟨[], v, by simpa using hv.symm⟩
      · exact ⟨c :: u, v, by simp⟩
    · rintro ⟨u, v, h⟩
      cases u with
      | nil => exact .inl ⟨v, by simpa using h.symm⟩
      | cons d u => exact .inr ⟨u, v, by simpa using (List.cons.inj h).2⟩

theorem contains_of_isInfix {t t' needle : Text} (h : contains t needle = true) (ht : t <:+: t') :
    contains t' needle = true := by
  obtain ⟨u, v, rfl⟩ := contains_iff.1 h
  obtain ⟨x, y, rfl⟩ := ht
  exact contains_iff.2 ⟨x ++ u, v ++ y, by simp⟩

def containsAny (t : Text) (needles : List Text) : Bool := needles.any t.contains

/-- The pieces between the characters that satisfy `isSep`, at least one. -/
def splitWhere (isSep : Char → Bool) : Text → List Text
  | [] => [[]]
  | c :: r =>
    if isSep c then [] :: splitWhere isSep r
    else
      match splitWhere isSep r with
      | [] => [[c]]
      | piece :: pieces => (c :: piece) :: pieces

/-- The pieces between the separators, at least one. -/
def splitOn (sep : Char) (t : Text) : List Text := splitWhere (· == sep) t

/-- The texts before and after the first occurrence of `sep`. -/
def splitOnce (sep : Text) : Text → Option (Text × Text)
  | [] => if sep.isEmpty then some ([], []) else none
  | c :: r =>
    if sep.isPrefixOf (c :: r) then some ([], (c :: r).drop sep.length)
    else (splitOnce sep r).map fun (before, after) => (c :: before, after)

/-- `t` without its leading `lead`, when it starts so. -/
def stripLead? (lead t : Text) : Option Text := if lead.isPrefixOf t then some (t.drop lead.length) else none

def join (sep : Text) (parts : List Text) : Text := sep.intercalate parts

def ofNat (n : Nat) : Text := Nat.toDigits 10 n

/-- ASCII capitals become small letters; all other characters stay. -/
def lowerAscii (t : Text) : Text := t.map Char.toLower

end Text

end SnippetPreview
