import SnippetPreview.Json.Decode
import SnippetPreview.Proofs.Json.Layouts
import SnippetPreview.Proofs.Json.Strings

/-!
# Records there and back

* `Reader.Takes`: a reader takes a value from a text behind blanks, whatever follows the text;
* `Reader.takes_string`, `Reader.takes_bool`, `Reader.takes_array`: what is written is taken, in every layout;
* `Reader.TakesFields`: a reader of a record takes its members one by one;
* `Reader.fields_object`: so it takes the whole record from an object in any layout.
-/

namespace SnippetPreview.Json

theorem skipSpace_append {gap : Text} (hgap : gap.all isSpace = true) (t : Text) : skipSpace (gap ++ t) = skipSpace t :=
  List.dropWhile_append_of_pos (List.all_eq_true.1 hgap)

theorem skipSpace_cons {c : Char} (hc : isSpace c = false) (t : Text) : skipSpace (c :: t) = c :: t :=
  List.dropWhile_cons_of_neg (by rw [hc]; exact nofun)

theorem quoted_append (s t : Text) : quoted s ++ t = '"' :: (s.flatMap escapeChar ++ '"' :: t) := by
  rw [quoted, List.cons_append, List.cons_append, List.append_assoc]
  rfl

namespace Reader

variable {α β σ : Type}

/-! ### Steps -/

theorem bind_of_ok {r : Reader α} {f : α → Reader β} {t t' : Text} {a : α} (h : r t = .ok (a, t')) :
    (r >>= f) t = f a t' := by
  show (r t >>= fun found => f found.1 found.2) = f a t'
  rw [h]
  rfl

theorem peek_append {gap : Text} (hgap : gap.all isSpace = true) {c : Char} (hc : isSpace c = false) (t : Text) :
    peek (gap ++ c :: t) = .ok (c, c :: t) := by
  rw [peek, ofOption, skipSpace_append hgap, skipSpace_cons hc]

theorem peek_cons {c : Char} (hc : isSpace c = false) (t : Text) : peek (c :: t) = .ok (c, c :: t) :=
  @peek_append [] rfl c hc t

theorem peek_quoted {gap : Text} (hgap : gap.all isSpace = true) (s t : Text) :
    peek (gap ++ (quoted s ++ t)) = .ok ('"', quoted s ++ t) := by
  rw [quoted_append]
  exact peek_append hgap (by decide) _

theorem next_cons (c : Char) (t : Text) : next (c :: t) = .ok ((), t) := rfl

theorem expect_append {gap : Text} (hgap : gap.all isSpace = true) {c : Char} (hc : isSpace c = false) (t : Text) :
    expect c (gap ++ c :: t) = .ok ((), t) := by
  rw [expect, bind_of_ok (peek_append hgap hc t), if_pos rfl, next_cons]

theorem expect_cons {c : Char} (hc : isSpace c = false) (t : Text) : expect c (c :: t) = .ok ((), t) :=
  @expect_append [] rfl c hc t

theorem ofOption_of_some {step : Text → Option (α × Text)} {t : Text} {found : α × Text} (h : step t = some found) :
    ofOption step t = .ok found := by
  rw [ofOption, h]

/-! ### Values -/

/-- The reader takes the value from the text behind any blanks, whatever follows. -/
def Takes (r : Reader α) (w : Text) (a : α) : Prop :=
  ∀ gap rest : Text, gap.all isSpace = true → r (gap ++ (w ++ rest)) = .ok (a, rest)

theorem Takes.append {r : Reader α} {w : Text} {a : α} (h : Takes r w a) (rest : Text) : r (w ++ rest) = .ok (a, rest) :=
  h [] rest rfl

theorem Takes.blank {r : Reader α} {w : Text} {a : α} (h : Takes r w a) {space : Text}
    (hspace : space.all isSpace = true) : Takes r (space ++ w) a := by
  intro gap rest hgap
  have hblank : (gap ++ space).all isSpace = true := by rw [List.all_append, hgap, hspace]; rfl
  rw [List.append_assoc, ← List.append_assoc]
  exact h _ _ hblank

theorem Takes.map {r : Reader α} {w : Text} {a : α} (h : Takes r w a) (f : α → β) :
    Takes (do return f (← r)) w (f a) := by
  intro gap rest hgap
  rw [bind_of_ok (h gap rest hgap)]
  rfl

/-- A whole text is read when the reader takes it. -/
theorem Takes.run {r : Reader α} {w : Text} {a : α} (h : Takes r w a) : r.run w = .ok a := by
  have hread : StateT.run r w = .ok (a, []) := by
    have hread := h.append []
    rwa [List.append_nil] at hread
  rw [Reader.run, hread]
  rfl

theorem takes_string (t : Text) : Takes string (quoted t) t := by
  intro gap rest hgap
  rw [quoted_append, string, bind_of_ok (peek_append hgap (by decide) _), if_pos rfl, bind_of_ok (next_cons _ _)]
  exact ofOption_of_some (string?_quoted t rest)

theorem takes_bool (b : Bool) : Takes bool (if b then "true".toList else "false") b := by
  intro gap rest hgap
  cases b with
  | true =>
    have hpeek : peek (gap ++ ("true".toList ++ rest)) = .ok ('t', 't' :: ("rue".toList ++ rest)) :=
      peek_append hgap (by decide) _
    rw [if_pos rfl, bool, bind_of_ok hpeek, if_pos rfl, bind_of_ok (next_cons _ _)]
    rfl
  | false =>
    have hpeek : peek (gap ++ ("false".toList ++ rest)) = .ok ('f', 'f' :: ("alse".toList ++ rest)) :=
      peek_append hgap (by decide) _
    rw [if_neg nofun, bool, bind_of_ok hpeek, if_neg (by decide), if_pos rfl, bind_of_ok (next_cons _ _)]
    rfl

/-! ### Arrays -/

theorem item?_append {gap : Text} (hgap : gap.all isSpace = true) (isFirst : Bool) (t rest : Text) :
    item? isFirst string ((if isFirst then [] else [',']) ++ (gap ++ (quoted t ++ rest))) = .ok (some t, rest) := by
  have hpeek := peek_quoted hgap t rest
  have hstring := (takes_string t).append rest
  cases isFirst with
  | true =>
    rw [if_pos rfl, List.nil_append, item?, bind_of_ok hpeek, if_neg (by decide), if_pos rfl, bind_of_ok hstring]
    rfl
  | false =>
    rw [if_neg nofun, List.singleton_append, item?, bind_of_ok (peek_cons (by decide) _), if_neg (by decide),
      if_neg nofun, if_pos rfl, bind_of_ok (next_cons _ _), bind_of_ok hpeek, if_neg (by decide), bind_of_ok hstring]
    rfl

theorem item?_close {close : Text} (hclose : close.all isSpace = true) (isFirst : Bool) (r : Reader α) (rest : Text) :
    item? isFirst r (close ++ ']' :: rest) = .ok (none, rest) := by
  rw [item?, bind_of_ok (peek_append hclose (by decide) rest), if_pos rfl, bind_of_ok (next_cons _ _)]
  rfl

theorem itemsWithin_spellItems {gap close : Text} (hgap : gap.all isSpace = true) (hclose : close.all isSpace = true)
    (isFirst : Bool) (rest : Text) {ts : List Text} {n : Nat} (hn : ts.length < n) :
    itemsWithin string n isFirst (spellItems gap isFirst (ts.map quoted) ++ (close ++ ']' :: rest)) = .ok (ts, rest) := by
  induction ts generalizing n isFirst with
  | nil =>
    obtain ⟨n, rfl⟩ := Nat.exists_eq_add_one.2 (Nat.zero_lt_of_lt hn)
    rw [List.map_nil, spellItems, List.nil_append, itemsWithin, bind_of_ok (item?_close hclose isFirst string rest)]
    rfl
  | cons t ts ih =>
    obtain ⟨n, rfl⟩ := Nat.exists_eq_add_one.2 (Nat.zero_lt_of_lt hn)
    have hitem := item?_append hgap isFirst t (spellItems gap false (ts.map quoted) ++ (close ++ ']' :: rest))
    rw [List.map_cons, spellItems, List.append_assoc, List.append_assoc, List.append_assoc, itemsWithin, bind_of_ok hitem]
    dsimp only
    rw [bind_of_ok (ih false (Nat.lt_of_succ_lt_succ hn))]
    rfl

theorem length_le_length_spellItems (gap : Text) (isFirst : Bool) (ts : List Text) :
    ts.length ≤ (spellItems gap isFirst (ts.map quoted)).length := by
  induction ts generalizing isFirst with
  | nil => exact Nat.le_refl 0
  | cons t ts ih =>
    have hrest := ih false
    simp only [List.map_cons, spellItems, quoted, List.length_append, List.length_cons] at hrest ⊢
    omega

/-- An array of texts is taken, whatever blanks are in it. -/
theorem takes_array {ts : List Text} {w : Text} (h : IsArray (ts.map quoted) w) : Takes (array string) w ts := by
  obtain ⟨inner, close, hinner, hclose, rfl⟩ := h
  intro gap rest hgap
  have hlength := length_le_length_spellItems inner true ts
  have hassoc : spellItems inner true (ts.map quoted) ++ (close ++ [']']) ++ rest
      = spellItems inner true (ts.map quoted) ++ (close ++ ']' :: rest) := by
    simp only [List.append_assoc, List.singleton_append]
  rw [array, List.cons_append, bind_of_ok (peek_append hgap (by decide) _), if_pos rfl, bind_of_ok (next_cons _ _), hassoc]
  refine (bind_of_ok rfl).trans (itemsWithin_spellItems hinner hclose true rest ?_)
  rw [List.length_append]
  omega

/-! ### Members -/

theorem name?_append {gap : Text} (hgap : gap.all isSpace = true) (isFirst : Bool) (name rest : Text) :
    name? isFirst ((if isFirst then [] else [',']) ++ (gap ++ (quoted name ++ rest))) = .ok (some name, rest) := by
  have hpeek := peek_quoted hgap name rest
  have hstring : ofOption string? (name.flatMap escapeChar ++ '"' :: rest) = .ok (name, rest) :=
    ofOption_of_some (string?_quoted name rest)
  cases isFirst with
  | true =>
    rw [if_pos rfl, List.nil_append, name?, bind_of_ok hpeek, if_neg (by decide), if_pos rfl, quoted_append]
    dsimp only
    rw [bind_of_ok (expect_cons (by decide) _), bind_of_ok hstring]
    rfl
  | false =>
    rw [if_neg nofun, List.singleton_append, name?, bind_of_ok (peek_cons (by decide) _), if_neg (by decide),
      if_neg nofun, bind_of_ok (expect_cons (by decide) _), quoted_append]
    dsimp only
    rw [bind_of_ok (expect_append hgap (by decide) _), bind_of_ok hstring]
    rfl

theorem name?_close {close : Text} (hclose : close.all isSpace = true) (isFirst : Bool) (rest : Text) :
    name? isFirst (close ++ '\x7d' :: rest) = .ok (none, rest) := by
  rw [name?, bind_of_ok (peek_append hclose (by decide) rest), if_pos rfl, bind_of_ok (next_cons _ _)]
  rfl

/-- A member that has not been read before is taken. -/
theorem takes_once {r : Reader α} {w : Text} {a : α} (h : Takes r w a) : Takes (once none r) (':' :: w) (some a) := by
  intro gap rest hgap
  rw [once, if_neg nofun, List.cons_append, bind_of_ok (expect_append hgap (by decide) _), bind_of_ok (h.append rest)]
  rfl

/-- From one state of a record, the members with these values are taken one by one, and lead to another. -/
inductive TakesFields (field? : Text → Option (σ → Reader σ)) : σ → List (Text × Text) → σ → Prop
  | nil (s : σ) : TakesFields field? s [] s
  | cons {s s' s'' : σ} {name value : Text} {read : σ → Reader σ} {ms : List (Text × Text)}
      (hread : field? name = some read) (hvalue : Takes (read s) (':' :: value) s')
      (hrest : TakesFields field? s' ms s'') : TakesFields field? s ((name, value) :: ms) s''

variable {field? : Text → Option (σ → Reader σ)} {s s' : σ}

theorem TakesFields.membersWithin {gap close : Text} (hgap : gap.all isSpace = true) (hclose : close.all isSpace = true)
    {ms : List (Text × Text)} (h : TakesFields field? s ms s') (isFirst : Bool) (rest : Text) {n : Nat} (hn : ms.length < n) :
    Reader.membersWithin field? n isFirst s (spellMembers gap isFirst ms ++ (close ++ '\x7d' :: rest)) = .ok (s', rest) := by
  induction h generalizing n isFirst with
  | nil s =>
    obtain ⟨n, rfl⟩ := Nat.exists_eq_add_one.2 (Nat.zero_lt_of_lt hn)
    rw [spellMembers, List.nil_append, Reader.membersWithin, bind_of_ok (name?_close hclose isFirst rest)]
    rfl
  | @cons s s' s'' name value read ms hread hvalue _ ih =>
    obtain ⟨n, rfl⟩ := Nat.exists_eq_add_one.2 (Nat.zero_lt_of_lt hn)
    have hname := name?_append hgap isFirst name
      (':' :: (value ++ (spellMembers gap false ms ++ (close ++ '\x7d' :: rest))))
    have hvalue := hvalue.append (spellMembers gap false ms ++ (close ++ '\x7d' :: rest))
    rw [List.cons_append] at hvalue
    rw [spellMembers, List.append_assoc, List.append_assoc, List.append_assoc, List.cons_append, List.append_assoc,
      Reader.membersWithin, bind_of_ok hname]
    dsimp only
    rw [hread]
    dsimp only
    rw [bind_of_ok hvalue]
    exact ih false (Nat.lt_of_succ_lt_succ hn)

theorem length_le_length_spellMembers (gap : Text) (isFirst : Bool) (ms : List (Text × Text)) :
    ms.length ≤ (spellMembers gap isFirst ms).length := by
  induction ms generalizing isFirst with
  | nil => exact Nat.le_refl 0
  | cons m ms ih =>
    have hrest := ih false
    simp only [spellMembers, List.length_append, List.length_cons] at hrest ⊢
    omega

/-- A record is taken from an object in any layout, behind its opening brace. -/
theorem fields_object (l : Layout) {ms : List (Text × Json)} (h : TakesFields field? s (l.members ms) s') (rest : Text) :
    fields field? s (spellMembers l.gap true (l.members ms) ++ (l.close ++ '\x7d' :: rest)) = .ok (s', rest) := by
  have hlength := length_le_length_spellMembers l.gap true (l.members ms)
  refine (bind_of_ok rfl).trans (h.membersWithin l.blank_gap l.blank_close true rest ?_)
  rw [List.length_append]
  omega

end Reader

end SnippetPreview.Json
