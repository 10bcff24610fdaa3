import SnippetPreview.Json.Parser
import SnippetPreview.Proofs.Json.Records

/-!
# Objects of texts there and back

* `valueWithin?_quoted`: a text is read as a value behind blanks;
* `membersWithin?_quoted`, `membersWithin?_comma`: a member is read first, or behind a comma;
* `Layout.membersWithin?_spellMembers`: members with texts as their values are read, in every layout;
* `Layout.parse?_object`: so is the whole object.
-/

namespace SnippetPreview.Json

theorem valueWithin?_quoted {gap : Text} (hgap : gap.all isSpace = true) (t rest : Text) (fuel depth : Nat) :
    valueWithin? (fuel + 1) depth (gap ++ (quoted t ++ rest)) = some (.string t, rest) := by
  rw [valueWithin?, skipSpace_append hgap, quoted_append, skipSpace_cons (by decide)]
  dsimp only
  rw [if_neg (by decide), if_neg (by decide), if_neg (by decide), if_pos rfl, string?_quoted]
  rfl

/-- The first member, up to its colon. -/
theorem membersWithin?_quoted {gap : Text} (hgap : gap.all isSpace = true) (name rest : Text) (fuel depth : Nat) :
    membersWithin? (fuel + 1) depth true (gap ++ (quoted name ++ ':' :: rest))
      = (valueWithin? fuel depth rest).bind fun value =>
          (membersWithin? fuel depth false value.2).map fun found => ((name, value.1) :: found.1, found.2) := by
  rw [membersWithin?, skipSpace_append hgap, quoted_append, skipSpace_cons (by decide)]
  dsimp only
  rw [if_neg (by decide), Bool.true_or, if_pos rfl, if_pos rfl, skipSpace_cons (by decide)]
  -- Patterns with character literals only reduce when they are unfolded, which `show` does.
  show ((string? _).bind fun _ => _) = _
  rw [string?_quoted, Option.bind_some]
  dsimp only
  rw [skipSpace_cons (by decide)]
  show ((valueWithin? fuel depth rest).bind fun _ => _) = _
  refine Option.bind_congr fun value _ => ?_
  cases membersWithin? fuel depth false value.2 <;> rfl

/-- Behind a comma, members are read as the first one is. -/
theorem membersWithin?_comma {gap : Text} (hgap : gap.all isSpace = true) (name rest : Text) (fuel depth : Nat) :
    membersWithin? (fuel + 1) depth false (',' :: (gap ++ (quoted name ++ rest)))
      = membersWithin? (fuel + 1) depth true (gap ++ (quoted name ++ rest)) := by
  have hquote (t : Text) : skipSpace ('"' :: t) = '"' :: t := skipSpace_cons (by decide) t
  rw [quoted_append, membersWithin?, membersWithin?, skipSpace_append hgap, hquote, skipSpace_cons (by decide)]
  dsimp only
  rw [if_neg (by decide), Bool.false_or, beq_self_eq_true, if_pos rfl, if_neg nofun, skipSpace_append hgap, hquote,
    if_neg (by decide), Bool.true_or, if_pos rfl, if_pos rfl, hquote]

namespace Layout

variable (l : Layout)

/-- One member with a text as its value, and the members behind it. -/
theorem membersWithin?_append (isFirst : Bool) (name t rest : Text) (fuel depth : Nat) :
    membersWithin? (fuel + 2) depth isFirst ((if isFirst then [] else [','])
        ++ (l.gap ++ (quoted name ++ ':' :: (l.space ++ (quoted t ++ rest)))))
      = (membersWithin? (fuel + 1) depth false rest).map fun found => ((name, .string t) :: found.1, found.2) := by
  have hfirst : membersWithin? (fuel + 2) depth true (l.gap ++ (quoted name ++ ':' :: (l.space ++ (quoted t ++ rest))))
      = (membersWithin? (fuel + 1) depth false rest).map fun found => ((name, .string t) :: found.1, found.2) := by
    rw [membersWithin?_quoted l.blank_gap, valueWithin?_quoted l.blank_space, Option.bind_some]
  cases isFirst with
  | true => exact hfirst
  | false => exact (membersWithin?_comma l.blank_gap _ _ _ _).trans hfirst

theorem membersWithin?_close (isFirst : Bool) (rest : Text) (fuel depth : Nat) :
    membersWithin? (fuel + 1) depth isFirst (l.close ++ '\x7d' :: rest) = some ([], rest) := by
  rw [membersWithin?, skipSpace_append l.blank_close, skipSpace_cons (by decide)]
  rfl

theorem membersWithin?_spellMembers {ms : List (Text × Json)} (hms : ∀ m ∈ ms, ∃ t, m.2 = .string t) (isFirst : Bool)
    (rest : Text) {fuel : Nat} (hfuel : ms.length < fuel) (depth : Nat) :
    membersWithin? fuel depth isFirst (spellMembers l.gap isFirst (l.members ms) ++ (l.close ++ '\x7d' :: rest))
      = some (ms, rest) := by
  induction ms generalizing fuel isFirst with
  | nil =>
    obtain ⟨fuel, rfl⟩ := Nat.exists_eq_add_one.2 (Nat.zero_lt_of_lt hfuel)
    exact l.membersWithin?_close isFirst rest fuel depth
  | cons m ms ih =>
    obtain ⟨⟨t, ht⟩, hrest⟩ := List.forall_mem_cons.1 hms
    obtain ⟨name, value⟩ := m
    obtain rfl : value = .string t := ht
    obtain ⟨fuel, rfl⟩ : ∃ k, fuel = k + 2 := ⟨fuel - 2, by rw [List.length_cons] at hfuel; omega⟩
    have hspell : spellMembers l.gap isFirst (l.members ((name, .string t) :: ms)) ++ (l.close ++ '\x7d' :: rest)
        = (if isFirst then [] else [',']) ++ (l.gap ++ (quoted name ++ ':' :: (l.space ++ (quoted t
          ++ (spellMembers l.gap false (l.members ms) ++ (l.close ++ '\x7d' :: rest)))))) := by
      simp only [members, List.map_cons, spellMembers, l.value_string, List.append_assoc, List.cons_append]
    rw [hspell, membersWithin?_append, ih hrest false (Nat.lt_of_succ_lt_succ hfuel)]
    rfl

/-- An object of texts is read as what was written. -/
theorem parse?_object {ms : List (Text × Json)} (hms : ∀ m ∈ ms, ∃ t, m.2 = .string t) :
    parse? (l.object ms) = some (.object ms) := by
  have hlength := Reader.length_le_length_spellMembers l.gap true (l.members ms)
  have hfuel : ms.length < 2 * (l.object ms).length + 1 := by
    rw [members, List.length_map] at hlength
    rw [object, List.length_cons, List.length_append, members]
    omega
  have hmembers := l.membersWithin?_spellMembers hms true [] hfuel (maxDepth - 1)
  have hvalue : valueWithin? (2 * (l.object ms).length + 2) maxDepth (l.object ms) = some (.object ms, []) := by
    rw [valueWithin?, object, skipSpace_cons (by decide)]
    dsimp only
    rw [if_neg (by decide), if_neg (by decide), if_neg (by decide), if_neg (by decide), if_neg (by decide), if_pos rfl,
      if_neg (by decide), ← object, hmembers]
    rfl
  rw [parse?, hvalue]
  rfl

end Layout

end SnippetPreview.Json
