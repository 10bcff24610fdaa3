import SnippetPreview.Files.Path

/-!
# The pieces of a path

* `Text.splitWhere_append_cons`: a text is cut at a separator, whatever is around it;
* `Text.isInfix_of_mem_splitWhere`, `Text.eq_append_of_splitOnce`: what comes out of a cut is a part of the text;
* `Path.pieces_append_slash`: the pieces of a path are those in front of a slash and those behind it;
* `Path.names`: the names that a path goes to; `Path.names_append_slash` finds them behind each other;
* `Path.parts_join`, `Path.steps_join`: the parts of a path that is seen from another one, and the way along it.
-/

namespace SnippetPreview

namespace Text

variable {isSep : Char → Bool} {c : Char}

theorem splitWhere_ne_nil (isSep : Char → Bool) (t : Text) : splitWhere isSep t ≠ [] := by
  cases t with
  | nil => exact List.cons_ne_nil _ _
  | cons c t =>
    rw [splitWhere]
    split
    · exact List.cons_ne_nil _ _
    · split <;> exact List.cons_ne_nil _ _

theorem splitWhere_cons (hc : isSep c = true) (t : Text) : splitWhere isSep (c :: t) = [] :: splitWhere isSep t := by
  rw [splitWhere, if_pos hc]

theorem splitWhere_append_cons (hc : isSep c = true) (a b : Text) :
    splitWhere isSep (a ++ c :: b) = splitWhere isSep a ++ splitWhere isSep b := by
  induction a with
  | nil => exact splitWhere_cons hc b
  | cons d a ih =>
    rw [List.cons_append, splitWhere, splitWhere, ih]
    split
    · rfl
    · cases hsplit : splitWhere isSep a with
      | nil => exact absurd hsplit (splitWhere_ne_nil isSep a)
      | cons piece pieces => rfl

theorem splitWhere_of_forall {t : Text} (h : ∀ c ∈ t, isSep c = false) : splitWhere isSep t = [t] := by
  induction t with
  | nil => rfl
  | cons c t ih =>
    obtain ⟨hc, ht⟩ := List.forall_mem_cons.1 h
    rw [splitWhere, if_neg (Bool.eq_false_iff.1 hc), ih ht]

/-- The pieces are free of separators. -/
theorem isSep_of_mem_splitWhere {t piece : Text} (hpiece : piece ∈ splitWhere isSep t) (hc : c ∈ piece) :
    isSep c = false := by
  induction t generalizing piece with
  | nil =>
    obtain rfl := List.mem_singleton.1 hpiece
    exact absurd hc List.not_mem_nil
  | cons d t ih =>
    rw [splitWhere] at hpiece
    split at hpiece
    · rcases List.mem_cons.1 hpiece with rfl | hpiece
      · exact absurd hc List.not_mem_nil
      · exact ih hpiece hc
    · next hd =>
      have hd := Bool.eq_false_iff.2 hd
      split at hpiece
      · obtain rfl := List.mem_singleton.1 hpiece
        rwa [List.mem_singleton.1 hc]
      · next first rest hsplit =>
        rcases List.mem_cons.1 hpiece with rfl | hpiece
        · rcases List.mem_cons.1 hc with rfl | hc
          · exact hd
          · exact ih (hsplit ▸ List.mem_cons_self) hc
        · exact ih (hsplit ▸ List.mem_cons_of_mem _ hpiece) hc

theorem first_isPrefix_of_splitWhere {t first : Text} {rest : List Text} (h : splitWhere isSep t = first :: rest) :
    first <+: t := by
  induction t generalizing first rest with
  | nil =>
    obtain ⟨rfl, -⟩ := List.cons.inj h
    exact List.prefix_rfl
  | cons d t ih =>
    rw [splitWhere] at h
    split at h
    · obtain ⟨rfl, -⟩ := List.cons.inj h
      exact List.nil_prefix
    · split at h
      · obtain ⟨rfl, -⟩ := List.cons.inj h
        exact List.prefix_append [d] t
      · next hsplit =>
        obtain ⟨rfl, -⟩ := List.cons.inj h
        exact List.cons_prefix_cons.2 ⟨rfl, ih hsplit⟩

/-- The pieces are parts of the text. -/
theorem isInfix_of_mem_splitWhere {t piece : Text} (h : piece ∈ splitWhere isSep t) : piece <:+: t := by
  induction t generalizing piece with
  | nil =>
    obtain rfl := List.mem_singleton.1 h
    exact List.nil_infix
  | cons d t ih =>
    cases hsplit : splitWhere isSep (d :: t) with
    | nil => exact absurd hsplit (splitWhere_ne_nil isSep _)
    | cons first rest =>
      rw [hsplit] at h
      rcases List.mem_cons.1 h with rfl | h
      · exact (first_isPrefix_of_splitWhere hsplit).isInfix
      · refine (ih ?_).trans (List.suffix_cons d t).isInfix
        rw [splitWhere] at hsplit
        split at hsplit
        · obtain ⟨-, rfl⟩ := List.cons.inj hsplit
          exact h
        · split at hsplit
          · obtain ⟨-, rfl⟩ := List.cons.inj hsplit
            exact absurd h List.not_mem_nil
          · next hpieces =>
            obtain ⟨-, rfl⟩ := List.cons.inj hsplit
            rw [hpieces]
            exact List.mem_cons_of_mem _ h

theorem eq_append_of_splitOnce {sep t front back : Text} (h : splitOnce sep t = some (front, back)) :
    t = front ++ (sep ++ back) := by
  induction t generalizing front with
  | nil =>
    rw [splitOnce] at h
    split at h
    · next hsep =>
      obtain ⟨rfl, rfl⟩ := Prod.mk.inj (Option.some.inj h)
      rw [List.isEmpty_iff.1 hsep]
      rfl
    · exact absurd h nofun
  | cons c t ih =>
    rw [splitOnce] at h
    split at h
    · next hsep =>
      obtain ⟨rfl, rfl⟩ := Prod.mk.inj (Option.some.inj h)
      obtain ⟨rest, hrest⟩ := List.isPrefixOf_iff_prefix.1 hsep
      rw [← hrest, List.drop_left, List.nil_append]
    · obtain ⟨⟨before, after⟩, hsplit, heq⟩ := Option.map_eq_some_iff.1 h
      obtain ⟨rfl, rfl⟩ := Prod.mk.inj heq
      rw [ih hsplit]
      rfl

theorem join_cons (sep part : Text) (parts : List Text) :
    join sep (part :: parts) = if parts = [] then part else part ++ sep ++ join sep parts := by
  cases parts with
  | nil => simp [join]
  | cons next parts => simp [join, List.intercalate]

theorem join_concat (sep : Text) {parts : List Text} (h : parts ≠ []) (part : Text) :
    join sep (parts ++ [part]) = join sep parts ++ (sep ++ part) := by
  induction parts with
  | nil => exact absurd rfl h
  | cons first parts ih =>
    rw [List.cons_append, join_cons, if_neg (List.append_ne_nil_of_right_ne_nil _ (List.cons_ne_nil _ _)), join_cons]
    split
    · next hnil =>
      rw [hnil, List.nil_append, join_cons, if_pos rfl, List.append_assoc]
    · next hne =>
      rw [ih hne, List.append_assoc, List.append_assoc, List.append_assoc]

theorem mem_of_mem_join {sep : Text} {parts : List Text} (h : c ∈ join sep parts) :
    c ∈ sep ∨ ∃ part ∈ parts, c ∈ part := by
  induction parts with
  | nil => exact absurd h List.not_mem_nil
  | cons part parts ih =>
    rw [join_cons] at h
    split at h
    · exact .inr ⟨part, List.mem_cons_self, h⟩
    · rcases List.mem_append.1 h with h | h
      · rcases List.mem_append.1 h with h | h
        · exact .inr ⟨part, List.mem_cons_self, h⟩
        · exact .inl h
      · exact (ih h).imp_right fun ⟨p, hp, hc⟩ => ⟨p, List.mem_cons_of_mem _ hp, hc⟩

theorem mem_join {sep part : Text} {parts : List Text} (hpart : part ∈ parts) (hc : c ∈ part) : c ∈ join sep parts := by
  induction parts with
  | nil => exact absurd hpart List.not_mem_nil
  | cons first parts ih =>
    rw [join_cons]
    split
    · next hnil =>
      subst hnil
      exact List.mem_singleton.1 hpart ▸ hc
    · rcases List.mem_cons.1 hpart with rfl | hpart
      · exact List.mem_append_left _ (List.mem_append_left _ hc)
      · exact List.mem_append_right _ (ih hpart)

end Text

namespace Path

theorem pieces_append_slash (a b : Text) : pieces (a ++ '/' :: b) = pieces a ++ pieces b := by
  have hsplit : Text.splitOn '/' (a ++ '/' :: b) = Text.splitOn '/' a ++ Text.splitOn '/' b :=
    Text.splitWhere_append_cons rfl a b
  unfold pieces
  rw [hsplit, List.filter_append]

theorem pieces_name {name : Text} (hslash : '/' ∉ name) (hname : name ≠ []) : pieces name = [name] := by
  have hsplit : Text.splitOn '/' name = [name] :=
    Text.splitWhere_of_forall fun c hc => beq_eq_false_iff_ne.2 fun h => hslash (h ▸ hc)
  unfold pieces
  rw [hsplit]
  simpa using hname

theorem pieces_ne_nil {path : Text} (hne : path ≠ []) (habs : isAbsolute path = false) : pieces path ≠ [] := by
  cases path with
  | nil => exact absurd rfl hne
  | cons c t =>
    have hc : (c == '/') = false := beq_eq_false_iff_ne.2 fun h => beq_eq_false_iff_ne.1 habs (congrArg some h)
    have hfirst : ∃ piece pieces, Text.splitOn '/' (c :: t) = (c :: piece) :: pieces := by
      unfold Text.splitOn
      rw [Text.splitWhere, if_neg (Bool.eq_false_iff.1 hc)]
      split
      · exact ⟨_, _, rfl⟩
      · exact ⟨_, _, rfl⟩
    obtain ⟨piece, pieces, hsplit⟩ := hfirst
    unfold Path.pieces
    rw [hsplit]
    exact List.cons_ne_nil _ _

theorem pieces_replicate_slash (k : Nat) : pieces (List.replicate k '/') = [] := by
  induction k with
  | zero => rfl
  | succ k ih => exact (pieces_append_slash [] (List.replicate k '/')).trans ih

theorem pieces_join {base path : Text} (habs : isAbsolute path = false) :
    pieces (join base path) = pieces base ++ pieces path := by
  unfold join
  rw [habs, Bool.false_or]
  split
  · next hbase => rw [List.isEmpty_iff.1 hbase]; rfl
  · split
    · next hlast =>
      obtain ⟨front, rfl⟩ := List.getLast?_eq_some_iff.1 hlast
      rw [List.append_assoc, List.singleton_append, pieces_append_slash, pieces_append_slash]
      exact congrArg (· ++ pieces path) (List.append_nil _).symm
    · exact pieces_append_slash base path

/-- The parts of a path that is seen from another one follow those of the other one. -/
theorem parts_join (base : Text) {path : Text} (habs : isAbsolute path = false) (hdot : (pieces path).head? ≠ some ['.']) :
    parts (join base path) = parts base ++ parts path := by
  have hpath : parts path = (pieces path).filterMap Part.ofPiece? := by
    unfold parts
    rw [if_neg (Bool.eq_false_iff.1 habs), if_neg hdot]
    rfl
  have hpieces : pieces (join base path) = pieces base ++ pieces path := pieces_join habs
  by_cases hbase : base = []
  · subst hbase
    have hjoin : join [] path = path := if_pos (Bool.or_true _)
    rw [hjoin]
    rfl
  · have hlead : isAbsolute (join base path) = isAbsolute base := by
      obtain ⟨c, t, rfl⟩ := List.exists_cons_of_ne_nil hbase
      unfold join
      rw [habs]
      split
      · next h => exact absurd h nofun
      · split <;> rfl
    rw [hpath]
    unfold parts
    rw [hlead, hpieces, List.filterMap_append, ← List.append_assoc]
    by_cases hroot : isAbsolute base = true
    · rw [if_pos hroot, if_pos hroot]
    · have hne := pieces_ne_nil hbase (Bool.eq_false_iff.2 hroot)
      rw [if_neg hroot, if_neg hroot, List.head?_append, List.head?_eq_some_head hne, Option.some_or]

/-- The way along a path that is seen from another one. -/
theorem steps_join (base : Text) {path : Text} (habs : isAbsolute path = false) (hne : path ≠ []) :
    steps (join base path) = (pieces base).map Step.ofPiece ++ steps path := by
  have hlast : (join base path).getLast? = path.getLast? := by
    obtain ⟨last, hlast⟩ := Option.isSome_iff_exists.1 (List.getLast?_isSome.2 hne)
    unfold join
    split
    · rfl
    · split
      · rw [List.getLast?_append, hlast, Option.some_or]
      · rw [List.append_cons, List.getLast?_append, hlast, Option.some_or]
  unfold steps
  rw [hlast, pieces_join habs, List.map_append, List.append_assoc]

/-! ### The names of a path -/

/-- The name that a step goes to. -/
def Step.name? : Step → Option Text
  | .down name => some name
  | .stay | .up => none

/-- The names that a path goes to. -/
def names (path : Text) : List Text := (steps path).filterMap Step.name?

theorem names_eq (path : Text) : names path = (pieces path).filterMap fun piece => (Step.ofPiece piece).name? := by
  unfold names steps
  rw [List.filterMap_append, List.filterMap_map]
  split
  · exact List.append_nil _
  · exact List.append_nil _

theorem names_append_slash (a b : Text) : names (a ++ '/' :: b) = names a ++ names b := by
  rw [names_eq, names_eq, names_eq, pieces_append_slash, List.filterMap_append]

theorem names_name {name : Text} (hname : name ≠ []) (hplain : ∀ c ∈ name, c ≠ '/' ∧ c ≠ '.') : names name = [name] := by
  have hslash : '/' ∉ name := fun h => (hplain _ h).1 rfl
  have hdot : '.' ∉ name := fun h => (hplain _ h).2 rfl
  rw [names_eq, pieces_name hslash hname]
  have hstep : Step.ofPiece name = .down name := by
    unfold Step.ofPiece
    rw [if_neg, if_neg]
    · rintro rfl; exact hdot List.mem_cons_self
    · rintro rfl; exact hdot List.mem_cons_self
  rw [List.filterMap_cons, hstep]
  rfl

end Path

end SnippetPreview
