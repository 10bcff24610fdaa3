import SnippetPreview.Proofs.Files.Tree

/-!
# What stands at a place

* `Node.look`: whether a directory or a file stands at a place, and which content the file has. This is all that a way
  through the tree depends on;
* `Node.look_put`: putting a file or a new directory changes what stands at its own place, and at no other;
* `Node.put_self`: putting what is there already changes nothing.
-/

namespace SnippetPreview

/-- What stands at a place of a tree. -/
inductive Seen where
  | directory
  | file (content : Content)
deriving DecidableEq, Repr

namespace Node

variable {n m new : Node} {place rest q : List Text} {name : Text} {es : List (Text × Node)} {c : Content}

def seen : Node → Seen
  | .directory _ => .directory
  | .file c => .file c

def look (n : Node) (place : List Text) : Option Seen := (n.at? place).map seen

theorem look_file_iff : n.look q = some (.file c) ↔ n.at? q = some (.file c) := by
  unfold look
  cases n.at? q with
  | none => exact iff_of_false nofun nofun
  | some m =>
    cases m with
    | file d =>
      exact ⟨fun h => by rw [Seen.file.inj (Option.some.inj h)], fun h => by rw [Node.file.inj (Option.some.inj h)]; rfl⟩
    | directory es => exact iff_of_false nofun nofun

theorem look_directory_iff : n.look q = some .directory ↔ ∃ es, n.at? q = some (.directory es) := by
  unfold look
  cases n.at? q with
  | none => exact iff_of_false nofun nofun
  | some m =>
    cases m with
    | file d => exact iff_of_false nofun nofun
    | directory es => exact iff_of_true rfl ⟨es, rfl⟩

theorem look_eq_none_iff : n.look q = none ↔ n.at? q = none := Option.map_eq_none_iff

theorem look_cons (n : Node) (name : Text) (rest : List Text) :
    n.look (name :: rest) = (n.child? name).bind (look · rest) := by
  unfold look
  rw [at?_cons, Option.map_bind]
  rfl

theorem look_directory_cons (es : List (Text × Node)) (name : Text) (rest : List Text) :
    (directory es).look (name :: rest) = (es.lookup name).bind (look · rest) := look_cons _ _ _

/-- What stands below a place stands in a directory. -/
theorem look_of_look_append (h : (n.look (q ++ rest)).isSome) (hrest : rest ≠ []) : n.look q = some .directory := by
  unfold look at h
  rw [at?_append, Option.isSome_map] at h
  obtain ⟨m, hm⟩ := Option.isSome_iff_exists.1 h
  obtain ⟨d, hd, hm⟩ := Option.bind_eq_some_iff.1 hm
  cases d with
  | directory es => exact look_directory_iff.2 ⟨es, hd⟩
  | file c =>
    cases rest with
    | nil => exact absurd rfl hrest
    | cons name rest => exact absurd hm nofun

theorem look_ne_none_of_append (h : n.look (q ++ rest) ≠ none) : n.look q ≠ none := by
  by_cases hrest : rest = []
  · rwa [hrest, List.append_nil] at h
  · rw [look_of_look_append (Option.isSome_iff_ne_none.2 h) hrest]
    exact nofun

/-! ### Entries -/

theorem lookup_entry (first : Text) (m : Node) (es : List (Text × Node)) (other : Text) :
    ((first, m) :: es).lookup other = if other = first then some m else es.lookup other := by
  rw [List.lookup_cons]
  by_cases h : other = first
  · rw [if_pos h, beq_iff_eq.2 h]
  · rw [if_neg h, beq_eq_false_iff_ne.2 h]

theorem lookup_putEntry (name : Text) (new : Node) (es : List (Text × Node)) (other : Text) :
    (putEntry name new es).lookup other = if other = name then some new else es.lookup other := by
  induction es with
  | nil => exact lookup_entry name new [] other
  | cons e es ih =>
    obtain ⟨first, m⟩ := e
    rw [putEntry]
    by_cases hfirst : first = name
    · rw [if_pos hfirst, lookup_entry, lookup_entry, hfirst]
      split <;> rfl
    · rw [if_neg hfirst, lookup_entry, lookup_entry, ih]
      by_cases h : other = first
      · have hname : other ≠ name := fun heq => hfirst (h.symm.trans heq)
        rw [if_pos h, if_neg hname, if_pos h]
      · rw [if_neg h, if_neg h]

/-- What stands below a directory with one entry stands below that entry. -/
theorem look_singleton {seen : Seen} (h : (directory [(name, m)]).look q = some seen) (hne : seen ≠ .directory) :
    ∃ rest, q = name :: rest ∧ m.look rest = some seen := by
  cases q with
  | nil => exact absurd (Option.some.inj h).symm hne
  | cons a rest =>
    rw [look_directory_cons, lookup_entry] at h
    split at h
    · next ha => exact ⟨rest, by rw [ha], h⟩
    · exact absurd h nofun

theorem putEntry_of_lookup (h : es.lookup name = some m) : putEntry name m es = es := by
  induction es with
  | nil => exact absurd h nofun
  | cons e es ih =>
    obtain ⟨first, m'⟩ := e
    rw [lookup_entry] at h
    rw [putEntry]
    by_cases hfirst : first = name
    · rw [if_pos hfirst.symm] at h
      rw [if_pos hfirst, Option.some.inj h, hfirst]
    · rw [if_neg (Ne.symm hfirst)] at h
      rw [if_neg hfirst, ih h]

theorem mem_of_mem_putEntry {e : Text × Node} (h : e ∈ putEntry name new es) : e = (name, new) ∨ e ∈ es := by
  induction es with
  | nil => exact .inl (List.mem_singleton.1 h)
  | cons first es ih =>
    obtain ⟨first, m⟩ := first
    rw [putEntry] at h
    split at h
    · rcases List.mem_cons.1 h with h | h
      · exact .inl h
      · exact .inr (List.mem_cons_of_mem _ h)
    · rcases List.mem_cons.1 h with h | h
      · exact .inr (h ▸ List.mem_cons_self)
      · exact (ih h).imp_right (List.mem_cons_of_mem _)

theorem nodup_putEntry (h : (es.map Prod.fst).Nodup) : ((putEntry name new es).map Prod.fst).Nodup := by
  induction es with
  | nil => exact List.pairwise_singleton _ _
  | cons e es ih =>
    obtain ⟨first, m⟩ := e
    obtain ⟨hfirst, htail⟩ := List.nodup_cons.1 h
    rw [putEntry]
    split
    · next heq => exact List.nodup_cons.2 ⟨heq ▸ hfirst, htail⟩
    · next hne =>
      refine List.nodup_cons.2 ⟨fun hmem => ?_, ih htail⟩
      obtain ⟨e, he, heq⟩ := List.mem_map.1 hmem
      rcases mem_of_mem_putEntry he with rfl | he
      · exact hne heq.symm
      · exact hfirst (heq ▸ List.mem_map_of_mem he)

/-! ### Putting a node -/

theorem put_directory_cons (es : List (Text × Node)) (name : Text) (rest : List Text) (new : Node) :
    (directory es).put (name :: rest) new = match es.lookup name with
      | some m => directory (putEntry name (m.put rest new) es)
      | none => if rest.isEmpty then directory (putEntry name new es) else directory es := by
  rw [put]
  rfl

theorem put_entry (es : List (Text × Node)) (name : Text) (new : Node) :
    (directory es).put [name] new = directory (putEntry name new es) := by
  rw [put_directory_cons]
  cases es.lookup name with
  | none => rfl
  | some m => rfl

/-- What is put into the root, in place of a file or of nothing, has nothing below it. -/
theorem look_put_entry (hfree : (directory es).look [name] ≠ some .directory) (hnew : ∀ a r, new.look (a :: r) = none)
    (q : List Text) : (directory (putEntry name new es)).look q
      = if q = [name] then some new.seen else (directory es).look q := by
  cases q with
  | nil => rfl
  | cons a r =>
    rw [look_directory_cons, look_directory_cons, lookup_putEntry]
    by_cases ha : a = name
    · rw [if_pos ha, ha]
      cases r with
      | nil => rw [if_pos rfl]; rfl
      | cons b r =>
        have hne : name :: b :: r ≠ [name] := fun h => List.cons_ne_nil _ _ (List.cons.inj h).2
        have hbelow : (es.lookup name).bind (look · (b :: r)) = none := by
          refine Option.not_isSome_iff_eq_none.1 fun hsome => hfree (look_of_look_append ?_ (List.cons_ne_nil b r))
          rw [List.singleton_append, look_directory_cons]
          exact hsome
        rw [if_neg hne, hbelow]
        exact hnew b r
    · rw [if_neg ha, if_neg (fun h => ha (List.cons.inj h).1)]

/-- What is put into a directory, be it a file or an empty directory, is seen at its place, and nothing changes at other
places. A directory is not replaced. -/
theorem look_put (hplace : n.look place = some .directory) (hfree : n.look (place ++ [name]) ≠ some .directory)
    (hnew : ∀ a r, new.look (a :: r) = none) (q : List Text) :
    (n.put (place ++ [name]) new).look q = if q = place ++ [name] then some new.seen else n.look q := by
  induction place generalizing n q with
  | nil =>
    obtain ⟨es, hes⟩ := look_directory_iff.1 hplace
    obtain rfl := Option.some.inj hes
    rw [List.nil_append] at *
    rw [put_entry]
    exact look_put_entry hfree hnew q
  | cons p place ih =>
    have hthere : (n.look ([] ++ p :: place)).isSome := by
      rw [List.nil_append, hplace]
      rfl
    have hroot : n.look [] = some .directory := look_of_look_append hthere (List.cons_ne_nil _ _)
    obtain ⟨es, hes⟩ := look_directory_iff.1 hroot
    obtain rfl := Option.some.inj hes
    rw [look_directory_cons] at hplace
    obtain ⟨m, hm, hplace⟩ := Option.bind_eq_some_iff.1 hplace
    rw [List.cons_append] at *
    rw [look_directory_cons, hm] at hfree
    rw [put_directory_cons, hm]
    cases q with
    | nil => rfl
    | cons a r =>
      dsimp only
      rw [look_directory_cons, look_directory_cons, lookup_putEntry]
      by_cases ha : a = p
      · rw [if_pos ha, ha, hm]
        refine (ih hplace hfree r).trans ?_
        by_cases hr : r = place ++ [name]
        · rw [if_pos hr, if_pos (by rw [hr])]
        · rw [if_neg hr, if_neg (fun h => hr (List.cons.inj h).2)]
          rfl
      · rw [if_neg ha, if_neg (fun h => ha (List.cons.inj h).1)]

/-- Putting what is there already changes nothing. -/
theorem put_self (h : n.at? q = some m) : n.put q m = n := by
  induction q generalizing n with
  | nil => exact (Option.some.inj h).symm
  | cons name rest ih =>
    cases n with
    | file c => exact absurd h nofun
    | directory es =>
      obtain ⟨d, hd, h⟩ := Option.bind_eq_some_iff.1 h
      rw [child?_directory] at hd
      rw [put_directory_cons, hd]
      dsimp only
      rw [ih h, putEntry_of_lookup hd]

theorem HasDistinctNames.put (h : n.HasDistinctNames) (hnew : new.HasDistinctNames) (names : List Text) :
    (n.put names new).HasDistinctNames := by
  induction names generalizing n with
  | nil => exact hnew
  | cons name rest ih =>
    cases n with
    | file c =>
      have hput : (Node.file c).put (name :: rest) new
          = if rest.isEmpty then Node.directory [(name, new)] else Node.file c := by
        rw [put]
        rfl
      rw [hput]
      split
      · exact .directory (List.pairwise_singleton _ _) (List.forall_mem_singleton.2 hnew)
      · exact .file c
    | directory es =>
      have hput : ∀ m : Node, m.HasDistinctNames → (Node.directory (putEntry name m es)).HasDistinctNames := by
        intro m hm
        refine .directory (nodup_putEntry h.nodup) fun e he => ?_
        rcases mem_of_mem_putEntry he with rfl | he
        · exact hm
        · exact h.of_mem he
      rw [put_directory_cons]
      split
      · next m hm => exact hput _ (ih (h.of_mem (h.mem_iff.2 hm)))
      · split
        · exact hput new hnew
        · exact h

end Node

end SnippetPreview
