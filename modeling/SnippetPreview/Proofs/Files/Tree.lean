import SnippetPreview.Files.Tree

/-!
# The nodes of a tree

* `lookup_eq_some_iff_mem`: looking up a key that has at most one entry;
* `Node.entriesInduction`: induction over files and the entries of directories;
* `Node.at?_append`: the node at names behind names;
* `Node.HasDistinctNames`: trees whose directories have at most one entry of each name, as those of a system do;
  `Node.HasDistinctNames.mem_iff` says that an entry is then what is found under its name.
-/

namespace SnippetPreview

instance decidableEqExcept {ε α : Type} [DecidableEq ε] [DecidableEq α] : DecidableEq (Except ε α)
  | .ok a, .ok b => decidable_of_iff (a = b) ⟨congrArg _, Except.ok.inj⟩
  | .error a, .error b => decidable_of_iff (a = b) ⟨congrArg _, Except.error.inj⟩
  | .ok _, .error _ => isFalse nofun
  | .error _, .ok _ => isFalse nofun

/-- In a list without a second entry for any key, an entry is what is found under its key. -/
theorem lookup_eq_some_iff_mem {α β : Type} [BEq α] [LawfulBEq α] {entries : List (α × β)} {key : α} {value : β}
    (hnodup : (entries.map Prod.fst).Nodup) : entries.lookup key = some value ↔ (key, value) ∈ entries := by
  rw [List.lookup_eq_some_iff]
  refine ⟨fun ⟨front, back, h, _⟩ => h ▸ List.mem_append_right _ List.mem_cons_self, fun hmem => ?_⟩
  obtain ⟨front, back, rfl⟩ := List.append_of_mem hmem
  refine ⟨front, back, rfl, fun e he => ?_⟩
  rw [List.map_append, List.nodup_append] at hnodup
  have hne := hnodup.2.2 e.1 (List.mem_map_of_mem he) key (List.mem_map_of_mem List.mem_cons_self)
  exact bne_iff_ne.2 hne.symm

namespace Node

/-- What holds of files, and of a directory when it holds of all its entries, holds of all nodes. -/
@[elab_as_elim]
theorem entriesInduction {motive : Node → Prop} (file : ∀ c, motive (file c))
    (directory : ∀ es, (∀ e ∈ es, motive e.2) → motive (directory es)) : ∀ n, motive n
  | .file c => file c
  | .directory es => directory es fun e _ => entriesInduction file directory e.2
termination_by n => sizeOf n
decreasing_by
  next he =>
    have hentry := List.sizeOf_lt_of_mem he
    have hnode : sizeOf e = 1 + sizeOf e.1 + sizeOf e.2 := by cases e; rfl
    simp only [Node.directory.sizeOf_spec]
    omega

variable {n m : Node} {names rest : List Text} {name : Text} {es : List (Text × Node)} {c : Content}

theorem at?_cons (n : Node) (name : Text) (rest : List Text) :
    n.at? (name :: rest) = (n.child? name).bind (at? · rest) := rfl

theorem at?_append (n : Node) (names rest : List Text) : n.at? (names ++ rest) = (n.at? names).bind (at? · rest) := by
  induction names generalizing n with
  | nil => rfl
  | cons name names ih =>
    rw [List.cons_append, at?_cons, at?_cons, Option.bind_assoc]
    exact congrArg _ (funext ih)

theorem child?_directory : (directory es).child? name = es.lookup name := rfl

theorem find_of_resolve {path : Text} {place : List Text} (h : n.resolve path = .ok place) :
    n.find path = match n.at? place with
      | some m => .ok m
      | none => .error .notFound := by
  unfold find
  rw [h]
  rfl

theorem find_eq_ok_iff {path : Text} :
    n.find path = .ok m ↔ ∃ place, n.resolve path = .ok place ∧ n.at? place = some m := by
  constructor
  · intro h
    cases hplace : n.resolve path with
    | error e =>
      unfold find at h
      rw [hplace] at h
      exact absurd h nofun
    | ok place =>
      rw [find_of_resolve hplace] at h
      cases hm : n.at? place with
      | none => rw [hm] at h; exact absurd h nofun
      | some m' => rw [hm] at h; exact ⟨place, rfl, hm.trans (congrArg some (Except.ok.inj h))⟩
  · rintro ⟨place, hplace, hm⟩
    rw [find_of_resolve hplace, hm]

/-- No directory of the tree has two entries of the same name. -/
def HasDistinctNames (n : Node) : Prop :=
  ∀ names es, n.at? names = some (directory es) → (es.map Prod.fst).Nodup

namespace HasDistinctNames

theorem of_at? (h : n.HasDistinctNames) (hm : n.at? names = some m) : m.HasDistinctNames := by
  intro rest es hes
  refine h (names ++ rest) es ?_
  rw [at?_append, hm]
  exact hes

theorem nodup (h : (directory es).HasDistinctNames) : (es.map Prod.fst).Nodup := h [] es rfl

/-- An entry is what is found under its name. -/
theorem mem_iff (h : (directory es).HasDistinctNames) : (name, m) ∈ es ↔ es.lookup name = some m :=
  (lookup_eq_some_iff_mem h.nodup).symm

theorem of_mem (h : (directory es).HasDistinctNames) (hmem : (name, m) ∈ es) : m.HasDistinctNames := by
  have hm : (directory es).at? [name] = some m := by
    rw [at?_cons, child?_directory, h.mem_iff.1 hmem]
    rfl
  exact h.of_at? hm

theorem file (c : Content) : (file c).HasDistinctNames := by
  intro names es h
  cases names with
  | nil => exact absurd h nofun
  | cons name rest => exact absurd h nofun

theorem directory (hnodup : (es.map Prod.fst).Nodup) (h : ∀ e ∈ es, e.2.HasDistinctNames) :
    (directory es).HasDistinctNames := by
  intro names es' hes'
  cases names with
  | nil =>
    obtain rfl := Node.directory.inj (Option.some.inj hes')
    exact hnodup
  | cons name rest =>
    obtain ⟨m, hm, hrest⟩ := Option.bind_eq_some_iff.1 hes'
    obtain ⟨front, back, rfl, -⟩ := List.lookup_eq_some_iff.1 hm
    exact h (name, m) (List.mem_append_right _ List.mem_cons_self) rest es' hrest

theorem empty : empty.HasDistinctNames := by
  refine .directory ?_ (List.forall_mem_nil _)
  exact List.nodup_nil

end HasDistinctNames

mutual

/-- `HasDistinctNames`, entry by entry. -/
def distinctNames : Node → Bool
  | .file _ => true
  | .directory es => decide (es.map Prod.fst).Nodup && distinctNamesIn es

def distinctNamesIn : List (Text × Node) → Bool
  | [] => true
  | (_, n) :: rest => distinctNames n && distinctNamesIn rest

end

theorem distinctNamesIn_iff : distinctNamesIn es = true ↔ ∀ e ∈ es, distinctNames e.2 = true := by
  induction es with
  | nil => simp [distinctNamesIn]
  | cons e es ih =>
    rw [distinctNamesIn, Bool.and_eq_true, ih, List.forall_mem_cons]

theorem distinctNames_iff : n.distinctNames = true ↔ n.HasDistinctNames := by
  induction n using entriesInduction with
  | file c => exact iff_of_true rfl (.file c)
  | directory es ih =>
    rw [distinctNames, Bool.and_eq_true, decide_eq_true_iff, distinctNamesIn_iff]
    constructor
    · intro ⟨hnodup, h⟩
      exact .directory hnodup fun e he => (ih e he).1 (h e he)
    · intro h
      exact ⟨h.nodup, fun e he => (ih e he).2 (h.of_mem he)⟩

instance : DecidablePred HasDistinctNames := fun _ => decidable_of_iff _ distinctNames_iff

end Node

end SnippetPreview
