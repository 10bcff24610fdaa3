import SnippetPreview.Proofs.Files.Look
import SnippetPreview.Proofs.Files.Path

/-!
# Ways through a tree

* `Node.Leads`: the steps that lead from one place of a tree to another; `Node.walk_eq_ok_iff` says that these are the
  ways that the system goes;
* `Node.Grows`: a tree with more directories, and with other files at some places alone. All ways stay as they are
  (`Node.Grows.leads`).
-/

namespace SnippetPreview

namespace Node

variable {n n' n'' : Node} {place mid q : List Text} {steps rest : List Path.Step} {name : Text} {c : Content}
  {written written' : List Text → Prop}

/-- The steps lead from one place to another. Each of them starts in a directory. -/
inductive Leads (n : Node) : List Text → List Path.Step → List Text → Prop
  | done (place : List Text) : Leads n place [] place
  | stay {place q : List Text} {rest : List Path.Step} (start : n.look place = some .directory)
      (further : Leads n place rest q) : Leads n place (.stay :: rest) q
  | up {place q : List Text} {rest : List Path.Step} (start : n.look place = some .directory)
      (further : Leads n place.dropLast rest q) : Leads n place (.up :: rest) q
  | down {place q : List Text} {name : Text} {rest : List Path.Step} (start : n.look place = some .directory)
      (short : Text.byteSize name ≤ maxNameBytes) (there : n.look (place ++ [name]) ≠ none)
      (further : Leads n (place ++ [name]) rest q) : Leads n place (.down name :: rest) q

theorem look_append_singleton {es : List (Text × Node)} (h : n.at? place = some (directory es)) (name : Text) :
    n.look (place ++ [name]) = (es.lookup name).map seen := by
  unfold look
  rw [at?_append, h, Option.bind_some, at?_cons, child?_directory]
  cases es.lookup name <;> rfl

theorem walk_cons_of_directory {es : List (Text × Node)} (h : n.at? place = some (directory es)) (s : Path.Step)
    (rest : List Path.Step) : n.walk place (s :: rest) = match s with
      | .stay => n.walk place rest
      | .up => n.walk place.dropLast rest
      | .down name =>
        if maxNameBytes < Text.byteSize name then .error .nameTooLong
        else if n.look (place ++ [name]) = none then .error .notFound
        else n.walk (place ++ [name]) rest := by
  rw [walk, h]
  cases s with
  | stay => rfl
  | up => rfl
  | down name =>
    dsimp only
    rw [look_append_singleton h]
    cases es.lookup name <;> rfl

theorem walk_eq_ok_iff : n.walk place steps = .ok q ↔ n.Leads place steps q := by
  constructor
  · intro h
    induction steps generalizing place with
    | nil =>
      obtain rfl := Except.ok.inj h
      exact .done place
    | cons s rest ih =>
      cases hm : n.at? place with
      | none => rw [walk, hm] at h; exact absurd h nofun
      | some m =>
        cases m with
        | file c => rw [walk, hm] at h; exact absurd h nofun
        | directory es =>
          have hstart := look_directory_iff.2 ⟨es, hm⟩
          rw [walk_cons_of_directory hm] at h
          cases s with
          | stay => exact .stay hstart (ih h)
          | up => exact .up hstart (ih h)
          | down name =>
            dsimp only at h
            split at h
            · exact absurd h nofun
            · next hshort =>
              split at h
              · exact absurd h nofun
              · next hthere => exact .down hstart (Nat.le_of_not_lt hshort) hthere (ih h)
  · intro h
    induction h with
    | done place => rfl
    | stay hstart _ ih =>
      obtain ⟨es, hes⟩ := look_directory_iff.1 hstart
      rw [walk_cons_of_directory hes, ih]
    | up hstart _ ih =>
      obtain ⟨es, hes⟩ := look_directory_iff.1 hstart
      rw [walk_cons_of_directory hes, ih]
    | down hstart hshort hthere _ ih =>
      obtain ⟨es, hes⟩ := look_directory_iff.1 hstart
      rw [walk_cons_of_directory hes]
      dsimp only
      rw [if_neg (Nat.not_lt.2 hshort), if_neg hthere, ih]

theorem Leads.unique (h : n.Leads place steps q) (h' : n.Leads place steps mid) : q = mid :=
  Except.ok.inj ((walk_eq_ok_iff.2 h).symm.trans (walk_eq_ok_iff.2 h'))

theorem Leads.start {s : Path.Step} (h : n.Leads place (s :: rest) q) : n.look place = some .directory := by
  cases h with
  | stay hstart => exact hstart
  | up hstart => exact hstart
  | down hstart => exact hstart

theorem leads_append : n.Leads place (steps ++ rest) q ↔ ∃ mid, n.Leads place steps mid ∧ n.Leads mid rest q := by
  constructor
  · intro h
    induction steps generalizing place with
    | nil => exact ⟨place, .done place, h⟩
    | cons s steps ih =>
      cases h with
      | stay hstart h => exact (ih h).imp fun _ => And.imp_left (.stay hstart)
      | up hstart h => exact (ih h).imp fun _ => And.imp_left (.up hstart)
      | down hstart hshort hthere h => exact (ih h).imp fun _ => And.imp_left (.down hstart hshort hthere)
  · rintro ⟨mid, h, hrest⟩
    induction h with
    | done place => exact hrest
    | stay hstart _ ih => exact .stay hstart (ih hrest)
    | up hstart _ ih => exact .up hstart (ih hrest)
    | down hstart hshort hthere _ ih => exact .down hstart hshort hthere (ih hrest)

theorem leads_stay : n.Leads place [.stay] q ↔ n.look place = some .directory ∧ q = place := by
  constructor
  · rintro (_ | ⟨hstart, ⟨⟩⟩)
    exact ⟨hstart, rfl⟩
  · rintro ⟨hstart, rfl⟩
    exact .stay hstart (.done _)

theorem leads_down : n.Leads place [.down name] q ↔ n.look place = some .directory ∧
    Text.byteSize name ≤ maxNameBytes ∧ n.look (place ++ [name]) ≠ none ∧ q = place ++ [name] := by
  constructor
  · rintro (_ | _ | _ | ⟨hstart, hshort, hthere, ⟨⟩⟩)
    exact ⟨hstart, hshort, hthere, rfl⟩
  · rintro ⟨hstart, hshort, hthere, rfl⟩
    exact .down hstart hshort hthere (.done _)

/-- Steps end in a directory when one more step can stay there. -/
theorem leads_append_stay : n.Leads place (steps ++ [.stay]) q ↔ n.Leads place steps q ∧ n.look q = some .directory := by
  rw [leads_append]
  constructor
  · rintro ⟨mid, h, hstay⟩
    obtain ⟨hmid, rfl⟩ := leads_stay.1 hstay
    exact ⟨h, hmid⟩
  · rintro ⟨h, hq⟩
    exact ⟨q, h, leads_stay.2 ⟨hq, rfl⟩⟩

theorem leads_append_down : n.Leads place (steps ++ [.down name]) q ↔ ∃ mid, n.Leads place (steps ++ [.stay]) mid ∧
    Text.byteSize name ≤ maxNameBytes ∧ n.look (mid ++ [name]) ≠ none ∧ q = mid ++ [name] := by
  rw [leads_append]
  refine exists_congr fun mid => ?_
  rw [leads_down, leads_append_stay, and_assoc]

/-- Steps that do not go up lead to their names, seen from where they start. -/
theorem Leads.eq_append (h : n.Leads place steps q) (hup : .up ∉ steps) :
    q = place ++ steps.filterMap Path.Step.name? := by
  induction h with
  | done place => exact (List.append_nil place).symm
  | stay _ _ ih => exact ih fun hmem => hup (List.mem_cons_of_mem _ hmem)
  | up => exact absurd List.mem_cons_self hup
  | down _ _ _ _ ih =>
    rw [ih fun hmem => hup (List.mem_cons_of_mem _ hmem), List.append_assoc]
    rfl

theorem checkText_eq_ok_iff {path : Text} : checkText path = .ok () ↔ '\x00' ∉ path ∧ path ≠ [] := by
  unfold checkText
  rw [List.elem_eq_mem]
  by_cases hzero : '\x00' ∈ path
  · rw [decide_eq_true hzero]
    exact iff_of_false nofun fun h => h.1 hzero
  · rw [decide_eq_false hzero]
    cases path with
    | nil => exact iff_of_false nofun fun h => h.2 rfl
    | cons c t => exact iff_of_true rfl ⟨hzero, List.cons_ne_nil _ _⟩

theorem checkText_of_checkPath {path : Text} (h : checkPath path = .ok ()) : checkText path = .ok () := by
  unfold checkPath at h
  cases htext : checkText path with
  | ok u => rfl
  | error e =>
    rw [htext] at h
    exact absurd h nofun

theorem canonical_eq_ok_iff {path : Text} :
    n.canonical path = .ok q ↔ checkText path = .ok () ∧ n.Leads [] (Path.steps path) q := by
  rw [← walk_eq_ok_iff]
  unfold canonical
  cases checkText path with
  | error e => exact iff_of_false nofun nofun
  | ok u => exact ⟨fun h => ⟨rfl, h⟩, And.right⟩

theorem resolve_eq_ok_iff {path : Text} :
    n.resolve path = .ok q ↔ checkPath path = .ok () ∧ n.Leads [] (Path.steps path) q := by
  rw [← walk_eq_ok_iff]
  unfold resolve
  cases checkPath path with
  | error e => exact iff_of_false nofun nofun
  | ok u => exact ⟨fun h => ⟨rfl, h⟩, And.right⟩

theorem leadsToDirectory_iff : Disk.leadsToDirectory n steps = true ↔ ∃ q, n.Leads [] (steps ++ [.stay]) q := by
  unfold Disk.leadsToDirectory
  cases hwalk : n.walk [] steps with
  | error e =>
    refine iff_of_false nofun fun ⟨q, h⟩ => ?_
    exact absurd (hwalk.symm.trans (walk_eq_ok_iff.2 (leads_append_stay.1 h).1)) nofun
  | ok mid =>
    have hmid := walk_eq_ok_iff.1 hwalk
    dsimp only
    rw [Option.any_eq_true]
    constructor
    · rintro ⟨m, hm, hdir⟩
      cases m with
      | file c => exact absurd hdir nofun
      | directory es => exact ⟨mid, leads_append_stay.2 ⟨hmid, look_directory_iff.2 ⟨es, hm⟩⟩⟩
    · rintro ⟨q, h⟩
      obtain ⟨hq, hdir⟩ := leads_append_stay.1 h
      obtain rfl := hq.unique hmid
      obtain ⟨es, hes⟩ := look_directory_iff.1 hdir
      exact ⟨_, hes, rfl⟩

/-! ### More directories, other files -/

/-- The tree `n'` has all that stands in `n`, and more directories. Its files are those of `n`, except at the places where
one was written. -/
structure Grows (written : List Text → Prop) (n n' : Node) : Prop where
  directory : ∀ {q}, n.look q = some .directory → n'.look q = some .directory
  kept : ∀ {q c}, n.look q = some (.file c) → ∃ c', n'.look q = some (.file c')
  file : ∀ {q c}, ¬ written q → (n'.look q = some (.file c) ↔ n.look q = some (.file c))
  distinct : n.HasDistinctNames → n'.HasDistinctNames

namespace Grows

theorem refl (written : List Text → Prop) (n : Node) : Grows written n n := ⟨id, fun h => ⟨_, h⟩, fun _ => Iff.rfl, id⟩

theorem trans (h : Grows written n n') (h' : Grows written n' n'') : Grows written n n'' :=
  ⟨h'.directory ∘ h.directory, fun hq => (h.kept hq).elim fun _ => h'.kept, fun hq => (h'.file hq).trans (h.file hq),
    h'.distinct ∘ h.distinct⟩

theorem mono (h : Grows written n n') (hsub : ∀ q, written q → written' q) : Grows written' n n' :=
  ⟨h.directory, h.kept, fun hq => h.file fun hw => hq (hsub _ hw), h.distinct⟩

theorem there (h : Grows written n n') (hq : n.look q ≠ none) : n'.look q ≠ none := by
  obtain ⟨seen, hseen⟩ := Option.ne_none_iff_exists'.1 hq
  cases seen with
  | directory =>
    rw [h.directory hseen]
    exact nofun
  | file c =>
    obtain ⟨c', hc'⟩ := h.kept hseen
    rw [hc']
    exact nofun

/-- What is a directory now, and was there before, was a directory before. -/
theorem directory_of_ne_none (h : Grows written n n') (hq : n'.look q = some .directory) (hthere : n.look q ≠ none) :
    n.look q = some .directory := by
  obtain ⟨seen, hseen⟩ := Option.ne_none_iff_exists'.1 hthere
  cases seen with
  | directory => exact hseen
  | file c =>
    obtain ⟨c', hc'⟩ := h.kept hseen
    exact absurd (hq.symm.trans hc') nofun

theorem leads (h : Grows written n n') (hleads : n.Leads place steps q) : n'.Leads place steps q := by
  induction hleads with
  | done place => exact .done place
  | stay hstart _ ih => exact .stay (h.directory hstart) ih
  | up hstart _ ih => exact .up (h.directory hstart) ih
  | down hstart hshort hthere _ ih => exact .down (h.directory hstart) hshort (h.there hthere) ih

/-- Steps that do not go up lead to what was there before as they did then. -/
theorem leads_of_ne_none (h : Grows written n n') (hleads : n'.Leads place steps q) (hup : .up ∉ steps)
    (hthere : n.look q ≠ none) : n.Leads place steps q := by
  induction hleads with
  | done place => exact .done place
  | up => exact absurd List.mem_cons_self hup
  | stay hstart hrest ih =>
    have hup := fun hmem => hup (List.mem_cons_of_mem _ hmem)
    have hplace := look_ne_none_of_append (hrest.eq_append hup ▸ hthere)
    exact .stay (h.directory_of_ne_none hstart hplace) (ih hup hthere)
  | down hstart hshort _ hrest ih =>
    have hup := fun hmem => hup (List.mem_cons_of_mem _ hmem)
    have hname := look_ne_none_of_append (hrest.eq_append hup ▸ hthere)
    exact .down (h.directory_of_ne_none hstart (look_ne_none_of_append hname)) hshort hname (ih hup hthere)

theorem canonical (h : Grows written n n') {path : Text} (hpath : n.canonical path = .ok q) : n'.canonical path = .ok q :=
  canonical_eq_ok_iff.2 ((canonical_eq_ok_iff.1 hpath).imp_right h.leads)

theorem resolve (h : Grows written n n') {path : Text} (hpath : n.resolve path = .ok q) : n'.resolve path = .ok q :=
  resolve_eq_ok_iff.2 ((resolve_eq_ok_iff.1 hpath).imp_right h.leads)

/-- Where a file is written. -/
theorem put_file (hplace : n.look place = some .directory) (hfree : n.look (place ++ [name]) ≠ some .directory) :
    Grows (· = place ++ [name]) n (n.put (place ++ [name]) (Node.file c)) := by
  have hput : ∀ q, (n.put (place ++ [name]) (Node.file c)).look q = _ := look_put hplace hfree fun _ _ => rfl
  refine ⟨fun {q} hq => ?_, fun {q c'} hq => ?_, fun {q c'} hq => ?_, fun hn => hn.put (.file c) _⟩
  · have hne : q ≠ place ++ [name] := fun heq => hfree (heq ▸ hq)
    rw [hput, if_neg hne]
    exact hq
  · rw [hput]
    split
    · exact ⟨c, rfl⟩
    · exact ⟨c', hq⟩
  · rw [hput, if_neg hq]

/-- Where a directory is made. -/
theorem put_directory (hplace : n.look place = some .directory) (hfree : n.look (place ++ [name]) = none) :
    Grows (fun _ => False) n (n.put (place ++ [name]) Node.empty) := by
  have hne : n.look (place ++ [name]) ≠ some .directory := by rw [hfree]; exact nofun
  have hput : ∀ q, (n.put (place ++ [name]) Node.empty).look q = _ := look_put hplace hne fun _ _ => rfl
  have hkept : ∀ {q seen}, n.look q = some seen → (n.put (place ++ [name]) Node.empty).look q = some seen := by
    intro q seen hq
    have hne : q ≠ place ++ [name] := by
      rintro rfl
      exact absurd (hq.symm.trans hfree) nofun
    rw [hput, if_neg hne, hq]
  refine ⟨hkept, fun hq => ⟨_, hkept hq⟩, fun {q c} _ => ⟨fun hq => ?_, hkept⟩, fun hn => hn.put .empty _⟩
  rw [hput] at hq
  split at hq
  · exact absurd (Option.some.inj hq) nofun
  · exact hq

end Grows

end Node

end SnippetPreview
