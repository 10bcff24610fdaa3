import SnippetPreview.Proofs.Files.Attempt
import SnippetPreview.Proofs.Files.Walk

/-!
# What changes do to a tree

* `Disk.target_cases`, `Disk.makeDirectory_cases`: what can come of a question and of one change;
* `Disk.makeDirectories_ok`, `Disk.write_ok`: a change that succeeds lets the tree grow, and the path leads to what it
  made;
* `Disk.grows_makeDirectories`, `Disk.write_error`: a change that fails leaves all files as they are;
* `Disk.perform_makeDirectories_of_stands`, `Disk.perform_write_of_leads`: a change that has been made already changes
  nothing.
-/

namespace SnippetPreview.Disk

open Attempt

variable {n n' : Node} {steps : List Path.Step} {place q : List Text} {name path : Text} {content : Content} {e : Refusal}

/-! ### Where a new entry goes -/

theorem perform_liftExcept {α : Type} (x : Except Refusal α) (n : Node) : perform (target.liftExcept x) n = (x, n) := by
  cases x <;> rfl

/-- Steps that end with a name go into the directory in front of it. -/
theorem perform_target_down (n : Node) (front : List Path.Step) (name : Text) :
    perform (target (front ++ [.down name])) n = (match n.walk [] (front ++ [.stay]) with
      | .ok place => if maxNameBytes < Text.byteSize name then .error .nameTooLong else .ok (place, some name)
      | .error e => .error e, n) := by
  unfold target
  rw [perform_bind, perform_get]
  dsimp only
  rw [List.getLast?_concat, List.dropLast_concat]
  dsimp only
  rw [perform_bind, perform_liftExcept]
  cases n.walk [] (front ++ [.stay]) with
  | error e => rfl
  | ok place =>
    dsimp only
    split <;> rfl

theorem perform_target_of_ne (h : ∀ front name, steps ≠ front ++ [.down name]) (n : Node) :
    perform (target steps) n = ((n.walk [] steps).map (·, none), n) := by
  unfold target
  rw [perform_bind, perform_get]
  dsimp only
  split
  · next name hlast =>
    obtain ⟨front, hfront⟩ := List.getLast?_eq_some_iff.1 hlast
    exact absurd hfront (h front name)
  · rw [perform_bind, perform_liftExcept]
    cases n.walk [] steps <;> rfl

/-- The way is stopped, or it ends at something that is there, or it ends with a name in a directory. The tree stays. -/
theorem target_cases (steps : List Path.Step) (n : Node) :
    (∃ e, perform (target steps) n = (.error e, n) ∧ ∀ q, ¬ n.Leads [] steps q) ∨
      (∃ q, perform (target steps) n = (.ok (q, none), n) ∧ ∀ front name, steps ≠ front ++ [.down name]) ∨
      ∃ front name place, steps = front ++ [.down name] ∧ n.Leads [] (front ++ [.stay]) place ∧
        Text.byteSize name ≤ maxNameBytes ∧ perform (target steps) n = (.ok (place, some name), n) := by
  by_cases hsteps : ∃ front name, steps = front ++ [.down name]
  · obtain ⟨front, name, rfl⟩ := hsteps
    rw [perform_target_down]
    cases hwalk : n.walk [] (front ++ [.stay]) with
    | error e =>
      refine .inl ⟨e, rfl, fun q hq => ?_⟩
      obtain ⟨place, hplace, -⟩ := Node.leads_append_down.1 hq
      exact absurd (hwalk.symm.trans (Node.walk_eq_ok_iff.2 hplace)) nofun
    | ok place =>
      dsimp only
      split
      · next hlong =>
        refine .inl ⟨_, rfl, fun q hq => ?_⟩
        obtain ⟨-, -, hshort, -⟩ := Node.leads_append_down.1 hq
        exact Nat.not_le_of_lt hlong hshort
      · next hshort =>
        exact .inr (.inr ⟨front, name, place, rfl, Node.walk_eq_ok_iff.1 hwalk, Nat.le_of_not_lt hshort, rfl⟩)
  · have hne : ∀ front name, steps ≠ front ++ [.down name] := fun front name heq => hsteps ⟨front, name, heq⟩
    rw [perform_target_of_ne hne]
    cases hwalk : n.walk [] steps with
    | error e =>
      refine .inl ⟨e, rfl, fun q hq => ?_⟩
      exact absurd (hwalk.symm.trans (Node.walk_eq_ok_iff.2 hq)) nofun
    | ok q => exact .inr (.inl ⟨q, rfl, hne⟩)

/-! ### One directory -/

theorem perform_makeDirectory (steps : List Path.Step) (n : Node) : perform (makeDirectory steps) n =
    match perform (target steps) n with
      | (.error e, n') => (.error e, n')
      | (.ok (_, none), n') => (.error .alreadyExists, n')
      | (.ok (place, some name), n') =>
        if (n'.at? (place ++ [name])).isSome then (.error .alreadyExists, n')
        else (.ok (), n'.put (place ++ [name]) Node.empty) := by
  unfold makeDirectory
  rw [perform_bind]
  rcases perform (target steps) n with ⟨e | ⟨place, name | name⟩, n'⟩
  · rfl
  · rfl
  · dsimp only
    rw [perform_bind, perform_get]
    dsimp only
    split <;> rfl

/-- A directory is made, and the steps lead to it; or the tree stays, and where the steps lead somewhere the refusal says
so. -/
theorem makeDirectory_cases (steps : List Path.Step) (n : Node) :
    (∃ e, perform (makeDirectory steps) n = (.error e, n) ∧ ((∃ q, n.Leads [] steps q) → e = .alreadyExists)) ∨
      ∃ n', perform (makeDirectory steps) n = (.ok (), n') ∧ (∀ q, ¬ n.Leads [] steps q) ∧
        n.Grows (fun _ => False) n' ∧ ∃ q, n'.Leads [] (steps ++ [.stay]) q := by
  rw [perform_makeDirectory]
  obtain ⟨e, htarget, hnone⟩ | ⟨q, htarget, -⟩ | ⟨front, name, place, rfl, hplace, hshort, htarget⟩ :=
    target_cases steps n
  · rw [htarget]
    exact .inl ⟨e, rfl, fun ⟨q, hq⟩ => absurd hq (hnone q)⟩
  · rw [htarget]
    exact .inl ⟨_, rfl, fun _ => rfl⟩
  · rw [htarget]
    dsimp only
    split
    · exact .inl ⟨_, rfl, fun _ => rfl⟩
    · next hfree =>
      have hfree : n.look (place ++ [name]) = none :=
        Node.look_eq_none_iff.2 (Option.not_isSome_iff_eq_none.1 hfree)
      have hdir := (Node.leads_append_stay.1 hplace).2
      have hgrows := Node.Grows.put_directory hdir hfree
      have hmade : (n.put (place ++ [name]) Node.empty).look (place ++ [name]) = some .directory := by
        rw [Node.look_put hdir (by rw [hfree]; exact nofun) fun _ _ => rfl, if_pos rfl]
        rfl
      refine .inr ⟨_, rfl, fun q hq => ?_, hgrows, place ++ [name], ?_⟩
      · obtain ⟨mid, hmid, -, hthere, -⟩ := Node.leads_append_down.1 hq
        obtain rfl := hmid.unique hplace
        exact hthere hfree
      · refine Node.leads_append_stay.2 ⟨Node.leads_append_down.2 ⟨place, hgrows.leads hplace, hshort, ?_, rfl⟩, hmade⟩
        rw [hmade]
        exact nofun

theorem perform_acceptDirectory (steps : List Path.Step) (e : Refusal) (n : Node) :
    perform (acceptDirectory steps e) n = (if leadsToDirectory n steps then .ok () else .error e, n) := by
  unfold acceptDirectory
  rw [perform_bind, perform_get]
  dsimp only
  split <;> rfl

theorem acceptDirectory_ok (h : perform (acceptDirectory steps e) n = (.ok (), n')) :
    n' = n ∧ ∃ q, n.Leads [] (steps ++ [.stay]) q := by
  rw [perform_acceptDirectory] at h
  obtain ⟨hresult, rfl⟩ := Prod.mk.inj h
  split at hresult
  · next hdir => exact ⟨rfl, Node.leadsToDirectory_iff.1 hdir⟩
  · exact absurd hresult nofun

/-- A directory that is made, or there already. -/
theorem tryCatch_makeDirectory_ok
    (h : perform (tryCatch (makeDirectory steps) fun e => acceptDirectory steps e) n = (.ok (), n')) :
    n.Grows (fun _ => False) n' ∧ ∃ q, n'.Leads [] (steps ++ [.stay]) q := by
  rw [perform_tryCatch] at h
  obtain ⟨e, hmake, -⟩ | ⟨n₁, hmake, -, hgrows, hleads⟩ := makeDirectory_cases steps n
  · rw [hmake] at h
    obtain ⟨rfl, hleads⟩ := acceptDirectory_ok h
    exact ⟨.refl _ _, hleads⟩
  · rw [hmake] at h
    obtain ⟨-, rfl⟩ := Prod.mk.inj h
    exact ⟨hgrows, hleads⟩

/-! ### All directories of a path -/

/-- The steps along parts that are given innermost first. -/
def wayTo (parts : List Path.Part) : List Path.Step := parts.reverse.map Path.Part.step

/-- The parts, innermost first, lead to a directory, if there are any. -/
def Reached (n : Node) (parts : List Path.Part) : Prop := parts ≠ [] → ∃ q, n.Leads [] (wayTo parts ++ [.stay]) q

theorem Reached.grow {written : List Text → Prop} {parts : List Path.Part} (h : Reached n parts)
    (hgrows : n.Grows written n') : Reached n' parts :=
  fun hne => (h hne).imp fun _ => hgrows.leads

theorem perform_makeAll_cons (p : Path.Part) (outer : List Path.Part) (n : Node) :
    perform (makeAll (p :: outer)) n =
      match perform (makeDirectory (wayTo (p :: outer))) n with
      | (.ok _, n') => (.ok (), n')
      | (.error e, n') =>
        if e = .notFound then
          match perform (makeAll outer) n' with
          | (.ok _, n'') => perform (tryCatch (makeDirectory (wayTo (p :: outer)))
              fun e => acceptDirectory (wayTo (p :: outer)) e) n''
          | (.error e, n'') => (.error e, n'')
        else perform (acceptDirectory (wayTo (p :: outer)) e) n' := by
  rw [makeAll]
  show perform (tryCatch (makeDirectory (wayTo (p :: outer))) _) n = _
  rw [perform_tryCatch]
  rcases perform (makeDirectory (wayTo (p :: outer))) n with ⟨e | _, n'⟩
  · dsimp only
    split
    · rw [perform_bind]
      rcases perform (makeAll outer) n' with ⟨_ | _, n''⟩ <;> rfl
    · rfl
  · rfl

theorem makeAll_ok {parts : List Path.Part} (h : perform (makeAll parts) n = (.ok (), n')) :
    n.Grows (fun _ => False) n' ∧ Reached n' parts := by
  induction parts generalizing n n' with
  | nil =>
    obtain ⟨-, rfl⟩ := Prod.mk.inj h
    exact ⟨.refl _ _, fun hne => absurd rfl hne⟩
  | cons p outer ih =>
    rw [perform_makeAll_cons] at h
    obtain ⟨e, hmake, -⟩ | ⟨n₁, hmake, -, hgrows, hleads⟩ := makeDirectory_cases (wayTo (p :: outer)) n
    · rw [hmake] at h
      dsimp only at h
      split at h
      · rcases houter : perform (makeAll outer) n with ⟨e' | _, n₁⟩
        · rw [houter] at h
          exact absurd (Prod.mk.inj h).1 nofun
        · rw [houter] at h
          obtain ⟨hgrows, hleads⟩ := tryCatch_makeDirectory_ok h
          exact ⟨(ih houter).1.trans hgrows, fun _ => hleads⟩
      · obtain ⟨rfl, hleads⟩ := acceptDirectory_ok h
        exact ⟨.refl _ _, fun _ => hleads⟩
    · rw [hmake] at h
      obtain ⟨-, rfl⟩ := Prod.mk.inj h
      exact ⟨hgrows, fun _ => hleads⟩

theorem perform_makeAll_of_reached {parts : List Path.Part} (h : Reached n parts) :
    perform (makeAll parts) n = (.ok (), n) := by
  cases parts with
  | nil => rfl
  | cons p outer =>
    obtain ⟨q, hq⟩ := h (List.cons_ne_nil _ _)
    have hleads := (Node.leads_append_stay.1 hq).1
    rw [perform_makeAll_cons]
    obtain ⟨e, hmake, he⟩ | ⟨n₁, -, hnone, -⟩ := makeDirectory_cases (wayTo (p :: outer)) n
    · obtain rfl := he ⟨q, hleads⟩
      rw [hmake]
      dsimp only
      rw [if_neg nofun, perform_acceptDirectory, if_pos (Node.leadsToDirectory_iff.2 ⟨q, hq⟩)]
    · exact absurd hleads (hnone q)

/-- The path is empty, or it is one that the system takes and leads to a directory. -/
structure Stands (n : Node) (path : Text) : Prop where
  check : path ≠ [] → Node.checkPath path = .ok ()
  reached : path ≠ [] → Reached n (Path.parts path).reverse

theorem Stands.grow {written : List Text → Prop} (h : Stands n path) (hgrows : n.Grows written n') : Stands n' path :=
  ⟨h.check, fun hne => (h.reached hne).grow hgrows⟩

theorem perform_makeDirectories (n : Node) (path : Text) : perform (makeDirectories path) n =
    if path = [] then (.ok (), n)
    else match Node.checkPath path with
      | .ok _ => perform (makeAll (Path.parts path).reverse) n
      | .error e => (.error e, n) := by
  unfold makeDirectories
  cases path with
  | nil => rfl
  | cons c t =>
    rw [if_neg (List.cons_ne_nil _ _)]
    show perform (target.liftExcept (Node.checkPath (c :: t)) >>= _) n = _
    rw [perform_bind, perform_liftExcept]
    cases Node.checkPath (c :: t) <;> rfl

theorem makeDirectories_ok (h : perform (makeDirectories path) n = (.ok (), n')) :
    n.Grows (fun _ => False) n' ∧ Stands n' path := by
  rw [perform_makeDirectories] at h
  split at h
  · next hpath =>
    obtain ⟨-, rfl⟩ := Prod.mk.inj h
    exact ⟨.refl _ _, fun hne => absurd hpath hne, fun hne => absurd hpath hne⟩
  · cases hcheck : Node.checkPath path with
    | error e => rw [hcheck] at h; exact absurd (Prod.mk.inj h).1 nofun
    | ok u =>
      rw [hcheck] at h
      obtain ⟨hgrows, hreached⟩ := makeAll_ok h
      exact ⟨hgrows, fun _ => hcheck, fun _ => hreached⟩

theorem perform_makeDirectories_of_stands (h : Stands n path) : perform (makeDirectories path) n = (.ok (), n) := by
  rw [perform_makeDirectories]
  split
  · rfl
  · next hne =>
    rw [h.check hne]
    exact perform_makeAll_of_reached (h.reached hne)

/-! ### Whatever comes of it -/

theorem grows_makeDirectory (steps : List Path.Step) (n : Node) :
    n.Grows (fun _ => False) (perform (makeDirectory steps) n).2 := by
  obtain ⟨e, hmake, -⟩ | ⟨n', hmake, -, hgrows, -⟩ := makeDirectory_cases steps n
  · rw [hmake]
    exact .refl _ _
  · rw [hmake]
    exact hgrows

theorem snd_acceptDirectory (steps : List Path.Step) (e : Refusal) (n : Node) :
    (perform (acceptDirectory steps e) n).2 = n := by
  rw [perform_acceptDirectory]

theorem grows_tryCatch_makeDirectory (steps : List Path.Step) (n : Node) :
    n.Grows (fun _ => False) (perform (tryCatch (makeDirectory steps) fun e => acceptDirectory steps e) n).2 := by
  have hmake := grows_makeDirectory steps n
  rw [perform_tryCatch]
  rcases hrun : perform (makeDirectory steps) n with ⟨e | _, n₁⟩
  · rw [hrun] at hmake
    dsimp only
    rw [snd_acceptDirectory]
    exact hmake
  · rw [hrun] at hmake
    exact hmake

theorem grows_makeAll (parts : List Path.Part) (n : Node) : n.Grows (fun _ => False) (perform (makeAll parts) n).2 := by
  induction parts generalizing n with
  | nil => exact .refl _ _
  | cons p outer ih =>
    have hmake := grows_makeDirectory (wayTo (p :: outer)) n
    rw [perform_makeAll_cons]
    rcases hrun : perform (makeDirectory (wayTo (p :: outer))) n with ⟨e | _, n₁⟩
    · rw [hrun] at hmake
      dsimp only
      split
      · have houter := ih n₁
        rcases hmore : perform (makeAll outer) n₁ with ⟨e' | _, n₂⟩
        · rw [hmore] at houter
          exact hmake.trans houter
        · rw [hmore] at houter
          exact (hmake.trans houter).trans (grows_tryCatch_makeDirectory _ n₂)
      · rw [snd_acceptDirectory]
        exact hmake
    · rw [hrun] at hmake
      exact hmake

/-- Directories are made without a change to any file, even when not all of them can be made. -/
theorem grows_makeDirectories (path : Text) (n : Node) :
    n.Grows (fun _ => False) (perform (makeDirectories path) n).2 := by
  rw [perform_makeDirectories]
  split
  · exact .refl _ _
  · cases Node.checkPath path with
    | error e => exact .refl _ _
    | ok u => exact grows_makeAll _ n

/-! ### A file -/

theorem perform_write (n : Node) (path : Text) (content : Content) : perform (write path content) n =
    match Node.checkPath path with
      | .error e => (.error e, n)
      | .ok _ => match perform (target (Path.steps path)) n with
        | (.error e, n') => (.error e, n')
        | (.ok (_, none), n') => (.error .isDirectory, n')
        | (.ok (place, some name), n') =>
          if (n'.at? (place ++ [name])).any Node.isDir then (.error .isDirectory, n')
          else (.ok (), n'.put (place ++ [name]) (.file content)) := by
  unfold write
  rw [perform_bind, perform_liftExcept]
  cases Node.checkPath path with
  | error e => rfl
  | ok u =>
    dsimp only
    rw [perform_bind]
    rcases perform (target (Path.steps path)) n with ⟨e | ⟨place, name | name⟩, n'⟩
    · rfl
    · rfl
    · dsimp only
      rw [perform_bind, perform_get]
      dsimp only
      split <;> rfl

theorem write_ok (h : perform (write path content) n = (.ok (), n')) :
    Node.checkPath path = .ok () ∧ (∃ front name, Path.steps path = front ++ [.down name]) ∧
      ∃ place, n'.Leads [] (Path.steps path) place ∧ n'.look place = some (.file content) ∧ n.Grows (· = place) n' := by
  rw [perform_write] at h
  cases hcheck : Node.checkPath path with
  | error e => rw [hcheck] at h; exact absurd (Prod.mk.inj h).1 nofun
  | ok u =>
    rw [hcheck] at h
    dsimp only at h
    obtain ⟨e, htarget, -⟩ | ⟨q, htarget, -⟩ | ⟨front, name, place, hsteps, hplace, hshort, htarget⟩ :=
      target_cases (Path.steps path) n
    · rw [htarget] at h
      exact absurd (Prod.mk.inj h).1 nofun
    · rw [htarget] at h
      exact absurd (Prod.mk.inj h).1 nofun
    · rw [htarget] at h
      dsimp only at h
      split at h
      · exact absurd (Prod.mk.inj h).1 nofun
      · next hfile =>
        obtain ⟨-, rfl⟩ := Prod.mk.inj h
        have hdir := (Node.leads_append_stay.1 hplace).2
        have hfree : n.look (place ++ [name]) ≠ some .directory := by
          intro heq
          obtain ⟨es, hes⟩ := Node.look_directory_iff.1 heq
          rw [hes] at hfile
          exact hfile rfl
        have hgrows := Node.Grows.put_file (c := content) hdir hfree
        have hwritten : (n.put (place ++ [name]) (.file content)).look (place ++ [name]) = some (.file content) := by
          rw [Node.look_put hdir hfree fun _ _ => rfl, if_pos rfl]
          rfl
        refine ⟨rfl, ⟨front, name, hsteps⟩, place ++ [name], ?_, hwritten, hgrows⟩
        rw [hsteps]
        refine Node.leads_append_down.2 ⟨place, hgrows.leads hplace, hshort, ?_, rfl⟩
        rw [hwritten]
        exact nofun

/-- A file that cannot be written leaves everything as it is. -/
theorem write_error (h : perform (write path content) n = (.error e, n')) : n' = n := by
  rw [perform_write] at h
  cases hcheck : Node.checkPath path with
  | error e' =>
    rw [hcheck] at h
    exact (Prod.mk.inj h).2.symm
  | ok u =>
    rw [hcheck] at h
    obtain ⟨e', htarget, -⟩ | ⟨q, htarget, -⟩ | ⟨front, name, place, -, -, -, htarget⟩ :=
      target_cases (Path.steps path) n
    · rw [htarget] at h
      exact (Prod.mk.inj h).2.symm
    · rw [htarget] at h
      exact (Prod.mk.inj h).2.symm
    · rw [htarget] at h
      dsimp only at h
      split at h
      · exact (Prod.mk.inj h).2.symm
      · exact absurd (Prod.mk.inj h).1 nofun

/-- A file that has this content already stays as it is. -/
theorem perform_write_of_leads (hcheck : Node.checkPath path = .ok ())
    (hend : ∃ front name, Path.steps path = front ++ [.down name]) (hleads : n.Leads [] (Path.steps path) q)
    (hfile : n.look q = some (.file content)) : perform (write path content) n = (.ok (), n) := by
  rw [perform_write, hcheck]
  dsimp only
  obtain ⟨e, -, hnone⟩ | ⟨place, -, hne⟩ | ⟨front, name, place, hsteps, hplace, -, htarget⟩ :=
    target_cases (Path.steps path) n
  · exact absurd hleads (hnone q)
  · obtain ⟨front, name, hsteps⟩ := hend
    exact absurd hsteps (hne front name)
  · rw [htarget]
    dsimp only
    rw [hsteps] at hleads
    obtain ⟨mid, hmid, -, -, rfl⟩ := Node.leads_append_down.1 hleads
    obtain rfl := hmid.unique hplace
    have hat := Node.look_file_iff.1 hfile
    rw [Node.put_self hat, hat]
    rfl

end SnippetPreview.Disk
