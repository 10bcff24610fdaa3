import Mathlib.Data.List.Induction
import SnippetPreview.Proofs.Publish.Directory
import SnippetPreview.Proofs.Publish.Record

/-!
# A directory as a map of objects

* `IsStray`: the paths that a directory refuses; `Directory.parts_target` says where the others go;
* `Directory.put_error`, `Directory.put_ok_file`: what one put does to the files of a tree;
* `Put.lastStored`: the body that was stored last under the names of a path;
* `Directory.fileAt?_tryAll`: after any puts, the files below a directory are those that were stored last, and those
  that were there before;
* `Directory.put_confined`: all of this together.
-/

namespace SnippetPreview

open Attempt

/-! ### Files -/

namespace Node

variable {n n' : Node} {q : List Text} {c : Content}

/-- The content of the file at these names. -/
def fileAt? (n : Node) (place : List Text) : Option Content :=
  match n.at? place with
  | some (.file c) => some c
  | _ => none

theorem fileAt?_eq_some_iff : n.fileAt? q = some c ↔ n.look q = some (.file c) := by
  rw [look_file_iff]
  unfold fileAt?
  cases n.at? q with
  | none => exact iff_of_false nofun nofun
  | some m =>
    cases m with
    | file d => exact ⟨fun h => by rw [Option.some.inj h], fun h => by rw [Node.file.inj (Option.some.inj h)]⟩
    | directory es => exact iff_of_false nofun nofun

theorem Grows.fileAt?_eq {written : List Text → Prop} (h : n.Grows written n') (hq : ¬ written q) :
    n'.fileAt? q = n.fileAt? q :=
  Option.ext fun c => by rw [fileAt?_eq_some_iff, fileAt?_eq_some_iff, h.file hq]

end Node

/-! ### The last puts -/

namespace Put

/-- Among these puts, the body that was stored last under these names. -/
def lastStored (log : List Put) (names : List Text) : Option Content :=
  (log.reverse.find? fun p => p.refusal.isNone && Path.names p.path == names).map body

theorem lastStored_concat (log : List Put) (p : Put) (names : List Text) : lastStored (log ++ [p]) names
    = if p.refusal = none ∧ Path.names p.path = names then some p.body else lastStored log names := by
  unfold lastStored
  rw [List.reverse_concat, List.find?_cons]
  by_cases h : p.refusal = none ∧ Path.names p.path = names
  · rw [if_pos h, h.1, h.2]
    simp
  · rw [if_neg h]
    have hfalse : (p.refusal.isNone && Path.names p.path == names) = false := by simpa using h
    rw [hfalse]

end Put

namespace Directory

variable {d : Directory} {n n' : Node} {place out : List Text} {o : Text × Content} {path file : Text} {body : Content}
  {e : StorageError} {objects : List (Text × Content)} {log : List Put}

/-! ### The paths that are taken -/

theorem ofPiece?_eq (piece : Text) (h : piece ≠ ['.', '.']) :
    Path.Part.ofPiece? piece = (Path.Step.ofPiece piece).name?.map .name := by
  unfold Path.Part.ofPiece? Path.Step.ofPiece
  split
  · rfl
  · rfl

theorem parts_eq_names (habs : Path.isAbsolute path = false) (hdot : (Path.pieces path).head? ≠ some ['.'])
    (hup : ['.', '.'] ∉ Path.pieces path) : Path.parts path = (Path.names path).map .name := by
  unfold Path.parts
  rw [habs, if_neg nofun, if_neg hdot, List.nil_append, Path.names_eq, List.map_filterMap]
  exact List.filterMap_congr fun piece hpiece => ofPiece?_eq piece fun h => hup (h ▸ hpiece)

/-- The path is empty or absolute, or it starts with a dot or goes up. -/
def IsStray (path : Text) : Prop :=
  path = [] ∨ path.head? = some '/' ∨ (Path.pieces path).head? = some ['.'] ∨ ['.', '.'] ∈ Path.pieces path

theorem not_isStray_iff : ¬ IsStray path ↔
    path ≠ [] ∧ path.head? ≠ some '/' ∧ (Path.pieces path).head? ≠ some ['.'] ∧ ['.', '.'] ∉ Path.pieces path := by
  unfold IsStray
  rw [not_or, not_or, not_or]

theorem isPlain_iff : isPlain path = true ↔ ¬ IsStray path := by
  rw [not_isStray_iff]
  constructor
  · intro h
    have habs := isAbsolute_of_isPlain h
    have hdot : (Path.pieces path).head? ≠ some ['.'] := by
      intro hdot
      have hhere : Path.Part.here ∈ Path.parts path := by
        unfold Path.parts
        rw [habs, if_neg nofun, if_pos hdot]
        exact List.mem_cons_self
      obtain ⟨name, hname⟩ := mem_parts_of_isPlain h hhere
      exact absurd hname nofun
    have hup : ['.', '.'] ∉ Path.pieces path := by
      intro hup
      have hpart : Path.Part.up ∈ Path.parts path := by
        unfold Path.parts
        exact List.mem_append_right _ (List.mem_filterMap.2 ⟨_, hup, rfl⟩)
      obtain ⟨name, hname⟩ := mem_parts_of_isPlain h hpart
      exact absurd hname nofun
    refine ⟨?_, beq_eq_false_iff_ne.1 habs, hdot, hup⟩
    rintro rfl
    exact absurd h nofun
  · rintro ⟨hne, habs, hdot, hup⟩
    unfold isPlain
    rw [parts_eq_names (beq_eq_false_iff_ne.2 habs) hdot hup, Bool.and_eq_true_iff]
    refine ⟨?_, List.all_eq_true.2 fun p hp => ?_⟩
    · cases path with
      | nil => exact absurd rfl hne
      | cons c t => rfl
    · obtain ⟨name, -, rfl⟩ := List.mem_map.1 hp
      rfl

/-- The parts of an object's file are those of the directory and the names of the object's path. -/
theorem parts_target (h : d.target path = .ok file) :
    Path.parts file = Path.parts d.root ++ (Path.names path).map .name := by
  unfold target at h
  split at h
  · next hplain =>
    obtain ⟨-, habs, hdot, hup⟩ := not_isStray_iff.1 (isPlain_iff.1 hplain)
    have habs : Path.isAbsolute path = false := beq_eq_false_iff_ne.2 habs
    rw [← Except.ok.inj h, Path.parts_join d.root habs hdot, parts_eq_names habs hdot hup]
  · exact absurd h nofun

theorem perform_put_of_isStray (h : IsStray path) (d : Directory) (body : Content) (n : Node) :
    perform (d.put path body) n = (.error (.invalidPath path), n) := by
  rw [perform_put, if_neg]
  exact fun hplain => isPlain_iff.1 hplain h

/-- A path is refused as such when it is stray, and only then. -/
theorem put_invalid_iff : (∃ p, (perform (d.put path body) n).1 = .error (.invalidPath p)) ↔ IsStray path := by
  constructor
  · rintro ⟨p, h⟩
    rw [perform_put] at h
    split at h
    · revert h
      rcases perform (writeFile (Path.join d.root path) body) n with ⟨_ | _, n₁⟩
      · exact fun h => absurd (Except.error.inj h) nofun
      · exact nofun
    · next hplain => exact not_not.1 fun hstray => hplain (isPlain_iff.2 hstray)
  · exact fun h => ⟨path, by rw [perform_put_of_isStray h]⟩

/-! ### One put -/

/-- An object that is not stored leaves all files as they are. -/
theorem put_error (h : perform (d.put path body) n = (.error e, n')) : n.Grows (fun _ => False) n' := by
  rw [perform_put] at h
  split at h
  · rcases hwrite : perform (writeFile (Path.join d.root path) body) n with ⟨e' | _, n₁⟩
    · rw [hwrite] at h
      obtain ⟨-, rfl⟩ := Prod.mk.inj h
      exact writeFile_error hwrite
    · rw [hwrite] at h
      exact absurd (Prod.mk.inj h).1 nofun
  · obtain ⟨-, rfl⟩ := Prod.mk.inj h
    exact .refl _ _

/-- An object that is stored is a file at the place that its names say, and all other files stay. -/
theorem put_ok_file (h : perform (d.put path body) n = (.ok (), n')) :
    ∃ out, n'.walk [] (Path.steps d.root) = .ok out ∧ n'.fileAt? (out ++ Path.names path) = some body ∧
      ∀ q, q ≠ out ++ Path.names path → n'.fileAt? q = n.fileAt? q := by
  obtain ⟨place, hkeeps, hgrows⟩ := put_ok (o := (path, body)) h
  obtain ⟨out, hroot, rfl⟩ := hkeeps.exists_root
  have hfile := Node.fileAt?_eq_some_iff.2 hkeeps.file.look
  exact ⟨out, Node.walk_eq_ok_iff.2 hroot, hfile, fun q hq => hgrows.fileAt?_eq hq⟩

/-! ### One put after the other -/

theorem tryAll_recorded_concat (objects : List (Text × Content)) (o : Text × Content)
    (h : d.storage.recorded.tryAll objects (n, []) = (n', log)) :
    d.storage.recorded.tryAll (objects ++ [o]) (n, []) =
      ((perform (d.put o.1 o.2) n').2, log ++ [.of o.1 o.2 (perform (d.put o.1 o.2) n').1]) := by
  rw [Storage.tryAll_concat, h]
  rfl

/-- After any puts, the files below the place that the directory has in the end are those that were stored last, and
those that were there before. -/
theorem fileAt?_tryAll (h : d.storage.recorded.tryAll objects (n, []) = (n', log))
    (hroot : ∀ q, n'.Leads [] (Path.steps d.root) q → q = out) (names : List Text) :
    n'.fileAt? (out ++ names) = (Put.lastStored log names).or (n.fileAt? (out ++ names)) := by
  induction objects using List.reverseRecOn generalizing n' log with
  | nil =>
    obtain ⟨rfl, rfl⟩ := Prod.mk.inj h
    rfl
  | append_singleton objects o ih =>
    rcases hrun : d.storage.recorded.tryAll objects (n, []) with ⟨n₁, log₁⟩
    rw [tryAll_recorded_concat objects o hrun] at h
    rcases hput : perform (d.put o.1 o.2) n₁ with ⟨e | _, n₂⟩
    · rw [hput] at h
      obtain ⟨rfl, rfl⟩ := Prod.mk.inj h
      have hgrows := put_error hput
      rw [hgrows.fileAt?_eq id, ih hrun fun q hq => hroot q (hgrows.leads hq), Put.lastStored_concat, if_neg]
      exact fun h => absurd h.1 nofun
    · rw [hput] at h
      obtain ⟨rfl, rfl⟩ := Prod.mk.inj h
      obtain ⟨place, hkeeps, hgrows⟩ := put_ok hput
      obtain ⟨out', hout, rfl⟩ := hkeeps.exists_root
      obtain rfl := hroot out' hout
      rw [Put.lastStored_concat]
      by_cases hnames : Path.names o.1 = names
      · rw [if_pos ⟨rfl, hnames⟩, ← hnames]
        exact Node.fileAt?_eq_some_iff.2 hkeeps.file.look
      · have hplace : ¬ out' ++ names = out' ++ Path.names o.1 := fun h => hnames (List.append_cancel_left h).symm
        rw [hgrows.fileAt?_eq hplace, ih hrun fun q hq => hroot q (hgrows.leads hq), if_neg]
        exact fun h => hnames h.2

/-- Where anything was stored, the path of the directory leads somewhere. -/
theorem exists_root_tryAll (h : d.storage.recorded.tryAll objects (n, []) = (n', log)) {p : Put} (hp : p ∈ log)
    (hstored : p.refusal = none) : ∃ out, n'.Leads [] (Path.steps d.root) out := by
  induction objects using List.reverseRecOn generalizing n' log with
  | nil =>
    obtain ⟨rfl, rfl⟩ := Prod.mk.inj h
    exact absurd hp List.not_mem_nil
  | append_singleton objects o ih =>
    rcases hrun : d.storage.recorded.tryAll objects (n, []) with ⟨n₁, log₁⟩
    rw [tryAll_recorded_concat objects o hrun] at h
    rcases hput : perform (d.put o.1 o.2) n₁ with ⟨e | _, n₂⟩
    · rw [hput] at h
      obtain ⟨rfl, rfl⟩ := Prod.mk.inj h
      rcases List.mem_append.1 hp with hp | hp
      · exact (ih hrun hp).imp fun _ => (put_error hput).leads
      · obtain rfl := List.mem_singleton.1 hp
        exact absurd hstored nofun
    · rw [hput] at h
      obtain ⟨rfl, rfl⟩ := Prod.mk.inj h
      obtain ⟨place, hkeeps, hgrows⟩ := put_ok hput
      exact hkeeps.exists_root.imp fun _ => And.left

/-- **A directory is a map of objects.** Stray paths are refused as such, and no others, without any change. The file of
any other path has the parts of the directory and then the names of the path. A put that succeeds writes the file of its
path and no other, and a put that fails writes none. After any puts the files below a directory that was empty are those
that were stored, each as it was stored last. -/
theorem put_confined (d : Directory) :
    (∀ path body n, ((∃ p, (perform (d.put path body) n).1 = .error (.invalidPath p)) ↔ IsStray path) ∧
      (IsStray path → perform (d.put path body) n = (.error (.invalidPath path), n))) ∧
    (∀ path, ¬ IsStray path → ∃ file, d.target path = .ok file ∧
      Path.parts file = Path.parts d.root ++ (Path.names path).map .name) ∧
    (∀ path body n n', perform (d.put path body) n = (.ok (), n') →
      ∃ out, n'.walk [] (Path.steps d.root) = .ok out ∧ n'.fileAt? (out ++ Path.names path) = some body ∧
        ∀ q, q ≠ out ++ Path.names path → n'.fileAt? q = n.fileAt? q) ∧
    (∀ path body n e n', perform (d.put path body) n = (.error e, n') → ∀ q, n'.fileAt? q = n.fileAt? q) ∧
    ∀ objects n n' log, d.storage.recorded.tryAll objects (n, []) = (n', log) →
      log.map Put.object = objects ∧
      ((∃ p ∈ log, p.refusal = none) → ∃ out, n'.walk [] (Path.steps d.root) = .ok out) ∧
      ∀ out, n'.walk [] (Path.steps d.root) = .ok out → (∀ names, n.fileAt? (out ++ names) = none) →
        ∀ names, n'.fileAt? (out ++ names) = Put.lastStored log names := by
  refine ⟨fun path body n => ⟨put_invalid_iff, fun h => perform_put_of_isStray h d body n⟩, fun path h => ?_,
    fun path body n n' => put_ok_file, fun path body n e n' h q => (put_error h).fileAt?_eq id,
    fun objects n n' log h => ⟨?_, ?_, fun out hout hempty names => ?_⟩⟩
  · have htarget : d.target path = .ok (Path.join d.root path) := if_pos (isPlain_iff.2 h)
    exact ⟨_, htarget, parts_target htarget⟩
  · obtain ⟨puts, hrun, hputs⟩ := d.storage.exists_record_tryAll objects n []
    rw [(Prod.mk.inj (h.symm.trans hrun)).2, List.nil_append]
    exact hputs
  · rintro ⟨p, hp, hstored⟩
    exact (exists_root_tryAll h hp hstored).imp fun _ => Node.walk_eq_ok_iff.2
  · have hroot : ∀ q, n'.Leads [] (Path.steps d.root) q → q = out := fun q hq => hq.unique (Node.walk_eq_ok_iff.1 hout)
    rw [fileAt?_tryAll h hroot, hempty, Option.or_none]

/-- Seven puts, with a directory in the way of a file, a file in the way of a directory, a slash at the end, a path that
leads out of the directory and one that starts with a dot. Only two spellings of one path are stored. -/
theorem put_confined_overlapping :
    let d : Directory := ⟨"out", "/"⟩
    let n : Node := .directory [("in", .directory [("x.js", .file (.text "0"))])]
    let objects : List (Text × Content) := [("a/b", .text "1"), ("a", .text "2"), ("a//./b", .text "3"),
      ("a/b/c", .text "4"), ("c/", .text "5"), ("../in/x.js", .text "6"), ("./d", .text "7")]
    ∃ n' log, d.storage.recorded.tryAll objects (n, []) = (n', log) ∧
      log.map (fun p => p.refusal.isSome) = [false, true, false, true, true, true, true] ∧
      n'.walk [] (Path.steps d.root) = .ok ["out"] ∧ ∀ names, n'.fileAt? (["out".toList] ++ names)
        = if names = ["a".toList, "b".toList] then some (.text "3") else none := by
  intro d n objects
  have hlog : (d.storage.recorded.tryAll objects (n, [])).2.map (fun p => p.refusal.isSome)
      = [false, true, false, true, true, true, true] := by decide +kernel
  have hroot : (d.storage.recorded.tryAll objects (n, [])).1.walk [] (Path.steps d.root) = .ok ["out"] := by
    decide +kernel
  have hnames : ∀ p ∈ (d.storage.recorded.tryAll objects (n, [])).2, p.refusal = none →
      Path.names p.path = ["a".toList, "b".toList] := by decide +kernel
  have hlast : Put.lastStored (d.storage.recorded.tryAll objects (n, [])).2 ["a".toList, "b".toList]
      = some (.text "3") := by decide +kernel
  obtain ⟨n', log, hrun⟩ : ∃ n' log, d.storage.recorded.tryAll objects (n, []) = (n', log) := ⟨_, _, (Prod.eta _).symm⟩
  rw [hrun] at hlog hroot hnames hlast
  have hempty : ∀ names, n.fileAt? (["out".toList] ++ names) = none := fun names => rfl
  refine ⟨n', log, hrun, hlog, hroot, fun names => ?_⟩
  rw [((put_confined d).2.2.2.2 objects n n' log hrun).2.2 _ hroot hempty names]
  split
  · next h => rw [h, hlast]
  · next h =>
    unfold Put.lastStored
    rw [List.find?_eq_none.2, Option.map_none]
    intro p hp hstored
    rw [Bool.and_eq_true, Option.isNone_iff_eq_none, beq_iff_eq] at hstored
    exact h (hstored.2.symm.trans (hnames p (List.mem_reverse.1 hp) hstored.1))

end Directory

end SnippetPreview
