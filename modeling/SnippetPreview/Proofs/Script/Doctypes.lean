import SnippetPreview.Proofs.Document.Rewriting
import SnippetPreview.Script.Imports
import SnippetPreview.Script.Members

/-!
# Document types in scripts

* `doctypes_globalizeImports`: imports that become reads from a global bring no document type;
* `doctypes_mask_le`: masking brings none either;
* `doctypes_eq_zero_of_mem_fields`, `doctypes_eq_zero_of_mem_methods`: so the members of a class have none that the
  class does not have.
-/

namespace SnippetPreview.Script

open Pattern

/-! ### Imports -/

theorem doctypes_binding? {provided : List Text} {spec b : Text} (hspec : doctypes spec = 0)
    (h : binding? provided spec = some b) : doctypes b = 0 := by
  have htrim : doctypes spec.trim = 0 := by rw [doctypes_trim, hspec]
  unfold binding? at h
  dsimp only at h
  split at h
  · exact absurd h nofun
  · split at h
    · next imported name hsplit =>
      obtain rfl := Option.some.inj h
      have hparts := Text.eq_append_of_splitOnce hsplit
      have himported : doctypes imported = 0 :=
        doctypes_eq_zero_of_isInfix (hparts ▸ List.infix_append_left) htrim
      have hname : doctypes name = 0 :=
        doctypes_eq_zero_of_isInfix (hparts ▸ (List.suffix_append_of_suffix (List.suffix_append _ _)).isInfix) htrim
      have hjoined : imported.trim ++ ": ".toList ++ name.trim = imported.trim ++ ':' :: ' ' :: name.trim := by simp
      rw [hjoined, doctypes_append_cons (by decide), doctypes_cons_of_ne (by decide), doctypes_trim, doctypes_trim,
        himported, hname]
    · split at h
      · exact absurd h nofun
      · obtain rfl := Option.some.inj h
        exact htrim

theorem doctypes_destructuring {global specs : Text} (provided : List Text) (hglobal : doctypes global = 0)
    (hspecs : doctypes specs = 0) :
    doctypes (destructuring global provided specs) = 0 ∧ reach 0 (destructuring global provided specs) = 0 := by
  have hbindings : ∀ b ∈ (Text.splitOn ',' specs).filterMap (binding? provided), doctypes b = 0 := by
    intro b hb
    obtain ⟨spec, hspec, hb⟩ := List.mem_filterMap.1 hb
    exact doctypes_binding? (doctypes_eq_zero_of_isInfix (Text.isInfix_of_mem_splitWhere hspec) hspecs) hb
  unfold destructuring
  generalize (Text.splitOn ',' specs).filterMap (binding? provided) = bindings at hbindings
  cases bindings with
  | nil => exact ⟨rfl, rfl⟩
  | cons b bs =>
    dsimp only
    refine ⟨?_, reach_eq_zero_of_lastOf (by rw [lastOf_append]; rfl)⟩
    have hjoin : doctypes (Text.join ", " (b :: bs)) = 0 := by
      have hcomma : ", ".toList = ',' :: [' '] := rfl
      rw [hcomma, doctypes_join (by decide) (by decide)]
      exact doctypesIn_eq_zero hbindings
    have hopen : '<' ∉ "const \x7b ".toList := by decide
    have hmiddle : '<' ∉ "\x7d = ".toList := by decide
    have hend : doctypes "\n" = 0 := by decide
    have hparts : "const \x7b ".toList ++ Text.join ", " (b :: bs) ++ " \x7d = ".toList ++ global ++ ";\n".toList
        = "const \x7b ".toList ++ (Text.join ", " (b :: bs) ++ ' ' :: ("\x7d = ".toList
          ++ (global ++ ';' :: "\n".toList))) := by
      simp
    rw [hparts, doctypes_append_of_not_mem hopen, doctypes_append_cons (by decide), doctypes_append_of_not_mem hmiddle,
      doctypes_append_cons (by decide), hjoin, hglobal, hend]

/-- Imports that become reads bring no document type. -/
theorem doctypes_globalizeImports {code global : Text} (packages provided : List Text) (hglobal : doctypes global = 0)
    (hcode : doctypes code = 0) : doctypes (globalizeImports packages global provided code) = 0 := by
  have hnamed : doctypes (namedImport.replaceAll (fun m => if isWithin packages (m.groupText 2) then
      destructuring global provided (m.groupText 1) else m.text) code) = 0 := by
    refine doctypes_replaceAll rfl hcode fun m _ x u y hcuts q _ hq => ?_
    have hx : reach 0 x = 0 := reach_eq_zero_of_lineStart hcuts.reads
    split
    · obtain rfl : q = 0 := hq.elim id (·.trans hx)
      rw [← doctypes_eq_hits]
      have hspecs := doctypes_eq_zero_of_isInfix (hcuts.groupText_isInfix 1) hcode
      exact (doctypes_destructuring provided hglobal hspecs).imp_right .inl
    · exact hits_text hcode hcuts hx hq
  refine doctypes_replaceAll rfl hnamed fun m _ x u y hcuts q _ hq => ?_
  have hx : reach 0 x = 0 := reach_eq_zero_of_lineStart hcuts.reads
  split
  · exact ⟨rfl, .inl (hq.elim id (·.trans hx))⟩
  · exact hits_text hnamed hcuts hx hq

/-! ### Members of a class -/

/-- What is blanked out reads as no document type. -/
theorem insulates_blanks {n : Nat} (hn : 0 < n) : Insulates (List.replicate n ' ') := by
  obtain ⟨n, rfl⟩ := Nat.exists_eq_add_one.2 hn
  have hangle : '<' ∉ List.replicate n ' ' := fun h => absurd (List.eq_of_mem_replicate h) (by decide)
  exact insulates_cons (by decide) (hits_zero_of_not_mem hangle) (reach_zero_of_not_mem hangle)

theorem hits_maskFrom_le {q s : Nat} (hs : s < 9) (h : q = 0 ∨ q = s) (mode : Mode) (depth : Nat) (t : Text) :
    hits q (maskFrom mode depth t) ≤ hits s t := by
  induction t generalizing q s mode depth with
  | nil => exact Nat.le_refl _
  | cons c t ih =>
    have hq : q < 9 := h.elim (· ▸ by decide) (· ▸ hs)
    unfold maskFrom
    dsimp only
    rw [hits_append]
    split
    · obtain ⟨hnone, hreach⟩ := insulates_blanks c.utf8Size_pos q hq
      rw [hnone, hreach, Nat.zero_add]
      exact (ih (progress_lt s c) (.inl rfl) _ _).trans (Nat.le_add_left _ _)
    · rw [← List.singleton_append (x := c), hits_append]
      exact Nat.add_le_add (hits_le_of_behind h [c]) (ih (progress_lt s c) (progress_of_behind h c) _ _)

theorem doctypes_mask_le (t : Text) : doctypes (mask t) ≤ doctypes t := by
  rw [doctypes_eq_hits, doctypes_eq_hits]
  exact hits_maskFrom_le (by decide) (.inl rfl) .code 0 t

variable {body source : Text}

theorem doctypes_mask (h : doctypes body = 0) : doctypes (mask body) = 0 := Nat.le_zero.1 (h ▸ doctypes_mask_le body)

theorem doctypes_group? {p : Pattern} {m : Match} {i : Nat} {s : Span} {t : Text} (ht : doctypes t = 0)
    (hm : m ∈ p.finds t) (hs : m.group? i = some s) : doctypes s.text = 0 := by
  rw [← Match.groupText_of_group? hs]
  exact doctypes_eq_zero_of_isInfix (p.groupText_isInfix hm i) ht

theorem classBody?_isInfix (h : classBody? source = some body) : body <:+: source := by
  obtain ⟨head, -, h⟩ := Option.bind_eq_some_iff.1 h
  obtain ⟨close, -, h⟩ := Option.bind_eq_some_iff.1 h
  obtain rfl := Option.some.inj h
  exact Text.slice_isInfix _ _ _

theorem doctypes_eq_zero_of_mem_fields (h : doctypes body = 0) {f : Field} (hf : f ∈ Field.ofBody body) :
    doctypes f.name = 0 ∧ doctypes f.value = 0 := by
  obtain ⟨m, hm, hf⟩ := List.mem_filterMap.1 hf
  obtain ⟨name, hname, hf⟩ := Option.bind_eq_some_iff.1 hf
  obtain ⟨value, -, hf⟩ := Option.bind_eq_some_iff.1 hf
  dsimp only at hf
  split at hf
  · obtain rfl := Option.some.inj hf
    refine ⟨doctypes_group? (doctypes_mask h) hm hname, ?_⟩
    exact doctypes_eq_zero_of_isInfix ((Text.trim_isInfix _).trans (Text.slice_isInfix _ _ _)) h
  · exact absurd hf nofun

theorem doctypes_eq_zero_of_mem_methods (h : doctypes body = 0) {f : Method} (hf : f ∈ Method.ofBody body) :
    doctypes f.name = 0 ∧ doctypes f.body = 0 := by
  obtain ⟨m, hm, hf⟩ := List.mem_filterMap.1 hf
  obtain ⟨name, hname, hf⟩ := Option.bind_eq_some_iff.1 hf
  split at hf
  · exact absurd hf nofun
  · obtain ⟨close, -, hf⟩ := Option.bind_eq_some_iff.1 hf
    obtain rfl := Option.some.inj hf
    exact ⟨doctypes_group? (doctypes_mask h) hm hname, doctypes_eq_zero_of_isInfix (Text.slice_isInfix _ _ _) h⟩

end SnippetPreview.Script
