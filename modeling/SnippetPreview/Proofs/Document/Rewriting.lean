import SnippetPreview.Proofs.Document.Doctypes
import SnippetPreview.Proofs.Document.Escaping
import SnippetPreview.Proofs.Files.Path
import SnippetPreview.Proofs.Pattern.Groups

/-!
# Rewriting without new document types

* `doctypes_replaceAll`: a text without a document type gets none when its matches are replaced, as long as no image
  completes one or begins one;
* `Insulates`: texts that neither complete a document type nor begin one, such as most images. What stands between two
  of them brings its own document types (`Insulates.doctypes_framed`);
* `Pattern.StandsClear`, `doctypes_removeAll`: where matches are taken out, a document type comes about only behind the
  beginning of one;
* `doctypes_escapeScript`, `doctypes_trim`, `doctypes_join`: what happens to all code leaves its document types alone.
-/

namespace SnippetPreview

open Pattern

variable {p : Pattern} {f : Match → Text} {t : Text}

/-- A text without a document type gets none when its matches are replaced, as long as no image goes on with one or
begins one. What has been read of one in the rewritten text is at most what has been read of one in the text. -/
theorem doctypes_replaceAll (hp : p.consumes = true) (ht : doctypes t = 0)
    (h : ∀ m ∈ p.finds t, ∀ x u y, m.Cuts p t x u y → ∀ q < 9, q = 0 ∨ q = reach 0 x →
      hits q (f m) = 0 ∧ (reach q (f m) = 0 ∨ reach q (f m) = reach 0 (x ++ u))) :
    doctypes (p.replaceAll f t) = 0 := by
  refine (replaceAll_invariant hp (f := f) (t := t)
    (motive := fun x out => doctypes out = 0 ∧ (reach 0 out = 0 ∨ reach 0 out = reach 0 x)) ⟨rfl, .inl rfl⟩ ?_ ?_).1
  · rintro x c y out hxy ⟨hout, hreach⟩
    have hnone : hits (reach 0 out) [c] = 0 := by
      have hle := hits_le_of_behind hreach [c]
      have hsplit : t = x ++ ([c] ++ y) := hxy
      rw [hsplit, doctypes_append, hits_append] at ht
      omega
    refine ⟨by rw [doctypes_append, hout, hnone], ?_⟩
    rw [reach_append, reach_append]
    exact reach_of_behind hreach [c]
  · rintro m hm x u y out hcuts ⟨hout, hreach⟩
    obtain ⟨hnone, hnext⟩ := h m hm x u y hcuts (reach 0 out) (reach_lt (by decide) out) hreach
    refine ⟨by rw [doctypes_append, hout, hnone], ?_⟩
    rw [reach_append]
    exact hnext

/-- The text completes no document type and leaves nothing of one, whatever stands in front of it. -/
def Insulates (v : Text) : Prop := ∀ q < 9, hits q v = 0 ∧ reach q v = 0

instance (v : Text) : Decidable (Insulates v) := inferInstanceAs (Decidable (∀ q < 9, _))

theorem Insulates.literal {s : String} {v : Text} (hs : s = String.ofList v) (h : Insulates v) : Insulates s :=
  Text.of_literal hs h

theorem doctypes_literal {s : String} {v : Text} {n : Nat} (hs : s = String.ofList v) (h : hits 0 v = n) :
    doctypes s = n := by
  rw [doctypes_eq_hits]
  exact Text.of_literal (P := fun t => hits 0 t = n) hs h

theorem insulates_cons {c : Char} {v : Text} (hc : c.toLower ∉ doctypeWord) (hv : hits 0 v = 0)
    (hreach : reach 0 v = 0) : Insulates (c :: v) := by
  intro q _
  rw [hits_cons_of_not_mem hc, reach_cons, progress_of_not_mem hc]
  exact ⟨hv, hreach⟩

namespace Insulates

variable {front back v : Text}

theorem doctypes_append (h : Insulates v) (x y : Text) : doctypes (x ++ (v ++ y)) = doctypes x + doctypes y := by
  obtain ⟨hnone, hreach⟩ := h (reach 0 x) (reach_lt (by decide) x)
  rw [SnippetPreview.doctypes_append, hits_append, hnone, hreach, Nat.zero_add, ← doctypes_eq_hits]

theorem doctypes_front (h : Insulates v) (y : Text) : doctypes (v ++ y) = doctypes y :=
  (h.doctypes_append [] y).trans (Nat.zero_add _)

theorem doctypes_back (h : Insulates v) (x : Text) : doctypes (x ++ v) = doctypes x := by
  have hend := h.doctypes_append x []
  rwa [List.append_nil] at hend

theorem append (hfront : Insulates front) (hback : Insulates back) : Insulates (front ++ back) := by
  intro q hq
  obtain ⟨hnone, hreach⟩ := hfront q hq
  rw [hits_append, reach_append, hnone, hreach, Nat.zero_add]
  exact hback 0 (by decide)

/-- A frame stays one around a text without a document type. -/
theorem framed (hfront : Insulates front) (hv : doctypes v = 0) (hback : Insulates back) :
    Insulates (front ++ v ++ back) := by
  intro q hq
  obtain ⟨hnone, hreach⟩ := hfront q hq
  obtain ⟨hend, hlast⟩ := hback (reach 0 v) (reach_lt (by decide) v)
  have hmiddle : reach q (front ++ v) = reach 0 v := by rw [reach_append, hreach]
  have hlast' : reach q (front ++ v ++ back) = 0 := by rw [reach_append, hmiddle, hlast]
  refine ⟨?_, hlast'⟩
  rw [hits_append, hmiddle, hits_append, hnone, hreach, ← doctypes_eq_hits, hv, hend]

/-- A text in a frame brings its own document types. -/
theorem doctypes_framed (hfront : Insulates front) (hback : Insulates back) (t y : Text) :
    doctypes (front ++ t ++ back ++ y) = doctypes t + doctypes y := by
  rw [List.append_assoc, List.append_assoc, hfront.doctypes_front, hback.doctypes_append]

/-- So do texts in frames, one behind the other. -/
theorem doctypes_flatMap {α : Type} (hfront : Insulates front) (hback : Insulates back) (f : α → Text) (l : List α)
    (y : Text) : doctypes (l.flatMap (fun a => front ++ f a ++ back) ++ y)
      = doctypesIn (l.map f) + doctypes y := by
  induction l with
  | nil => exact (Nat.zero_add _).symm
  | cons a l ih =>
    rw [List.flatMap_cons, List.append_assoc, hfront.doctypes_framed hback, ih, List.map_cons, doctypesIn_cons,
      Nat.add_assoc]

end Insulates

theorem doctypes_replaceAll_of_insulates (hp : p.consumes = true) (ht : doctypes t = 0)
    (h : ∀ m ∈ p.finds t, ∀ x u y, m.Cuts p t x u y → Insulates (f m)) : doctypes (p.replaceAll f t) = 0 :=
  doctypes_replaceAll hp ht fun m hm x u y hcuts q hq _ =>
    (h m hm x u y hcuts q hq).imp_right .inl

/-- No match of the pattern stands right behind the beginning of a document type. -/
def Pattern.StandsClear (p : Pattern) (t : Text) : Prop :=
  ∀ m ∈ p.finds t, ¬ OpensDoctype (textBefore t m.span.start)

instance (p : Pattern) (t : Text) : Decidable (p.StandsClear t) := inferInstanceAs (Decidable (∀ m ∈ p.finds t, _))

/-- Where matches are taken out, a document type comes about only behind the beginning of one. -/
theorem doctypes_removeAll (hp : p.consumes = true) (ht : doctypes t = 0) (h : p.StandsClear t) :
    doctypes (p.replaceAll (fun _ => []) t) = 0 := by
  refine doctypes_replaceAll hp ht fun m hm x u y hcuts q _ hq => ⟨rfl, .inl ?_⟩
  have hbefore : textBefore t m.span.start = x := by
    rw [hcuts.start, hcuts.text_eq, textBefore_behind]
  have hreach : reach 0 x = 0 := reach_eq_zero (hbefore ▸ h m hm)
  rw [hreach] at hq
  exact hq.elim id id

/-- So it is where only the first match is replaced. -/
theorem doctypes_replaceFirst {new : Text} (hnew : Insulates new) (ht : doctypes t = 0) :
    doctypes (p.replaceFirst new t) = 0 := by
  cases hm : p.find? t with
  | none =>
    rw [replaceFirst, hm]
    exact ht
  | some m =>
    obtain ⟨x, u, y, hcuts, hreplaced⟩ := exists_cut_replaceFirst hm new
    rw [hcuts.text_eq] at ht
    rw [hreplaced, hnew.doctypes_append, doctypes_eq_zero_of_isInfix (List.prefix_append x _).isInfix ht,
      doctypes_eq_zero_of_isInfix (List.infix_append_of_infix_right (List.suffix_append u y).isInfix) ht]

/-- Texts that are insulated from both sides may stand in for each other. -/
theorem doctypes_replaceAll_eq (hp : p.consumes = true)
    (h : ∀ m ∈ p.finds t, ∀ x u y, m.Cuts p t x u y → Insulates u ∧ Insulates (f m)) :
    doctypes (p.replaceAll f t) = doctypes t := by
  refine (replaceAll_invariant hp (f := f) (t := t)
    (motive := fun x out => doctypes out = doctypes x ∧ reach 0 out = reach 0 x) ⟨rfl, rfl⟩ ?_ ?_).1
  · rintro x c y out - ⟨hout, hreach⟩
    rw [doctypes_append, doctypes_append, reach_append, reach_append, hout, hreach]
    exact ⟨rfl, rfl⟩
  · rintro m hm x u y out hcuts ⟨hout, -⟩
    obtain ⟨hu, hm⟩ := h m hm x u y hcuts
    obtain ⟨hnone, hreach⟩ := hu (reach 0 x) (reach_lt (by decide) x)
    obtain ⟨hnone', hreach'⟩ := hm (reach 0 out) (reach_lt (by decide) out)
    rw [doctypes_append, doctypes_append, reach_append, reach_append, hout, hnone, hnone', hreach, hreach']
    exact ⟨rfl, rfl⟩

/-! ### Escaped code -/

theorem toLower_eq_of_foldCase {c d : Char} (h : foldCase c = d) (hs : d ≠ 's') (hk : d ≠ 'k') : c.toLower = d := by
  unfold foldCase at h
  split at h
  · exact absurd h.symm hs
  · split at h
    · exact absurd h.symm hk
    · exact h

theorem insulates_closingTag {u : Text} (h : u.map foldCase = closingTag) : Insulates u := by
  have h : u.map foldCase = '<' :: '/' :: "script".toList := h
  obtain ⟨a, u, rfl, ha, htail⟩ := List.map_eq_cons_iff.1 h
  obtain ⟨b, u, rfl, hb, hscript⟩ := List.map_eq_cons_iff.1 htail
  obtain rfl := eq_angle_of_toLower (toLower_eq_of_foldCase ha (by decide) (by decide))
  have hslash : b.toLower ∉ doctypeWord := by
    rw [toLower_eq_of_foldCase hb (by decide) (by decide)]
    decide
  have hletters : '<' ∉ u := by
    intro hmem
    have hfold : foldCase '<' ∈ u.map foldCase := List.mem_map_of_mem hmem
    rw [hscript] at hfold
    exact absurd hfold (by decide)
  intro q _
  rw [hits_angle, reach_cons, progress_angle]
  exact insulates_cons hslash (hits_zero_of_not_mem hletters) (reach_zero_of_not_mem hletters) 1 (by decide)

/-- Escaping leaves all document types as they are. -/
theorem doctypes_escapeScript (code : Text) : doctypes (escapeScript code) = doctypes code :=
  doctypes_replaceAll_eq rfl fun _ _ _ _ _ hcuts =>
    ⟨insulates_closingTag ((reads_anyCase_iff.1 hcuts.reads).trans map_foldCase_closingTag), by decide⟩

/-! ### Blanks and line starts -/

theorem toLower_of_isBlank {c : Char} (h : isBlank c = true) : c.toLower = c := by
  unfold Char.toLower
  split
  · next hcapital =>
    have hmin : 65 ≤ c.toNat := UInt32.le_iff_toNat_le.1 hcapital.1
    have hmax : c.toNat ≤ 90 := UInt32.le_iff_toNat_le.1 hcapital.2
    simp [isBlank] at h
    omega
  · rfl

theorem not_mem_doctypeWord_of_isBlank {c : Char} (h : isBlank c = true) : c.toLower ∉ doctypeWord := by
  rw [toLower_of_isBlank h]
  intro hmem
  have hany : doctypeWord.any isBlank = true := List.any_eq_true.2 ⟨c, hmem, h⟩
  exact absurd hany (by decide)

theorem not_mem_of_all_isBlank {t : Text} (h : t.all isBlank = true) : '<' ∉ t :=
  fun hmem => absurd (List.all_eq_true.1 h _ hmem) (by decide)

theorem doctypes_trim (t : Text) : doctypes t.trim = doctypes t := by
  obtain ⟨a, b, ht, ha, hb⟩ := Text.exists_trim t
  have hend : doctypes (t.trim ++ b) = doctypes t.trim := by
    cases b with
    | nil => rw [List.append_nil]
    | cons c b =>
      rw [List.all_cons, Bool.and_eq_true] at hb
      rw [doctypes_append_cons (not_mem_doctypeWord_of_isBlank hb.1), doctypes_eq_hits b,
        hits_zero_of_not_mem (not_mem_of_all_isBlank hb.2), Nat.add_zero]
  rw [← hend, ← doctypes_append_of_not_mem (not_mem_of_all_isBlank ha), ← ht]

theorem reach_eq_zero_of_lastOf {x : Text} (h : (lastOf none x).all (fun c => !doctypeWord.elem c.toLower) = true) :
    reach 0 x = 0 := by
  rcases List.eq_nil_or_concat x with rfl | ⟨front, c, rfl⟩
  · rfl
  · rw [List.concat_eq_append, lastOf_append] at h
    rw [List.concat_eq_append, reach_append, reach_cons, progress_of_not_mem]
    · rfl
    · intro hmem
      have hnot : (!doctypeWord.elem c.toLower) = true := h
      rw [List.elem_eq_mem, decide_eq_true hmem] at hnot
      exact absurd hnot nofun

/-- At the start of a line, nothing of a document type has been read. -/
theorem reach_eq_zero_of_lineStart {q : Pattern} {x u y : Text} (h : Reads (.seq lineStart q) (lastOf none x) u y) :
    reach 0 x = 0 := by
  obtain ⟨hline, -⟩ := reads_lineStart_seq_iff.1 h
  refine reach_eq_zero_of_lastOf ?_
  cases hlast : lastOf none x with
  | none => rfl
  | some c =>
    rw [hlast] at hline
    obtain rfl : c = '\n' := by simpa using hline
    decide

/-- A match that stays where nothing of a document type has been read brings none. -/
theorem hits_text {m : Match} {x u y : Text} {q : Nat} (ht : doctypes t = 0) (h : m.Cuts p t x u y) (hx : reach 0 x = 0)
    (hq : q = 0 ∨ q = reach 0 x) :
    hits q m.text = 0 ∧ (reach q m.text = 0 ∨ reach q m.text = reach 0 (x ++ u)) := by
  obtain rfl : q = 0 := hq.elim id (·.trans hx)
  rw [h.text, reach_append, hx, ← doctypes_eq_hits]
  exact ⟨doctypes_eq_zero_of_isInfix h.isInfix ht, .inr rfl⟩

/-- Parts between separators bring their own document types. -/
theorem doctypes_join {c : Char} {sep : Text} (hc : c.toLower ∉ doctypeWord) (hsep : '<' ∉ sep) (parts : List Text) :
    doctypes (Text.join (c :: sep) parts) = doctypesIn parts := by
  induction parts with
  | nil => rfl
  | cons part parts ih =>
    rw [Text.join_cons, doctypesIn_cons]
    split
    · next hparts => rw [hparts]; rfl
    · rw [List.append_assoc, List.cons_append, doctypes_append_cons hc, doctypes_append_of_not_mem hsep, ih]

end SnippetPreview
