import SnippetPreview.Proofs.Pattern.Groups

/-!
# What becomes of a part of a text

* `imageFrom`: the characters that stay, and the image of each match where the match starts;
* `imageFrom_append`: what becomes of a text is what becomes of its parts, one behind the other;
* `replaceAll_eq_imageFrom`, `replaceFirst_eq_imageFrom`: replacing matches is taking the image of the text;
* `Marked`: a text with a part of it, which is followed through such passes.
-/

namespace SnippetPreview

open Pattern

/-- The match reads the character behind `n` bytes. -/
def Match.covers (m : Match) (n : Nat) : Bool := decide (m.span.start.offset ≤ n) && decide (n < m.span.stop.offset)

theorem Match.covers_iff {m : Match} {n : Nat} :
    m.covers n = true ↔ m.span.start.offset ≤ n ∧ n < m.span.stop.offset := by
  rw [covers, Bool.and_eq_true, decide_eq_true_eq, decide_eq_true_eq]

/-- What becomes of a text behind `n` bytes when these matches give way to their images. The image of a match stands where
the match starts. -/
def imageFrom (f : Match → Text) (ms : List Match) (n : Nat) : Text → Text
  | [] => []
  | c :: t =>
    (match ms.find? (·.covers n) with
      | none => [c]
      | some m => if m.span.start.offset = n then f m else []) ++ imageFrom f ms (n + c.utf8Size) t

variable {p : Pattern} {f : Match → Text} {hit : Match → Bool} {m : Match} {ms : List Match} {n : Nat} {t : Text}

/-! ### One part behind the other -/

theorem imageFrom_append (f : Match → Text) (ms : List Match) (n : Nat) (a b : Text) :
    imageFrom f ms n (a ++ b) = imageFrom f ms n a ++ imageFrom f ms (n + Text.byteSize a) b := by
  induction a generalizing n with
  | nil => rfl
  | cons c a ih =>
    rw [List.cons_append, imageFrom, imageFrom, ih, Text.byteSize_cons, List.append_assoc, Nat.add_assoc]

/-- A part that no match reads stays. -/
theorem imageFrom_of_not_covers
    (h : ∀ m ∈ ms, n + Text.byteSize t ≤ m.span.start.offset ∨ m.span.stop.offset ≤ n) : imageFrom f ms n t = t := by
  induction t generalizing n with
  | nil => rfl
  | cons c t ih =>
    rw [Text.byteSize_cons] at h
    have hpos := c.utf8Size_pos
    have hnone : ms.find? (·.covers n) = none := by
      refine List.find?_eq_none.2 fun m hm hcovers => ?_
      have hm := h m hm
      have hcovers := Match.covers_iff.1 hcovers
      omega
    have hrest : imageFrom f ms (n + c.utf8Size) t = t := by
      refine ih fun m hm => ?_
      have hm := h m hm
      omega
    rw [imageFrom, hnone, hrest]
    rfl

/-- Where a match is past, it does not count. -/
theorem imageFrom_cons_of_le (h : m.span.stop.offset ≤ n) : imageFrom f (m :: ms) n t = imageFrom f ms n t := by
  induction t generalizing n with
  | nil => rfl
  | cons c t ih =>
    have hfind : (m :: ms).find? (·.covers n) = ms.find? (·.covers n) := by
      refine List.find?_cons_of_neg fun hcovers => ?_
      have hcovers := Match.covers_iff.1 hcovers
      omega
    rw [imageFrom, imageFrom, hfind, ih (Nat.le_add_right_of_le h)]

/-- Inside of a match everything vanishes. -/
theorem imageFrom_inside (hstart : m.span.start.offset < n) (hstop : n + Text.byteSize t ≤ m.span.stop.offset) :
    imageFrom f (m :: ms) n t = [] := by
  induction t generalizing n with
  | nil => rfl
  | cons c t ih =>
    rw [Text.byteSize_cons] at hstop
    have hpos := c.utf8Size_pos
    have hfind : (m :: ms).find? (·.covers n) = some m :=
      List.find?_cons_of_pos (Match.covers_iff.2 ⟨by omega, by omega⟩)
    rw [imageFrom, hfind, ih (by omega) (by omega), List.append_nil]
    exact if_neg (by omega)

/-- A match becomes its image. -/
theorem imageFrom_match {u : Text} (hu : u ≠ []) (hstart : m.span.start.offset = n)
    (hstop : m.span.stop.offset = n + Text.byteSize u) : imageFrom f (m :: ms) n u = f m := by
  obtain ⟨c, u, rfl⟩ := List.exists_cons_of_ne_nil hu
  rw [Text.byteSize_cons] at hstop
  have hpos := c.utf8Size_pos
  have hfind : (m :: ms).find? (·.covers n) = some m :=
    List.find?_cons_of_pos (Match.covers_iff.2 ⟨by omega, by omega⟩)
  rw [imageFrom, hfind, imageFrom_inside (by omega) (by omega), List.append_nil]
  exact if_pos hstart

/-! ### Replacing matches -/

namespace Pattern

theorem le_start_of_mem_findsFrom {k : Cursor} (h : m ∈ p.findsFrom k) : k.offset ≤ m.span.start.offset := by
  obtain ⟨x, u, y, -, hstart, -, -⟩ := exists_cut_of_mem_findsFrom h
  rw [hstart, Cursor.offset_behind]
  exact Nat.le_add_right _ _

/-- The images of the hits are all that comes in when the other matches stay. -/
theorem replacedFrom_eq_imageFrom (hp : p.consumes = true) (k : Cursor)
    (hf : ∀ m ∈ p.findsFrom k, hit m = false → f m = m.text) :
    p.replacedFrom f k = imageFrom f ((p.findsFrom k).filter hit) k.offset k.after := by
  rcases replacedFrom_cases hp f k with ⟨hk, hreplaced⟩ | ⟨c, t, hk, -, hfinds, hreplaced⟩ |
    ⟨r, u, y, hu, hk, -, hstop, hfinds, hreplaced⟩
  · rw [hreplaced, hk]
    rfl
  · have hpos := c.utf8Size_pos
    rw [hfinds] at hf
    have ih := replacedFrom_eq_imageFrom hp (k.past c t) hf
    have hkeep : imageFrom f ((p.findsFrom (k.past c t)).filter hit) k.offset [c] = [c] := by
      refine imageFrom_of_not_covers fun m hm => .inl ?_
      exact le_start_of_mem_findsFrom (List.mem_of_mem_filter hm)
    have hsplit := imageFrom_append f ((p.findsFrom (k.past c t)).filter hit) k.offset [c] t
    rw [hkeep] at hsplit
    rw [hreplaced, hfinds, hk, ih]
    exact hsplit.symm
  · have hsize : r.stop.offset = k.offset + Text.byteSize u := by rw [hstop, Cursor.offset_behind]
    rw [hfinds] at hf
    have ih := replacedFrom_eq_imageFrom hp (k.behind u y) fun m hm => hf m (List.mem_cons_of_mem _ hm)
    rw [hreplaced, hfinds, hk, imageFrom_append, ih]
    cases hhit : hit (.ofReading k r) with
    | true =>
      have himage : imageFrom f (.ofReading k r :: (p.findsFrom (k.behind u y)).filter hit) k.offset u
          = f (.ofReading k r) := imageFrom_match hu rfl hsize
      rw [List.filter_cons_of_pos hhit, imageFrom_cons_of_le (t := y) (Nat.le_of_eq hsize)]
      exact congrArg (· ++ _) himage.symm
    | false =>
      have htext : (Match.ofReading k r).text = u := by
        have h := Span.text_behind k [] u y y
        rwa [List.nil_append, ← hk, Cursor.behind_nil, ← hstop] at h
      have hkeep : imageFrom f ((p.findsFrom (k.behind u y)).filter hit) k.offset u = u := by
        refine imageFrom_of_not_covers fun m hm => .inl ?_
        exact le_start_of_mem_findsFrom (List.mem_of_mem_filter hm)
      rw [List.filter_cons_of_neg (Bool.eq_false_iff.1 hhit), hf _ List.mem_cons_self hhit, htext, hkeep]
      rfl
termination_by k.after.length
decreasing_by
  all_goals rw [hk]
  · exact Nat.lt_succ_self _
  · rw [List.length_append]
    exact Nat.lt_add_of_pos_left (List.length_pos_iff.2 hu)

theorem replaceAll_eq_imageFrom (hp : p.consumes = true) (hf : ∀ m ∈ p.finds t, hit m = false → f m = m.text) :
    p.replaceAll f t = imageFrom f ((p.finds t).filter hit) 0 t :=
  replacedFrom_eq_imageFrom hp (.start t) hf

theorem replaceFirst_eq_imageFrom (hp : p.consumes = true) (new t : Text) :
    p.replaceFirst new t = imageFrom (fun _ => new) (p.find? t).toList 0 t := by
  cases hfind : p.find? t with
  | none =>
    rw [replaceFirst, hfind, Option.toList_none, imageFrom_of_not_covers (List.forall_mem_nil _)]
    rfl
  | some m =>
    obtain ⟨x, u, y, hcuts, hreplaced⟩ := exists_cut_replaceFirst hfind new
    have hstart : m.span.start.offset = 0 + Text.byteSize x := by rw [hcuts.start, Cursor.offset_behind]; rfl
    have hstop : m.span.stop.offset = 0 + Text.byteSize x + Text.byteSize u := by
      rw [hcuts.stop, Cursor.offset_behind, Text.byteSize_append, Nat.add_assoc]
      rfl
    have hfront : imageFrom (fun _ => new) [m] 0 x = x := by
      refine imageFrom_of_not_covers fun m' hm' => .inl (Nat.le_of_eq ?_)
      rw [List.mem_singleton.1 hm', hstart]
    have hback : imageFrom (fun _ => new) [m] (0 + Text.byteSize x + Text.byteSize u) y = y := by
      rw [imageFrom_cons_of_le (Nat.le_of_eq hstop), imageFrom_of_not_covers (List.forall_mem_nil _)]
    rw [hreplaced, Option.toList_some, hcuts.text_eq, imageFrom_append, imageFrom_append, hfront,
      imageFrom_match (hcuts.reads.ne_nil hp) hstart hstop, hback]

end Pattern

/-! ### Marked texts -/

/-- A text with a part of it. -/
structure Marked where
  front : Text
  part : Text
  back : Text
deriving DecidableEq, Repr

namespace Marked

def whole (s : Marked) : Text := s.front ++ (s.part ++ s.back)

/-- What becomes of the text and of its part when these matches give way to their images. -/
def image (f : Match → Text) (ms : List Match) (s : Marked) : Marked where
  front := imageFrom f ms 0 s.front
  part := imageFrom f ms (0 + Text.byteSize s.front) s.part
  back := imageFrom f ms (0 + Text.byteSize s.front + Text.byteSize s.part) s.back

theorem whole_image (f : Match → Text) (ms : List Match) (s : Marked) :
    (s.image f ms).whole = imageFrom f ms 0 s.whole := by
  unfold whole
  rw [imageFrom_append, imageFrom_append]
  rfl

/-- The matches that are hits give way to their images. -/
def replaceHits (p : Pattern) (hit : Match → Bool) (f : Match → Text) (s : Marked) : Marked :=
  s.image f ((p.finds s.whole).filter hit)

theorem whole_replaceHits (hp : p.consumes = true) {s : Marked}
    (hf : ∀ m ∈ p.finds s.whole, hit m = false → f m = m.text) :
    (s.replaceHits p hit f).whole = p.replaceAll f s.whole := by
  rw [replaceHits, whole_image, replaceAll_eq_imageFrom hp hf]

/-- The first match gives way to another text. -/
def replaceFirst (p : Pattern) (new : Text) (s : Marked) : Marked := s.image (fun _ => new) (p.find? s.whole).toList

theorem whole_replaceFirst (hp : p.consumes = true) (new : Text) (s : Marked) :
    (s.replaceFirst p new).whole = p.replaceFirst new s.whole := by
  rw [replaceFirst, whole_image, replaceFirst_eq_imageFrom hp]

end Marked

end SnippetPreview
