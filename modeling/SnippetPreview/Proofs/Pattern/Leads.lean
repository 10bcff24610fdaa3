import SnippetPreview.Proofs.Pattern.First
import SnippetPreview.Proofs.Pattern.Replaces
import SnippetPreview.Proofs.Pattern.Twins

/-!
# Patterns with a lead, and texts in parts

* `first_chain_append`: a chain of patterns is read as its first part and then the rest of it;
* `first_of_lead`: where the rest of a pattern opens with a sign that its lead never reads, the lead ends at this sign, in
  whatever order its readings are tried;
* `Pattern.IsUnread`: a text in which a pattern can be read nowhere, whatever stands around it;
* `Pattern.Rewrites`: a text of whole lines that becomes another one by itself, whatever stands around it. Such texts are
  put together line by line;
* `Rewrites.replaceAll_append`: whatever follows such a text is rewritten by itself;
* `Rewrites.of_unread`, `Rewrites.of_isUnread`: lines where nothing can be read stay;
* `Rewrites.of_first`: a match that fills its lines gives way to its image;
* `Pattern.RewritesEnd`: the same for the rest of a text, which needs no line break.
-/

namespace SnippetPreview

open Pattern

namespace Pattern

variable {p q : Pattern} {k : Cursor} {r s : Reading}

/-! ### Chains in two parts -/

theorem andThen_andThen (r s : Reading) : (r.andThen s).andThen = r.andThen ∘ s.andThen :=
  funext fun t => congrArg (Reading.mk t.stop) (List.append_assoc ..)

theorem readings_seq_seq (p q₁ q₂ : Pattern) (k : Cursor) :
    (seq p (seq q₁ q₂)).readings k = (seq (seq p q₁) q₂).readings k := by
  simp only [readings_seq, List.flatMap_assoc, List.flatMap_map, List.map_flatMap, List.map_map, andThen_andThen]
  rfl

theorem readings_seq_congr {q q' : Pattern} (h : ∀ k, q.readings k = q'.readings k) (p : Pattern) (k : Cursor) :
    (seq p q).readings k = (seq p q').readings k := by
  simp only [readings_seq, h]

theorem readings_chain_append (ps qs : List Pattern) (k : Cursor) :
    (chain (ps ++ qs)).readings k = (seq (chain ps) (chain qs)).readings k := by
  induction ps generalizing k with
  | nil =>
    have hnothing : (Reading.nothing k).andThen = id := funext fun _ => rfl
    show (chain qs).readings k = ((chain qs).readings k).map _ ++ []
    rw [hnothing, List.map_id, List.append_nil]
  | cons p ps ih => exact (readings_seq_congr ih p k).trans (readings_seq_seq p _ _ k)

/-- A chain within a chain. -/
theorem readings_chain_nest (ps qs rs : List Pattern) (k : Cursor) :
    (chain (ps ++ chain qs :: rs)).readings k = (chain (ps ++ (qs ++ rs))).readings k := by
  rw [readings_chain_append, readings_chain_append]
  exact readings_seq_congr (fun k => (readings_chain_append qs rs k).symm) _ k

theorem first_chain_append {ps qs : List Pattern} :
    First (chain (ps ++ qs)) k r ↔ First (seq (chain ps) (chain qs)) k r := by
  unfold First
  rw [readings_chain_append]

/-- The end of a chain reads nothing. -/
theorem First.last (h : First p k r) : First (.seq p empty) k r := by
  have hend := h.seq (first_empty r.stop)
  unfold Reading.andThen Reading.nothing at hend
  rwa [List.append_nil] at hend

/-! ### Leads -/

/-- No reading of the pattern marks the place with this number. -/
def leaves (slot : Nat) : Pattern → Bool
  | mark i => i != slot
  | empty | lineStart | wordEdge | one _ | run _ _ => true
  | seq p q | alt p q => p.leaves slot && q.leaves slot
  | star _ => false

theorem Yields.not_mem_marks {slot : Nat} (h : p.Yields k r) (hp : p.leaves slot = true) (d : Cursor) :
    (slot, d) ∉ r.marks := by
  induction h with
  | empty | lineStart | wordEdge | one | run => exact List.not_mem_nil
  | mark i k =>
    intro hd
    obtain ⟨rfl, -⟩ := Prod.mk.inj (List.mem_singleton.1 hd)
    exact bne_iff_ne.1 hp rfl
  | seq _ _ ihr ihs =>
    rw [leaves, Bool.and_eq_true] at hp
    exact fun hd => (List.mem_append.1 hd).elim (ihr hp.1) (ihs hp.2)
  | altLeft _ _ ih =>
    rw [leaves, Bool.and_eq_true] at hp
    exact ih hp.1
  | altRight _ _ ih =>
    rw [leaves, Bool.and_eq_true] at hp
    exact ih hp.2
  | starNil | starCons => exact absurd hp Bool.false_ne_true

/-- No reading of the pattern marks a place. -/
def isMarkless : Pattern → Bool
  | mark _ => false
  | empty | lineStart | wordEdge | one _ | run _ _ => true
  | seq p q | alt p q => p.isMarkless && q.isMarkless
  | star _ => false

theorem leaves_of_isMarkless (hp : p.isMarkless = true) (slot : Nat) : p.leaves slot = true := by
  induction p with
  | empty | lineStart | wordEdge | one | run => rfl
  | mark | star => exact absurd hp Bool.false_ne_true
  | seq p q ihp ihq | alt p q ihp ihq =>
    rw [isMarkless, Bool.and_eq_true] at hp
    rw [leaves, ihp hp.1, ihq hp.2]
    rfl

theorem marks_of_isMarkless (hp : p.isMarkless = true) (hr : r ∈ p.readings k) : r.marks = [] :=
  List.eq_nil_iff_forall_not_mem.2 fun e =>
    (mem_readings_iff.1 hr).not_mem_marks (leaves_of_isMarkless hp e.1) e.2

/-- A lead for characters of one class ends at the first character of another one, if the rest of the pattern starts with
none of the class. Then the order in which the lead is read does not matter. -/
theorem first_of_lead {S : Char → Bool} (hp : p.Within S) (hmarks : p.isMarkless = true) (hq : q.consumes = true)
    (hstarts : ∀ c, S c = true → q.starts c = false) {w z : Text} {c : Char} (hw : w.all S = true) (hc : S c = false)
    (hk : k.after = w ++ c :: z) (hlead : Reads p k.before w (c :: z)) (hrest : First q (k.behind w (c :: z)) s) :
    First (seq p q) k s := by
  -- a reading of the lead that ends earlier leaves a character that the rest cannot start with
  have hnone : ∀ r ∈ p.readings k, r = .nothing (k.behind w (c :: z)) ∨ q.readings r.stop = [] := by
    intro r hr
    obtain ⟨u, hu, hstop, hreads⟩ := readsTo_of_mem_readings p k r hr
    obtain ⟨w', rfl, hafter⟩ := eq_append_of_append_eq (hreads.all hp) hc (hu.symm.trans hk)
    cases w' with
    | nil =>
      left
      rw [List.nil_append] at hafter
      rw [hafter] at hstop
      obtain ⟨stop, marks⟩ := r
      obtain rfl : marks = [] := marks_of_isMarkless hmarks hr
      obtain rfl : stop = _ := hstop
      rw [List.append_nil]
      rfl
    | cons d w' =>
      right
      have hd : S d = true := by
        rw [List.all_append, List.all_cons, Bool.and_eq_true, Bool.and_eq_true] at hw
        exact hw.2.1
      exact readings_eq_nil_of_starts hafter hq (hstarts d hd)
  obtain ⟨r, hr, hstop⟩ := exists_mem_readings hlead k rfl hk
  have hfirst : (q.readings (k.behind w (c :: z))).head? = some s := hrest
  unfold First
  rw [readings_seq, List.head?_flatMap]
  have himage : ∀ r ∈ p.readings k, ∀ t, ((q.readings r.stop).map r.andThen).head? = some t → t = s := by
    intro r hr t ht
    rcases hnone r hr with rfl | hnil
    · rw [List.head?_map] at ht
      obtain ⟨t', ht', rfl⟩ := Option.map_eq_some_iff.1 ht
      obtain rfl := Option.some.inj (ht'.symm.trans hfirst)
      rfl
    · rw [hnil] at ht
      exact absurd ht nofun
  cases hfound : (p.readings k).findSome? fun r => ((q.readings r.stop).map r.andThen).head? with
  | some t =>
    obtain ⟨r, hr, ht⟩ := List.exists_of_findSome?_eq_some hfound
    rw [himage r hr t ht]
  | none =>
    obtain ⟨r, hr, hstop⟩ := exists_mem_readings hlead k rfl hk
    have hhead := List.findSome?_eq_none_iff.1 hfound r hr
    rw [hstop, List.head?_map, hfirst] at hhead
    exact absurd hhead nofun

/-! ### The same text elsewhere -/

/-- The matches from a place on leave a text in front of it where it is. -/
theorem replaceFrom_findsFrom {f : Match → Text} {k d : Cursor} {x : Text} (hk : k.after = x ++ d.after)
    (hd : k.offset + Text.byteSize x = d.offset) : replaceFrom k f (p.findsFrom d) = x ++ p.replacedFrom f d := by
  rw [replacedFrom]
  cases hms : p.findsFrom d with
  | nil => exact hk
  | cons m ms =>
    have hm : m ∈ p.findsFrom d := by rw [hms]; exact List.mem_cons_self
    obtain ⟨v, u, y, hafter, hstart, -, -⟩ := exists_cut_of_mem_findsFrom hm
    have hspan {a : Cursor} {w : Text} (ha : a.after = w ++ (u ++ y))
        (hw : a.offset + Text.byteSize w = m.span.start.offset) : Span.text ⟨a, m.span.start⟩ = w := by
      unfold Span.text
      dsimp only
      rw [ha, show m.span.start.offset - a.offset = Text.byteSize w by omega, Text.slice_zero_append]
    have hoffset : d.offset + Text.byteSize v = m.span.start.offset := by rw [hstart, Cursor.offset_behind]
    have hfront : Span.text ⟨k, m.span.start⟩ = x ++ v := by
      refine hspan (by rw [hk, hafter, List.append_assoc]) ?_
      rw [Text.byteSize_append]
      omega
    rw [replaceFrom, replaceFrom, hfront, hspan hafter hoffset]
    simp only [List.append_assoc]

section Elsewhere

variable {f : Match → Text} (hf : ∀ m m', m.Alike m' → f m = f m') {look : Bool} {e e' : Nat} {z z' : Text} {k k' : Cursor}

include hf

theorem replaceFrom_twin {d d' : Cursor} (hd : d.after = z ∧ d.offset = e) (hd' : d'.after = z' ∧ d'.offset = e')
    (h : Twin look e e' z z' k k') {ms ms' : List Match} (hms : List.Forall₂ (TwinMatch look e e' z z') ms ms') :
    ∃ out, replaceFrom k f (ms ++ p.findsFrom d) = out ++ p.replacedFrom f d ∧
      replaceFrom k' f (ms' ++ p.findsFrom d') = out ++ p.replacedFrom f d' := by
  induction hms generalizing k k' with
  | nil =>
    obtain ⟨x, hk, hk', he, he'⟩ := h.text
    exact ⟨x, replaceFrom_findsFrom (hd.1 ▸ hk) (he.trans hd.2.symm),
      replaceFrom_findsFrom (hd'.1 ▸ hk') (he'.trans hd'.2.symm)⟩
  | @cons m m' ms ms' hm _ ih =>
    obtain ⟨out, hout, hout'⟩ := ih hm.stop
    refine ⟨Span.text ⟨k, m.span.start⟩ ++ f m ++ out, ?_, ?_⟩
    · rw [List.cons_append, replaceFrom, hout]
      simp only [List.append_assoc]
    · rw [List.cons_append, replaceFrom, hout', ← text_span_twin h hm.start, ← hf m m' hm.alike]
      simp only [List.append_assoc]

/-- Where images depend on texts only, a text is replaced in the same way in two surroundings, up to the place where these
begin. -/
theorem exists_replacedFrom_twin (hp : ∀ d d', Twin look e e' z z' d d' → d.after ≠ z →
      TwinOption look e e' z z' (p.readings d).head? (p.readings d').head?)
    {x : Text} (hk : k.after = x ++ z) (hk' : k'.after = x ++ z') (h : Twin look e e' z z' k k') :
    ∃ out, p.replacedFrom f k = out ++ p.replacedFrom f (k.behind x z) ∧
      p.replacedFrom f k' = out ++ p.replacedFrom f (k'.behind x z') := by
  obtain ⟨ms, ms', hms, hfinds, hfinds'⟩ := findsFrom_twin hp hk hk' h
  obtain ⟨w, hw, -, he, he'⟩ := h.text
  obtain rfl : x = w := List.append_cancel_right (hk.symm.trans hw)
  have hend : (k.behind x z).after = z ∧ (k.behind x z).offset = e := ⟨rfl, he⟩
  have hend' : (k'.behind x z').after = z' ∧ (k'.behind x z').offset = e' := ⟨rfl, he'⟩
  have hout := replaceFrom_twin hf (p := p) hend hend' h hms
  rwa [← hfinds, ← hfinds'] at hout

/-- Then a text is replaced in the same way wherever it stands. -/
theorem replacedFrom_of_twin (hp : p.consumes = true) (hlook : (look || p.isBlind) = true)
    (h : Twin look e e' [] [] k k') : p.replacedFrom f k = p.replacedFrom f k' := by
  have hend (d : Cursor) (hd : d.after = []) : p.replacedFrom f d = [] :=
    replacedFrom_nil hd (readings_eq_nil_of_head? hp (by rw [hd]; rfl))
  obtain ⟨x, hk, hk', -, -⟩ := h.text
  obtain ⟨out, hout, hout'⟩ := exists_replacedFrom_twin hf
    (fun _ _ hd _ => readings_twin (fun _ => rfl) hlook p.stops_nil p.stops_nil hd) hk hk' h
  rw [hout, hout', hend _ rfl, hend _ rfl]

theorem replacedFrom_elsewhere (hp : p.consumes = true) (hb : SameBefore k.before k'.before) (h : k.after = k'.after) :
    p.replacedFrom f k = p.replacedFrom f k' := by
  have htwin : Twin true (k.offset + Text.byteSize k.after) (k'.offset + Text.byteSize k.after) [] [] k k' :=
    ⟨fun _ => hb, k.after, (List.append_nil _).symm, h ▸ (List.append_nil _).symm, rfl, rfl⟩
  exact replacedFrom_of_twin hf hp rfl htwin

end Elsewhere

/-! ### Texts that are passed over -/

/-- A text where nothing is read stays. -/
theorem replacedFrom_of_silent {f : Match → Text} {t rest : Text} (hk : k.after = t ++ rest)
    (h : ∀ u v, t = u ++ v → v ≠ [] → p.readings (k.behind u (v ++ rest)) = []) :
    p.replacedFrom f k = t ++ p.replacedFrom f (k.behind t rest) := by
  induction t generalizing k with
  | nil =>
    rw [List.nil_append] at hk
    rw [← hk, Cursor.behind_nil, List.nil_append]
  | cons c t ih =>
    have hnone := h [] (c :: t) rfl (List.cons_ne_nil c t)
    rw [← hk, Cursor.behind_nil] at hnone
    rw [List.cons_append] at hk
    rw [replacedFrom_skip hk hnone, @ih (k.past c (t ++ rest)) rfl, Cursor.past_behind, List.cons_append]
    intro u v ht hv
    rw [Cursor.past_behind]
    exact h (c :: u) v (congrArg (c :: ·) ht) hv

/-- A text stays where nothing is read at the start of its lines. -/
theorem replacedFrom_of_unread {f : Match → Text} {t rest : Text} (hk : k.after = t ++ rest)
    (h : ∀ u v, t = u ++ v → v ≠ [] → (lastOf (some '\n') u).all (· == '\n') = true → ∀ d : Cursor,
      d.after = v ++ rest → (seq lineStart q).readings d = []) :
    (seq lineStart q).replacedFrom f k = t ++ (seq lineStart q).replacedFrom f (k.behind t rest) := by
  refine replacedFrom_of_silent hk fun u v ht hv => ?_
  by_cases hline : (k.behind u (v ++ rest)).atLineStart = true
  · refine h u v ht hv ?_ _ rfl
    cases u with
    | nil => rfl
    | cons c u => exact hline
  · rw [readings_seq, readings_lineStart, if_neg hline]
    rfl

/-- The pattern can be read nowhere in the text, whatever stands around it. -/
def IsUnread (p : Pattern) (t : Text) : Prop :=
  ∀ u v, t = u ++ v → v ≠ [] → ∀ (k : Cursor) (rest : Text), k.after = v ++ rest → p.readings k = []

namespace IsUnread

variable {f : Match → Text} {t t' : Text}

theorem append (h : p.IsUnread t) (h' : p.IsUnread t') : p.IsUnread (t ++ t') := by
  intro u v ht hv k rest hk
  rcases List.append_eq_append_iff.1 ht with ⟨z, rfl, rfl⟩ | ⟨z, rfl, rfl⟩
  · exact h' z v rfl hv k rest hk
  · cases z with
    | nil => exact h' [] t' rfl hv k rest hk
    | cons c z =>
      rw [List.append_assoc] at hk
      exact h u (c :: z) rfl (List.cons_ne_nil c z) k _ hk

theorem singleton {c : Char} (hp : p.consumes = true) (hc : p.starts c = false) : p.IsUnread [c] := by
  intro u v ht hv k rest hk
  cases u with
  | nil =>
    obtain rfl : [c] = v := ht
    exact readings_eq_nil_of_starts hk hp hc
  | cons d u => exact absurd (List.append_eq_nil_iff.1 (List.cons.inj ht).2.symm).2 hv

end IsUnread

/-! ### Texts in parts -/

/-- The text of whole lines becomes `out` and leaves what follows alone, wherever it starts a line. -/
structure Rewrites (p : Pattern) (f : Match → Text) (t out : Text) : Prop where
  replaced : ∀ k rest, k.atLineStart = true → k.after = t ++ rest →
    p.replacedFrom f k = out ++ p.replacedFrom f (k.behind t rest)
  lines : lastOf (some '\n') t = some '\n'

theorem atLineStart_behind {t rest : Text} (hk : k.atLineStart = true) (ht : lastOf (some '\n') t = some '\n') :
    (k.behind t rest).atLineStart = true := by
  cases t with
  | nil => exact hk
  | cons c t =>
    rw [lastOf_cons] at ht
    show (lastOf (some c) t).all (· == '\n') = true
    rw [ht]
    rfl

namespace Rewrites

variable {f : Match → Text} {t t' out out' : Text}

theorem nil : Rewrites p f [] [] := by
  refine ⟨fun k rest _ hk => ?_, rfl⟩
  rw [List.nil_append] at hk
  rw [← hk, Cursor.behind_nil, List.nil_append]

theorem append (h : Rewrites p f t out) (h' : Rewrites p f t' out') : Rewrites p f (t ++ t') (out ++ out') := by
  refine ⟨fun k rest hline hk => ?_, by rw [lastOf_append, h.lines, h'.lines]⟩
  rw [List.append_assoc] at hk
  rw [h.replaced k _ hline hk, h'.replaced _ rest (atLineStart_behind hline h.lines) rfl, Cursor.behind_behind,
    List.append_assoc]

theorem flatMap {α : Type} {text image : α → Text} {parts : List α} (h : ∀ a ∈ parts, Rewrites p f (text a) (image a)) :
    Rewrites p f (parts.flatMap text) (parts.flatMap image) := by
  induction parts with
  | nil => exact .nil
  | cons a parts ih =>
    rw [List.flatMap_cons, List.flatMap_cons]
    exact (h a List.mem_cons_self).append (ih fun b hb => h b (List.mem_cons_of_mem a hb))

/-- A text in parts is rewritten part by part. -/
theorem replaceAll_eq (h : Rewrites p f t out) (hp : p.consumes = true) : p.replaceAll f t = out := by
  have hend : p.replacedFrom f ((Cursor.start t).behind t []) = [] := by
    refine replacedFrom_nil rfl (readings_eq_nil_iff.2 fun u y hu hreads => hreads.ne_nil hp ?_)
    exact (List.append_eq_nil_iff.1 hu.symm).1
  rw [replaceAll_eq_replacedFrom, h.replaced _ [] rfl (List.append_nil t).symm, hend, List.append_nil]

/-- What follows is rewritten by itself. -/
theorem replaceAll_append (h : Rewrites p f t out) (hp : p.consumes = true) (hf : ∀ m m', m.Alike m' → f m = f m')
    (rest : Text) : p.replaceAll f (t ++ rest) = out ++ p.replaceAll f rest := by
  have hbefore : SameBefore (lastOf none t) none := by
    cases t with
    | nil => exact ⟨rfl, rfl⟩
    | cons c t =>
      have hlines := h.lines
      rw [lastOf_of_ne_nil (List.cons_ne_nil c t) _ none] at hlines
      rw [hlines]
      exact ⟨rfl, by decide⟩
  have helsewhere : p.replacedFrom f ((Cursor.start (t ++ rest)).behind t rest) = p.replacedFrom f (.start rest) :=
    replacedFrom_elsewhere hf hp hbefore rfl
  rw [replaceAll_eq_replacedFrom, replaceAll_eq_replacedFrom, h.replaced (.start (t ++ rest)) rest rfl rfl, helsewhere]

/-- Where nothing can be read at the start of a line, all lines stay. -/
theorem of_unread (hlines : lastOf (some '\n') t = some '\n')
    (h : ∀ u v, t = u ++ v → v ≠ [] → (lastOf (some '\n') u).all (· == '\n') = true → ∀ k : Cursor,
      ∀ rest, k.after = v ++ rest → (seq lineStart q).readings k = []) : Rewrites (seq lineStart q) f t t :=
  ⟨fun _ rest _ hk => replacedFrom_of_unread hk fun u v ht hv hu d => h u v ht hv hu d rest, hlines⟩

/-- Lines that are passed over stay. -/
theorem of_isUnread (h : p.IsUnread t) (hlines : lastOf (some '\n') t = some '\n') : Rewrites p f t t :=
  ⟨fun _ rest _ hk => replacedFrom_of_silent hk fun u v ht hv => h u v ht hv _ rest rfl, hlines⟩

/-- A match that fills its lines gives way to its image. -/
theorem of_first (hne : t ≠ []) (hlines : lastOf (some '\n') t = some '\n')
    (h : ∀ k rest, k.atLineStart = true → k.after = t ++ rest →
      ∃ r, First p k r ∧ r.stop = k.behind t rest ∧ f (.ofReading k r) = out) : Rewrites p f t out := by
  refine ⟨fun k rest hline hk => ?_, hlines⟩
  obtain ⟨r, hfirst, hstop, rfl⟩ := h k rest hline hk
  exact replacedFrom_match hk hne hfirst hstop

end Rewrites

/-! ### The end of a text -/

/-- The text that is left at the start of a line becomes `out`. -/
def RewritesEnd (p : Pattern) (f : Match → Text) (t out : Text) : Prop :=
  ∀ k : Cursor, k.atLineStart = true → k.after = t → p.replacedFrom f k = out

theorem Rewrites.append_end {f : Match → Text} {t t' out out' : Text} (h : Rewrites p f t out)
    (h' : RewritesEnd p f t' out') : RewritesEnd p f (t ++ t') (out ++ out') := fun k hline hk => by
  rw [h.replaced k t' hline hk, h' _ (atLineStart_behind hline h.lines) rfl]

namespace RewritesEnd

variable {f : Match → Text} {t rest out : Text}

theorem replaceAll_eq (h : RewritesEnd p f t out) : p.replaceAll f t = out := h (.start t) rfl rfl

/-- A text without matches of a pattern for lines has none anywhere else. -/
theorem replacedFrom_eq (h : (seq lineStart q).isMatch t = false) (hk : k.after = t) :
    (seq lineStart q).replacedFrom f k = t := by
  have hnone : ∀ u v, t = u ++ v → (seq lineStart q).readings (k.behind u v) = [] := by
    rintro u v rfl
    refine readings_eq_nil_iff.2 fun x y hv hreads => Bool.eq_false_iff.1 h (isMatch_iff.2 ⟨u, x, y, ?_, ?_⟩)
    · rw [List.append_assoc, ← hv, Cursor.after_behind]
    · refine hreads.congr ?_ rfl
      cases u with
      | nil =>
        obtain ⟨x, z, -, hstart, -⟩ := reads_seq_iff.1 hreads
        cases hstart with
        | lineStart _ hline => exact sameBefore_of_atLineStart hline
      | cons c u => exact ⟨rfl, rfl⟩
  have hwhole : k.after = t ++ [] := by rw [hk, List.append_nil]
  have hsilent := replacedFrom_of_silent (f := f) hwhole fun u v ht _ => (List.append_nil v).symm ▸ hnone u v ht
  rw [hsilent, replacedFrom_nil rfl (hnone t [] (List.append_nil t).symm), List.append_nil]

theorem of_isMatch (h : (seq lineStart q).isMatch t = false) :
    RewritesEnd (seq lineStart q) f t t := fun _ _ => replacedFrom_eq h

/-- A match gives way to its image, and there is none in the rest. -/
theorem of_first (hne : t ≠ []) (hrest : (seq lineStart q).isMatch rest = false)
    (h : ∀ k : Cursor, k.atLineStart = true → k.after = t ++ rest →
      ∃ r, First (seq lineStart q) k r ∧ r.stop = k.behind t rest ∧ f (.ofReading k r) = out) :
    RewritesEnd (seq lineStart q) f (t ++ rest) (out ++ rest) := by
  intro k hline hk
  obtain ⟨r, hfirst, hstop, rfl⟩ := h k hline hk
  rw [replacedFrom_match hk hne hfirst hstop, replacedFrom_eq hrest rfl]

/-- Nothing can be read at the start of a line, and there is no match in the rest. -/
theorem of_unread (hrest : (seq lineStart q).isMatch rest = false)
    (h : ∀ u v, t = u ++ v → v ≠ [] → (lastOf (some '\n') u).all (· == '\n') = true → ∀ k : Cursor,
      k.after = v ++ rest → (seq lineStart q).readings k = []) :
    RewritesEnd (seq lineStart q) f (t ++ rest) (t ++ rest) := by
  intro k _ hk
  rw [replacedFrom_of_unread hk h, replacedFrom_eq hrest rfl]

end RewritesEnd

end Pattern

end SnippetPreview
