import SnippetPreview.Proofs.Script.Masking
import SnippetPreview.Proofs.Script.Pairs

/-!
# What strings and comments say

* `Mode.rest`: the mode behind a character that is no special one;
* `signs`: a text byte by byte, each byte as the character that it is, or as a letter when it is none by itself;
* `scan_signs`: a scan takes a text for its signs, so it may be followed byte by byte;
* `Alike`: two texts of one length that differ in characters of strings and comments only. `Alike.scanFrom_eq`: they are
  scanned alike;
* `DiffersInside`: two texts of one length whose bytes differ within strings and comments of the first one only;
* `scan_blind`: such texts are scanned alike, and their braces are closed alike.
-/

namespace SnippetPreview

/-- The UTF-8 bytes of a text. -/
def Text.bytes (t : Text) : List UInt8 := t.flatMap String.utf8EncodeChar

namespace Script

/-! ### Characters that are not special -/

namespace Mode

/-- The mode behind a character that is no special one. -/
def rest : Mode → Mode
  | escaped q => quoted q
  | blockOpening => blockComment
  | blockClosing => code
  | m => m

theorem rest_rest (m : Mode) : m.rest.rest = m.rest := by cases m <;> rfl

theorem isString_rest (m : Mode) : m.rest.isString = m.isString := by cases m <;> rfl

theorem isProper_rest (m : Mode) : m.rest.isProper = m.isProper := by cases m <;> rfl

theorem rest_ne_code {m : Mode} (h : m.isString = true) : m.rest ≠ code := by
  intro hm
  rw [← isString_rest, hm] at h
  exact absurd h nofun

theorem next_of_isSpecial_eq_false {m : Mode} (hm : m.isProper = true) {c : Char} (hc : isSpecial c = false)
    (ahead : Option Char) : m.next c ahead = m.rest := by
  simp only [isSpecial, decide_eq_false_iff_not, List.mem_cons, List.not_mem_nil, or_false, not_or] at hc
  obtain ⟨hsingle, hdouble, hback, hescape, hfeed, hstar, hslash⟩ := hc
  cases m with
  | quoted q =>
    have hq : c ≠ q := by
      rintro rfl
      have hmem : c ∈ ['\'', '"', '`'] := of_decide_eq_true hm
      simp only [List.mem_cons, List.not_mem_nil, or_false] at hmem
      rcases hmem with h | h | h
      · exact hsingle h
      · exact hdouble h
      · exact hback h
    rw [next, if_neg hescape, if_neg fun h => h.elim hq fun h => hfeed h.1]
    rfl
  | code =>
    rw [next, if_neg fun h => h.elim hsingle fun h => h.elim hdouble hback, if_neg fun h => hslash h.1,
      if_neg fun h => hslash h.1]
    rfl
  | lineComment =>
    rw [next, if_neg hfeed]
    rfl
  | blockComment =>
    rw [next, if_neg fun h => hstar h.1]
    rfl
  | escaped | blockOpening | blockClosing => rfl

/-- It does not matter which of these characters follows. -/
theorem next_some_of_isSpecial_eq_false (m : Mode) (c : Char) {d d' : Char} (hd : isSpecial d = false)
    (hd' : isSpecial d' = false) : m.next c (some d) = m.next c (some d') := by
  simp only [isSpecial, decide_eq_false_iff_not, List.mem_cons, List.not_mem_nil, or_false, not_or] at hd hd'
  cases m <;> simp [next, hd, hd']

/-- A comment is closed by a slash. -/
theorem ahead_of_next_eq_blockClosing {m : Mode} {c : Char} {ahead : Option Char}
    (h : m.next c ahead = blockClosing) : ahead = some '/' := by
  cases m with
  | blockComment =>
    simp only [next] at h
    split at h
    · next hc => exact hc.2
    · cases h
  | code =>
    simp only [next] at h
    split at h
    · cases h
    · split at h
      · cases h
      · split at h <;> cases h
  | quoted q =>
    simp only [next] at h
    split at h
    · cases h
    · split at h <;> cases h
  | lineComment =>
    simp only [next] at h
    split at h <;> cases h
  | escaped | blockOpening | blockClosing => cases h

end Mode

/-- Where no string literal is open, it does not matter where one has been opened. -/
theorem scanFrom_opened {m : Mode} (hm : m.isString = false) (opened opened' pos : Nat) (t : Text) :
    scanFrom m opened pos t = scanFrom m opened' pos t := by
  induction t generalizing m opened opened' pos with
  | nil => simp [scanFrom, hm]
  | cons c t ih =>
    by_cases hcode : m = .code
    · simp [scanFrom, hcode, Mode.isString]
    · have hrest := ih (Mode.isString_next_eq_false hm hcode c t.head?) opened opened' (pos + c.utf8Size)
      simp [scanFrom, hcode, hm, hrest]

/-- A character that is neither special nor a brace in code is passed over. -/
theorem scanFrom_cons_of_isSpecial_eq_false {m : Mode} (hm : m.isProper = true) {c : Char}
    (hc : Mode.isSpecial c = false) (hbrace : m ≠ .code ∨ c ≠ '\x7b' ∧ c ≠ '\x7d') (opened pos : Nat) (t : Text) :
    scanFrom m opened pos (c :: t)
      = scanFrom m.rest (if m = .code then pos + c.utf8Size else opened) (pos + c.utf8Size) t := by
  have hnone : ¬ (m = .code ∧ (c = '\x7b' ∨ c = '\x7d')) := by
    rintro ⟨hcode, hc⟩
    rcases hbrace with h | h
    · exact h hcode
    · rcases hc with rfl | rfl <;> simp at h
  have hstring : ¬ (m.isString = true ∧ m.rest = .code) := fun h => Mode.rest_ne_code h.1 h.2
  rw [scanFrom, Mode.next_of_isSpecial_eq_false hm hc]
  simp only [if_neg hnone, if_neg hstring]

/-! ### Signs -/

/-- The ASCII character that a byte is by itself; a letter stands for any other byte. -/
def sign (b : UInt8) : Char := if b < 128 then Char.ofUInt8 b else 'x'

/-- The text byte by byte. -/
def signs (t : Text) : Text := t.bytes.map sign

theorem signs_cons_of_ascii {c : Char} (hc : c.utf8Size = 1) (t : Text) : signs (c :: t) = c :: signs t := by
  have hval : c.val.toNat ≤ 127 := Char.utf8Size_eq_one_iff.1 hc
  have hlt : c.val.toUInt8 < 128 := by
    rw [UInt8.lt_iff_toNat_lt, UInt32.toNat_toUInt8]
    show _ < 128
    omega
  have hsign : sign c.val.toUInt8 = c := by
    rw [sign, if_pos hlt]
    apply Char.ext
    apply UInt32.toNat_inj.1
    show c.val.toUInt8.toUInt32.toNat = _
    rw [UInt8.toNat_toUInt32, UInt32.toNat_toUInt8]
    omega
  rw [signs, Text.bytes, List.flatMap_cons, String.utf8EncodeChar_eq_singleton hc, List.map_append, List.map_cons, hsign]
  rfl

/-- The bytes of a character beyond ASCII are none by themselves. -/
theorem le_of_mem_utf8EncodeChar {c : Char} (hc : c.utf8Size ≠ 1) : ∀ b ∈ String.utf8EncodeChar c, ¬ b < 128 := by
  have hval : ¬ c.val.toNat ≤ 127 := fun h => hc (Char.utf8Size_eq_one_iff.2 h)
  intro b hb hlt
  have hlt : b.toNat < 128 := hlt
  unfold String.utf8EncodeChar at hb
  rw [if_neg hval] at hb
  split at hb
  · simp only [List.mem_cons, List.not_mem_nil, or_false] at hb
    rcases hb with rfl | rfl <;> rw [UInt8.toNat_ofNat'] at hlt <;> omega
  · split at hb
    · simp only [List.mem_cons, List.not_mem_nil, or_false] at hb
      rcases hb with rfl | rfl | rfl <;> rw [UInt8.toNat_ofNat'] at hlt <;> omega
    · simp only [List.mem_cons, List.not_mem_nil, or_false] at hb
      rcases hb with rfl | rfl | rfl | rfl <;> rw [UInt8.toNat_ofNat'] at hlt <;> omega

theorem signs_cons_of_not_ascii {c : Char} (hc : c.utf8Size ≠ 1) (t : Text) :
    signs (c :: t) = List.replicate c.utf8Size 'x' ++ signs t := by
  have hmap : (String.utf8EncodeChar c).map sign = List.replicate c.utf8Size 'x' := by
    rw [List.eq_replicate_iff, List.length_map, String.length_utf8EncodeChar]
    refine ⟨rfl, ?_⟩
    intro d hd
    obtain ⟨b, hb, rfl⟩ := List.mem_map.1 hd
    rw [sign, if_neg (le_of_mem_utf8EncodeChar hc b hb)]
  rw [signs, Text.bytes, List.flatMap_cons, List.map_append, hmap]
  rfl

theorem isSpecial_eq_false_of_not_ascii {c : Char} (hc : c.utf8Size ≠ 1) : Mode.isSpecial c = false := by
  apply Bool.eq_false_iff.2
  intro hspecial
  simp only [Mode.isSpecial, decide_eq_true_eq, List.mem_cons, List.not_mem_nil, or_false] at hspecial
  rcases hspecial with rfl | rfl | rfl | rfl | rfl | rfl | rfl <;> exact hc rfl

/-- A character beyond ASCII is made of as many letters as it has bytes. -/
theorem exists_signs_cons {c : Char} (hc : c.utf8Size ≠ 1) (t : Text) :
    ∃ n, c.utf8Size = n + 1 ∧ signs (c :: t) = 'x' :: (List.replicate n 'x' ++ signs t) := by
  obtain ⟨n, hn⟩ := Nat.exists_eq_add_one_of_ne_zero (Nat.ne_of_gt c.utf8Size_pos)
  refine ⟨n, hn, ?_⟩
  rw [signs_cons_of_not_ascii hc, hn]
  rfl

theorem next_head?_signs (m : Mode) (c : Char) (t : Text) : m.next c (signs t).head? = m.next c t.head? := by
  cases t with
  | nil => rfl
  | cons d t =>
    by_cases hd : d.utf8Size = 1
    · rw [signs_cons_of_ascii hd]
      rfl
    · obtain ⟨n, -, hsigns⟩ := exists_signs_cons hd t
      rw [hsigns]
      exact m.next_some_of_isSpecial_eq_false c (by decide) (isSpecial_eq_false_of_not_ascii hd)

/-- Letters are passed over together. -/
theorem scanFrom_letters {m : Mode} (hm : m.isProper = true) (n opened pos : Nat) (t : Text) :
    scanFrom m opened pos ('x' :: (List.replicate n 'x' ++ t))
      = scanFrom m.rest (if m = .code then pos + (n + 1) else opened) (pos + (n + 1)) t := by
  induction n generalizing m opened pos with
  | zero => exact scanFrom_cons_of_isSpecial_eq_false hm (by decide) (.inr (by decide)) opened pos t
  | succ n ih =>
    have hsize : Char.utf8Size 'x' = 1 := rfl
    rw [List.replicate_succ, List.cons_append,
      scanFrom_cons_of_isSpecial_eq_false hm (by decide) (.inr (by decide)), ih (m.isProper_rest.trans hm),
      m.rest_rest, hsize, Nat.add_assoc, Nat.add_comm 1]
    cases hstring : m.isString with
    | false => exact scanFrom_opened (m.isString_rest.trans hstring) _ _ _ _
    | true =>
      have hcode : m ≠ .code := by
        rintro rfl
        exact absurd hstring nofun
      rw [if_neg (Mode.rest_ne_code hstring), if_neg hcode, if_neg hcode]

/-- A scan takes a text for its signs. -/
theorem scanFrom_signs {m : Mode} (hm : m.isProper = true) (opened pos : Nat) (t : Text) :
    scanFrom m opened pos (signs t) = scanFrom m opened pos t := by
  induction t generalizing m opened pos with
  | nil => rfl
  | cons c t ih =>
    by_cases hc : c.utf8Size = 1
    · rw [signs_cons_of_ascii hc, scanFrom, scanFrom, next_head?_signs, ih (Mode.isProper_next hm c t.head?)]
    · obtain ⟨n, hn, hsigns⟩ := exists_signs_cons hc t
      have hbrace : c ≠ '\x7b' ∧ c ≠ '\x7d' := by
        constructor <;> rintro rfl <;> exact hc rfl
      rw [hsigns, scanFrom_letters hm, ih (m.isProper_rest.trans hm),
        scanFrom_cons_of_isSpecial_eq_false hm (isSpecial_eq_false_of_not_ascii hc) (.inr hbrace), hn]

theorem scan_signs (t : Text) : scan (signs t) = scan t := scanFrom_signs rfl 0 0 t

/-! ### Texts that differ in what is not read -/

/-- The texts have characters of the same sizes, and they differ in strings and comments only, in characters that are not
special. -/
inductive Alike : Mode → Text → Text → Prop
  | nil (m : Mode) : Alike m [] []
  | same {m : Mode} {c : Char} {s s' : Text} (h : Alike (m.next c s.head?) s s') : Alike m (c :: s) (c :: s')
  | inside {m : Mode} {c c' : Char} {s s' : Text} (hm : m ≠ .code) (hc : Mode.isSpecial c = false)
      (hc' : Mode.isSpecial c' = false) (hsize : c.utf8Size = c'.utf8Size) (h : Alike (m.next c s.head?) s s') :
      Alike m (c :: s) (c' :: s')

namespace Alike

variable {m : Mode} {s s' : Text}

/-- What follows a character is no sign of a comment in one of the texts only. -/
theorem next_head? (h : Alike m s s') (m' : Mode) (c : Char) : m'.next c s.head? = m'.next c s'.head? := by
  cases h with
  | nil | same => rfl
  | inside hm hc hc' => exact m'.next_some_of_isSpecial_eq_false c hc hc'

theorem scanFrom_eq (h : Alike m s s') (hm : m.isProper = true) (opened pos : Nat) :
    scanFrom m opened pos s = scanFrom m opened pos s' := by
  induction h generalizing opened pos with
  | nil => rfl
  | @same m c s s' h ih =>
    rw [scanFrom, scanFrom, ← h.next_head?, ih (Mode.isProper_next hm c s.head?)]
  | @inside m c c' s s' hcode hc hc' hsize h ih =>
    have hrest := ih (Mode.isProper_next hm c s.head?)
    rw [Mode.next_of_isSpecial_eq_false hm hc] at hrest
    rw [scanFrom_cons_of_isSpecial_eq_false hm hc (.inl hcode), scanFrom_cons_of_isSpecial_eq_false hm hc' (.inl hcode),
      hsize, hrest]

end Alike

/-- The modes in which the bytes of a text are read: each byte in that of its character. -/
def readModes (m : Mode) : Text → List Mode
  | [] => []
  | c :: t => List.replicate c.utf8Size m ++ readModes (m.next c t.head?) t

/-- Two texts of one length whose bytes differ within strings and comments of the first one only, where neither byte is a
quote, a backslash, a line feed, a star or a slash. So neither is a part of what opens or closes a string or a comment. -/
structure DiffersInside (t t' : Text) : Prop where
  size : Text.byteSize t = Text.byteSize t'
  inside : ∀ (i : Nat) (b b' : UInt8), t.bytes[i]? = some b → t'.bytes[i]? = some b' → b ≠ b' →
    Mode.isSpecial (sign b) = false ∧ Mode.isSpecial (sign b') = false ∧
      ∃ m, (readModes .code t)[i]? = some m ∧ m ≠ Mode.code

/-- Letters are all read in one mode but for the first one. -/
theorem readModes_letters {m : Mode} (hm : m.isProper = true) (n : Nat) (t : Text) :
    readModes m ('x' :: (List.replicate n 'x' ++ t)) = m :: (List.replicate n m.rest ++ readModes m.rest t) := by
  induction n generalizing m with
  | zero =>
    show m :: readModes (m.next 'x' t.head?) t = _
    rw [Mode.next_of_isSpecial_eq_false hm (by decide)]
    rfl
  | succ n ih =>
    show m :: readModes (m.next 'x' (some 'x')) ('x' :: (List.replicate n 'x' ++ t)) = _
    rw [Mode.next_of_isSpecial_eq_false hm (by decide), ih (m.isProper_rest.trans hm), m.rest_rest]
    rfl

/-- A byte within a string or a comment is a sign within it. -/
theorem exists_readModes_signs {m : Mode} (hm : m.isProper = true) {t : Text}
    (hclosing : m = .blockClosing → t.head? = some '/') {i : Nat} {k : Mode} (hi : (readModes m t)[i]? = some k)
    (hk : k ≠ .code) : ∃ k', (readModes m (signs t))[i]? = some k' ∧ k' ≠ .code := by
  induction t generalizing m i with
  | nil => exact absurd hi (by simp [readModes])
  | cons c t ih =>
    have hrest := @ih (m.next c t.head?) (Mode.isProper_next hm c t.head?) fun h => Mode.ahead_of_next_eq_blockClosing h
    rw [readModes] at hi
    by_cases hc : c.utf8Size = 1
    · rw [signs_cons_of_ascii hc, readModes, next_head?_signs, hc]
      rw [hc] at hi
      cases i with
      | zero => exact ⟨k, hi, hk⟩
      | succ i => exact hrest hi
    · obtain ⟨n, hn, hsigns⟩ := exists_signs_cons hc t
      have hnext : m.next c t.head? = m.rest := Mode.next_of_isSpecial_eq_false hm (isSpecial_eq_false_of_not_ascii hc) _
      rw [hnext] at hrest hi
      rw [hsigns, readModes_letters hm, ← List.cons_append]
      by_cases hlt : i < n + 1
      · rw [List.getElem?_append_left (by simpa [hn] using hlt), List.getElem?_replicate, if_pos (hn ▸ hlt)] at hi
        obtain rfl := Option.some.inj hi
        have hmrest : m.rest ≠ .code := by
          cases m with
          | code => exact absurd rfl hk
          | blockClosing =>
            obtain rfl := Option.some.inj (hclosing rfl)
            exact absurd rfl hc
          | quoted | escaped | lineComment | blockOpening | blockComment => exact nofun
        rw [List.getElem?_append_left (by simpa using hlt)]
        cases i with
        | zero => exact ⟨m, rfl, hk⟩
        | succ i =>
          refine ⟨m.rest, ?_, hmrest⟩
          rw [List.getElem?_cons_succ, List.getElem?_replicate, if_pos (Nat.lt_of_succ_lt_succ hlt)]
      · rw [List.getElem?_append_right (by simpa [hn] using hlt)] at hi
        rw [List.getElem?_append_right (by simpa using hlt)]
        simp only [List.length_replicate, List.length_cons, hn] at hi ⊢
        exact hrest hi

/-- Texts of ASCII characters that differ in such places are alike. -/
theorem alike_of_getElem? {m : Mode} {s s' : Text} (hs : ∀ c ∈ s, c.utf8Size = 1) (hs' : ∀ c ∈ s', c.utf8Size = 1)
    (hlen : s.length = s'.length)
    (h : ∀ (i : Nat) (c c' : Char), s[i]? = some c → s'[i]? = some c' → c ≠ c' → Mode.isSpecial c = false ∧ Mode.isSpecial c' = false ∧
      ∃ k, (readModes m s)[i]? = some k ∧ k ≠ Mode.code) : Alike m s s' := by
  induction s generalizing m s' with
  | nil =>
    obtain rfl := List.eq_nil_of_length_eq_zero hlen.symm
    exact .nil m
  | cons c s ih =>
    obtain ⟨c', s', rfl⟩ := List.exists_cons_of_length_eq_add_one hlen.symm
    rw [List.forall_mem_cons] at hs hs'
    have hmodes : readModes m (c :: s) = m :: readModes (m.next c s.head?) s := by
      rw [readModes, hs.1]
      rfl
    rw [hmodes] at h
    have hrest : Alike (m.next c s.head?) s s' := by
      apply ih hs.2 hs'.2 (Nat.succ.inj hlen)
      intro i
      exact h (i + 1)
    by_cases hcc : c = c'
    · subst hcc
      exact .same hrest
    · obtain ⟨hc, hc', k, hk, hcode⟩ := h 0 c c' rfl rfl hcc
      obtain rfl := Option.some.inj hk
      exact .inside hcode hc hc' (hs.1.trans hs'.1.symm) hrest

theorem utf8Size_of_mem_signs {t : Text} {c : Char} (hc : c ∈ signs t) : c.utf8Size = 1 := by
  obtain ⟨b, -, rfl⟩ := List.mem_map.1 hc
  unfold sign
  split
  · next hb =>
    rw [Char.utf8Size_eq_one_iff]
    show b.toUInt32.toNat ≤ 127
    have hlt : b.toNat < 128 := hb
    rw [UInt8.toNat_toUInt32]
    omega
  · rfl

theorem length_signs (t : Text) : (signs t).length = Text.byteSize t := by
  rw [signs, List.length_map]
  induction t with
  | nil => rfl
  | cons c t ih =>
    rw [Text.bytes, List.flatMap_cons, List.length_append, String.length_utf8EncodeChar, Text.byteSize_cons, ← ih]
    rfl

namespace DiffersInside

variable {t t' : Text}

/-- Such texts are alike byte by byte. -/
theorem alike (h : DiffersInside t t') : Alike .code (signs t) (signs t') := by
  apply alike_of_getElem? (fun c => utf8Size_of_mem_signs) (fun c => utf8Size_of_mem_signs)
  · rw [length_signs, length_signs, h.size]
  · intro i c c' hc hc' hne
    rw [signs, List.getElem?_map, Option.map_eq_some_iff] at hc hc'
    obtain ⟨b, hb, rfl⟩ := hc
    obtain ⟨b', hb', rfl⟩ := hc'
    have hbytes : b ≠ b' := by
      rintro rfl
      exact hne rfl
    obtain ⟨hspecial, hspecial', k, hk, hcode⟩ := h.inside i b b' hb hb' hbytes
    exact ⟨hspecial, hspecial', exists_readModes_signs (m := .code) rfl nofun hk hcode⟩

end DiffersInside

/-- **A scan is blind to what strings and comments say**: two texts of one length that differ there only have the same
braces, the same string literals and the same mode at the end, and every brace in code is closed by the same brace. -/
theorem scan_blind {t t' : Text} (h : DiffersInside t t') :
    scan t = scan t' ∧ ∀ o, ⟨o, true⟩ ∈ (scan t).braces → matchingBrace? t o = matchingBrace? t' o := by
  have hscan : scan t = scan t' := by
    rw [← scan_signs t, ← scan_signs t']
    exact h.alike.scanFrom_eq rfl 0 0
  refine ⟨hscan, ?_⟩
  intro o ho
  obtain ⟨front, rest, hbraces⟩ := List.append_of_mem ho
  rw [matchingBrace?_eq_closing? hbraces, matchingBrace?_eq_closing? (hscan ▸ hbraces)]

/-- Braces in a comment, and a letter of two bytes in a string. -/
def bracesInComment : Text := "\x7b 'é' /* \x7b\x7d */ \x7d"

/-- The same with the braces and the letter in each other's place. -/
def bracesInString : Text := "\x7b '\x7b\x7d' /* é */ \x7d"

theorem scan_blind_bracesInComment :
    DiffersInside bracesInComment bracesInString ∧ scan bracesInComment = scan bracesInString ∧
      matchingBrace? bracesInComment 0 = matchingBrace? bracesInString 0 := by
  have hcheck : ∀ i < 17, bracesInComment.bytes[i]? = bracesInString.bytes[i]? ∨
      (bracesInComment.bytes[i]?.map fun b => Mode.isSpecial (sign b)) = some false ∧
        (bracesInString.bytes[i]?.map fun b => Mode.isSpecial (sign b)) = some false ∧
          (readModes .code bracesInComment)[i]? ≠ some .code ∧ i < (readModes .code bracesInComment).length := by
    decide +kernel
  have h : DiffersInside bracesInComment bracesInString := by
    refine ⟨by decide +kernel, ?_⟩
    intro i b b' hb hb' hne
    have hi : i < 17 := (List.getElem?_eq_some_iff.1 hb).1
    rcases hcheck i hi with heq | ⟨hspecial, hspecial', hmode, hlt⟩
    · exact absurd (Option.some.inj (hb.symm.trans (heq.trans hb'))) hne
    · rw [hb] at hspecial
      rw [hb'] at hspecial'
      rw [List.getElem?_eq_getElem hlt] at hmode
      refine ⟨Option.some.inj hspecial, Option.some.inj hspecial', _, List.getElem?_eq_getElem hlt, ?_⟩
      intro hcode
      exact hmode (congrArg some hcode)
  obtain ⟨hscan, hpairs⟩ := scan_blind h
  exact ⟨h, hscan, hpairs 0 (by decide +kernel)⟩

end Script

end SnippetPreview
