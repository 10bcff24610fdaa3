import SnippetPreview.Proofs.Pattern.Groups
import SnippetPreview.Proofs.Script.GlobalReads

/-!
# Names that are read from a global

* `NameRead`, `nameRead?`: a name of the global and what a script calls it;
* `globalReads`: all names that a script reads from the global, in order;
* `IgnoresBlanks`: a reader of names for which the white space around them does not count, so that a declaration that is
  written out adds what its names give;
* `Specifier.read?`, `Specifier.type?`: what an imported name means, and that a declaration reads it so;
* `globalReads_destructuring_append`: what the declaration for imported names adds;
* `Match.standsApart`: a match that no declaration begins in front of, goes through or begins in;
* `globalReads_replaceAll`, `globalReads_replaceFirst`: where all matches that are replaced stand apart, a script reads what
  it has read and what the images read;
* `globalReads_globalizeImports`: so imports that stand apart add what they import.
-/

namespace SnippetPreview.Script

open Pattern

/-- A name of the global, and what it is called in the script. -/
structure NameRead where
  imported : Text
  bound : Text
deriving DecidableEq, Repr

/-- What stands between two commas of a declaration: a name, maybe a new name for it, maybe a default. All other names
together go by a name behind dots. -/
def nameRead? (spec : Text) : Option NameRead :=
  let parts := Text.splitOn ':' (Text.trim (spec.takeWhile (· != '=')))
  let bound := (parts.getLastD []).trim
  let bound := ((Text.stripLead? "..." bound).getD bound).trim
  if bound.isEmpty then none else some ⟨(parts.headD []).trim, bound⟩

/-- The names in a list. -/
def listReads (list : Text) : List NameRead := (Text.splitOn ',' list).filterMap nameRead?

/-- All names that a script reads from the global. -/
def globalReads (g t : Text) : List NameRead := (readLists g t).flatMap listReads

/-! ### Scripts in parts -/

section Parts

variable {g : Text}

theorem globalReads_append_of_isSettled (hg : IsGlobal g) {x : Text} (hx : isSettled x = true) (rest : Text) :
    globalReads g (x ++ rest) = globalReads g x ++ globalReads g rest := by
  unfold globalReads
  rw [readLists_append_of_isSettled hg hx, List.flatMap_append]

theorem globalReads_append_of_ends (hg : IsGlobal g) {rest : Text} (hrest : Ends g rest)
    (hhead : rest.head?.any isWord = false) (x : Text) :
    globalReads g (x ++ rest) = globalReads g x ++ globalReads g rest := by
  unfold globalReads
  rw [readLists_append_of_ends hg hrest hhead, List.flatMap_append]

theorem globalReads_trim (hg : IsGlobal g) (t : Text) : globalReads g t.trim = globalReads g t := by
  unfold globalReads
  rw [readLists_trim hg]

theorem globalReads_blank_append {a : Text} (ha : a.all isBlank = true) (t : Text) :
    globalReads g (a ++ t) = globalReads g t := by
  unfold globalReads
  rw [readLists_blank_append ha]

end Parts

/-! ### Declarations that are written out -/

theorem nameRead?_blank_append {a : Text} (ha : a.all isBlank = true) (s : Text) : nameRead? (a ++ s) = nameRead? s := by
  have htake : (a ++ s).takeWhile (· != '=') = a ++ s.takeWhile (· != '=') := by
    refine List.takeWhile_append_of_pos fun c hc => bne_iff_ne.2 ?_
    rintro rfl
    exact absurd (List.all_eq_true.1 ha _ hc) (by decide)
  rw [nameRead?, nameRead?, htake, Text.trim_blank_append ha]

theorem nameRead?_append_blank {b : Text} (hb : b.all isBlank = true) (s : Text) : nameRead? (s ++ b) = nameRead? s := by
  have htrim : Text.trim ((s ++ b).takeWhile (· != '=')) = Text.trim (s.takeWhile (· != '=')) := by
    rw [List.takeWhile_append]
    split
    · next hlength =>
      have hall : s.takeWhile (· != '=') = s := (List.takeWhile_prefix _).eq_of_length hlength
      have hrest : (b.takeWhile (· != '=')).all isBlank = true :=
        List.all_eq_true.2 fun c hc => List.all_eq_true.1 hb c ((List.takeWhile_sublist _).subset hc)
      rw [Text.trim_append_blank hrest, hall]
    · rfl
  rw [nameRead?, nameRead?, htrim]

/-- Blanks at the ends of a text do not matter for what is made of it. -/
structure IgnoresBlanks {α : Type} (f : Text → Option α) : Prop where
  front : ∀ {a : Text}, a.all isBlank = true → ∀ s, f (a ++ s) = f s
  back : ∀ {b : Text}, b.all isBlank = true → ∀ s, f (s ++ b) = f s

theorem ignoresBlanks_nameRead? : IgnoresBlanks nameRead? := ⟨nameRead?_blank_append, nameRead?_append_blank⟩

section Written

variable {g : Text} {α : Type} {f : Text → Option α}

/-- What is made of the list of a declaration is made of its parts. -/
theorem IgnoresBlanks.filterMap_list (hf : IgnoresBlanks f) {b : Text} {bs : List Text} (hbs : ∀ c ∈ b :: bs, ',' ∉ c) :
    (Text.splitOn ',' (' ' :: (Text.join ", " (b :: bs) ++ [' ']))).filterMap f = (b :: bs).filterMap f := by
  have hsplit : Text.splitOn ',' (Text.join [',', ' '] (b :: bs)) = b :: bs.map ([' '] ++ ·) :=
    Text.splitOn_join (by decide) hbs
  have hpad : (fun t => f ([' '] ++ t)) = f := funext (hf.front (by decide))
  show (Text.splitOn ',' (" ".toList ++ (Text.join [',', ' '] (b :: bs) ++ " ".toList))).filterMap f = _
  rw [Text.filterMap_splitOn_padded (by decide) (by decide) (hf.front (by decide)) (hf.back (by decide)), hsplit]
  simp only [List.filterMap_cons, List.filterMap_map, Function.comp_def, hpad]

/-- What is made of the lists of a script that begins with a declaration. -/
theorem IgnoresBlanks.flatMap_readLists (hf : IgnoresBlanks f) (hg : IsGlobal g) {b : Text} {bs : List Text}
    (hbs : ∀ c ∈ b :: bs, ',' ∉ c ∧ '\x7d' ∉ c) (rest : Text) :
    (readLists g ("const \x7b " ++ (Text.join ", " (b :: bs) ++ (" \x7d = " ++ (g ++ ';' :: rest))))).flatMap
        (fun list => (Text.splitOn ',' list).filterMap f)
      = (b :: bs).filterMap f ++ (readLists g rest).flatMap fun list => (Text.splitOn ',' list).filterMap f := by
  have hbrace : '\x7d' ∉ Text.join ", " (b :: bs) := by
    intro hmem
    rcases Text.mem_of_mem_join hmem with hmem | ⟨b', hb', hmem⟩
    · exact absurd hmem (by decide)
    · exact (hbs b' hb').2 hmem
  rw [readLists_declaration hg hbrace, List.flatMap_cons, hf.filterMap_list fun b' hb' => (hbs b' hb').1]

theorem IgnoresBlanks.flatMap_readLists_declaration (hf : IgnoresBlanks f) (hg : IsGlobal g) {bs : List Text}
    (hbs : ∀ b ∈ bs, ',' ∉ b ∧ '\x7d' ∉ b) (rest : Text) :
    (readLists g (declaration g bs ++ rest)).flatMap (fun list => (Text.splitOn ',' list).filterMap f)
      = bs.filterMap f ++ (readLists g rest).flatMap fun list => (Text.splitOn ',' list).filterMap f := by
  cases bs with
  | nil => rfl
  | cons b bs =>
    have hparts : declaration g (b :: bs) ++ rest
        = "const \x7b " ++ (Text.join ", " (b :: bs) ++ (" \x7d = " ++ (g ++ ';' :: '\n' :: rest))) := by
      simp [declaration]
    rw [hparts, hf.flatMap_readLists hg hbs, readLists_cons_of_not_mem (by decide)]

end Written

variable {g : Text}

/-- What a declaration that is written out adds. -/
theorem globalReads_declaration_append (hg : IsGlobal g) {bs : List Text} (hbs : ∀ b ∈ bs, ',' ∉ b ∧ '\x7d' ∉ b)
    (rest : Text) : globalReads g (declaration g bs ++ rest) = bs.filterMap nameRead? ++ globalReads g rest :=
  ignoresBlanks_nameRead?.flatMap_readLists_declaration hg hbs rest

/-! ### Imported names -/

/-- What the code calls an imported name. -/
def Binding.called (b : Binding) : Name := (b.renaming?.map Renaming.name).getD b.imported

/-- The name that a specifier means. -/
def Specifier.read? : Specifier → Option NameRead
  | value b => some ⟨b.imported.1, b.called.1⟩
  | absent | type _ _ => none

/-- The name of a specifier that is only a type. -/
def Specifier.type? : Specifier → Option Text
  | type _ b => some b.called.1
  | absent | value _ => none

theorem trim_name (n : Name) : n.1.trim = n.1 := by
  have htrim := trim_name_append n (g := []) rfl
  rwa [List.append_nil] at htrim

theorem trim_renamed (n m : Name) : (n.1 ++ ": ".toList ++ m.1).trim = n.1 ++ ": ".toList ++ m.1 := by
  have hhead : (n.1 ++ ": ".toList ++ m.1).head?.any isBlank = false := by
    rw [List.append_assoc]
    exact isBlank_head?_name n _
  have htrim := Text.trim_padded (a := []) (b := []) rfl rfl hhead (isBlank_getLast?_name m _)
  rwa [List.nil_append, List.append_nil] at htrim

theorem splitOn_name {c : Char} (hc : isIdentRest c = false) (n : Name) : Text.splitOn c n.1 = [n.1] := by
  refine Text.splitWhere_of_forall fun d hd => beq_eq_false_iff_ne.2 ?_
  rintro rfl
  exact not_mem_of_class hc n.2.2 hd

theorem splitOn_renamed (n m : Name) : Text.splitOn ':' (n.1 ++ ": ".toList ++ m.1) = [n.1, ' ' :: m.1] := by
  have hcolon (n : Name) : ':' ∉ n.1 := not_mem_of_class (by decide) n.2.2
  have hsplit : Text.splitOn ':' (Text.join [':', ' '] [n.1, m.1]) = n.1 :: [m.1].map ([' '] ++ ·) :=
    Text.splitOn_join (by decide) (by simp [hcolon])
  have hjoin : Text.join [':', ' '] [n.1, m.1] = n.1 ++ ": ".toList ++ m.1 := by simp [Text.join_cons]
  rwa [hjoin] at hsplit

theorem nameRead?_of_split {t : Text} {n m : Name} (hequals : '=' ∉ t)
    (hhead : ((Text.splitOn ':' t.trim).headD []).trim = n.1)
    (hlast : ((Text.splitOn ':' t.trim).getLastD []).trim = m.1) : nameRead? t = some ⟨n.1, m.1⟩ := by
  have htake : t.takeWhile (· != '=') = t :=
    List.takeWhile_eq_self_iff.2 fun c hc => bne_iff_ne.2 fun heq => hequals (heq ▸ hc)
  have hdots : Text.stripLead? "..." m.1 = none := by
    refine if_neg fun hprefix => ?_
    obtain ⟨z, hz⟩ := List.isPrefixOf_iff_prefix.1 hprefix
    exact not_mem_of_class (d := '.') (by decide) m.2.2 (hz ▸ by simp)
  rw [nameRead?, htake, hlast, hhead, hdots, Option.getD_none, trim_name, List.isEmpty_eq_false_iff.2 m.2.1,
    if_neg Bool.false_ne_true]

theorem nameRead?_name (n : Name) : nameRead? n.1 = some ⟨n.1, n.1⟩ := by
  have hequals : '=' ∉ n.1 := not_mem_of_class (by decide) n.2.2
  refine nameRead?_of_split hequals ?_ ?_ <;> rw [trim_name, splitOn_name (by decide)] <;> exact trim_name n

theorem nameRead?_renamed (n m : Name) : nameRead? (n.1 ++ ": ".toList ++ m.1) = some ⟨n.1, m.1⟩ := by
  have hequals (n : Name) : '=' ∉ n.1 := not_mem_of_class (by decide) n.2.2
  refine nameRead?_of_split (by simp [hequals]) ?_ ?_ <;> rw [trim_renamed, splitOn_renamed]
  · exact trim_name n
  · exact trim_append_name m (g := [' ']) (by decide)

/-- What a specifier becomes is read as what it means. -/
theorem Specifier.nameRead?_of_binding? {provided : List Text} {s : Specifier} {t : Text}
    (h : s.binding? provided = some t) : nameRead? t = s.read? := by
  obtain ⟨n, ⟨rfl, rfl⟩ | ⟨r, rfl, rfl⟩⟩ := s.exists_of_binding? h
  · exact nameRead?_name n
  · exact nameRead?_renamed n r.name

/-- A name that becomes nothing is provided and keeps its name. -/
theorem Specifier.eq_of_binding?_eq_none {provided : List Text} {s : Specifier} {r : NameRead}
    (h : s.binding? provided = none) (hr : s.read? = some r) : r = ⟨r.bound, r.bound⟩ ∧ r.bound ∈ provided := by
  cases s with
  | absent | type => exact absurd hr nofun
  | value b =>
    obtain rfl := Option.some.inj hr
    obtain ⟨n, _ | r⟩ := b
    · change (if provided.contains n.1 then none else some n.1) = none at h
      split at h
      · next hprovided => exact ⟨rfl, List.elem_iff.1 hprovided⟩
      · exact absurd h nofun
    · exact absurd h nofun

/-- The names that the imported names in a list become. -/
def importReads (provided : List Text) (specs : Text) : List NameRead :=
  ((Text.splitOn ',' specs).filterMap (binding? provided)).filterMap nameRead?

theorem globalReads_destructuring_append (hg : IsGlobal g) (provided : List Text) {specs : Text} (hspecs : '\x7d' ∉ specs)
    (rest : Text) :
    globalReads g (destructuring g provided specs ++ rest) = importReads provided specs ++ globalReads g rest := by
  rw [destructuring_eq, globalReads_declaration_append hg, importReads]
  intro b hb
  obtain ⟨spec, hspec, hb⟩ := List.mem_filterMap.1 hb
  constructor
  · intro hmem
    rcases mem_of_binding? hb hmem with hmem | hmem
    · exact absurd (Text.isSep_of_mem_splitWhere hspec hmem) (by decide)
    · exact absurd hmem (by decide)
  · intro hmem
    rcases mem_of_binding? hb hmem with hmem | hmem
    · exact hspecs ((Text.isInfix_of_mem_splitWhere hspec).subset hmem)
    · exact absurd hmem (by decide)

/-! ### Matches that stand apart -/

/-- No declaration lies in the text, or begins in it and can go on behind it. -/
def isSilent (g u : Text) : Bool := isSettled u && (readLists g u).isEmpty

theorem globalReads_append_of_isSilent (hg : IsGlobal g) {u : Text} (hu : isSilent g u = true) (rest : Text) :
    globalReads g (u ++ rest) = globalReads g rest := by
  rw [isSilent, Bool.and_eq_true, List.isEmpty_iff] at hu
  rw [globalReads_append_of_isSettled hg hu.1]
  unfold globalReads
  rw [hu.2, List.flatMap_nil, List.nil_append]

/-- No declaration begins in front of the match and goes on in it, or begins in the match. -/
def standsApart (g t : Text) (m : Match) : Bool := isSettled (Span.text ⟨.start t, m.span.start⟩) && isSilent g m.text

variable {p : Pattern} {t : Text}

/-- Where all matches that are replaced stand apart, a script reads what it has read and what the images read. -/
theorem globalReads_replaceAll (hg : IsGlobal g) (hp : p.consumes = true) {f : Match → Text} (new : Match → List NameRead)
    (h : ∀ m ∈ p.finds t, (f m = m.text ∧ new m = []) ∨
      (standsApart g t m = true ∧ ∀ rest, globalReads g (f m ++ rest) = new m ++ globalReads g rest)) :
    (globalReads g (p.replaceAll f t)).Perm ((p.finds t).flatMap new ++ globalReads g t) := by
  -- the two sides agree whatever follows, as what is kept may be the beginning of a declaration
  have hrun := replaceAll_run hp (f := f) (t := t)
    (motive := fun ms x out => ∀ rest, (globalReads g (out ++ rest)).Perm (ms.flatMap new ++ globalReads g (x ++ rest)))
    (fun rest => .refl _)
    (fun ms x c y out _ ih rest => by simpa using ih (c :: rest))
    (fun ms m hm x u y out hcuts ih rest => by
      rcases h m hm with ⟨hkept, hnew⟩ | ⟨hapart, himage⟩
      · rw [hkept, hcuts.text, List.append_assoc, List.append_assoc, List.flatMap_append, List.flatMap_singleton, hnew,
          List.append_nil]
        exact ih (u ++ rest)
      · rw [standsApart, hcuts.front, hcuts.text, Bool.and_eq_true] at hapart
        have hreplaced := ih (f m ++ rest)
        rw [globalReads_append_of_isSettled hg hapart.1, himage] at hreplaced
        rw [List.append_assoc, List.append_assoc, List.flatMap_append, List.flatMap_singleton,
          globalReads_append_of_isSettled hg hapart.1, globalReads_append_of_isSilent hg hapart.2]
        refine hreplaced.trans ?_
        simp only [List.append_assoc]
        refine List.Perm.append_left _ ?_
        simp only [← List.append_assoc]
        exact List.Perm.append_right _ List.perm_append_comm)
  simpa using hrun []

/-- Where the first match stands apart, a silent text may take its place. -/
theorem globalReads_replaceFirst (hg : IsGlobal g) {new : Text} (hnew : isSilent g new = true)
    (h : ∀ m, p.find? t = some m → standsApart g t m = true) :
    globalReads g (p.replaceFirst new t) = globalReads g t := by
  cases hm : p.find? t with
  | none =>
    rw [replaceFirst, hm]
    rfl
  | some m =>
    obtain ⟨x, u, y, hcuts, hreplaced⟩ := exists_cut_replaceFirst hm new
    have hapart := h m hm
    rw [standsApart, hcuts.front, hcuts.text, Bool.and_eq_true] at hapart
    rw [hreplaced, globalReads_append_of_isSettled hg hapart.1, globalReads_append_of_isSilent hg hnew]
    conv_rhs => rw [hcuts.text_eq, globalReads_append_of_isSettled hg hapart.1,
      globalReads_append_of_isSilent hg hapart.2]

/-! ### Imports -/

variable {packages provided : List Text} {code : Text}

/-- The code with its named imports turned into reads, which other imports are looked for in. -/
def namedGlobalized (packages : List Text) (g : Text) (provided : List Text) (code : Text) : Text :=
  namedImport.replaceAll (fun m =>
    if isWithin packages (m.groupText 2) then destructuring g provided (m.groupText 1) else m.text) code

theorem globalizeImports_eq :
    globalizeImports packages g provided code
      = anyImport.replaceAll (fun m => if isWithin packages (m.groupText 1) then [] else m.text)
          (namedGlobalized packages g provided code) := rfl

/-- What the named imports of the packages read. -/
def importedReads (packages provided : List Text) (code : Text) : List NameRead :=
  (namedImport.finds code).flatMap fun m =>
    if isWithin packages (m.groupText 2) then importReads provided (m.groupText 1) else []

/-- All imports that are replaced stand apart. -/
def importsStandApart (packages : List Text) (g : Text) (provided : List Text) (code : Text) : Bool :=
  let named := namedGlobalized packages g provided code
  ((namedImport.finds code).all fun m => !isWithin packages (m.groupText 2) || standsApart g code m)
    && (anyImport.finds named).all fun m => !isWithin packages (m.groupText 1) || standsApart g named m

theorem brace_not_mem_specifiers {m : Match} (hm : m ∈ namedImport.finds code) : '\x7d' ∉ m.groupText 1 := by
  have hclass : (many (charNotOf "\x7d")).Within (charNotOf "\x7d") := fun _ hc => hc
  have hchain : m ∈ (chain ([lineStart, many isLineBlank, "import", many1 isBlank,
      Pattern.optional (chain [many1 isIdentRest, many isBlank, ",", many isBlank]), "\x7b"]
      ++ group 1 (many (charNotOf "\x7d")) :: ["\x7d", many isBlank, "from", many isBlank, moduleName 2, importEnd])).finds
        code := hm
  have hlist : (m.groupText 1).all (charNotOf "\x7d") = true := all_groupText _ _ _ hclass rfl rfl rfl hchain
  exact not_mem_of_class (by decide) hlist

/-- Imports that stand apart add what they import, and nothing else is changed. -/
theorem globalReads_globalizeImports (hg : IsGlobal g) (h : importsStandApart packages g provided code = true) :
    (globalReads g (globalizeImports packages g provided code)).Perm
      (importedReads packages provided code ++ globalReads g code) := by
  rw [importsStandApart, Bool.and_eq_true, List.all_eq_true, List.all_eq_true] at h
  obtain ⟨hnamed, hother⟩ := h
  have hfirst : (globalReads g (namedGlobalized packages g provided code)).Perm
      (importedReads packages provided code ++ globalReads g code) := by
    refine globalReads_replaceAll hg rfl _ fun m hm => ?_
    by_cases hwithin : isWithin packages (m.groupText 2) = true
    · have hapart := hnamed m hm
      rw [hwithin] at hapart
      refine .inr ⟨hapart, fun rest => ?_⟩
      rw [if_pos hwithin, if_pos hwithin]
      exact globalReads_destructuring_append hg provided (brace_not_mem_specifiers hm) rest
    · exact .inl ⟨if_neg hwithin, if_neg hwithin⟩
  have hsecond := globalReads_replaceAll (p := anyImport) (t := namedGlobalized packages g provided code) hg rfl
    (f := fun m => if isWithin packages (m.groupText 1) then [] else m.text) (fun _ => []) fun m hm => by
      by_cases hwithin : isWithin packages (m.groupText 1) = true
      · have hapart := hother m hm
        rw [hwithin] at hapart
        refine .inr ⟨hapart, fun rest => ?_⟩
        rw [if_pos hwithin]
        rfl
      · exact .inl ⟨if_neg hwithin, rfl⟩
  have hnothing (ms : List Match) : ms.flatMap (fun _ => ([] : List NameRead)) = [] := by simp
  rw [hnothing, List.nil_append] at hsecond
  rw [globalizeImports_eq]
  exact hsecond.trans hfirst

end SnippetPreview.Script
