import SnippetPreview.Proofs.Document.Nesting
import SnippetPreview.Proofs.Markup.Entities
import SnippetPreview.Proofs.Publish.Objects

/-!
# The links of the index page

* `hrefs`: the addresses that a page links, read from left to right;
* `IndexPage.hrefs_card`, `IndexPage.hrefs_head`: what the parts of the index page link, whatever texts stand in them;
* `Directory.baseUrl_eq_iff`: which base addresses are a slash longer than without their slashes;
* `Directory.links_indexPage`: the index page links its style and its previews, and it does so where they are published
  if and only if the base address ends with exactly one slash.
-/

namespace SnippetPreview

open Attempt

/-! ### Addresses -/

/-- What stands in front of an address. -/
def hrefStart : Text := ['h', 'r', 'e', 'f', '=', '"']

/-- The next address in quotes, and what follows it. -/
def nextHref? (t : Text) : Option (Text × Text) := do
  let (_, opened) ← cutAt? id hrefStart t
  cutAt? id "\"" opened

theorem length_lt_of_nextHref? {t : Text} {found : Text × Text} (h : nextHref? t = some found) :
    found.2.length < t.length := by
  obtain ⟨⟨_, opened⟩, hopen, hclose⟩ := Option.bind_eq_some_iff.1 h
  have hopened := length_lt_of_cutAt? hopen (by decide)
  have hrest := length_lt_of_cutAt? hclose (by decide)
  dsimp only at hopened hrest
  omega

/-- The addresses that a page links, as they stand there. -/
def hrefs (t : Text) : List Text :=
  match _h : nextHref? t with
  | none => []
  | some (address, rest) => address :: hrefs rest
termination_by t.length
decreasing_by exact length_lt_of_nextHref? _h

theorem hrefs_of_none {t : Text} (h : nextHref? t = none) : hrefs t = [] := by
  rw [hrefs]
  split
  · rfl
  · next h' => exact absurd (h.symm.trans h') nofun

theorem hrefs_of_some {t address rest : Text} (h : nextHref? t = some (address, rest)) :
    hrefs t = address :: hrefs rest := by
  rw [hrefs]
  split
  · next h' => exact absurd (h.symm.trans h') nofun
  · next h' =>
    obtain ⟨rfl, rfl⟩ := Prod.mk.inj (Option.some.inj (h.symm.trans h'))
    rfl

/-- Nothing is linked in the text. -/
def Linkless (t : Text) : Prop := ¬ hrefStart <:+: t

theorem linkless_iff {t : Text} : Linkless t ↔ Text.contains t hrefStart = false := by
  rw [Linkless, ← Bool.not_eq_true, Text.contains_iff]
  exact not_congr ⟨fun ⟨u, v, h⟩ => ⟨u, v, h.symm⟩, fun ⟨u, v, h⟩ => ⟨u, v, h.symm⟩⟩

instance (t : Text) : Decidable (Linkless t) := decidable_of_iff _ linkless_iff.symm

theorem linkless_of_not_mem {t : Text} (h : '"' ∉ t) : Linkless t := fun hinside => h (hinside.subset (by decide))

theorem linkless_append_cons {x y : Text} {c : Char} (hc : c ∉ hrefStart) :
    Linkless (x ++ c :: y) ↔ Linkless x ∧ Linkless y := by
  rw [Linkless, infix_append_cons hc, not_or]
  rfl

/-- A text without quotes between two tags links nothing. -/
theorem Linkless.between {x t y : Text} (hx : Linkless x) (ht : '"' ∉ t) (hy : Linkless y) :
    Linkless (x ++ '>' :: (t ++ '<' :: y)) :=
  (linkless_append_cons (by decide)).2 ⟨hx, (linkless_append_cons (by decide)).2 ⟨linkless_of_not_mem ht, hy⟩⟩

/-- What links nothing is passed over, up to a character that is no part of a link's start. -/
theorem hrefs_skip {x y : Text} {c : Char} (hx : Linkless x) (hc : c ∉ hrefStart) : hrefs (x ++ c :: y) = hrefs y := by
  have hskip : cutAt? id hrefStart (x ++ c :: y)
      = (cutAt? id hrefStart y).map fun cut => (x ++ c :: cut.1, cut.2) :=
    cutAt?_skip (by decide) hc (by rwa [List.map_id])
  have hnext : nextHref? (x ++ c :: y) = nextHref? y := by
    rw [nextHref?, nextHref?, hskip]
    cases cutAt? id hrefStart y <;> rfl
  cases hy : nextHref? y with
  | none => rw [hrefs_of_none (hnext.trans hy), hrefs_of_none hy]
  | some found => rw [hrefs_of_some (hnext.trans hy), hrefs_of_some hy]

theorem hrefs_link {x v : Text} (hx : Linkless x) (hv : '"' ∉ v) (y : Text) :
    hrefs (x ++ (hrefStart ++ (v ++ '"' :: y))) = v :: hrefs y := by
  have hopen : cutAt? id hrefStart (x ++ (hrefStart ++ (v ++ '"' :: y))) = some (x, v ++ '"' :: y) :=
    cutAt?_append rfl (by decide) (List.map_id _) (by rwa [List.map_id])
  have hclose : cutAt? id "\"" (v ++ '"' :: y) = some (v, y) := by
    refine cutAt?_append (u := ['"']) rfl List.not_mem_nil rfl ?_
    rw [List.map_id]
    exact fun hinside => hv (hinside.subset List.mem_cons_self)
  refine hrefs_of_some ?_
  rw [nextHref?, hopen]
  exact hclose

theorem hrefs_linkless {t : Text} (h : Linkless t) : hrefs t = [] := by
  refine hrefs_of_none ?_
  cases hcut : cutAt? id hrefStart t with
  | none => rw [nextHref?, hcut]; rfl
  | some cut =>
    obtain ⟨u, ht, hu⟩ := exists_cut_of_cutAt? hcut
    rw [List.map_id] at hu
    subst hu
    exact absurd ⟨cut.1, cut.2, by rw [List.append_assoc, ← ht]⟩ h

/-! ### The index page -/

namespace IndexPage

/-- An entry up to the address. -/
def cardFront : Text := "\n  <li class=\"preview-card\">\n    <a href=\""

/-- What the entry says of the kind. -/
def kindTag (k : Kind) : Text :=
  "span class=\"kind kind-" ++ escapeMarkup k.name ++ "\">" ++ escapeMarkup k.name ++ "</span>\n  </li>"

/-- An entry from its address on, without the line feed at its end. -/
def cardBack (p : PublishedPreview) : Text :=
  ">" ++ (escapeMarkup p.slug ++ ("</a>\n    <span class=\"preview-source\">" ++ (escapeMarkup p.source
    ++ ("</span>\n    <" ++ kindTag p.kind))))

theorem card_eq (p : PublishedPreview) (y : Text) :
    card p ++ y = cardFront ++ (escapeMarkup p.url ++ '"' :: (cardBack p ++ '\n' :: y)) := by
  have hassoc : ∀ front url b slug c source d d' kind e f : Text,
      front ++ url ++ ('"' :: b) ++ slug ++ c ++ source ++ (d ++ d') ++ kind ++ e ++ kind ++ (f ++ ['\n']) ++ y
        = front ++ (url ++ '"' :: (b ++ (slug ++ (c ++ (source ++ (d ++ (d' ++ kind ++ e ++ kind ++ f))))) ++ '\n' :: y)) := by
    simp only [List.append_assoc, List.cons_append, List.nil_append, implies_true]
  exact hassoc _ _ _ _ _ _ "</span>\n    <" _ _ _ "</span>\n  </li>"

theorem cardFront_eq : cardFront = "\n  <li class=\"preview-card\">\n    <a " ++ hrefStart := by decide +kernel

theorem linkless_kindTag (k : Kind) : Linkless (kindTag k) := by
  cases k <;> decide

theorem linkless_cardBack (p : PublishedPreview) : Linkless (cardBack p) := by
  have hkind : Linkless (("/span>\n    " : Text) ++ '<' :: kindTag p.kind) :=
    (linkless_append_cons (by decide)).2 ⟨by decide, linkless_kindTag p.kind⟩
  have hsource := Linkless.between (x := "/a>\n    <span class=\"preview-source\"") (by decide)
    (quote_not_mem_escapeMarkup p.source) hkind
  exact Linkless.between (x := []) (by decide) (quote_not_mem_escapeMarkup p.slug) hsource

/-- An entry links its document and nothing else, whatever its slug and its source are. -/
theorem hrefs_card (p : PublishedPreview) (y : Text) : hrefs (card p ++ y) = escapeMarkup p.url :: hrefs y := by
  rw [card_eq, cardFront_eq, List.append_assoc, hrefs_link (by decide) (quote_not_mem_escapeMarkup p.url),
    hrefs_skip (linkless_cardBack p) (by decide)]

theorem hrefs_cards (previews : List PublishedPreview) (y : Text) :
    hrefs (previews.flatMap card ++ y) = previews.map (fun p => escapeMarkup p.url) ++ hrefs y := by
  induction previews with
  | nil => rfl
  | cons p previews ih =>
    rw [List.flatMap_cons, List.append_assoc, hrefs_card, ih]
    rfl

/-- The page up to the link of its style. -/
def opening (title : Text) : Text :=
  "<!DOCTYPE html>\n<html lang=\"en\">\n<head>\n  <meta charset=\"utf-8\">\n"
    ++ "  <meta name=\"viewport\" content=\"width=device-width, initial-scale=1\">\n"
    ++ "  <title>" ++ escapeMarkup title ++ "</title>\n" ++ "  <link rel=\"stylesheet\" "

theorem linkless_opening (title : Text) : Linkless (opening title) := by
  have hassoc : ∀ a b c t d e : Text,
      a ++ b ++ (c ++ ['>']) ++ t ++ ('<' :: d) ++ e = (a ++ b ++ c) ++ '>' :: (t ++ '<' :: (d ++ e)) := by
    simp only [List.append_assoc, List.cons_append, List.nil_append, implies_true]
  have htitle : opening title = _ := hassoc _ _ "  <title" _ "/title>\n" _
  rw [htitle]
  exact Linkless.between (by decide +kernel) (quote_not_mem_escapeMarkup title) (by decide)

/-- The page links its style first, whatever its title is. -/
theorem hrefs_head (title baseUrl y : Text) :
    hrefs (head title baseUrl ++ y) = (escapeMarkup baseUrl ++ "assets/index.css") :: hrefs y := by
  have hassoc : ∀ front link base style close back : Text,
      front ++ (link ++ hrefStart) ++ base ++ (style ++ '"' :: close) ++ (back ++ [' ']) ++ y
        = (front ++ link) ++ (hrefStart ++ (base ++ style ++ '"' :: ((close ++ back) ++ ' ' :: y))) := by
    simp only [List.append_assoc, List.cons_append, List.nil_append, implies_true]
  have hhead : head title baseUrl ++ y = opening title ++ _ :=
    hassoc _ "  <link rel=\"stylesheet\" " _ "assets/index.css" ">\n" "</head>\n<body>\n  <div class=\"page\">\n   "
  have hstyle : '"' ∉ escapeMarkup baseUrl ++ "assets/index.css" := by
    rw [List.mem_append, not_or]
    exact ⟨quote_not_mem_escapeMarkup baseUrl, by decide⟩
  rw [hhead, hrefs_link (linkless_opening title) hstyle, hrefs_skip (by decide) (by decide)]

/-- How many previews there are. -/
def countNote (count : Nat) : Text := Text.ofNat count ++ " preview" ++ (if count = 1 then [] else ['s'])

theorem quote_not_mem_countNote (count : Nat) : '"' ∉ countNote count := by
  intro h
  rcases List.mem_append.1 h with h | h
  · rcases List.mem_append.1 h with h | h
    · exact absurd (Nat.isDigit_of_mem_toDigits (by decide) (by decide) h) (by decide)
    · exact absurd h (by decide)
  · split_ifs at h
    · exact absurd h List.not_mem_nil
    · exact absurd h (by decide)

/-- The heading links nothing. -/
theorem hrefs_heading (title : Text) (count : Nat) (y : Text) : hrefs (heading title count ++ y) = hrefs y := by
  have hassoc : ∀ a t b n p s d : Text,
      (a ++ ['>']) ++ t ++ ('<' :: b ++ ['>']) ++ n ++ p ++ s ++ ('<' :: d ++ ['\n']) ++ y
        = (a ++ '>' :: (t ++ '<' :: (b ++ '>' :: ((n ++ p ++ s) ++ '<' :: d)))) ++ '\n' :: y := by
    simp only [List.append_assoc, List.cons_append, List.nil_append, implies_true]
  have hheading : heading title count ++ y = (_ ++ '>' :: (escapeMarkup title ++ '<' :: (_ ++ '>' :: (countNote count
      ++ '<' :: _)))) ++ '\n' :: y :=
    hassoc "\n<header class=\"page-header\">\n  <h1" _ "/h1>\n  <p" _ _ _ "/p>\n</header>\n"
  have hcount := Linkless.between (x := "/h1>\n  <p") (y := "/p>\n</header>\n") (by decide) (quote_not_mem_countNote count)
    (by decide)
  rw [hheading]
  exact hrefs_skip (Linkless.between (by decide) (quote_not_mem_escapeMarkup title) hcount) (by decide)

/-- The list links the documents. -/
theorem hrefs_listing (previews : List PublishedPreview) :
    hrefs (listing previews ++ tail) = previews.map fun p => escapeMarkup p.url := by
  cases previews with
  | nil => exact hrefs_linkless (by decide)
  | cons p previews =>
    have hlisting : listing (p :: previews) ++ tail
        = "\n<ul class=\"preview-list\">" ++ '\n' :: ((p :: previews).flatMap card ++ ("\n</ul>\n" ++ tail)) := by
      have hassoc : ∀ a cards b : Text, (a ++ ['\n']) ++ cards ++ b ++ tail = a ++ '\n' :: (cards ++ (b ++ tail)) := by
        simp only [List.append_assoc, List.cons_append, List.nil_append, implies_true]
      exact hassoc "\n<ul class=\"preview-list\">" _ _
    rw [hlisting, hrefs_skip (by decide) (by decide), hrefs_cards, hrefs_linkless (by decide), List.append_nil]

end IndexPage

/-- All that the page links. -/
theorem hrefs_indexPage (title baseUrl : Text) (previews : List PublishedPreview) :
    hrefs (indexPage title baseUrl previews)
      = (escapeMarkup baseUrl ++ "assets/index.css") :: previews.map fun p => escapeMarkup p.url := by
  rw [indexPage, List.append_assoc, List.append_assoc, IndexPage.hrefs_head, IndexPage.hrefs_heading,
    IndexPage.hrefs_listing]

/-! ### Where the links lead -/

namespace Directory

theorem trimmedUrl_ne (d : Directory) : d.trimmedUrl.getLast? ≠ some '/' := by
  intro h
  rw [trimmedUrl, List.getLast?_reverse] at h
  have hhead := List.head?_dropWhile_not (· == '/') d.baseUrl.reverse
  rw [h] at hhead
  exact absurd hhead (by decide)

theorem trimmedUrl_of_eq {d : Directory} {t : Text} (hbase : d.baseUrl = t ++ "/") (ht : t.getLast? ≠ some '/') :
    d.trimmedUrl = t := by
  have hfront : t.reverse.dropWhile (· == '/') = t.reverse := by
    cases hreverse : t.reverse with
    | nil => rfl
    | cons c r =>
      have hc : c ≠ '/' := by
        rintro rfl
        exact ht (by rw [← List.head?_reverse, hreverse]; rfl)
      exact List.dropWhile_cons_of_neg (by simpa using hc)
  rw [trimmedUrl, hbase, List.reverse_append]
  exact (congrArg List.reverse hfront).trans t.reverse_reverse

/-- A base address with one slash behind it is one that ends with exactly one slash. -/
theorem baseUrl_eq_iff (d : Directory) :
    d.baseUrl = d.trimmedUrl ++ "/" ↔ ∃ t : Text, d.baseUrl = t ++ "/" ∧ t.getLast? ≠ some '/' := by
  constructor
  · intro h
    exact ⟨d.trimmedUrl, h, d.trimmedUrl_ne⟩
  · rintro ⟨t, hbase, ht⟩
    rw [trimmedUrl_of_eq hbase ht]
    exact hbase

/-- **Where the index page links its style and the previews.** For every base address, title and list of previews, the page
links, as a reader takes them, the base address with the path of the style behind it, and then the addresses of the previews,
in their order and nothing else. The style is linked where the storage serves it if and only if the base address ends with
exactly one slash: the page does not take the slashes away, and does not add one. The previews that a publication returns are
linked where they are stored, whatever the base address is. -/
theorem links_indexPage (d : Directory) (title : Text) (previews : List PublishedPreview) :
    (hrefs (indexPage title d.baseUrl previews)).map unescapeMarkup
        = (d.baseUrl ++ "assets/index.css") :: previews.map PublishedPreview.url ∧
      (d.baseUrl ++ "assets/index.css" = d.publicUrl "assets/index.css"
        ↔ ∃ t : Text, d.baseUrl = t ++ "/" ∧ t.getLast? ≠ some '/') ∧
      ∀ (schedule : List Snippet → List Snippet) (n s s' : Node) (c : PublishConfig),
        perform (publishScheduled d.storage schedule n c) s = (.ok previews, s') →
          previews.map PublishedPreview.url = previews.map fun p => d.publicUrl p.path := by
  have hread : ∀ t : Text, unescapeMarkup (escapeMarkup t) = t := by
    intro t
    simpa [unescapeMarkup, unescapeFrom] using unescapeMarkup_escapeMarkup t []
  refine ⟨?_, ?_, ?_⟩
  · have hstyle : unescapeMarkup (escapeMarkup d.baseUrl ++ "assets/index.css") = d.baseUrl ++ "assets/index.css" := by
      rw [unescapeMarkup_escapeMarkup, unescapeMarkup_eq_self (by decide)]
    rw [hrefs_indexPage, List.map_cons, hstyle, List.map_map]
    exact congrArg (_ :: ·) (List.map_congr_left fun p _ => hread p.url)
  · rw [publicUrl, List.append_cons, List.append_left_inj]
    exact d.baseUrl_eq_iff
  · intro schedule n s s' c h
    obtain ⟨snippets, -, rfl, -⟩ := publishScheduled_ok d.storage h
    simp only [List.map_map]
    rfl

/-- A base address without a slash at its end: the page links its style beside the directory that the previews are in. -/
theorem links_indexPage_withoutSlash :
    let site : Node := .directory [("in", .directory [("x.js", .file (.text "1"))])]
    let c : PublishConfig := ⟨"in", "out", "https://demo.example.com/p", "Previews", true⟩
    ∃ previews n', perform (publishScheduled c.directory.storage id site c) site = (.ok previews, n') ∧
      (hrefs (indexPage c.title c.baseUrl previews)).map unescapeMarkup
        = ["https://demo.example.com/passets/index.css".toList, "https://demo.example.com/p/previews/x/index.html"] ∧
      c.directory.publicUrl "assets/index.css" = "https://demo.example.com/p/assets/index.css" := by
  intro site c
  let snippets : List Snippet := [⟨"x.js", "x", "1"⟩]
  have hdiscover : discover site c.source c.output = .ok snippets := by
    have hplace : site.resolve c.source = .ok ["in"] := by decide +kernel
    rw [discover_eq hplace rfl]
    unfold soughtFiles
    rw [filesBelow_of_pairwise]
    · decide +kernel
    · decide +kernel
  have hput : (perform (c.directory.storage.putAll
      ((id snippets).map Snippet.object ++ listingObjects c.directory.storage c snippets)) site).1 = .ok () := by
    decide +kernel
  have hrun := perform_publishScheduled_of_ok c.directory.storage hdiscover hput
  obtain ⟨hlinks, -, hurls⟩ :=
    c.directory.links_indexPage c.title (snippets.map (Snippet.published c.directory.storage))
  refine ⟨_, _, hrun, ?_, by decide +kernel⟩
  rw [hurls id site site _ c hrun] at hlinks
  exact hlinks.trans (by decide +kernel)

end Directory

end SnippetPreview
