import SnippetPreview.Proofs.Markup.Forms
import SnippetPreview.Proofs.Publish.Links
import SnippetPreview.Proofs.Text.Classes

/-!
# The contents of the index page

* `IndexPage.Entry`, `IndexPage.Contents`: what the index page says of each preview, and of the publication;
* `IndexPage.pageForm`, `IndexPage.cardForm`: the forms that the page is filled from;
* `IndexPage.Contents.page`, `indexPage_eq_page`: the page is made of its contents alone;
* `IndexPage.Contents.read?`, `IndexPage.Contents.read?_page`: a reader takes them back;
* `contents_indexPage`: the signs of the page depend on the number of previews alone, and the page tells its contents.
-/

namespace SnippetPreview

namespace IndexPage

/-- What the index page says of a preview. -/
structure Entry where
  url : Text
  slug : Text
  source : Text
  kind : Kind
deriving DecidableEq, Repr

/-- What the index page says. -/
structure Contents where
  title : Text
  baseUrl : Text
  entries : List Entry
deriving DecidableEq, Repr

/-! ### The forms -/

/-- The page up to the list of previews. -/
def pageForm : PageForm :=
  ⟨"<!DOCTYPE html>\n<html lang=\"en\">\n<head>\n  <meta charset=\"utf-8\">\n"
      ++ ("  <meta name=\"viewport\" content=\"width=device-width, initial-scale=1\">\n" ++ "  <title>"),
    ["</title>\n" ++ "  <link rel=\"stylesheet\" href=\"",
      "assets/index.css\">\n" ++ ("</head>\n<body>\n  <div class=\"page\">\n    "
        ++ "\n<header class=\"page-header\">\n  <h1>"),
      "</h1>\n  <p>", "</p>\n</header>\n\n"]⟩

/-- The entry of a preview. -/
def cardForm : PageForm :=
  ⟨"\n  <li class=\"preview-card\">\n    <a href=\"", ["\">", "</a>\n    <span class=\"preview-source\">",
    "</span>\n    <span class=\"kind kind-", "\">", "</span>\n  </li>\n"]⟩

def listStart : Text := "\n<ul class=\"preview-list\">\n"

def listEnd : Text := "\n</ul>\n"

def emptyNote : Text := "\n<p class=\"empty\">No snippets found.</p>\n"

/-- What is written into the form of an entry. -/
def Entry.values (e : Entry) : List Text := [e.url, e.slug, e.source, e.kind.name, e.kind.name]

/-- The list of previews and all that follows. -/
def list (entries : List Entry) : Text :=
  (if entries = [] then emptyNote
    else listStart ++ ((entries.map Entry.values).flatMap (cardForm.fill escapeMarkupChar) ++ listEnd)) ++ tail

/-- The page with these contents. -/
def Contents.page (c : Contents) : Text :=
  pageForm.fill escapeMarkupChar [c.title, c.baseUrl, c.title, countNote c.entries.length] ++ list c.entries

/-- The signs of a page that lists so many previews. -/
def signs (count : Nat) : Text :=
  pageForm.signs ++ (if count = 0 then markupSigns emptyNote
    else markupSigns listStart ++ ((List.replicate count cardForm.signs).flatten ++ markupSigns listEnd))
    ++ markupSigns tail

/-! ### Reading -/

/-- The entry that was written into the form. -/
def Entry.ofValues? : List Text → Option Entry
  | [url, slug, source, kind, _] => (Kind.ofName? kind).map (⟨url, slug, source, ·⟩)
  | _ => none

/-- The entries of the list of previews, if there is one. -/
def readEntries (t : Text) : List Entry :=
  match Text.stripLead? listStart t with
  | some cards => (cardForm.readEach cards).filterMap Entry.ofValues?
  | none => []

/-- What a reader who knows the forms takes from a page. -/
def Contents.read? (t : Text) : Option Contents :=
  match pageForm.read? t with
  | some ([title, baseUrl, _, _], rest) => some ⟨title, baseUrl, readEntries rest⟩
  | _ => none

theorem Entry.ofValues?_values (e : Entry) : ofValues? e.values = some e := by
  rw [values, ofValues?, Kind.ofName?_name]
  rfl

theorem readEntries_list (entries : List Entry) : readEntries (list entries) = entries := by
  by_cases hentries : entries = []
  · subst hentries
    decide +kernel
  · have hcards : cardForm.readEach ((entries.map Entry.values).flatMap (cardForm.fill escapeMarkupChar)
        ++ (listEnd ++ tail)) = entries.map Entry.values := by
      refine PageForm.readEach_fill isEscape_escapeMarkupChar (by decide +kernel) (by decide) ?_ (by decide +kernel)
      intro values hvalues
      obtain ⟨e, -, rfl⟩ := List.mem_map.1 hvalues
      rfl
    have hentry : ∀ e ∈ entries, (Entry.ofValues? ∘ Entry.values) e = some e := fun e _ => e.ofValues?_values
    rw [list, if_neg hentries, List.append_assoc, List.append_assoc, readEntries, Text.stripLead?_append]
    dsimp only
    rw [hcards, List.filterMap_map, List.filterMap_congr hentry, List.filterMap_some]

/-- A reader takes the contents back. -/
theorem Contents.read?_page (c : Contents) : read? c.page = some c := by
  have hread : pageForm.read? (pageForm.fill escapeMarkupChar [c.title, c.baseUrl, c.title, countNote c.entries.length]
      ++ list c.entries) = some ([c.title, c.baseUrl, c.title, countNote c.entries.length], list c.entries) :=
    PageForm.read?_fill isEscape_escapeMarkupChar (by decide +kernel) (by rfl) _
  rw [read?, page, hread]
  dsimp only
  rw [readEntries_list]

theorem Contents.page_injective : Function.Injective page := by
  intro c c' h
  have hread := c.read?_page
  rw [h, c'.read?_page] at hread
  exact (Option.some.inj hread).symm

/-! ### Signs -/

theorem markupSigns_list (entries : List Entry) : markupSigns (list entries)
    = (if entries.length = 0 then markupSigns emptyNote
        else markupSigns listStart ++ ((List.replicate entries.length cardForm.signs).flatten ++ markupSigns listEnd))
      ++ markupSigns tail := by
  have hcards : markupSigns ((entries.map Entry.values).flatMap (cardForm.fill escapeMarkupChar))
      = (List.replicate entries.length cardForm.signs).flatten := by
    induction entries with
    | nil => rfl
    | cons e entries ih =>
      rw [List.map_cons, List.flatMap_cons, markupSigns_append, ih, PageForm.markupSigns_fill isEscape_escapeMarkupChar,
        List.length_cons, List.replicate_succ, List.flatten_cons]
  rw [list, markupSigns_append]
  by_cases hentries : entries = []
  · rw [if_pos hentries, if_pos (List.length_eq_zero_iff.2 hentries)]
  · rw [if_neg hentries, if_neg (mt List.length_eq_zero_iff.1 hentries), markupSigns_append, markupSigns_append, hcards]

theorem Contents.markupSigns_page (c : Contents) : markupSigns c.page = signs c.entries.length := by
  rw [page, markupSigns_append, PageForm.markupSigns_fill isEscape_escapeMarkupChar, markupSigns_list, signs,
    List.append_assoc]

end IndexPage

/-! ### The page of a publication -/

open IndexPage

/-- What the index page says of the preview. -/
def PublishedPreview.entry (p : PublishedPreview) : Entry := ⟨p.url, p.slug, p.source, p.kind⟩

theorem card_eq_fill (p : PublishedPreview) : card p = cardForm.fill escapeMarkupChar p.entry.values := by
  have hassoc : ∀ a url b slug c source d kind e f : Text,
      a ++ url ++ b ++ slug ++ c ++ source ++ d ++ kind ++ e ++ kind ++ f
        = a ++ (url ++ (b ++ (slug ++ (c ++ (source ++ (d ++ (kind ++ (e ++ (kind ++ (f ++ [])))))))))) := by
    simp only [List.append_assoc, List.append_nil, implies_true]
  exact hassoc _ _ _ _ _ _ _ _ _ _

theorem listing_eq_list (previews : List PublishedPreview) :
    listing previews ++ tail = list (previews.map PublishedPreview.entry) := by
  cases previews with
  | nil => rfl
  | cons p previews =>
    have hcards : ∀ l : List PublishedPreview, l.flatMap card
        = ((l.map PublishedPreview.entry).map Entry.values).flatMap (cardForm.fill escapeMarkupChar) := by
      intro l
      rw [List.map_map, List.flatMap_map]
      exact List.flatMap_congr fun q _ => card_eq_fill q
    rw [listing, list, hcards, if_neg (by simp), if_neg (by simp), List.append_assoc listStart]
    rfl

/-- The note of the count is written as it is. -/
theorem escapeMarkup_countNote (count : Nat) : escapeMarkup (countNote count) = countNote count := by
  have hdigit : ∀ c : Char, c.isDigit = true → escapeMarkupChar c = [c] := by
    intro c hc
    have hne : ∀ d : Char, d.isDigit = false → c ≠ d := fun d hd => ne_of_class hc hd
    simp [escapeMarkupChar, hne]
  have hnote : (" preview" : Text).all (fun c => escapeMarkupChar c == [c]) = true := by decide
  have hplain : ∀ c ∈ countNote count, escapeMarkupChar c = [c] := by
    intro c hc
    rcases List.mem_append.1 hc with hc | hc
    · rcases List.mem_append.1 hc with hc | hc
      · exact hdigit c (Nat.isDigit_of_mem_toDigits (by decide) (by decide) hc)
      · exact eq_of_beq (List.all_eq_true.1 hnote c hc)
    · split_ifs at hc
      · exact absurd hc List.not_mem_nil
      · rw [List.mem_singleton.1 hc]
        rfl
  rw [escapeMarkup, List.flatMap_congr hplain, List.flatMap_singleton']

theorem head_eq_fill (title baseUrl : Text) (count : Nat) : head title baseUrl ++ heading title count
    = pageForm.fill escapeMarkupChar [title, baseUrl, title, countNote count] := by
  have hassoc : ∀ a b c t d e u f g h k n p s z : Text,
      (a ++ b ++ c ++ t ++ d ++ e ++ u ++ f ++ g) ++ (h ++ t ++ k ++ n ++ p ++ s ++ z)
        = (a ++ (b ++ c)) ++ (t ++ ((d ++ e) ++ (u ++ ((f ++ (g ++ h)) ++ (t ++ (k ++ ((n ++ p ++ s) ++ (z ++ [])))))))) := by
    simp only [List.append_assoc, List.append_nil, implies_true]
  have hfill : pageForm.fill escapeMarkupChar [title, baseUrl, title, countNote count]
      = pageForm.front ++ (escapeMarkup title ++ (_ ++ (escapeMarkup baseUrl ++ (_ ++ (escapeMarkup title
        ++ (_ ++ (escapeMarkup (countNote count) ++ _))))))) := rfl
  rw [hfill, escapeMarkup_countNote]
  exact hassoc _ _ _ _ _ _ _ _ _ _ _ _ _ _ _

/-- The page is made of what it says. -/
theorem indexPage_eq_page (title baseUrl : Text) (previews : List PublishedPreview) :
    indexPage title baseUrl previews = Contents.page ⟨title, baseUrl, previews.map PublishedPreview.entry⟩ := by
  rw [indexPage, List.append_assoc, listing_eq_list, head_eq_fill, Contents.page, List.length_map]

/-- **The contents of the index page.** For every title, base address and list of previews, the signs of the index page that
can start or end a tag or the value of an attribute, in their order, depend on the number of previews alone. A reader who
knows the form of the page takes back from it the title, the base address and, in their order, the address, the slug, the
source and the kind of each preview. So two index pages are the same exactly when they say the same. -/
theorem contents_indexPage (title baseUrl : Text) (previews : List PublishedPreview) :
    markupSigns (indexPage title baseUrl previews) = IndexPage.signs previews.length ∧
    Contents.read? (indexPage title baseUrl previews) = some ⟨title, baseUrl, previews.map PublishedPreview.entry⟩ ∧
    ∀ (title' baseUrl' : Text) (previews' : List PublishedPreview),
      indexPage title baseUrl previews = indexPage title' baseUrl' previews' ↔
        title = title' ∧ baseUrl = baseUrl' ∧
          previews.map PublishedPreview.entry = previews'.map PublishedPreview.entry := by
  refine ⟨?_, ?_, ?_⟩
  · rw [indexPage_eq_page, Contents.markupSigns_page, List.length_map]
  · rw [indexPage_eq_page, Contents.read?_page]
  · intro title' baseUrl' previews'
    rw [indexPage_eq_page, indexPage_eq_page, Contents.page_injective.eq_iff, Contents.mk.injEq]

end SnippetPreview
