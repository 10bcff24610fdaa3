import SnippetPreview.Text.Basic

/-!
# Slugs

* `slug`: the letters and digits of a path in small letters, each run of other characters as one hyphen;
* `freeSlug`: a slug that is not taken yet, numbered from 2 on when it is.
-/

namespace SnippetPreview

/-- The runs of ASCII letters and digits of a text. -/
def words (t : Text) : List Text := (t.splitWhere fun c => !c.isAlphanum).filter fun w => !w.isEmpty

/-- The words of a text in small letters, joined by hyphens. -/
def slug (t : Text) : Text :=
  match words t with
  | [] => "snippet"
  | ws => Text.join ['-'] (ws.map Text.lowerAscii)

def numbered (base : Text) (n : Nat) : Text := base ++ '-' :: Text.ofNat n

/-- The slug itself, or the first numbered one that is free. One of as many numbers as slugs are taken is free. -/
def freeSlug (taken : List Text) (base : Text) : Text :=
  let candidates := base :: (List.range taken.length).map fun i => numbered base (i + 2)
  (candidates.find? fun s => !taken.contains s).getD base

end SnippetPreview
