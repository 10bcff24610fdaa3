import SnippetPreview.Files.Path
import SnippetPreview.Server.MediaType.Application
import SnippetPreview.Server.MediaType.Medium
import SnippetPreview.Server.MediaType.Vendor
import SnippetPreview.Text.Fold

/-!
# The media type of a file

* `MediaType.ofExtension?`: the type that files of an extension have. Letters count up to case;
* `MediaType.ofName`: the type of a file by the extension of its name.
-/

namespace SnippetPreview.MediaType

/-- The types by what they start with. -/
def families : List (String × List (String × String)) :=
  [("text/", textTypes), ("image/", imageTypes), ("application/", applicationTypes), ("application/x-", privateTypes),
    ("application/vnd.", vendorTypes), ("audio/", audioTypes), ("video/", videoTypes), ("font/", fontTypes),
    ("message/", messageTypes), ("model/", modelTypes), ("chemical/", chemicalTypes), ("drawing/", drawingTypes),
    ("x-conference/", conferenceTypes), ("x-shader/", shaderTypes), ("x-world/", worldTypes)]

/-- The type of a family that has the extension. -/
def inFamily? (extension : Text) (types : List (String × String)) : Option Text :=
  (types.find? fun (_, extensions) => (extensions.toList.splitOn ' ').contains extension).map (·.1.toList)

def ofExtension? (extension : Text) : Option Text :=
  let extension := extension.foldCase
  families.findSome? fun (start, types) => (inFamily? extension types).map (start.toList ++ ·)

/-- Bytes of no known kind. -/
def bytes : Text := "application/octet-stream"

def ofName (name : Text) : Text := ((Path.extension? name).bind ofExtension?).getD bytes

end SnippetPreview.MediaType
