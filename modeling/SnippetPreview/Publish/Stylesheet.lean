import SnippetPreview.Text.Basic

/-!
# The style of the index page

* `stylesheet`: the style as it is written, or without anything that a browser can do without.
-/

namespace SnippetPreview

def indexStyle : Text := ":root \x7b
  --background: #ffffff;
  --foreground: #111827;
  --muted: #6b7280;
  --border: #e5e7eb;
  --card: #f9fafb;
  --accent: #4f46e5;
\x7d

* \x7b
  box-sizing: border-box;
  margin: 0;
  padding: 0;
\x7d

body \x7b
  font-family: system-ui, -apple-system, \"Segoe UI\", Roboto, sans-serif;
  background: var(--background);
  color: var(--foreground);
  line-height: 1.6;
\x7d

.page \x7b
  max-width: 960px;
  margin: 0 auto;
  padding: 2rem 1.5rem;
\x7d

.page-header \x7b
  margin-bottom: 2rem;
\x7d

.page-header h1 \x7b
  font-size: 1.75rem;
\x7d

.page-header p \x7b
  color: var(--muted);
\x7d

.preview-list \x7b
  list-style: none;
  display: grid;
  grid-template-columns: repeat(auto-fill, minmax(260px, 1fr));
  gap: 1rem;
\x7d

.preview-card \x7b
  border: 1px solid var(--border);
  border-radius: 0.5rem;
  background: var(--card);
  padding: 1rem;
\x7d

.preview-card a \x7b
  color: var(--foreground);
  font-weight: 600;
  text-decoration: none;
\x7d

.preview-card a:hover \x7b
  color: var(--accent);
\x7d

.preview-source \x7b
  display: block;
  margin-top: 0.25rem;
  font-family: ui-monospace, SFMono-Regular, Menlo, monospace;
  font-size: 0.8125rem;
  color: var(--muted);
\x7d

.kind \x7b
  display: inline-block;
  margin-top: 0.5rem;
  padding: 0.125rem 0.5rem;
  border-radius: 999px;
  font-size: 0.75rem;
  background: #eef2ff;
  color: #3730a3;
\x7d

.empty \x7b
  color: var(--muted);
\x7d
"

/-- The same style in as few characters as possible. -/
def indexStyleMinified : Text :=
  ":root\x7b--background:#fff;--foreground:#111827;--muted:#6b7280;--border:#e5e7eb;--card:#f9fafb;"
    ++ "--accent:#4f46e5\x7d*\x7bbox-sizing:border-box;margin:0;padding:0\x7d"
    ++ "body\x7bfont-family:system-ui,-apple-system,Segoe UI,Roboto,sans-serif;background:var(--background);"
    ++ "color:var(--foreground);line-height:1.6\x7d.page\x7bmax-width:960px;margin:0 auto;padding:2rem 1.5rem\x7d"
    ++ ".page-header\x7bmargin-bottom:2rem\x7d.page-header h1\x7bfont-size:1.75rem\x7d"
    ++ ".page-header p\x7bcolor:var(--muted)\x7d.preview-list\x7blist-style:none;display:grid;"
    ++ "grid-template-columns:repeat(auto-fill,minmax(260px,1fr));gap:1rem\x7d"
    ++ ".preview-card\x7bborder:1px solid var(--border);border-radius:.5rem;background:var(--card);padding:1rem\x7d"
    ++ ".preview-card a\x7bcolor:var(--foreground);font-weight:600;text-decoration:none\x7d"
    ++ ".preview-card a:hover\x7bcolor:var(--accent)\x7d.preview-source\x7bdisplay:block;margin-top:.25rem;"
    ++ "font-family:ui-monospace,SFMono-Regular,Menlo,monospace;font-size:.8125rem;color:var(--muted)\x7d"
    ++ ".kind\x7bdisplay:inline-block;margin-top:.5rem;padding:.125rem .5rem;border-radius:999px;font-size:.75rem;"
    ++ "background:#eef2ff;color:#3730a3\x7d.empty\x7bcolor:var(--muted)\x7d"

/-- The style of the index page, in the short form when asked for. -/
def stylesheet (minify : Bool) : Text := if minify then indexStyleMinified else indexStyle

end SnippetPreview
