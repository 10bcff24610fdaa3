import SnippetPreview.Text.Basic

/-!
# What a new project starts from

* `Samples.config`: a configuration file that states the usual settings;
* `Samples.all`: the names and texts of four snippets, one for each of the most common kinds.
-/

namespace SnippetPreview.Samples

def configLines : List String :=
  ["# Livepane Configuration",
    "",
    "[preview]",
    "# Snippet shown by 'livepane dev'",
    "entry = \"snippets/index.html\"",
    "",
    "# Server port",
    "port = 7777",
    "",
    "# Open the browser on start",
    "open = true",
    "",
    "# Quiet period before a change triggers a re-render",
    "debounce_ms = 300",
    "",
    "# Extra sandbox permissions for the preview frame",
    "allow_forms = false",
    "allow_popups = false",
    "",
    "[publish]",
    "# Directory scanned for snippets",
    "source = \"snippets\"",
    "",
    "# Output directory",
    "output = \"dist\"",
    "",
    "# Base URL (for deployment)",
    "base_url = \"/\"",
    "",
    "# Index page title",
    "title = \"Previews\"",
    "",
    "# Minify CSS",
    "minify = true"]

def config : Text := configLines.flatMap fun line => line.toList ++ ['\n']

/-- A script that fills a paragraph. -/
def clock : Text := "<h1>Hello from livepane</h1>
<p id=\"clock\"></p>
<script>
  document.getElementById('clock').textContent = new Date().toLocaleTimeString();
</script>
"

/-- A component with state. -/
def counter : Text := "function Counter() \x7b
  const [count, setCount] = React.useState(0);
  return (
    <button onClick=\x7b() => setCount(count + 1)\x7d>
      Clicked \x7bcount\x7d times
    </button>
  );
\x7d

const App = () => <Counter />;
"

/-- A component in a file of its own. -/
def todo : Text := "<template>
  <div>
    <input v-model=\"draft\" placeholder=\"New todo\" />
    <button v-on:click=\"add\">Add</button>
    <ul>
      <li v-for=\"item in items\" :key=\"item\">\x7b\x7b item \x7d\x7d</li>
    </ul>
  </div>
</template>

<script>
export default \x7b
  data() \x7b
    return \x7b draft: '', items: ['Write a snippet'] \x7d;
  \x7d,
  methods: \x7b
    add() \x7b
      if (this.draft) \x7b
        this.items.push(this.draft);
        this.draft = '';
      \x7d
    \x7d
  \x7d
\x7d;
</script>
"

/-- Markup with state in its attributes. -/
def dropdown : Text := "<div x-data=\"\x7b open: false \x7d\">
  <button x-on:click=\"open = !open\">Toggle menu</button>
  <ul x-show=\"open\">
    <li>Profile</li>
    <li>Settings</li>
  </ul>
</div>
"

/-- The names of the snippets with their texts, in the order in which they are written. -/
def all : List (Text × Text) :=
  [("index.html", clock), ("counter.jsx", counter), ("todo.vue", todo), ("dropdown.html", dropdown)]

end SnippetPreview.Samples
