import SnippetPreview.Live.Session
import SnippetPreview.Publish.Run
import SnippetPreview.Toml.Parser

/-!
# The configuration file

* `Config`: the settings of the live preview and of publishing;
* `Config.ofToml?`: reads them from the tables `preview` and `publish`. A setting that is missing keeps its usual value, one
  of the wrong type is refused, and unknown ones are passed over. In place of a table, an array gives the settings in order;
* `Config.load`: the configuration in a file, or the usual one when there is no file.
-/

namespace SnippetPreview

/-! ## Settings in tables -/

namespace Toml

/-- The value holds settings. A date holds none of them, but is accepted. -/
def isRecord : Toml → Bool
  | table _ _ | array _ | tables _ | date => true
  | string _ | integer _ | float | bool _ => false

/-- The setting of a name, which is also the one at a position. -/
def setting (name : Text) (position : Nat) : Toml → Option Toml
  | table _ ms => ms.lookup name
  | array items | tables items => items[position]?
  | _ => none

def text? : Toml → Option Text
  | string t => some t
  | _ => none

def truth? : Toml → Option Bool
  | bool b => some b
  | _ => none

/-- A natural number up to `bound`. -/
def natural? (bound : Nat) : Toml → Option Nat
  | integer n => if 0 ≤ n ∧ n ≤ bound then some n.toNat else none
  | _ => none

/-- A setting read by `read`, or its usual value. -/
def settingOr {α : Type} (usual : α) (read : Toml → Option α) : Option Toml → Option α
  | none => some usual
  | some v => read v

end Toml

/-! ## The configuration -/

def PreviewConfig.standard : PreviewConfig := ⟨"snippets/index.html", 7777, "127.0.0.1", true, 300, ⟨false, false⟩⟩

def PreviewConfig.ofToml? (v : Toml) : Option PreviewConfig := do
  if !v.isRecord then none
  let usual := standard
  let entry ← Toml.settingOr usual.entry Toml.text? (v.setting "entry" 0)
  let port ← Toml.settingOr usual.port (Toml.natural? (UInt16.size - 1)) (v.setting "port" 1)
  let host ← Toml.settingOr usual.host Toml.text? (v.setting "host" 2)
  let opens ← Toml.settingOr usual.opens Toml.truth? (v.setting "open" 3)
  let quietPeriod ← Toml.settingOr usual.quietPeriod (Toml.natural? (UInt64.size - 1)) (v.setting "debounce_ms" 4)
  let forms ← Toml.settingOr usual.sandbox.allowForms Toml.truth? (v.setting "allow_forms" 5)
  let popups ← Toml.settingOr usual.sandbox.allowPopups Toml.truth? (v.setting "allow_popups" 6)
  return ⟨entry, port, host, opens, quietPeriod, ⟨forms, popups⟩⟩

def PublishConfig.ofToml? (v : Toml) : Option PublishConfig := do
  if !v.isRecord then none
  let usual := standard
  let source ← Toml.settingOr usual.source Toml.text? (v.setting "source" 0)
  let output ← Toml.settingOr usual.output Toml.text? (v.setting "output" 1)
  let baseUrl ← Toml.settingOr usual.baseUrl Toml.text? (v.setting "base_url" 2)
  let title ← Toml.settingOr usual.title Toml.text? (v.setting "title" 3)
  let minify ← Toml.settingOr usual.minify Toml.truth? (v.setting "minify" 4)
  return ⟨source, output, baseUrl, title, minify⟩

structure Config where
  preview : PreviewConfig
  publish : PublishConfig
deriving DecidableEq, Repr

/-- Why there is no configuration. -/
inductive ConfigError where
  | unreadable (path : Text) (cause : Refusal)
  | malformed (path : Text)
deriving DecidableEq, Repr

def ConfigError.message : ConfigError → Text
  | unreadable path _ => "Failed to read " ++ path
  | malformed path => "Failed to parse " ++ path

namespace Config

/-- The configuration without a file. -/
def standard : Config := ⟨PreviewConfig.standard, PublishConfig.standard⟩

def ofToml? (v : Toml) : Option Config := do
  let preview ← Toml.settingOr PreviewConfig.standard PreviewConfig.ofToml? (v.setting "preview" 0)
  let publish ← Toml.settingOr PublishConfig.standard PublishConfig.ofToml? (v.setting "publish" 1)
  return ⟨preview, publish⟩

/-- The configuration that a text writes. -/
def parse? (t : Text) : Option Config := (Toml.parse? t).bind ofToml?

/-- The configuration in the file at a path. -/
def load (n : Node) (path : Text) : Except ConfigError Config :=
  if !n.exists? path then .ok standard
  else
    match n.readText path with
    | .error e => .error (.unreadable path e)
    | .ok t =>
      match parse? t with
      | some c => .ok c
      | none => .error (.malformed path)

end Config

end SnippetPreview
