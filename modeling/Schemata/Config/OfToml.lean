import Schemata.Config
import Schemata.Diagnostic
import Schemata.Toml.Document

/-!
# Reading the configuration

The configuration is a TOML document with the sections `migration` and `query`, each with one
setting. What is missing keeps its default, what is not known is passed over, and what is there
has to have its type. A section may also stand as an array of its settings.

## Main definitions

* `ConfigError`: why there is no configuration
* `Config.ofToml`: the configuration of a text
* `Config.ofFile`: the configuration of the bytes of a file
-/

namespace Schemata

/-- Why there is no configuration. -/
inductive ConfigError
  /-- The file is missing or not a text. -/
  | unreadable
  /-- The text is no configuration. -/
  | malformed
  deriving DecidableEq

/-- The report of the failure. -/
def ConfigError.diagnostic : ConfigError → Diagnostic
  | unreadable => {
      message := "failed to read configuration file"
      code := "schemaweave::config::io" }
  | malformed => { message := "invalid configuration", code := "schemaweave::config::parse" }

namespace Toml

/-- The text of a string. -/
def Value.text? : Value → Option String
  | .string text => some text
  | _ => none

/-- The texts of an array of strings. -/
def Value.texts? : Value → Option (List String)
  | .array elements => elements.mapM Value.text?
  | _ => none

/-- The one setting of a section, if the section has it. A date has no settings. -/
def Value.setting? (key : String) : Value → Option (Option Value)
  | .table _ entries => some (Entries.find? entries key)
  | .array elements => some elements.head?
  | .tables elements => some (elements.head?.map (Value.table .header))
  | .datetime _ => some none
  | _ => none

/-- A setting of a document, read from its section, or the default. -/
def setting? {α : Type} (document : TableEntries) (sectionName key : String) (default : α)
    (read? : Value → Option α) : Option α := do
  match Entries.find? document sectionName with
  | none => return default
  | some found =>
    match ← found.setting? key with
    | none => return default
    | some value => read? value

end Toml

namespace Config

/-- The configuration of a document. -/
def ofDocument? (document : Toml.TableEntries) : Option Config := do
  let defaults : Config := {}
  let deprecationPrefixes ← Toml.setting? document "migration" "deprecation_prefixes"
    defaults.migration.deprecationPrefixes Toml.Value.texts?
  let aliasPrefix ← Toml.setting? document "query" "alias_prefix" defaults.query.aliasPrefix
    Toml.Value.text?
  return ⟨⟨deprecationPrefixes⟩, ⟨aliasPrefix⟩⟩

/-- The configuration of a text. -/
def ofToml (text : String) : Except ConfigError Config :=
  match (Toml.parse? text).bind ofDocument? with
  | none => .error .malformed
  | some config => .ok config

/-- The configuration of the bytes of a file, if there is one. -/
def ofFile (bytes : Option ByteArray) : Except ConfigError Config :=
  match bytes.bind String.fromUTF8? with
  | none => .error .unreadable
  | some text => ofToml text

end Config

end Schemata
