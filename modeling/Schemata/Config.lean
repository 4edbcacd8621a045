import Schemata.Text.Search

/-!
# Configuration

What a project can set: the starts of the names that may be dropped, and the start of the aliases
of queries.

## Main definitions

* `MigrationConfig.isDeprecated`: whether a name may be dropped
* `Config`: all settings, with their defaults
-/

namespace Schemata

/-- The settings of migrations. -/
structure MigrationConfig where
  /-- The starts, in any case, of the names of tables and columns that may be dropped. -/
  deprecationPrefixes : List String := ["depr"]
  deriving DecidableEq

/-- Whether a name announces that its bearer may be dropped. The case of ASCII letters does not
matter. -/
def MigrationConfig.isDeprecated (config : MigrationConfig) (name : String) : Bool :=
  config.deprecationPrefixes.any fun start =>
    Text.startsWith (Text.asciiLower name) (Text.asciiLower start)

/-- The settings of queries. -/
structure QueryConfig where
  /-- The start of every alias. -/
  aliasPrefix : String := "X"
  deriving DecidableEq

/-- All settings. -/
structure Config where
  /-- The settings of migrations. -/
  migration : MigrationConfig := {}
  /-- The settings of queries. -/
  query : QueryConfig := {}
  deriving DecidableEq

end Schemata
