import Schemata.Decimal.Reading
import Schemata.Query.Sql
import Schemata.Workspace
import Schemata.Proofs.Locality
import Schemata.Proofs.Migration.Turn
import Schemata.Proofs.Migration.Columns
import Schemata.Proofs.Migration.Tables
import Schemata.Proofs.Migration.Acceptance
import Schemata.Proofs.Database
import Schemata.Proofs.Catalog
import Schemata.Proofs.Provenance
import Schemata.Proofs.Indexes.Handover
import Schemata.Proofs.Indexes.Statements
import Schemata.Proofs.Indexes.InStep
import Schemata.Proofs.Schema.Persistence
import Schemata.Proofs.Schema.ReadBack
import Schemata.Proofs.Schema.Violations
import Schemata.Proofs.Schema.Structure
import Schemata.Proofs.Query.Scope
import Schemata.Proofs.Query.Lookup
import Schemata.Proofs.Query.Transparency
import Schemata.Proofs.Query.Numbering
import Schemata.Proofs.Query.Resolution
import Schemata.Proofs.Query.Layout
import Schemata.Proofs.Query.Indentation
import Schemata.Proofs.Migration.Reordering
import Schemata.Proofs.Migration.Repetition
import Schemata.Proofs.Migration.Additions
import Schemata.Proofs.Migration.Virtual
import Schemata.Proofs.Migration.Traversal
import Schemata.Proofs.Query.Results
import Schemata.Proofs.Migration.Gate
import Schemata.Proofs.Migration.Markers
import Schemata.Proofs.Migration.Deprecation
import Schemata.Proofs.Query.Joins
import Schemata.Proofs.Migration.Bystanders
import Schemata.Proofs.Indexes.Names
import Schemata.Proofs.Indexes.Listed
import Schemata.Proofs.Query.Keys
import Schemata.Proofs.Migration.Partition
import Schemata.Proofs.Query.Reserved
import Schemata.Proofs.Indexes.Parentheses
import Schemata.Proofs.Schema.Documents
import Schemata.Proofs.Migration.Account
import Schemata.Proofs.Query.Literals
