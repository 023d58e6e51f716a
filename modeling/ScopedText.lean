import ScopedText.Bundled
import ScopedText.Command
import ScopedText.Main
import ScopedText.Registry
import ScopedText.Scope.Table
import ScopedText.Tokenizer
import ScopedText.Proofs.Path
import ScopedText.Proofs.Kept
import ScopedText.Proofs.Progress
import ScopedText.Proofs.Cover
import ScopedText.Proofs.Marks
import ScopedText.Proofs.Partition
import ScopedText.Proofs.Extent
import ScopedText.Proofs.Innermost
import ScopedText.Proofs.OpenRegions
import ScopedText.Proofs.Control
import ScopedText.Proofs.Session
import ScopedText.Proofs.WellFormed
import ScopedText.Proofs.Lookups
import ScopedText.Proofs.Items
import ScopedText.Proofs.Modes
import ScopedText.Proofs.Templates
import ScopedText.Proofs.Refused
import ScopedText.Proofs.NestedGroups
import ScopedText.Proofs.OverlappingGroups
import ScopedText.Proofs.Twins
import ScopedText.Proofs.Restart
import ScopedText.Proofs.Bindings
import ScopedText.Proofs.Relocation
import ScopedText.Proofs.Layout
import ScopedText.Proofs.Renaming
import ScopedText.Proofs.Outline
import ScopedText.Proofs.FirstMatch
import ScopedText.Proofs.FilledItems
import ScopedText.Proofs.Inclusion
import ScopedText.Proofs.Notations
import ScopedText.Proofs.Respelled
import ScopedText.Proofs.Literal
import ScopedText.Proofs.LongBrackets
import ScopedText.Proofs.Numbering
import ScopedText.Proofs.GroupCounts
import ScopedText.Proofs.NameTables
import ScopedText.Proofs.Placeholders
import ScopedText.Proofs.VariableTables
import ScopedText.Proofs.Spacing
import ScopedText.Proofs.PackedScopes
import ScopedText.Proofs.InternedScopes
import ScopedText.Proofs.ScopeNames
import ScopedText.Proofs.ByteOrder
import ScopedText.Proofs.SettingsLookup
