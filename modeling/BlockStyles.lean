import BlockStyles.Library.Run
import BlockStyles.Proofs.Library.Progress
import BlockStyles.Proofs.Library.Agreement
import BlockStyles.Proofs.Stylesheet.Places
import BlockStyles.Proofs.Stylesheet.Written
import BlockStyles.Proofs.Template.RoundTrip
import BlockStyles.Proofs.Template.Acceptance
import BlockStyles.Proofs.Template.Histories
import BlockStyles.Template.Options
import BlockStyles.Text.Escape
import BlockStyles.Proofs.Block.Styles
import BlockStyles.Proofs.Block.Compounds
import BlockStyles.Proofs.Block.Compatible
import BlockStyles.Proofs.Block.Rules
import BlockStyles.Proofs.Block.Applications
import BlockStyles.Proofs.Block.Account
import BlockStyles.Proofs.Block.Declares
import BlockStyles.Proofs.Library.Alone
import BlockStyles.Proofs.Block.Alike
import BlockStyles.Proofs.Block.WellFormed
import BlockStyles.Proofs.Library.Effects
import BlockStyles.Proofs.Library.Workshop
import BlockStyles.Proofs.Library.Consistent
import BlockStyles.Proofs.Library.Sheets
import BlockStyles.Proofs.Block.Faults
import BlockStyles.Proofs.Library.Errors
import BlockStyles.Proofs.Library.Circles
import BlockStyles.Proofs.Library.Limits
import BlockStyles.Proofs.Library.Depth
import BlockStyles.Proofs.Library.Rest
import BlockStyles.Proofs.Library.Failures
import BlockStyles.Proofs.Template.Aliases
import BlockStyles.Proofs.Template.Canonical
import BlockStyles.Proofs.Template.Closed
import BlockStyles.Proofs.Json.Written
import BlockStyles.Proofs.Template.DocumentText
import BlockStyles.Proofs.Selector.Outlook
import BlockStyles.Proofs.Stylesheet.Viable
import BlockStyles.Proofs.Block.Legible
import BlockStyles.Proofs.Library.Inheritance
import BlockStyles.Proofs.Stylesheet.Order
import BlockStyles.Proofs.Library.Locations
import BlockStyles.Proofs.Block.Sequence
import BlockStyles.Proofs.Library.Groups
import BlockStyles.Proofs.Block.Selectable
import BlockStyles.Proofs.Library.Names
import BlockStyles.Proofs.Path.Walk
import BlockStyles.Proofs.Path.Relative
import BlockStyles.Proofs.Path.Canonical
import BlockStyles.Proofs.Library.Identifiers
import BlockStyles.Proofs.Stylesheet.Spelled
import BlockStyles.Proofs.Library.Openings
import BlockStyles.Proofs.Library.References
import BlockStyles.Proofs.Stylesheet.Unexpected
import BlockStyles.Proofs.Template.Attaching
import BlockStyles.Proofs.Stylesheet.Levels
import BlockStyles.Proofs.Text.Terminators
import BlockStyles.Proofs.Stylesheet.Rests
