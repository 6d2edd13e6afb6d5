import StaticSite.Main
import StaticSite.Template.Lint
import StaticSite.Watch
import StaticSite.Proofs.Template.Inquiry
import StaticSite.Proofs.Template.Transparency
import StaticSite.Proofs.Template.History
import StaticSite.Proofs.Template.Tokens
import StaticSite.Proofs.Template.Locality
import StaticSite.Proofs.Template.Segmentation
import StaticSite.Proofs.Template.Pieces
import StaticSite.Proofs.Template.OpenBlocks
import StaticSite.Proofs.Template.Juxtaposition
import StaticSite.Proofs.Template.Likeness
import StaticSite.Proofs.Template.Settlement
import StaticSite.Proofs.Template.Shadow
import StaticSite.Proofs.Template.Unterminated
import StaticSite.Proofs.Template.Showing
import StaticSite.Proofs.Template.Inlining
import StaticSite.Proofs.Template.LayoutPass
import StaticSite.Proofs.Template.Reexpansion
import StaticSite.Proofs.Path.Location
import StaticSite.Proofs.Path.Way
import StaticSite.Proofs.Fields
import StaticSite.Proofs.FileTree.Places
import StaticSite.Proofs.Discipline
import StaticSite.Proofs.FileTree.Confinement
import StaticSite.Proofs.Path.Output
import StaticSite.Proofs.Path.Folding
import StaticSite.Proofs.Content.Loading
import StaticSite.Proofs.Slug
import StaticSite.Proofs.Site.Addresses
import StaticSite.Proofs.Site.Confinement
import StaticSite.Proofs.Config.Validation
import StaticSite.Proofs.Site.Sources
import StaticSite.Proofs.Template.Positional
import StaticSite.Proofs.Template.Grammar
import StaticSite.Proofs.Site.Frame
import StaticSite.Proofs.Site.PagePlaces
import StaticSite.Proofs.FileTree.Growth
import StaticSite.Proofs.Site.Overwriting
import StaticSite.Proofs.Template.Scope
import StaticSite.Proofs.Site.EngineReads
import StaticSite.Proofs.FileTree.Writing
import StaticSite.Proofs.Site.CategoryPages
import StaticSite.Proofs.FileTree.Order
import StaticSite.Proofs.FileTree.Reach
import StaticSite.Proofs.FileTree.Copying
import StaticSite.Proofs.Content.Reading
import StaticSite.Proofs.Site.Assets
import StaticSite.Proofs.Site.Rebuilding
import StaticSite.Proofs.Template.Steps
import StaticSite.Proofs.Template.NormalForm
import StaticSite.Proofs.Template.Reports
import StaticSite.Proofs.Site.Failures
import StaticSite.Proofs.Template.Visibility
import StaticSite.Proofs.Template.Lookup
import StaticSite.Proofs.Template.ElementBinding
import StaticSite.Proofs.Template.Descent
import StaticSite.Proofs.Template.Rendering
import StaticSite.Proofs.Site.CategoryImages
import StaticSite.Proofs.Site.Grouping
import StaticSite.Proofs.Site.StemPages
import StaticSite.Proofs.Text.Case
import StaticSite.Proofs.Text.Blank
import StaticSite.Proofs.Slug.Words
import StaticSite.Proofs.Site.TagListings
import StaticSite.Proofs.Content.Framing
import StaticSite.Proofs.Text.ByteOrder
import StaticSite.Proofs.Content.Newest
import StaticSite.Proofs.Site.CheckedOutput
import StaticSite.Proofs.Watch
import StaticSite.Proofs.Content.Record
import StaticSite.Proofs.Template.Navigation
import StaticSite.Proofs.Number.Rounding
import StaticSite.Proofs.Number.Digits
import StaticSite.Proofs.Template.Positions
import StaticSite.Proofs.Number.Decimals
import StaticSite.Proofs.Number.IntegerText
import StaticSite.Proofs.FileTree.Adding
import StaticSite.Proofs.Command.Furnishing
import StaticSite.Proofs.Command.Starting
