import ViewBinder.Attribute.Parser
import ViewBinder.Attribute.Segment
import ViewBinder.Batch
import ViewBinder.Catalog.Basic
import ViewBinder.Catalog.Descriptor
import ViewBinder.Catalog.Manifest
import ViewBinder.Catalog.ManifestFile
import ViewBinder.CommandLine
import ViewBinder.Compile
import ViewBinder.Diagnostic.Basic
import ViewBinder.Diagnostic.Problem
import ViewBinder.Draft
import ViewBinder.Element.Body
import ViewBinder.Element.Build
import ViewBinder.Element.Construction
import ViewBinder.Element.Item
import ViewBinder.Element.Panel
import ViewBinder.Element.Rule
import ViewBinder.Field.Reference
import ViewBinder.Field.Table
import ViewBinder.FileTree
import ViewBinder.Html.Escape
import ViewBinder.Html.ReferenceNames
import ViewBinder.Html.Tree
import ViewBinder.Json.Decode
import ViewBinder.Json.Value
import ViewBinder.Library
import ViewBinder.Main
import ViewBinder.Marker
import ViewBinder.Markup.Character
import ViewBinder.Markup.Consume
import ViewBinder.Markup.Document
import ViewBinder.Markup.Load
import ViewBinder.Markup.Token
import ViewBinder.Message.Basic
import ViewBinder.Message.Declare
import ViewBinder.Number.Fraction
import ViewBinder.Number.Literal
import ViewBinder.Path
import ViewBinder.Program.Basic
import ViewBinder.Program.Imports
import ViewBinder.Program.Layout
import ViewBinder.Program.Layout.Reader
import ViewBinder.Program.Layout.Statement
import ViewBinder.Program.Pattern
import ViewBinder.Program.Section
import ViewBinder.Project.Basic
import ViewBinder.Project.Journal
import ViewBinder.Project.Run
import ViewBinder.Proofs.Attribute.Arguments
import ViewBinder.Proofs.Attribute.Braces
import ViewBinder.Proofs.Attribute.Length
import ViewBinder.Proofs.Attribute.NumberRun
import ViewBinder.Proofs.Attribute.Parser
import ViewBinder.Proofs.Attribute.Single
import ViewBinder.Proofs.Attribute.Sound
import ViewBinder.Proofs.Blind.Element
import ViewBinder.Proofs.Blind.Session
import ViewBinder.Proofs.Blind.Template
import ViewBinder.Proofs.Blind.Text
import ViewBinder.Proofs.Blind.Weave
import ViewBinder.Proofs.Blind.Work
import ViewBinder.Proofs.Catalog.AnyOrder
import ViewBinder.Proofs.Catalog.Assignable
import ViewBinder.Proofs.Catalog.Closed
import ViewBinder.Proofs.Catalog.Complete
import ViewBinder.Proofs.Catalog.Hierarchy
import ViewBinder.Proofs.Catalog.Linking
import ViewBinder.Proofs.Catalog.Lookup
import ViewBinder.Proofs.Catalog.Regular
import ViewBinder.Proofs.Catalog.Typed
import ViewBinder.Proofs.Draft.Findings
import ViewBinder.Proofs.Draft.Guarded
import ViewBinder.Proofs.Draft.Settle
import ViewBinder.Proofs.Draft.Step
import ViewBinder.Proofs.Element.Capability
import ViewBinder.Proofs.Element.Confined
import ViewBinder.Proofs.Element.Consumption
import ViewBinder.Proofs.Element.Guarded
import ViewBinder.Proofs.Element.Setters
import ViewBinder.Proofs.Field.Construction
import ViewBinder.Proofs.Field.Countdown
import ViewBinder.Proofs.Field.Naming
import ViewBinder.Proofs.Field.Order
import ViewBinder.Proofs.Field.References
import ViewBinder.Proofs.Field.Step
import ViewBinder.Proofs.Field.Typing
import ViewBinder.Proofs.Html.Legible
import ViewBinder.Proofs.Marker.Again
import ViewBinder.Proofs.Marker.Expand
import ViewBinder.Proofs.Marker.Numbers
import ViewBinder.Proofs.Marker.Pieces
import ViewBinder.Proofs.Marker.Weave
import ViewBinder.Proofs.Marker.Written
import ViewBinder.Proofs.Markup.Attributes
import ViewBinder.Proofs.Markup.Consume
import ViewBinder.Proofs.Markup.Load
import ViewBinder.Proofs.Markup.Once
import ViewBinder.Proofs.Markup.Prefixes
import ViewBinder.Proofs.Markup.Preorder
import ViewBinder.Proofs.Markup.Tree
import ViewBinder.Proofs.Message.Placeholders
import ViewBinder.Proofs.Message.Sharing
import ViewBinder.Proofs.Number.Literal
import ViewBinder.Proofs.Numbering.Content
import ViewBinder.Proofs.Numbering.Element
import ViewBinder.Proofs.Numbering.Resources
import ViewBinder.Proofs.Numbering.Session
import ViewBinder.Proofs.Numbering.Template
import ViewBinder.Proofs.Numbering.Work
import ViewBinder.Proofs.Path.Clean
import ViewBinder.Proofs.Program.Aliases
import ViewBinder.Proofs.Program.Arguments
import ViewBinder.Proofs.Program.Generated
import ViewBinder.Proofs.Program.Identifiers
import ViewBinder.Proofs.Program.Imports
import ViewBinder.Proofs.Program.Lines
import ViewBinder.Proofs.Program.Pattern
import ViewBinder.Proofs.Project.Check
import ViewBinder.Proofs.Project.Files
import ViewBinder.Proofs.Project.Opening
import ViewBinder.Proofs.Project.Templates
import ViewBinder.Proofs.Resource.Declare
import ViewBinder.Proofs.Resource.Methods
import ViewBinder.Proofs.Resource.Renaming
import ViewBinder.Proofs.Resource.Selector
import ViewBinder.Proofs.Resource.Spared
import ViewBinder.Proofs.Resource.Stylesheet
import ViewBinder.Proofs.Safe
import ViewBinder.Proofs.Session.Attaining
import ViewBinder.Proofs.Session.Confined
import ViewBinder.Proofs.Session.Content
import ViewBinder.Proofs.Session.Ending
import ViewBinder.Proofs.Session.Guarded
import ViewBinder.Proofs.Session.Marked
import ViewBinder.Proofs.Session.Run
import ViewBinder.Proofs.Session.Styles
import ViewBinder.Proofs.Session.Taking
import ViewBinder.Proofs.Session.Weaving
import ViewBinder.Proofs.Source.Location
import ViewBinder.Proofs.Template.Arguments
import ViewBinder.Proofs.Template.Assembly
import ViewBinder.Proofs.Template.Attachment
import ViewBinder.Proofs.Template.Batch
import ViewBinder.Proofs.Template.Binding
import ViewBinder.Proofs.Template.Checks
import ViewBinder.Proofs.Template.Consumption
import ViewBinder.Proofs.Template.Containers
import ViewBinder.Proofs.Template.Crash
import ViewBinder.Proofs.Template.Declared
import ViewBinder.Proofs.Template.Directives
import ViewBinder.Proofs.Template.Dressing
import ViewBinder.Proofs.Template.Escaping
import ViewBinder.Proofs.Template.Guarded
import ViewBinder.Proofs.Template.Layers
import ViewBinder.Proofs.Template.Leftovers
import ViewBinder.Proofs.Template.Legible
import ViewBinder.Proofs.Template.Locals
import ViewBinder.Proofs.Template.Lookups
import ViewBinder.Proofs.Template.Names
import ViewBinder.Proofs.Template.Owner
import ViewBinder.Proofs.Template.OwnerTypes
import ViewBinder.Proofs.Template.Phases
import ViewBinder.Proofs.Template.Placing
import ViewBinder.Proofs.Template.Rendering
import ViewBinder.Proofs.Template.Rewriting
import ViewBinder.Proofs.Template.Runs
import ViewBinder.Proofs.Template.Stages
import ViewBinder.Proofs.Template.StyleReferences
import ViewBinder.Proofs.Template.TagSearch
import ViewBinder.Proofs.Template.Turns
import ViewBinder.Proofs.Template.Verbatim
import ViewBinder.Proofs.Text.Basic
import ViewBinder.Proofs.Text.Exported
import ViewBinder.Proofs.Text.Identifier
import ViewBinder.Proofs.Text.Quoted
import ViewBinder.Proofs.Text.Trim
import ViewBinder.Proofs.Text.Word
import ViewBinder.Proofs.Work
import ViewBinder.Resource.Bundle
import ViewBinder.Resource.DataUrl
import ViewBinder.Resource.Declare
import ViewBinder.Resource.ImageHeader
import ViewBinder.Resource.Stylesheet
import ViewBinder.Session
import ViewBinder.Settings
import ViewBinder.Source.Location
import ViewBinder.Template.Assembly
import ViewBinder.Template.Binding
import ViewBinder.Template.Content
import ViewBinder.Template.Directive
import ViewBinder.Template.Namespace
import ViewBinder.Text.Basic
import ViewBinder.Text.CaseMap
import ViewBinder.Text.Classes
import ViewBinder.Text.Name
import ViewBinder.Text.Utf8
