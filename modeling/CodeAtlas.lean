import CodeAtlas.Address.Host
import CodeAtlas.Address.PagePath
import CodeAtlas.Address.UriMap
import CodeAtlas.Address.Url
import CodeAtlas.CommandLine
import CodeAtlas.Disk.Basic
import CodeAtlas.Disk.Path
import CodeAtlas.Disk.Store
import CodeAtlas.Domain.Compose
import CodeAtlas.Domain.Direction
import CodeAtlas.Domain.Joiner
import CodeAtlas.Domain.Mapping
import CodeAtlas.Domain.Mark
import CodeAtlas.Domain.Name
import CodeAtlas.Domain.Punycode
import CodeAtlas.Dump.Chain
import CodeAtlas.Dump.Decode
import CodeAtlas.Dump.Element
import CodeAtlas.Dump.Graph
import CodeAtlas.Dump.Id
import CodeAtlas.Fault
import CodeAtlas.Json.Basic
import CodeAtlas.Json.Reader
import CodeAtlas.Json.Writer
import CodeAtlas.Main
import CodeAtlas.Markup.Nesting
import CodeAtlas.Markup.Piece
import CodeAtlas.Markup.Template
import CodeAtlas.Markup.Weave
import CodeAtlas.Page.Layout
import CodeAtlas.Page.Nav
import CodeAtlas.Page.Script
import CodeAtlas.Page.Style
import CodeAtlas.Render.Basic
import CodeAtlas.Render.Inline
import CodeAtlas.Render.Language
import CodeAtlas.Render.Markdown
import CodeAtlas.Render.Token
import CodeAtlas.Site.Build
import CodeAtlas.Site.Pages
import CodeAtlas.Site.Plan
import CodeAtlas.Source
import CodeAtlas.Symbol.Hover
import CodeAtlas.Symbol.Location
import CodeAtlas.Symbol.Memo
import CodeAtlas.Symbol.Occurrence
import CodeAtlas.Symbol.Reference
import CodeAtlas.Symbol.Sidecar
import CodeAtlas.Text.Find
import CodeAtlas.Text.Lines
import CodeAtlas.Text.Table
import CodeAtlas.Text.Utf8
import CodeAtlas.Text.Word
import CodeAtlas.Proofs.Markup.Cutting
import CodeAtlas.Proofs.Markup.Placement
import CodeAtlas.Proofs.Render.Highlighting
import CodeAtlas.Proofs.Dump.Adjacency
import CodeAtlas.Proofs.Dump.Resolution
import CodeAtlas.Proofs.Dump.Acceptance
import CodeAtlas.Proofs.Symbol.Faults
import CodeAtlas.Proofs.Dump.Reordering
import CodeAtlas.Proofs.Site.Reordering
import CodeAtlas.Proofs.Symbol.Interleaving
import CodeAtlas.Proofs.Site.Interleaving
import CodeAtlas.Proofs.Symbol.Wrapping
import CodeAtlas.Proofs.Text.Bytes
import CodeAtlas.Proofs.Text.Encoding
import CodeAtlas.Proofs.Disk.Writing
import CodeAtlas.Proofs.Address.Containment
import CodeAtlas.Proofs.Dump.Stem
import CodeAtlas.Proofs.Site.Loading
import CodeAtlas.Proofs.Site.Contents
import CodeAtlas.Proofs.Site.Writes
import CodeAtlas.Proofs.Site.Publishing
import CodeAtlas.Proofs.Symbol.Sidecar
import CodeAtlas.Proofs.Site.Closure
import CodeAtlas.Proofs.Markup.Filling
import CodeAtlas.Proofs.Markup.Spans
import CodeAtlas.Proofs.Outcome
import CodeAtlas.Proofs.Page.Balance
import CodeAtlas.Proofs.Site.Checking
import CodeAtlas.Proofs.Symbol.Traversal
import CodeAtlas.Proofs.Symbol.Agreement
import CodeAtlas.Proofs.Site.Apart
import CodeAtlas.Proofs.Markup.Tags
import CodeAtlas.Proofs.Page.Tags
import CodeAtlas.Proofs.Site.Injection
import CodeAtlas.Proofs.Render.Visible
import CodeAtlas.Proofs.Symbol.Sharing
import CodeAtlas.Proofs.Render.Tokens
import CodeAtlas.Proofs.Markup.Grammar
import CodeAtlas.Proofs.Page.Navigation
import CodeAtlas.Proofs.Render.Fences
import CodeAtlas.Proofs.Markup.Atoms
import CodeAtlas.Proofs.Render.Rewriting
import CodeAtlas.Proofs.Render.HoverMarkup
import CodeAtlas.Proofs.Render.Crossing
import CodeAtlas.Proofs.Page.Growth
import CodeAtlas.Proofs.Site.Planning
import CodeAtlas.Proofs.Text.Percent
import CodeAtlas.Proofs.Address.Below
import CodeAtlas.Proofs.Symbol.Targets
import CodeAtlas.Proofs.Markup.Segments
import CodeAtlas.Proofs.Address.Longest
import CodeAtlas.Proofs.Symbol.Sections
import CodeAtlas.Proofs.Dump.Respelling
import CodeAtlas.Proofs.Site.Respelling
import CodeAtlas.Proofs.Json.Numeral
import CodeAtlas.Proofs.Json.Roundtrip
import CodeAtlas.Proofs.Markup.Entities
import CodeAtlas.Proofs.Site.References
import CodeAtlas.Proofs.Page.Lines
