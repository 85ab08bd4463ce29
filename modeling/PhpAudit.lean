import PhpAudit.Analysis.Catalog
import PhpAudit.Analysis.Files
import PhpAudit.Analysis.Findings
import PhpAudit.Analysis.Report
import PhpAudit.Analysis.Run
import PhpAudit.Analysis.Session
import PhpAudit.Command.Basic
import PhpAudit.Command.Flag
import PhpAudit.Command.Hint
import PhpAudit.Command.Options
import PhpAudit.Config.Basic
import PhpAudit.Config.BuiltIn
import PhpAudit.Disk
import PhpAudit.Graph.Basic
import PhpAudit.Graph.Cycles
import PhpAudit.Graph.Reach
import PhpAudit.Include.Graph
import PhpAudit.Include.Report
import PhpAudit.Include.Site
import PhpAudit.Location
import PhpAudit.Log
import PhpAudit.Main
import PhpAudit.Number.Binary64
import PhpAudit.Number.Integer
import PhpAudit.Path
import PhpAudit.Pattern.Basic
import PhpAudit.Pattern.Class
import PhpAudit.Pattern.Fault
import PhpAudit.Pattern.Limit
import PhpAudit.Pattern.Parse
import PhpAudit.Pattern.Property
import PhpAudit.Report.Json
import PhpAudit.Risk
import PhpAudit.Taint.Basic
import PhpAudit.Text.Base64
import PhpAudit.Text.Basic
import PhpAudit.Text.Blank
import PhpAudit.Text.CaseFold
import PhpAudit.Text.Category
import PhpAudit.Text.Glyph
import PhpAudit.Text.Printable
import PhpAudit.Text.Quoted
import PhpAudit.Text.Script
import PhpAudit.Tree.Basic
import PhpAudit.Tree.Fields
import PhpAudit.Tree.Forms
import PhpAudit.Tree.Kind
import PhpAudit.Tree.Operator
import PhpAudit.Tree.Print
import PhpAudit.Tree.Read
import PhpAudit.Usage.Identity
import PhpAudit.Usage.Ledger
import PhpAudit.Walk.Basic
import PhpAudit.Walk.Event
import PhpAudit.Walk.Program
import PhpAudit.Walk.Tree
import PhpAudit.Yaml.Comment
import PhpAudit.Yaml.Convert
import PhpAudit.Yaml.Document
import PhpAudit.Yaml.Meaning
import PhpAudit.Yaml.Node
import PhpAudit.Yaml.Property
import PhpAudit.Yaml.Record
import PhpAudit.Yaml.Source
import PhpAudit.Yaml.Spelling
import PhpAudit.Yaml.Token
import PhpAudit.Yaml.Tokens
import PhpAudit.Proofs.Graph.Construction
import PhpAudit.Proofs.Graph.Reachability
import PhpAudit.Proofs.Graph.Release
import PhpAudit.Proofs.Graph.ReleaseOrder
import PhpAudit.Proofs.Graph.Search
import PhpAudit.Proofs.Graph.StrongComponents
import PhpAudit.Proofs.Graph.Starts
import PhpAudit.Proofs.Graph.ElementaryCycles
import PhpAudit.Proofs.Analysis.Sharding
import PhpAudit.Proofs.Analysis.Schedule
import PhpAudit.Proofs.Walk.Assignments
import PhpAudit.Proofs.Walk.Nodes
import PhpAudit.Proofs.Walk.Comparison
import PhpAudit.Proofs.Taint.Order
import PhpAudit.Proofs.Analysis.Collected
import PhpAudit.Proofs.Analysis.Filters
import PhpAudit.Proofs.Walk.Runs
import PhpAudit.Proofs.Analysis.Mitigation
import PhpAudit.Proofs.Walk.Coverage
import PhpAudit.Proofs.Walk.Settled
import PhpAudit.Proofs.Analysis.Uncovered
import PhpAudit.Proofs.Walk.Shown
import PhpAudit.Proofs.Walk.Isolation
import PhpAudit.Proofs.Analysis.Isolation
import PhpAudit.Proofs.Walk.Replacement
import PhpAudit.Proofs.Usage.Entries
import PhpAudit.Proofs.Usage.Unused
import PhpAudit.Proofs.Analysis.Reordering
import PhpAudit.Proofs.Analysis.References
import PhpAudit.Proofs.Analysis.Unnoticed
import PhpAudit.Proofs.Walk.Enclosed
import PhpAudit.Proofs.Analysis.Listed
import PhpAudit.Proofs.Graph.Names
import PhpAudit.Proofs.Graph.Paths
import PhpAudit.Proofs.Graph.CyclicGroups
import PhpAudit.Proofs.Include.Relation
import PhpAudit.Proofs.Include.Closure
import PhpAudit.Proofs.Text.Quoted
import PhpAudit.Proofs.Include.Drawing
import PhpAudit.Proofs.Tree.Elements
import PhpAudit.Proofs.Tree.Grammar
import PhpAudit.Proofs.Tree.Rows
import PhpAudit.Proofs.Tree.Reading
import PhpAudit.Proofs.Tree.Keys
import PhpAudit.Proofs.Tree.Steps
import PhpAudit.Proofs.Tree.Acceptance
import PhpAudit.Proofs.Tree.Locations
import PhpAudit.Proofs.Analysis.FileNames
import PhpAudit.Proofs.Walk.Reports
import PhpAudit.Proofs.Walk.Steps
import PhpAudit.Proofs.Walk.Scopes
import PhpAudit.Proofs.Walk.Places
import PhpAudit.Proofs.Walk.Merging
import PhpAudit.Proofs.Walk.Witnesses
import PhpAudit.Proofs.Analysis.Origins
import PhpAudit.Proofs.Analysis.Blame
import PhpAudit.Proofs.Tree.Chains
import PhpAudit.Proofs.Walk.Relocation
import PhpAudit.Proofs.Analysis.Concatenation
import PhpAudit.Proofs.Text.Split
import PhpAudit.Proofs.Path.Components
import PhpAudit.Proofs.Path.Clean
import PhpAudit.Proofs.Text.Characters
import PhpAudit.Proofs.Text.LetterCase
import PhpAudit.Proofs.Include.StaticPaths
import PhpAudit.Proofs.Include.Targets
import PhpAudit.Proofs.Include.Spellings
import PhpAudit.Proofs.Include.Roots
import PhpAudit.Proofs.Analysis.PlainReport
import PhpAudit.Proofs.Include.Reached
import PhpAudit.Proofs.Text.Glyphs
import PhpAudit.Proofs.Text.Escapes
import PhpAudit.Proofs.Text.Blank
import PhpAudit.Proofs.Graph.Calls
import PhpAudit.Proofs.Config.RiskNames
import PhpAudit.Proofs.Config.Sessions
