import NetplanEditor.Action
import NetplanEditor.Address
import NetplanEditor.App
import NetplanEditor.CommandLine.Basic
import NetplanEditor.CommandLine.Options
import NetplanEditor.Config.Basic
import NetplanEditor.Config.Settings
import NetplanEditor.Document.Basic
import NetplanEditor.Document.Edit
import NetplanEditor.Document.Read
import NetplanEditor.Document.Write
import NetplanEditor.Engine.Basic
import NetplanEditor.Engine.Rehearsal
import NetplanEditor.Family
import NetplanEditor.FileSystem.Basic
import NetplanEditor.FileSystem.Calls
import NetplanEditor.FileSystem.Error
import NetplanEditor.FileSystem.Path
import NetplanEditor.Log
import NetplanEditor.Main
import NetplanEditor.Netplan.Command
import NetplanEditor.Netplan.Phase
import NetplanEditor.Netplan.Reconcile
import NetplanEditor.Route
import NetplanEditor.Routine.Basic
import NetplanEditor.Routine.World
import NetplanEditor.Store.Basic
import NetplanEditor.Store.File
import NetplanEditor.Text.Blank
import NetplanEditor.Text.Numeral
import NetplanEditor.Text.Pieces
import NetplanEditor.Text.Sorted
import NetplanEditor.Text.Utf8
import NetplanEditor.Toml.Basic
import NetplanEditor.Toml.Read
import NetplanEditor.Toml.Text
import NetplanEditor.Yaml.Binary64
import NetplanEditor.Yaml.Character
import NetplanEditor.Yaml.Cursor
import NetplanEditor.Yaml.Fault
import NetplanEditor.Yaml.Graph
import NetplanEditor.Yaml.Layout
import NetplanEditor.Yaml.Node
import NetplanEditor.Yaml.Plain
import NetplanEditor.Yaml.Read
import NetplanEditor.Yaml.Style
import NetplanEditor.Yaml.Token.Basic
import NetplanEditor.Yaml.Token.Block
import NetplanEditor.Yaml.Token.Folding
import NetplanEditor.Yaml.Token.Lexer
import NetplanEditor.Yaml.Token.Mark
import NetplanEditor.Yaml.Token.Plain
import NetplanEditor.Yaml.Token.Quoted
import NetplanEditor.Yaml.Tree
import NetplanEditor.Proofs.Address.Cidr
import NetplanEditor.Proofs.Address.Netmask
import NetplanEditor.Proofs.App.Containment
import NetplanEditor.Proofs.App.DryRun
import NetplanEditor.Proofs.App.ExitCode
import NetplanEditor.Proofs.Config.Resolution
import NetplanEditor.Proofs.Document.Acceptance
import NetplanEditor.Proofs.Document.Addresses
import NetplanEditor.Proofs.Document.Carried
import NetplanEditor.Proofs.Document.Edits
import NetplanEditor.Proofs.Document.Gateways
import NetplanEditor.Proofs.Document.Normal
import NetplanEditor.Proofs.Document.Padding
import NetplanEditor.Proofs.Document.RoundTrip
import NetplanEditor.Proofs.Document.Routes
import NetplanEditor.Proofs.Document.Verdict
import NetplanEditor.Proofs.Engine.Answers
import NetplanEditor.Proofs.Engine.Ordering
import NetplanEditor.Proofs.Engine.Preview
import NetplanEditor.Proofs.Engine.Stored
import NetplanEditor.Proofs.Netplan.Diagnostics
import NetplanEditor.Proofs.Route.Grammar
import NetplanEditor.Proofs.Routine.Permits
import NetplanEditor.Proofs.Store.Atomic
import NetplanEditor.Proofs.Store.Failure
import NetplanEditor.Proofs.Store.History
import NetplanEditor.Proofs.Store.Permits
import NetplanEditor.Proofs.Text.ByteOrder
import NetplanEditor.Proofs.Text.Numeral
import NetplanEditor.Proofs.Text.Pieces
import NetplanEditor.Proofs.Yaml.Shape
