import ZOrder.Check
import ZOrder.Engine.Basic
import ZOrder.Engine.Focus
import ZOrder.Engine.Moving
import ZOrder.Engine.Op
import ZOrder.Engine.Tracking
import ZOrder.Files
import ZOrder.FlatStack
import ZOrder.Forest
import ZOrder.Handle
import ZOrder.Info
import ZOrder.Json.Basic
import ZOrder.Json.Printer
import ZOrder.Json.Reader
import ZOrder.Layer
import ZOrder.LogFilter
import ZOrder.Main
import ZOrder.Manager
import ZOrder.Position
import ZOrder.Proofs.Block
import ZOrder.Proofs.Engine.AllOrNothing
import ZOrder.Proofs.Engine.Anchors
import ZOrder.Proofs.Engine.Attached
import ZOrder.Proofs.Engine.Bands
import ZOrder.Proofs.Engine.Blocks
import ZOrder.Proofs.Engine.Change
import ZOrder.Proofs.Engine.Delivery
import ZOrder.Proofs.Engine.Demotion
import ZOrder.Proofs.Engine.Drift
import ZOrder.Proofs.Engine.Effect
import ZOrder.Proofs.Engine.Entries
import ZOrder.Proofs.Engine.Homes
import ZOrder.Proofs.Engine.LastMove
import ZOrder.Proofs.Engine.Neighbours
import ZOrder.Proofs.Engine.Owners
import ZOrder.Proofs.Engine.Passing
import ZOrder.Proofs.Engine.Reachable
import ZOrder.Proofs.Engine.Removal
import ZOrder.Proofs.Engine.Requests
import ZOrder.Proofs.Engine.Shape
import ZOrder.Proofs.Engine.Slots
import ZOrder.Proofs.Engine.Steps
import ZOrder.Proofs.Engine.Strict
import ZOrder.Proofs.Engine.Undoing
import ZOrder.Proofs.Engine.Walks
import ZOrder.Proofs.FlatStack.Apply
import ZOrder.Proofs.FlatStack.Edits
import ZOrder.Proofs.FlatStack.Placements
import ZOrder.Proofs.FlatStack.Realizes
import ZOrder.Proofs.Manager.Drops
import ZOrder.Proofs.Manager.Failures
import ZOrder.Proofs.Manager.Flush
import ZOrder.Proofs.Manager.Mirror
import ZOrder.Proofs.SettingsFile.Entries
import ZOrder.Proofs.SettingsFile.Lines
import ZOrder.Proofs.SettingsFile.Loading
import ZOrder.Proofs.Text.Utf8
import ZOrder.Proofs.Toml.Number
import ZOrder.Proofs.Toml.Scan
import ZOrder.Proofs.Tree.Elsewhere
import ZOrder.Proofs.Tree.Families
import ZOrder.Proofs.Tree.Fields
import ZOrder.Proofs.Tree.Homes
import ZOrder.Proofs.Tree.Loops
import ZOrder.Proofs.Tree.Order
import ZOrder.Proofs.Tree.Relocate
import ZOrder.Proofs.Tree.Renames
import ZOrder.Proofs.Tree.Sound
import ZOrder.Proofs.Tree.Walk
import ZOrder.Proofs.Tree.WellFormed
import ZOrder.Proofs.Tree.Without
import ZOrder.Proofs.Wire.Info
import ZOrder.Proofs.Wire.Spelling
import ZOrder.Proofs.Wire.Stacking
import ZOrder.Proofs.X11.Restack
import ZOrder.Proofs.X11.Screen
import ZOrder.Query
import ZOrder.Request
import ZOrder.Scripted
import ZOrder.Settings
import ZOrder.SettingsFile
import ZOrder.SyncError
import ZOrder.Text.Alphanumeric
import ZOrder.Text.Blank
import ZOrder.Text.Digit
import ZOrder.Text.Printable
import ZOrder.Text.Quoted
import ZOrder.Text.Ranges
import ZOrder.Text.Utf8
import ZOrder.Toml.Layout
import ZOrder.Toml.Number
import ZOrder.Toml.Parser
import ZOrder.Toml.Token
import ZOrder.Toml.Value
import ZOrder.Tree.Basic
import ZOrder.Tree.Edit
import ZOrder.Tree.Index
import ZOrder.Tree.Walk
import ZOrder.Wire.Basic
import ZOrder.Wire.Info
import ZOrder.Wire.Stacking
import ZOrder.X11.Connection
import ZOrder.X11.Error
import ZOrder.X11.Property
import ZOrder.X11.Restack
