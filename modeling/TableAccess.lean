import TableAccess.Act
import TableAccess.Action
import TableAccess.Adapter.Basic
import TableAccess.Adapter.Cell
import TableAccess.Adapter.Column
import TableAccess.Adapter.Node
import TableAccess.Adapter.Row
import TableAccess.Adapter.Table
import TableAccess.Arena
import TableAccess.Attribute
import TableAccess.Bridge
import TableAccess.Config.Basic
import TableAccess.Config.Document
import TableAccess.Context
import TableAccess.DebugText
import TableAccess.Duration
import TableAccess.Event
import TableAccess.HandOff
import TableAccess.Identity
import TableAccess.NodeKey
import TableAccess.Outline
import TableAccess.Panic
import TableAccess.Peer
import TableAccess.Proofs.Abandoned
import TableAccess.Proofs.Accounting
import TableAccess.Proofs.Affinity
import TableAccess.Proofs.Announcing
import TableAccess.Proofs.Answering
import TableAccess.Proofs.Arena
import TableAccess.Proofs.Attaching
import TableAccess.Proofs.Bereft
import TableAccess.Proofs.Books
import TableAccess.Proofs.Branches
import TableAccess.Proofs.Bystanders
import TableAccess.Proofs.Calm
import TableAccess.Proofs.Census
import TableAccess.Proofs.Chronicle
import TableAccess.Proofs.Conduct
import TableAccess.Proofs.Containment
import TableAccess.Proofs.Contexts
import TableAccess.Proofs.Counting
import TableAccess.Proofs.Degrading
import TableAccess.Proofs.Documents
import TableAccess.Proofs.Drawings
import TableAccess.Proofs.Errands
import TableAccess.Proofs.Galleries
import TableAccess.Proofs.Gathering
import TableAccess.Proofs.Grids
import TableAccess.Proofs.Growth
import TableAccess.Proofs.HandOffs
import TableAccess.Proofs.Hiding
import TableAccess.Proofs.Ids
import TableAccess.Proofs.Increments
import TableAccess.Proofs.Inert
import TableAccess.Proofs.Keeping
import TableAccess.Proofs.Keys
import TableAccess.Proofs.Latches
import TableAccess.Proofs.Lawful
import TableAccess.Proofs.LawfulNodes
import TableAccess.Proofs.Layout
import TableAccess.Proofs.Leads
import TableAccess.Proofs.Likeness
import TableAccess.Proofs.Looking
import TableAccess.Proofs.Moment
import TableAccess.Proofs.Navigation
import TableAccess.Proofs.Nesting
import TableAccess.Proofs.Nodes
import TableAccess.Proofs.Notices
import TableAccess.Proofs.Numbers
import TableAccess.Proofs.Orphans
import TableAccess.Proofs.Outlines
import TableAccess.Proofs.Parts
import TableAccess.Proofs.Peers
import TableAccess.Proofs.Preorder
import TableAccess.Proofs.Queries
import TableAccess.Proofs.Reasons
import TableAccess.Proofs.Reattaching
import TableAccess.Proofs.Recycling
import TableAccess.Proofs.Removal
import TableAccess.Proofs.Replies
import TableAccess.Proofs.Requests
import TableAccess.Proofs.Returning
import TableAccess.Proofs.Roots
import TableAccess.Proofs.Routes
import TableAccess.Proofs.Runs
import TableAccess.Proofs.ScopedRequests
import TableAccess.Proofs.Scopes
import TableAccess.Proofs.Serialized
import TableAccess.Proofs.Serving
import TableAccess.Proofs.Settings
import TableAccess.Proofs.Shadowing
import TableAccess.Proofs.Sheets
import TableAccess.Proofs.Shown
import TableAccess.Proofs.Sizes
import TableAccess.Proofs.Snapshots
import TableAccess.Proofs.Starting
import TableAccess.Proofs.Strangers
import TableAccess.Proofs.Strides
import TableAccess.Proofs.Tables
import TableAccess.Proofs.Timeline
import TableAccess.Proofs.TreeIndex
import TableAccess.Proofs.TreeRuns
import TableAccess.Proofs.Turns
import TableAccess.Proofs.Updates
import TableAccess.Proofs.Uprooting
import TableAccess.Proofs.Visits
import TableAccess.Proofs.Waiting
import TableAccess.Proofs.Wards
import TableAccess.Proofs.Written
import TableAccess.Reply
import TableAccess.Role
import TableAccess.Room
import TableAccess.Schedule
import TableAccess.Session.Answer
import TableAccess.Session.ContextCalls
import TableAccess.Session.Desk
import TableAccess.Session.Names
import TableAccess.Session.NodeCalls
import TableAccess.Session.Run
import TableAccess.Session.Step
import TableAccess.Session.TableCalls
import TableAccess.Session.TreeCalls
import TableAccess.Table.Basic
import TableAccess.Table.Grid
import TableAccess.Table.Inquiry
import TableAccess.Table.Reading
import TableAccess.Table.Script
import TableAccess.Text.Blank
import TableAccess.Text.Extending
import TableAccess.Text.Interval
import TableAccess.Text.Printable
import TableAccess.Text.Quoted
import TableAccess.Text.Record
import TableAccess.Thread
import TableAccess.Tree
import TableAccess.Unavailable
import TableAccess.Update
import TableAccess.World
