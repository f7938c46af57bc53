import ServiceMesh.Application.Run
import ServiceMesh.Balance.Client
import ServiceMesh.Cluster.Clients
import ServiceMesh.Config.File
import ServiceMesh.Gateway.Query
import ServiceMesh.Gateway.Server
import ServiceMesh.Proofs.Node.Key
import ServiceMesh.Proofs.Topology.Members
import ServiceMesh.Proofs.Store.Log
import ServiceMesh.Proofs.Store.Binding
import ServiceMesh.Proofs.Store.Procedure
import ServiceMesh.Proofs.Store.History
import ServiceMesh.Proofs.Topology.Replay
import ServiceMesh.Proofs.Cluster.Run
import ServiceMesh.Proofs.Cluster.Frame
import ServiceMesh.Proofs.Cluster.Stores
import ServiceMesh.Proofs.Cluster.Scene
import ServiceMesh.Proofs.Cluster.View
import ServiceMesh.Proofs.Lease.Routine
import ServiceMesh.Proofs.Lease.Withdrawal
import ServiceMesh.Proofs.Lease.Reading
import ServiceMesh.Proofs.Lease.Following
import ServiceMesh.Proofs.Lease.Retired
import ServiceMesh.Proofs.Lease.Upkeep
import ServiceMesh.Proofs.Lease.Rounds
import ServiceMesh.Proofs.Lease.Snapshot
import ServiceMesh.Proofs.Lease.Published
import ServiceMesh.Proofs.Lease.Gap
import ServiceMesh.Proofs.Json.Text
import ServiceMesh.Proofs.Json.Number
import ServiceMesh.Proofs.Json.Record
import ServiceMesh.Proofs.Node.Record
import ServiceMesh.Proofs.Topology.Listing
import ServiceMesh.Proofs.Store.Watcher
import ServiceMesh.Proofs.Lease.Recovery
import ServiceMesh.Proofs.Lease.Refinement
import ServiceMesh.Proofs.Lease.Relisting
import ServiceMesh.Proofs.Lease.Announced
import ServiceMesh.Proofs.Notify.Audience
import ServiceMesh.Proofs.Lease.Followers
import ServiceMesh.Proofs.Topology.Representation
import ServiceMesh.Proofs.Lease.Lookups
import ServiceMesh.Proofs.Topology.Agreement
import ServiceMesh.Proofs.Balance.Turns
import ServiceMesh.Proofs.Cluster.Evolution
import ServiceMesh.Proofs.Lease.Loops
import ServiceMesh.Proofs.Application.Course
import ServiceMesh.Proofs.Application.Withdrawal
import ServiceMesh.Proofs.Gateway.Insulation
import ServiceMesh.Proofs.Application.Opening
import ServiceMesh.Proofs.Application.Order
import ServiceMesh.Proofs.Cluster.Footprint
import ServiceMesh.Proofs.Cluster.Settling
import ServiceMesh.Proofs.Lease.FirstRound
import ServiceMesh.Proofs.Application.Startup
import ServiceMesh.Proofs.Gateway.Dispatcher
import ServiceMesh.Proofs.Gateway.Marking
import ServiceMesh.Proofs.Gateway.Answers
import ServiceMesh.Proofs.Text.Utf8
import ServiceMesh.Proofs.Url.Form
import ServiceMesh.Proofs.Url.Web
import ServiceMesh.Proofs.Http.Target
import ServiceMesh.Proofs.Gateway.Query
import ServiceMesh.Proofs.Gateway.Forwarding
import ServiceMesh.Proofs.Balance.Upkeep
import ServiceMesh.Proofs.Balance.Clients
import ServiceMesh.Proofs.Balance.Channel
import ServiceMesh.Proofs.Balance.Addressing
import ServiceMesh.Proofs.Topology.Publication
import ServiceMesh.Proofs.Gateway.Ranking
import ServiceMesh.Proofs.Gateway.Nesting
import ServiceMesh.Proofs.Gateway.Stages
import ServiceMesh.Proofs.Gateway.Containment
import ServiceMesh.Proofs.Store.Trace
import ServiceMesh.Proofs.Lease.Attempt
import ServiceMesh.Proofs.Lease.Untouched
import ServiceMesh.Proofs.Balance.Rotation
import ServiceMesh.Proofs.Store.Range
import ServiceMesh.Proofs.Node.Layout
import ServiceMesh.Proofs.Topology.Membership
import ServiceMesh.Proofs.Json.Value
import ServiceMesh.Proofs.Gateway.Adapters
import ServiceMesh.Proofs.Gateway.Grouping
import ServiceMesh.Proofs.Gateway.Failures
import ServiceMesh.Proofs.Gateway.Token
import ServiceMesh.Proofs.Notify.Accounts
