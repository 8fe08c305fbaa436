import MqttBroker.Access.Acl
import MqttBroker.Access.Client
import MqttBroker.Access.StaticUsers
import MqttBroker.Broker.Admission
import MqttBroker.Broker.Dispatch
import MqttBroker.Broker.Registry
import MqttBroker.Broker.Rehearsal
import MqttBroker.Broker.Routing
import MqttBroker.Broker.State
import MqttBroker.Config.Basic
import MqttBroker.Config.Layers
import MqttBroker.Config.Loading
import MqttBroker.Config.Path
import MqttBroker.Config.Reading
import MqttBroker.Config.Substitution
import MqttBroker.Connection.Basic
import MqttBroker.Connection.Transport
import MqttBroker.Number.Binary64
import MqttBroker.Number.Scan
import MqttBroker.Password.Argon2
import MqttBroker.Password.Base64
import MqttBroker.Password.Blake2b
import MqttBroker.Password.Phc
import MqttBroker.Proofs.Access.Covering
import MqttBroker.Proofs.Access.Expansion
import MqttBroker.Proofs.Access.Users
import MqttBroker.Proofs.Broker.Accounting
import MqttBroker.Proofs.Broker.Admission
import MqttBroker.Proofs.Broker.Backlog
import MqttBroker.Proofs.Broker.Binding
import MqttBroker.Proofs.Broker.Broadcasting
import MqttBroker.Proofs.Broker.Confinement
import MqttBroker.Proofs.Broker.Consistency
import MqttBroker.Proofs.Broker.Delivery
import MqttBroker.Proofs.Broker.Ending
import MqttBroker.Proofs.Broker.Expiry
import MqttBroker.Proofs.Broker.Failures
import MqttBroker.Proofs.Broker.FanOut
import MqttBroker.Proofs.Broker.Fencing
import MqttBroker.Proofs.Broker.Granting
import MqttBroker.Proofs.Broker.Handling
import MqttBroker.Proofs.Broker.Identity
import MqttBroker.Proofs.Broker.Independence
import MqttBroker.Proofs.Broker.Interleaving
import MqttBroker.Proofs.Broker.Invariant
import MqttBroker.Proofs.Broker.Lasting
import MqttBroker.Proofs.Broker.Maximum
import MqttBroker.Proofs.Broker.Mirror
import MqttBroker.Proofs.Broker.Moves
import MqttBroker.Proofs.Broker.Numbering
import MqttBroker.Proofs.Broker.Opening
import MqttBroker.Proofs.Broker.Overlap
import MqttBroker.Proofs.Broker.Ownership
import MqttBroker.Proofs.Broker.Parallel
import MqttBroker.Proofs.Broker.Persistence
import MqttBroker.Proofs.Broker.Reach
import MqttBroker.Proofs.Broker.Readers
import MqttBroker.Proofs.Broker.Recorded
import MqttBroker.Proofs.Broker.Refusal
import MqttBroker.Proofs.Broker.Registry
import MqttBroker.Proofs.Broker.Renewal
import MqttBroker.Proofs.Broker.Resemblance
import MqttBroker.Proofs.Broker.Resumption
import MqttBroker.Proofs.Broker.Routing
import MqttBroker.Proofs.Broker.Run
import MqttBroker.Proofs.Broker.Serving
import MqttBroker.Proofs.Broker.SingleOwner
import MqttBroker.Proofs.Broker.Stakes
import MqttBroker.Proofs.Broker.State
import MqttBroker.Proofs.Broker.Subscribing
import MqttBroker.Proofs.Broker.Topics
import MqttBroker.Proofs.Broker.Transcript
import MqttBroker.Proofs.Broker.Unopened
import MqttBroker.Proofs.Broker.Wills
import MqttBroker.Proofs.Config.Agreement
import MqttBroker.Proofs.Config.Laying
import MqttBroker.Proofs.Config.Reading
import MqttBroker.Proofs.Config.Substitution
import MqttBroker.Proofs.Connection.Emission
import MqttBroker.Proofs.Connection.Holding
import MqttBroker.Proofs.Connection.Limit
import MqttBroker.Proofs.Connection.Numbering
import MqttBroker.Proofs.Connection.Stamping
import MqttBroker.Proofs.Connection.Transport
import MqttBroker.Proofs.Connection.Writing
import MqttBroker.Proofs.Protocol.QoS
import MqttBroker.Proofs.Retained
import MqttBroker.Proofs.Session.Queue
import MqttBroker.Proofs.Session.Turns
import MqttBroker.Proofs.Storage.Repository
import MqttBroker.Proofs.Subscription.Canonicity
import MqttBroker.Proofs.Subscription.Directory
import MqttBroker.Proofs.Subscription.Matching
import MqttBroker.Proofs.Subscription.Trie
import MqttBroker.Proofs.Table
import MqttBroker.Proofs.Toml.Document
import MqttBroker.Proofs.Topic.Filter
import MqttBroker.Proofs.Topic.Validity
import MqttBroker.Proofs.Topic.Widening
import MqttBroker.Protocol.Error
import MqttBroker.Protocol.Packet
import MqttBroker.Protocol.QoS
import MqttBroker.Retained
import MqttBroker.Session.Basic
import MqttBroker.Storage.Error
import MqttBroker.Storage.Repository
import MqttBroker.Subscription.Directory
import MqttBroker.Subscription.Trie
import MqttBroker.Table
import MqttBroker.Text.Quoted
import MqttBroker.Text.Unseen
import MqttBroker.Toml.Document
import MqttBroker.Toml.Lexeme
import MqttBroker.Toml.Scalar
import MqttBroker.Toml.Undated
import MqttBroker.Toml.Value
import MqttBroker.Topic.Filter
import MqttBroker.Topic.Level
import MqttBroker.Topic.Validity
