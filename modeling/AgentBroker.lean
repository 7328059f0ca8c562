import AgentBroker.Agent.Gathering
import AgentBroker.CommandLine.Files
import AgentBroker.Decimal.Fixed
import AgentBroker.Handshake.Rehearsal
import AgentBroker.Json.Canonical
import AgentBroker.Json.Member
import AgentBroker.Main
import AgentBroker.Wire.Settings
import AgentBroker.Proofs.Negotiation.History
import AgentBroker.Proofs.Negotiation.Threading
import AgentBroker.Proofs.Directory.Entries
import AgentBroker.Proofs.Directory.Census
import AgentBroker.Proofs.Broker.Aftermath
import AgentBroker.Proofs.Broker.Dispatch
import AgentBroker.Proofs.Broker.History
import AgentBroker.Proofs.Broker.Closing
import AgentBroker.Proofs.Broker.Ownership
import AgentBroker.Proofs.Broker.Discovery
import AgentBroker.Proofs.Broker.Delivery
import AgentBroker.Proofs.Frame.Decomposition
import AgentBroker.Proofs.Frame.Arrival
import AgentBroker.Proofs.Scheduler.Work
import AgentBroker.Proofs.Scheduler.Order
import AgentBroker.Proofs.Scheduler.InOrder
import AgentBroker.Proofs.Connection.Streams
import AgentBroker.Proofs.Json.Lexical
import AgentBroker.Proofs.Json.Parsing
import AgentBroker.Proofs.Double.Rounding
import AgentBroker.Proofs.Json.Finite
import AgentBroker.Proofs.Decimal.Positive
import AgentBroker.Proofs.Json.Literal
import AgentBroker.Proofs.Wire.Lawful
import AgentBroker.Proofs.Wire.Description
import AgentBroker.Proofs.Wire.Message
import AgentBroker.Proofs.Wire.RoundTrip
import AgentBroker.Proofs.Broker.Apart
import AgentBroker.Proofs.Connection.Reading
import AgentBroker.Proofs.Connection.Conveyance
import AgentBroker.Proofs.Stream.Party
import AgentBroker.Proofs.Scheduler.Settling
import AgentBroker.Proofs.Scheduler.Requests
import AgentBroker.Proofs.Handshake.Entrance
import AgentBroker.Proofs.Handshake.Admission
import AgentBroker.Proofs.Handshake.Undoing
import AgentBroker.Proofs.Handshake.Gatekeeping
import AgentBroker.Proofs.Handshake.Withdrawal
import AgentBroker.Proofs.Wire.Size
import AgentBroker.Proofs.Broker.Sessions
import AgentBroker.Proofs.Agent.Company
import AgentBroker.Proofs.Negotiation.Identifier
import AgentBroker.Proofs.Negotiation.Bookkeeping
import AgentBroker.Proofs.Negotiation.Turn
import AgentBroker.Proofs.Broker.Consultation
import AgentBroker.Proofs.Broker.Readers
import AgentBroker.Proofs.Agent.Parley
import AgentBroker.Proofs.Broker.Arrivals
import AgentBroker.Proofs.Handshake.Mail
import AgentBroker.Proofs.Connection.Writing
import AgentBroker.Proofs.Connection.Visit
import AgentBroker.Proofs.Stream.Link
import AgentBroker.Proofs.Scheduler.Admission
import AgentBroker.Proofs.Handshake.Exchange
import AgentBroker.Proofs.Handshake.Applicant
import AgentBroker.Proofs.Handshake.Hosting
import AgentBroker.Proofs.Handshake.Meeting
import AgentBroker.Proofs.Handshake.Outcome
import AgentBroker.Proofs.Negotiation.Independence
import AgentBroker.Proofs.Map.Total
import AgentBroker.Proofs.Metrics.Marks
import AgentBroker.Proofs.Metrics.Window
import AgentBroker.Proofs.Broker.Marking
import AgentBroker.Proofs.Broker.Accounts
import AgentBroker.Proofs.Broker.Filing
import AgentBroker.Proofs.Broker.Interleaving
import AgentBroker.Proofs.Yields
import AgentBroker.Proofs.Text.Digit
import AgentBroker.Proofs.Toml.Text
import AgentBroker.Proofs.Toml.Literal
import AgentBroker.Proofs.Toml.Document
import AgentBroker.Proofs.Toml.Bounds
import AgentBroker.Proofs.Config.Document
import AgentBroker.Proofs.Negotiation.Legality
import AgentBroker.Proofs.Negotiation.Completion
import AgentBroker.Proofs.Negotiation.Expiry
import AgentBroker.Proofs.Broker.Disconnection
import AgentBroker.Proofs.Broker.Letters
import AgentBroker.Proofs.Broker.Answers
import AgentBroker.Proofs.Description.Order
import AgentBroker.Proofs.Description.Validation
import AgentBroker.Proofs.Query.Validation
import AgentBroker.Proofs.Query.Matching
import AgentBroker.Proofs.Agent.Hearing
import AgentBroker.Proofs.Agent.Rest
import AgentBroker.Proofs.Agent.Numbering
import AgentBroker.Proofs.Broker.Registrations
import AgentBroker.Proofs.Negotiation.Dialogues
import AgentBroker.Proofs.Negotiation.Pending
