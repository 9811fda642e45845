import DualStore.Broker.Workers
import DualStore.Delivery.Metrics
import DualStore.Event.Encoding
import DualStore.Json.Diagnosis
import DualStore.Main
import DualStore.Memory.World
import DualStore.Proofs.Memory.Document
import DualStore.Proofs.Delivery.Process
import DualStore.Proofs.Memory.Index
import DualStore.Proofs.Memory.Posts
import DualStore.Proofs.Memory.Service
import DualStore.Proofs.Memory.Session
import DualStore.Proofs.Sync.Script
import DualStore.Sync.Trace
import DualStore.Proofs.Sync.Eligibility
import DualStore.Proofs.Concurrency.Crew
import DualStore.Proofs.Concurrency.Synchronising
import DualStore.Proofs.Concurrency.Resurrection
import DualStore.Proofs.Identity.LastWritten
import DualStore.Proofs.Concurrency.Propagating
import DualStore.Proofs.Concurrency.AuthorAgreement
import DualStore.Proofs.Identity.Propagation
import DualStore.Proofs.Identity.Deletion
import DualStore.Proofs.Sync.SingleWrite
import DualStore.Proofs.Delivery.Transparency
import DualStore.Proofs.Sync.Convergence
import DualStore.Proofs.Store.Lookup
import DualStore.Proofs.Memory.FixedPosts
import DualStore.Proofs.Sync.Keys
import DualStore.Proofs.Index.Segment
import DualStore.Proofs.Index.Addressing
import DualStore.Proofs.Index.AuthorRewrite
import DualStore.Proofs.Broker.Answers
import DualStore.Proofs.Broker.Startup
import DualStore.Proofs.Event.Agreement
import DualStore.Proofs.Event.Members
import DualStore.Proofs.Event.RoundTrip
import DualStore.Proofs.Delivery.Conservation
import DualStore.Proofs.Identity.Delivery
import DualStore.Proofs.Memory.Alike
import DualStore.Proofs.Sync.Redelivery
import DualStore.Proofs.Sync.Searches
import DualStore.Proofs.Sync.StoredIds
import DualStore.Proofs.Identity.Reordering
import DualStore.Proofs.Time.Epoch
import DualStore.Proofs.Delivery.Retrying
import DualStore.Proofs.Time.Spelling
import DualStore.Proofs.Time.Reading
import DualStore.Proofs.Index.CreationTime
import DualStore.Proofs.Sync.StoredNumbers
import DualStore.Proofs.Event.Positions
import DualStore.Proofs.Delivery.Tracing
import DualStore.Proofs.Sync.Frame
import DualStore.Proofs.Event.Truncation
import DualStore.Proofs.Time.Duration
import DualStore.Proofs.Delivery.Backoff
import DualStore.Proofs.Event.Naming
import DualStore.Proofs.Delivery.Descriptors
import DualStore.Proofs.Text.Decimal
import DualStore.Proofs.Settings.Variables
import DualStore.Proofs.Settings.Acceptance
