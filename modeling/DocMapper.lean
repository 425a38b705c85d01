import DocMapper.Json.Reader
import DocMapper.Query.Basic
import DocMapper.Schema.Codec
import DocMapper.Store.Codec
import DocMapper.Adapter.Setup
import DocMapper.Statement.Report
import DocMapper.Model.Plain
import DocMapper.Repository
import DocMapper.Proofs.Condition.Soundness
import DocMapper.Proofs.Statement.Filter
import DocMapper.Proofs.Statement.Walking
import DocMapper.Proofs.Store.History
import DocMapper.Proofs.Store.Contents
import DocMapper.Proofs.Adapter.Isolation
import DocMapper.Proofs.Adapter.Recency
import DocMapper.Proofs.Repository.Updates
import DocMapper.Proofs.Repository.Atomicity
import DocMapper.Proofs.Repository.Coherence
import DocMapper.Proofs.Repository.Inputs
import DocMapper.Proofs.Sequence.Counting
import DocMapper.Proofs.Adapter.InTurn
import DocMapper.Proofs.Aggregate.Choice
import DocMapper.Proofs.Statement.Aggregates
import DocMapper.Proofs.Adapter.StoredViews
import DocMapper.Proofs.Adapter.IndexFailures
import DocMapper.Proofs.Statement.IndexedOrder
import DocMapper.Proofs.Statement.Routing
import DocMapper.Proofs.Statement.Readers
import DocMapper.Proofs.Repository.RoundTrip
import DocMapper.Proofs.Design.TableGuard
import DocMapper.Proofs.Condition.Agreement
import DocMapper.Proofs.Schema.Codec
import DocMapper.Proofs.Selector.Merge
import DocMapper.Proofs.Selector.Flattening
import DocMapper.Proofs.Condition.Negation
import DocMapper.Proofs.Store.SortedFind
import DocMapper.Proofs.Statement.SortBounds
import DocMapper.Proofs.Statement.GroupedParts
import DocMapper.Proofs.Statement.DistinctGroups
import DocMapper.Proofs.Aggregate.Extremes
import DocMapper.Proofs.Aggregate.Reductions
import DocMapper.Proofs.Repository.GivenKeys
import DocMapper.Proofs.Condition.Joining
import DocMapper.Proofs.Repository.WritingBack
import DocMapper.Proofs.Sequence.Exactness
import DocMapper.Proofs.Statement.AggregateLimits
import DocMapper.Proofs.Statement.ClauseOrder
import DocMapper.Proofs.Aggregate.Equality
import DocMapper.Proofs.Repository.KeyOrder
import DocMapper.Proofs.Aggregate.Paths
import DocMapper.Proofs.Store.Positions
