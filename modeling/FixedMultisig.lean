import FixedMultisig.Core.CheckedWord
import FixedMultisig.Core.NestedRounding
import FixedMultisig.Core.RatioRounding
import FixedMultisig.Core.Exec
import FixedMultisig.Core.Cells
import FixedMultisig.Core.EventSystem
import FixedMultisig.Core.WeightedPoll
import FixedMultisig.Core.Registry
import FixedMultisig.Core.SettledTally
import FixedMultisig.Core.Framing
import FixedMultisig.Core.FlatStore
import FixedMultisig.Core.Assembly
import FixedMultisig.Core.Relational
import FixedMultisig.Core.Footprint
import FixedMultisig.Core.Interleaving
import FixedMultisig.Core.Moment
import FixedMultisig.Contract.Decimal
import FixedMultisig.Contract.Expiration
import FixedMultisig.Contract.Threshold
import FixedMultisig.Contract.Proposal
import FixedMultisig.Contract.Decision
import FixedMultisig.Contract.DecimalText
import FixedMultisig.Contract.FixedPoint
import FixedMultisig.Contract.Timing
import FixedMultisig.Contract.Continuation
import FixedMultisig.Contract.Store
import FixedMultisig.Contract.Serialization
import FixedMultisig.Contract.StorageKeys
import FixedMultisig.Contract.HandlerEffects
import FixedMultisig.Contract.Initialization
import FixedMultisig.Contract.Queries
import FixedMultisig.Chain.Refinement
import FixedMultisig.Guarantees.Rounding
import FixedMultisig.Guarantees.DecimalGrammar
import FixedMultisig.Guarantees.ReadBack
import FixedMultisig.Guarantees.Foresight
import FixedMultisig.Guarantees.Consistency
import FixedMultisig.Guarantees.Frame
import FixedMultisig.Guarantees.Lifecycle
import FixedMultisig.Guarantees.Agreement
import FixedMultisig.Guarantees.Creation
import FixedMultisig.Guarantees.Deadlines
import FixedMultisig.Guarantees.YesVotes
import FixedMultisig.Guarantees.VoteOrder
import FixedMultisig.Guarantees.Attainability
import FixedMultisig.Guarantees.Usability
import FixedMultisig.Guarantees.Arithmetic
import FixedMultisig.Guarantees.VoteListing
import FixedMultisig.Guarantees.Pagination
import FixedMultisig.Guarantees.Storage
import FixedMultisig.Guarantees.Coalitions
import FixedMultisig.Guarantees.Isolation
import FixedMultisig.Guarantees.Recount
import FixedMultisig.Guarantees.WindUp
import FixedMultisig.Guarantees.Journal
import FixedMultisig.Guarantees.Anonymity
import FixedMultisig.Guarantees.Transparency
import FixedMultisig.Guarantees.Support
import FixedMultisig.Guarantees.Calendar
import FixedMultisig.Guarantees.Fractions
import FixedMultisig.Guarantees.Listings
import FixedMultisig.Guarantees.Workload
