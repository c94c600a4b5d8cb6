import LocalHold.Relational.Table
import LocalHold.Relational.Truth
import LocalHold.Relational.Query
import LocalHold.Relational.Like
import LocalHold.Hierarchy.Ancestry
import LocalHold.Ordered.OrdSet
import LocalHold.Ordered.Decimal
import LocalHold.Transition.Run
import LocalHold.Transition.Transaction
import LocalHold.Transition.Workers
import LocalHold.Transition.Checked
import LocalHold.Transition.Refusals
import LocalHold.Text
import LocalHold.Types.Memory
import LocalHold.Types.Access
import LocalHold.Context.Types
import LocalHold.Context.Legacy
import LocalHold.Context.Policy
import LocalHold.Context.Ceilings
import LocalHold.Store.Database
import LocalHold.Store.Statements
import LocalHold.Store.Memberships
import LocalHold.Store.ContextWriter
import LocalHold.Store.ContextQuery
import LocalHold.Store.Expansion
import LocalHold.Store.Crud
import LocalHold.Store.Update
import LocalHold.Store.Embedding
import LocalHold.Store.Revise
import LocalHold.Store.Admin
import LocalHold.Store.Commands
import LocalHold.Store.Footprints
import LocalHold.Store.Revisions
import LocalHold.Store.RevisedStatements
import LocalHold.Store.RevisedCommands
import LocalHold.Store.Optimistic
import LocalHold.Store.DeletionRules
import LocalHold.Store.Index
import LocalHold.Store.IndexStatements
import LocalHold.Store.IndexCommands
import LocalHold.Store.IndexRuns
import LocalHold.Store.VectorSearch
import LocalHold.Store.Query
import LocalHold.Store.AccessPredicates
import LocalHold.Store.NonInterference
import LocalHold.Engine.Embedding
import LocalHold.Engine.Work
import LocalHold.Engine.Freshness
import LocalHold.Engine.Profiles
import LocalHold.Server.Protocol
import LocalHold.Server.Resolution
import LocalHold.Server.LegacyResolution
import LocalHold.Server.GovernedPolicy
import LocalHold.Store.ContextEffects
import LocalHold.Server.SpecificAnchors
import LocalHold.Context.Relaxation
import LocalHold.Server.DescendantPolicy
import LocalHold.Store.ExpansionTotal
import LocalHold.Store.LinkEffects
import LocalHold.Store.RowRules
import LocalHold.Store.LeaseEffects
import LocalHold.Store.ContextRuns
import LocalHold.Store.Acyclic
import LocalHold.Store.Supersession
import LocalHold.Store.Entombment
import LocalHold.Engine.Consolidation
import LocalHold.Engine.BackgroundTasks
import LocalHold.Engine.Admissions
import LocalHold.Store.ScopeCache
import LocalHold.Store.ContextKeys
import LocalHold.Store.ScopeWrites
import LocalHold.Store.ScopeRuns
import LocalHold.Store.ScopeAdmin
import LocalHold.Store.ScopeInvariant
import LocalHold.Validation
import LocalHold.Calendar
import LocalHold.Timestamps
import LocalHold.Store.WhereClause
import LocalHold.Store.Prefilter
import LocalHold.Store.EmbeddingLeases
import LocalHold.Store.ScopeFlags
import LocalHold.Server.ReservedKey
import LocalHold.Store.MembershipEffects
import LocalHold.Server.ImplicitContexts
import LocalHold.Store.LegacyAdapter
import LocalHold.Store.DisabledKinds
import LocalHold.Naming.Answers
import LocalHold.Store.AliasAnchors
import LocalHold.Store.ExactLocators
import LocalHold.Store.Deletions
import LocalHold.Paging.Scan
import LocalHold.Store.PagedScan
import LocalHold.Server.CreatedContexts
import LocalHold.Server.Preview
import LocalHold.Server.LegacyRevise
import LocalHold.Store.Numbering
import LocalHold.Server.MembershipLaw
import LocalHold.Server.QualityFlags
import LocalHold.Store.LateHydration
import LocalHold.Store.BatchReads
import LocalHold.Store.Applicability
import LocalHold.Engine.DuplicateGroups
import LocalHold.Engine.Discovery
import LocalHold.Engine.Fusion
import LocalHold.Server.ResolverCandidates
import LocalHold.Store.VectorLoops
import LocalHold.Transition.Programs
import LocalHold.Engine.EmbedBatches
import LocalHold.Engine.BatchAccounting
import LocalHold.Engine.WriteBacks
import LocalHold.Engine.BatchSettlement
import LocalHold.Coding.PrefixCodes
import LocalHold.Store.Fingerprint
import LocalHold.Coding.Quoted
import LocalHold.Store.SearchText
import LocalHold.Ordered.Compaction
import LocalHold.Engine.DuplicateSuppression
import LocalHold.Transition.Counting
import LocalHold.Engine.Resilient
import LocalHold.Engine.Availability
import LocalHold.Engine.Coalescing
import LocalHold.Engine.CoalescedEmbeds
import LocalHold.Coding.GenericUri
import LocalHold.Server.Identity
import LocalHold.Server.RemoteIdentity
import LocalHold.Server.ContextCreate
import LocalHold.Store.StaleConfirmations
import LocalHold.Server.FuzzyConfirmation
import LocalHold.Coding.Placeholders
import LocalHold.Store.SqlText
import LocalHold.Store.SqlPlaceholders
import LocalHold.Store.SqlBindings
import LocalHold.Coding.Offsets
import LocalHold.Coding.Separated
import LocalHold.MachineIntegers
import LocalHold.Utf8
import LocalHold.Editing.Caret
import LocalHold.Ui.TextInput
import LocalHold.Store.FoldedSearch
import LocalHold.Server.ScopeHierarchy
import LocalHold.Server.ScopeRegistration
import LocalHold.Transition.EventLoop
import LocalHold.Ui.EditDraft
import LocalHold.Ui.State
import LocalHold.Ui.App
import LocalHold.Ui.Session
import LocalHold.Ui.Consistency
import LocalHold.Ui.Delivery
import LocalHold.Ui.Drafts
import LocalHold.Ui.Mutations
import LocalHold.Ui.Listings
import LocalHold.Ui.Selection
import LocalHold.Store.RestoreSafety
import LocalHold.Store.BackupSafety
