import ArdOssie.Base
import ArdOssie.Library.IntervalTree
import ArdOssie.Library.Intervals
import ArdOssie.Library.Lists
import ArdOssie.Library.Bracketed
import ArdOssie.Library.Programs
import ArdOssie.Library.KeyedList
import ArdOssie.Library.Results
import ArdOssie.Library.Regex
import ArdOssie.Library.SequenceMatcher
import ArdOssie.Library.Binary64
import ArdOssie.Library.Sha256
import ArdOssie.Text
import ArdOssie.Utf8
import ArdOssie.PyStrings
import ArdOssie.CanonicalHash
import ArdOssie.JsonText
import ArdOssie.Semantic.SourceBox
import ArdOssie.Semantic.RectangleMatches
import ArdOssie.Semantic.Models
import ArdOssie.Semantic.Structure
import ArdOssie.Semantic.Reconciliation
import ArdOssie.Semantic.RepairModels
import ArdOssie.Semantic.Repair
import ArdOssie.Semantic.RepairPlanner
import ArdOssie.Semantic.RepairValidation
import ArdOssie.Semantic.RepairBatches
import ArdOssie.Semantic.RepairRuns
import ArdOssie.Semantic.Render
import ArdOssie.Semantic.Parser
import ArdOssie.Semantic.Degradation
import ArdOssie.Semantic.Completion
import ArdOssie.Semantic.Evidence
import ArdOssie.Semantic.Candidates
import ArdOssie.Semantic.SpacingRepair
import ArdOssie.Llm.Service
import ArdOssie.Semantic.DecisionRecords
import ArdOssie.Semantic.Adjudication
import ArdOssie.Semantic.TrustedDecisions
import ArdOssie.Semantic.Decide
import ArdOssie.Semantic.VoteRuns
import ArdOssie.Registry.Records
import ArdOssie.Registry.ChangeSets
import ArdOssie.Registry.Store
import ArdOssie.Registry.Runs
import ArdOssie.Application.Contracts
import ArdOssie.Adapters.Filesystem
import ArdOssie.Release.Detection
import ArdOssie.Release.Atomicity
import ArdOssie.Pipeline.Versions
import ArdOssie.Pipeline.Drafts
import ArdOssie.Pipeline.TableRecords
import ArdOssie.Pipeline.Columns
import ArdOssie.Pipeline.Reprocessing
import ArdOssie.Pipeline.Duplicates
import ArdOssie.Pipeline.Process
import ArdOssie.Pipeline.SharedTables
import ArdOssie.Adapters.Subprocess
import ArdOssie.Adapters.GitCli
import ArdOssie.Application.ChangeCheck
import ArdOssie.Adapters.PullRequests
import ArdOssie.Application.Readiness
import ArdOssie.Release.Publication
import ArdOssie.Adapters.Workspace
import ArdOssie.Application.Intake
import ArdOssie.Semantic.EvidenceDocuments
import ArdOssie.Semantic.EvidenceSources
import ArdOssie.Semantic.EvidenceAuthority
import ArdOssie.Semantic.TokenPlaces
import ArdOssie.Semantic.Markdown
import ArdOssie.Semantic.CanonicalModels
import ArdOssie.Semantic.MarkdownTables
import ArdOssie.Semantic.MarkdownLayouts
import ArdOssie.Semantic.LayoutModels
import ArdOssie.Semantic.MarkdownRender
import ArdOssie.Semantic.MarkdownHtml
import ArdOssie.Semantic.CanonicalValidation
import ArdOssie.Semantic.CanonicalAssembly
import ArdOssie.Semantic.FidelityReport
import ArdOssie.Semantic.RepeatedEdges
import ArdOssie.Semantic.SpacingText
import ArdOssie.Semantic.Spacing
import ArdOssie.Semantic.SpacingSets
import ArdOssie.Semantic.TableSpacing
import ArdOssie.Semantic.TableSpacingRepair
import ArdOssie.Semantic.TableSpacingSets
import ArdOssie.Library.LinearExtensions
import ArdOssie.Semantic.RegionOrders
import ArdOssie.Pipeline.VersionPlans
import ArdOssie.Pipeline.ProductFacts
import ArdOssie.Pipeline.NamedRecords
import ArdOssie.Pipeline.Metrics
import ArdOssie.Pipeline.Relationships
import ArdOssie.Library.Components
import ArdOssie.Library.FileTrees
import ArdOssie.Pipeline.Promotion
import ArdOssie.Semantic.Corrections
import ArdOssie.Semantic.CorrectionReplay
import ArdOssie.Semantic.LineBoundaries
import ArdOssie.Semantic.TableGrids
import ArdOssie.Semantic.HintTables
import ArdOssie.Semantic.HintedTables
import ArdOssie.Semantic.GeometricTables
import ArdOssie.Semantic.TableCandidateSets
import ArdOssie.Semantic.CanonicalSoundness
import ArdOssie.Library.IntervalBalance
import ArdOssie.Semantic.IntervalRuns
import ArdOssie.Semantic.Replay
import ArdOssie.Library.RegexLanguages
import ArdOssie.Library.Windows
import ArdOssie.Application.RepositoryChecks
import ArdOssie.Application.Output
import ArdOssie.Adapters.CutSecrets
import ArdOssie.Library.Attempts
import ArdOssie.Application.Attachments
import ArdOssie.Library.RegexPieces
import ArdOssie.Application.IssueForm
import ArdOssie.Library.Histories
import ArdOssie.Adapters.PathPolicies
import ArdOssie.Adapters.GitTrees
import ArdOssie.Adapters.GitRepository
import ArdOssie.Application.BaseSync
import ArdOssie.Library.Schemas
import ArdOssie.Pipeline.OssieCompiler
import ArdOssie.Pipeline.OssieMeaning
import ArdOssie.Library.Guarantees
import ArdOssie.Adapters.GitHubSettings
import ArdOssie.Application.GitHubBootstrap
import ArdOssie.Application.GitHubBootstrapPlans
import ArdOssie.Application.GitHubBootstrapRuns
import ArdOssie.Application.GitHubBootstrapSystem
import ArdOssie.Application.Processing
import ArdOssie.Application.ProcessingRuns
import ArdOssie.Application.ProcessingFrames
import ArdOssie.Application.Finalization
import ArdOssie.Application.FinalizationRuns
