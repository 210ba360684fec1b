import LayerInference.AnnouncedPositions
import LayerInference.AnswerDocuments
import LayerInference.AttentionViews
import LayerInference.BackpressureGuard
import LayerInference.BinaryTransport
import LayerInference.ByteStrings
import LayerInference.CacheGrowth
import LayerInference.CacheLedger
import LayerInference.CausalMaps
import LayerInference.ChainAccounting
import LayerInference.ChainMetricLaws
import LayerInference.ChainedRouting
import LayerInference.ChunkedScans
import LayerInference.CommutingRuns
import LayerInference.ConfigLines
import LayerInference.ConnectionLoop
import LayerInference.CpuExecutor
import LayerInference.DuplicateForwards
import LayerInference.ExactSampling
import LayerInference.ExecutionTotality
import LayerInference.ExecutorLockstep
import LayerInference.FailedForward
import LayerInference.FallibleRuns
import LayerInference.FieldRemoval
import LayerInference.FlatVectors
import LayerInference.FloatArithmetic
import LayerInference.FollowedGenerations
import LayerInference.ForwardBroker
import LayerInference.FrameProtocol
import LayerInference.FrameTensors
import LayerInference.GenerateRequests
import LayerInference.GeneratedStageMaps
import LayerInference.GenerationLaw
import LayerInference.GenerationLoop
import LayerInference.GenerationSummary
import LayerInference.GraphReports
import LayerInference.GroupedFolds
import LayerInference.HalfPrecision
import LayerInference.HistoryFailures
import LayerInference.HistoryInterleaving
import LayerInference.HistoryStore
import LayerInference.HttpDelivery
import LayerInference.HttpMessages
import LayerInference.HttpTransfer
import LayerInference.IndexArithmetic
import LayerInference.InvokeAccounting
import LayerInference.InvokeHandler
import LayerInference.JsonDocuments
import LayerInference.JsonFields
import LayerInference.JsonPieces
import LayerInference.JsonStrings
import LayerInference.JsonText
import LayerInference.KeyedGuards
import LayerInference.LayerRanges
import LayerInference.LineRecords
import LayerInference.LostAnswers
import LayerInference.ManifestRoundTrip
import LayerInference.ManifestTexts
import LayerInference.MetadataForms
import LayerInference.MetadataHops
import LayerInference.MetadataReader
import LayerInference.MetadataRoundTrips
import LayerInference.MetadataTexts
import LayerInference.ModuleTransparency
import LayerInference.NucleusBounds
import LayerInference.NumberReads
import LayerInference.NumberTexts
import LayerInference.NumericFields
import LayerInference.OneSidedRuns
import LayerInference.OpenTexts
import LayerInference.OrderedDicts
import LayerInference.PartialRuntime
import LayerInference.PartitionExecution
import LayerInference.PartitionGraph
import LayerInference.PartitionRouting
import LayerInference.PartitionServing
import LayerInference.PayloadPrecision
import LayerInference.PersistentClient
import LayerInference.PrefillChunks
import LayerInference.PromptFields
import LayerInference.PythonGenerationLaw
import LayerInference.PythonPipeline
import LayerInference.PythonStage
import LayerInference.PythonStageEffects
import LayerInference.PythonValues
import LayerInference.QuotedTexts
import LayerInference.RequestBodies
import LayerInference.RequestSegmentation
import LayerInference.ResultTexts
import LayerInference.Rounding
import LayerInference.RunSimulation
import LayerInference.RunningSums
import LayerInference.Runs
import LayerInference.RuntimeTexts
import LayerInference.Sampling
import LayerInference.SectionOrder
import LayerInference.ServerAnswers
import LayerInference.SessionDiscipline
import LayerInference.SessionEffects
import LayerInference.SessionIsolation
import LayerInference.SessionMachine
import LayerInference.SessionPositions
import LayerInference.ShardCompleteness
import LayerInference.ShardTools
import LayerInference.Slugs
import LayerInference.SplitInvariance
import LayerInference.StageChainMetrics
import LayerInference.StageCounts
import LayerInference.StageExecution
import LayerInference.StageMapAgreement
import LayerInference.StageMapFiles
import LayerInference.StageMapText
import LayerInference.StagePipeline
import LayerInference.StageSequence
import LayerInference.StageSplits
import LayerInference.StageStartup
import LayerInference.StopMarkers
import LayerInference.StridedViews
import LayerInference.TagErasure
import LayerInference.TensorAbi
import LayerInference.TensorPlans
import LayerInference.TensorSizes
import LayerInference.TextCleanup
import LayerInference.TextStreams
import LayerInference.ThreadCounts
import LayerInference.TopOneSampling
import LayerInference.TopologyRouting
import LayerInference.TransposedCache
import LayerInference.UnreliableStages
import LayerInference.UrlGrammar
import LayerInference.WholeModel
import LayerInference.ZeroModel
