import Shabdiz.Core.AwaitAnyOfStates
import Shabdiz.Core.StatusScan
import Shabdiz.Core.Provenance
import Shabdiz.Core.Instances
import Shabdiz.Core.ScannerCalls
import Shabdiz.Core.EnabledScanners
import Shabdiz.Core.AwaitCompletion
import Shabdiz.Core.AwaitedNetwork
import Shabdiz.Job.WorkerManager
import Shabdiz.Job.DefaultWorkerRemote
import Shabdiz.Job.CancelRequests
import Shabdiz.Job.CancelledJobs
import Shabdiz.Job.WorkerNetwork
import Shabdiz.Job.JobMachine
import Shabdiz.Job.NetworkShutdown
import Shabdiz.Job.JobResults
import Shabdiz.Job.PendingFutures
import Shabdiz.Job.SubmittedJobs
import Shabdiz.Job.CancelAnswers
import Shabdiz.Job.FutureMap
import Shabdiz.Core.ScannerRemoval
import Shabdiz.Text.Lines
import Shabdiz.Text.Charset
import Shabdiz.Util.ProcessUtil
import Shabdiz.Host.KeyValues
import Shabdiz.Host.Bootstrap
import Shabdiz.Core.SequentialScanners
import Shabdiz.Core.ProbedStates
import Shabdiz.Util.Duration
import Shabdiz.Core.CycleDelay
import Shabdiz.Core.ScanTimeout
import Shabdiz.Core.ScanCycle
import Shabdiz.Util.Retry
import Shabdiz.Host.Commands
import Shabdiz.Host.BootstrapConfiguration
import Shabdiz.Util.AttributeKey
import Shabdiz.Concurrency.SharedCalls
import Shabdiz.Evaluation.Analysers
import Shabdiz.Evaluation.ApplicationStateCounters
import Shabdiz.Text.Numeral
import Shabdiz.Text.Split
import Shabdiz.Util.Patterns
import Shabdiz.Util.HostRanges
import Shabdiz.Util.RangeLimit
import Shabdiz.Util.DottedQuads
import Shabdiz.Util.DurationOrder
import Shabdiz.Util.DurationText
import Shabdiz.Util.InetAddress
import Shabdiz.Util.NetworkUtil
import Shabdiz.Util.AddressStrings
import Shabdiz.Job.WorkerMain
import Shabdiz.Host.ProcessId
import Shabdiz.Core.FirstDescriptor
import Shabdiz.Job.HashCodes
import Shabdiz.Util.Combinations
import Shabdiz.Host.FileDeletionHook
import Shabdiz.Util.CompressionUtil
import Shabdiz.Host.MavenDependencyResolver
import Shabdiz.Testing.Retry
import Shabdiz.Evaluation.CombinedStatistics
import Shabdiz.Evaluation.PropertyGroups
import Shabdiz.Evaluation.ResurrectionExperiment
import Shabdiz.Site.JavaScript
import Shabdiz.Site.Query
import Shabdiz.Site.QueryMatches
import Shabdiz.Site.SortBy
import Shabdiz.Util.TaskRetryWrapper
import Shabdiz.Util.LargestTimeUnit
import Shabdiz.Evaluation.ChordRing
import Shabdiz.Evaluation.RingStabilization
import Shabdiz.Testing.ParallelParameterized
import Shabdiz.Evaluation.ExperimentRunner
import Shabdiz.Text.ShellList
import Shabdiz.Host.JavaCommand
import Shabdiz.Host.AgentProcess
import Shabdiz.Host.FileProcess
import Shabdiz.Concurrency.WeakIteration
import Shabdiz.Core.Shutdown
import Shabdiz.Program.Triple
import Shabdiz.Evaluation.Experiment
import Shabdiz.Site.AnalysisPage
import Shabdiz.Concurrency.Pipe
import Shabdiz.Util.ProcessOutput
import Shabdiz.Concurrency.Rounds
import Shabdiz.Core.AutoDeployment
