import SimsysMetrics.Lib.Trim
import SimsysMetrics.Lib.Compensation
import SimsysMetrics.Lib.CappedSet
import SimsysMetrics.Lib.Float64
import SimsysMetrics.Lib.TickPolicy
import SimsysMetrics.Contract
import SimsysMetrics.Http
import SimsysMetrics.Service
import SimsysMetrics.Go.Middleware
import SimsysMetrics.Python.FastApi
import SimsysMetrics.Python.Flask
import SimsysMetrics.Lib.Runs
import SimsysMetrics.Lib.PathPattern
import SimsysMetrics.Python.Rollback
import SimsysMetrics.Node.Install
import SimsysMetrics.Node.Express
import SimsysMetrics.Lib.JsString
import SimsysMetrics.Node.ExpressRoutes
import SimsysMetrics.Node.Hono
import SimsysMetrics.Node.NextRoutes
import SimsysMetrics.Node.Next
import SimsysMetrics.Node.Rollback
import SimsysMetrics.Reinit
import SimsysMetrics.Pollers
import SimsysMetrics.Identity
import SimsysMetrics.Node.CpuCounter
import SimsysMetrics.ProcessScrapes
import SimsysMetrics.Lib.Ownership
import SimsysMetrics.BuildInfoRuns
import SimsysMetrics.Python.Concurrent
import SimsysMetrics.Node.NextDecoding
import SimsysMetrics.Relabel
import SimsysMetrics.Go.Install
import SimsysMetrics.Lib.FirstMatch
import SimsysMetrics.Node.NextPurity
import SimsysMetrics.Node.HonoPaths
import SimsysMetrics.Node.NextRuns
import SimsysMetrics.Lib.Thenable
import SimsysMetrics.Node.Jobs
import SimsysMetrics.Python.Jobs
import SimsysMetrics.Lib.Attempts
import SimsysMetrics.Node.QueueTicks
import SimsysMetrics.QueueResults
import SimsysMetrics.Lib.Metering
import SimsysMetrics.Progress
import SimsysMetrics.Node.Progress
import SimsysMetrics.Python.Progress
import SimsysMetrics.Go.Progress
import SimsysMetrics.ProgressTrackers
import SimsysMetrics.Go.ProgressCounts
import SimsysMetrics.Go.ProgressFlush
import SimsysMetrics.Go.Collectors
import SimsysMetrics.Go.ConcurrentInstalls
import SimsysMetrics.ServiceLanes
import SimsysMetrics.Lib.Once
import SimsysMetrics.Go.JobSpans
import SimsysMetrics.Go.PollerLoop
import SimsysMetrics.Python.PollerThread
import SimsysMetrics.Node.AsyncTicks
import SimsysMetrics.Node.LiveTrackers
import SimsysMetrics.Node.TrackerPolicies
import SimsysMetrics.Methods
import SimsysMetrics.Python.ProgressThreads
import SimsysMetrics.Factories
import SimsysMetrics.Go.Factories
import SimsysMetrics.Go.ServiceIdentities
import SimsysMetrics.Lib.DottedQuad
import SimsysMetrics.Go.Helpers
