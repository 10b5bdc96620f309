import Belayer.Framework.Dict
import Belayer.Framework.Run
import Belayer.Router.SlimeRouter
import Belayer.Router.Registry
import Belayer.Router.Load
import Belayer.Router.Reservations
import Belayer.Router.Recovery
import Belayer.Router.Reroute
import Belayer.Rollout.RolloutManager
import Belayer.Rollout.Reconnect
import Belayer.Engine.SGLangEngine
import Belayer.Rollout.Collect
import Belayer.Rollout.Agreement
import Belayer.Engine.Handover
import Belayer.Engine.Shutdown
import Belayer.Engine.Interference
import Belayer.Engine.CleanUp
import Belayer.Framework.Waiting
import Belayer.Framework.Marking
import Belayer.Framework.Places
import Belayer.Exec.Sections
import Belayer.Exec.Requests
import Belayer.Exec.Discipline
import Belayer.Exec.Deadlock
import Belayer.Exec.Exclusion
import Belayer.Exec.CheckpointManager
import Belayer.Exec.Rerun
import Belayer.Exec.Create
import Belayer.Exec.InFlight
import Belayer.Exec.Settled
import Belayer.Exec.Gc
import Belayer.Exec.CheckpointNode
import Belayer.Exec.Retained
import Belayer.Exec.ContainerPool
import Belayer.Exec.Ownership
import Belayer.Pool.SweEnvPool
import Belayer.Pool.Capacity
import Belayer.Pool.Checkpoints
import Belayer.Pool.Latest
import Belayer.Framework.Text
import Belayer.Scheduler.ResourceVector
import Belayer.Scheduler.OnlineEnvDockerScheduler
import Belayer.Scheduler.Admission
import Belayer.Scheduler.Prompts
import Belayer.Scheduler.Reservation
import Belayer.Scheduler.Effects
import Belayer.Scheduler.Idle
import Belayer.Scheduler.Budget
import Belayer.Scheduler.Conservation
import Belayer.Scheduler.Presence
import Belayer.Framework.Dated
import Belayer.Agent.RunAgentRemote
import Belayer.Agent.Rollback
import Belayer.Agent.Environment
import Belayer.Agent.GenerateImpl
import Belayer.Agent.Leases
import Belayer.Agent.RolloutTasks
import Belayer.Agent.Cancellation
import Belayer.Client.SweEnvClient
import Belayer.Client.ExecCall
import Belayer.Client.AllocateCall
import Belayer.Client.Orphans
import Belayer.Framework.Json
import Belayer.Router.Stream
import Belayer.Router.Generate
import Belayer.Framework.Generator
import Belayer.Router.WorkerStream
import Belayer.Router.Transparency
import Belayer.Framework.Ordered
import Belayer.Framework.Tensor
import Belayer.Weights.PersistentPs
import Belayer.Weights.Pipeline
import Belayer.Framework.Traverse
import Belayer.Weights.PackLayers
import Belayer.Weights.Reshard
import Belayer.Weights.WeightDaemon
import Belayer.Weights.LayerNames
import Belayer.Weights.Decoder
import Belayer.Weights.PackedDecoder
import Belayer.Weights.QkvShards
import Belayer.Weights.QkvLayout
import Belayer.Weights.HeadSize
import Belayer.Weights.BiasShards
import Belayer.Framework.Batching
import Belayer.Rollout.GenerateRollout
import Belayer.Rollout.Regroup
import Belayer.Rollout.WholeGroups
import Belayer.Rollout.Progress
import Belayer.Rollout.PartialRollout
import Belayer.Agent.MessageUtils
import Belayer.Agent.Samples
import Belayer.Agent.Transcript
import Belayer.Agent.Judged
import Belayer.Agent.SwePrm
import Belayer.Agent.TurnSpans
import Belayer.Agent.StepScores
import Belayer.Agent.SweContextManager
import Belayer.Exec.GcPlan
import Belayer.Framework.Centered
import Belayer.Framework.ListPlaces
import Belayer.Rollout.GroupRewards
import Belayer.Rollout.StepWiseRewards
import Belayer.Rollout.StepBuckets
import Belayer.Scheduler.ResourceProfiles
import Belayer.Router.RecoveryPayload
import Belayer.Engine.Promotion
import Belayer.Router.RequestRun
import Belayer.Router.Alignment
import Belayer.Router.FinishedRequest
import Belayer.Router.Coalescing
import Belayer.Framework.Bisect
import Belayer.Framework.SortedDict
import Belayer.Policy.AdaptiveTailModel
import Belayer.Policy.LongTrajectoryFaultPlanner
import Belayer.Policy.FaultPlanProgress
import Belayer.Policy.FaultPlanOrder
import Belayer.Scheduler.PromptIds
import Belayer.Framework.HeadQueue
import Belayer.Framework.LineBuffer
import Belayer.Rollout.PostStream
import Belayer.Rollout.StreamFidelity
import Belayer.Scheduler.HeadOfLine
import Belayer.Pool.AllocateRoute
import Belayer.Pool.CloseRoute
import Belayer.Pool.LatestAgreement
import Belayer.Framework.CombineLeast
import Belayer.Framework.Segments
import Belayer.Train.DataIterator
import Belayer.Train.GetDataIterator
import Belayer.Train.Schedule
import Belayer.Framework.Inverse
import Belayer.Scheduler.LeaseMap
import Belayer.Framework.Forest
import Belayer.Router.StringRadixTrie
import Belayer.Router.LongestPrefix
import Belayer.Router.TrieCollection
import Belayer.Framework.WeightedMean
import Belayer.Exec.ContainerStats
import Belayer.Framework.WhileLoop
import Belayer.Policy.FaultReplay
import Belayer.Policy.ReplayTimeline
import Belayer.Engine.HealthMonitor
import Belayer.Engine.FailureStreaks
import Belayer.Framework.Buckets
import Belayer.Framework.Memory
import Belayer.Weights.ParameterServer
import Belayer.Weights.Registration
import Belayer.Weights.H2DBuckets
import Belayer.Weights.ReceiverRanks
import Belayer.Weights.UpdatePerBucket
import Belayer.Weights.UpdateSafety
import Belayer.Weights.UpdateProgress
import Belayer.Weights.UpdateDelivery
import Belayer.Train.PartitionSpread
import Belayer.Train.Returns
import Belayer.Train.Responses
import Belayer.Train.LogProbChunks
