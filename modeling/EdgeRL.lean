import EdgeRL.Library.AssocList
import EdgeRL.Library.Fold
import EdgeRL.Library.PriorityQueue
import EdgeRL.Library.Script
import EdgeRL.Library.TransitionSystem
import EdgeRL.Common.Config
import EdgeRL.Common.Geo
import EdgeRL.Common.Models
import EdgeRL.Common.Metrics
import EdgeRL.Common.StateBuilder
import EdgeRL.Algorithms.Base
import EdgeRL.Algorithms.Greedy
import EdgeRL.Algorithms.HPA
import EdgeRL.Algorithms.Voila
import EdgeRL.Algorithms.PPO
import EdgeRL.Simulator.Events
import EdgeRL.Simulator.Engine
import EdgeRL.Simulator.Requests
import EdgeRL.Simulator.Decisions
import EdgeRL.Simulator.Run
import EdgeRL.Simulator.Lifecycle
import EdgeRL.Simulator.Representation
import EdgeRL.Simulator.Refinement
import EdgeRL.Simulator.Start
import EdgeRL.Simulator.Simulation
import EdgeRL.Simulator.ServerStates
import EdgeRL.Simulator.Placement
import EdgeRL.Simulator.Provisioning
import EdgeRL.Simulator.Timing
import EdgeRL.Simulator.Frame
import EdgeRL.Simulator.Graceful
import EdgeRL.K8s.RedisState
import EdgeRL.K8s.Frames
import EdgeRL.K8s.SlotPool
import EdgeRL.K8s.Slots
import EdgeRL.K8s.SlotSafety
import EdgeRL.K8s.Dispatcher
import EdgeRL.K8s.Routing
import EdgeRL.K8s.Completion
import EdgeRL.K8s.Windows
import EdgeRL.K8s.Sampler
import EdgeRL.K8s.SampledUnits
import EdgeRL.K8s.Deletion
import EdgeRL.Training.Env
import EdgeRL.Training.Masks
import EdgeRL.Simulator.Control
import EdgeRL.Training.Permits
import EdgeRL.Training.Ticks
import EdgeRL.Training.Demonstrations
import EdgeRL.Simulator.Energy
import EdgeRL.Simulator.Utilization
import EdgeRL.Simulator.BeginTick
import EdgeRL.Library.FifoQueue
import EdgeRL.Common.ReplicaQueue
import EdgeRL.Simulator.Audit
import EdgeRL.K8s.Provisioning
import EdgeRL.K8s.EmergencyBoot
import EdgeRL.K8s.Dwell
import EdgeRL.K8s.Audit
import EdgeRL.K8s.ZeroDowntime
import EdgeRL.K8s.Trials
import EdgeRL.Simulator.Selection
import EdgeRL.Simulator.Drain
import EdgeRL.Library.Choice
import EdgeRL.Training.Parity
import EdgeRL.Algorithms.VoilaHistory
import EdgeRL.Algorithms.HPAConvergence
import EdgeRL.Algorithms.GreedyPlacement
import EdgeRL.Library.SetCover
import EdgeRL.Algorithms.InitialPlacement
import EdgeRL.Library.Reservation
import EdgeRL.Simulator.Prevalidation
import EdgeRL.K8s.AbortedDrain
import EdgeRL.K8s.ReplicaStates
import EdgeRL.Simulator.Proposals
import EdgeRL.Algorithms.Checked
import EdgeRL.Simulator.CheckedTick
import EdgeRL.Simulator.TickSafety
import EdgeRL.Data.Loader
import EdgeRL.Data.Shanghai
import EdgeRL.Algorithms.NetworkCoordinates
import EdgeRL.Common.Corners
import EdgeRL.Simulator.Response
import EdgeRL.Library.Streak
import EdgeRL.Simulator.Sustain
import EdgeRL.Library.BinaryProgram
import EdgeRL.K8s.Sustain
import EdgeRL.Algorithms.OptimalPlacement
import EdgeRL.Library.Observation
import EdgeRL.Algorithms.Occupancy
import EdgeRL.Library.DefaultDict
import EdgeRL.Simulator.Observation
import EdgeRL.Training.Peek
import EdgeRL.Training.DecisionProblem
import EdgeRL.Simulator.Conservation
import EdgeRL.Simulator.Termination
import EdgeRL.Simulator.EnergyLaw
import EdgeRL.Simulator.Queues
import EdgeRL.Simulator.ServedRequests
import EdgeRL.Simulator.Handover
import EdgeRL.Simulator.Downtime
import EdgeRL.Simulator.TickCounters
import EdgeRL.Simulator.ObservationBox
import EdgeRL.K8s.LostRequests
import EdgeRL.Library.LastChange
import EdgeRL.Simulator.ServerTimes
import EdgeRL.Library.Percentile
import EdgeRL.Common.Report
import EdgeRL.Simulator.FinalReport
import EdgeRL.Library.Mailbox
import EdgeRL.K8s.CompletionQueue
