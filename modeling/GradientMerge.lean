import GradientMerge.Data.Csv
import GradientMerge.Data.Dataset
import GradientMerge.Data.Partition
import GradientMerge.Data.Shard
import GradientMerge.IoError
import GradientMerge.Job.Cluster
import GradientMerge.Job.Config
import GradientMerge.Job.Coordinator
import GradientMerge.Job.Error
import GradientMerge.Job.NetworkTraining
import GradientMerge.Job.Role
import GradientMerge.Job.Rounds
import GradientMerge.Job.Run
import GradientMerge.Job.Schedule
import GradientMerge.Job.Served
import GradientMerge.Job.Tasks
import GradientMerge.Job.Training
import GradientMerge.Json.Layout
import GradientMerge.Json.Lexeme
import GradientMerge.Json.Number
import GradientMerge.Json.Reader
import GradientMerge.Json.Skip
import GradientMerge.Main
import GradientMerge.Matrix.Basic
import GradientMerge.Matrix.Dot
import GradientMerge.Matrix.Family
import GradientMerge.Memory
import GradientMerge.Merge.Connection
import GradientMerge.Merge.Convergence
import GradientMerge.Merge.Error
import GradientMerge.Merge.Server
import GradientMerge.Merge.Service
import GradientMerge.ModelError
import GradientMerge.Network.Basic
import GradientMerge.Network.Calls
import GradientMerge.Network.Elementary
import GradientMerge.Network.Layer
import GradientMerge.Network.Neuron
import GradientMerge.Network.Spec
import GradientMerge.Network.SpecText
import GradientMerge.Number.Binary
import GradientMerge.Number.Decimal
import GradientMerge.Number.Shortest
import GradientMerge.Number.Single
import GradientMerge.Number.Text
import GradientMerge.Proofs.Arrival
import GradientMerge.Proofs.Backpropagation
import GradientMerge.Proofs.BackwardPass
import GradientMerge.Proofs.BarrierTickets
import GradientMerge.Proofs.ConnectionEnd
import GradientMerge.Proofs.Convergence
import GradientMerge.Proofs.Conversation
import GradientMerge.Proofs.CyclicReading
import GradientMerge.Proofs.DatasetText
import GradientMerge.Proofs.DecimalGaps
import GradientMerge.Proofs.DoubleRounding
import GradientMerge.Proofs.DropoutTraining
import GradientMerge.Proofs.DualNumbers
import GradientMerge.Proofs.ExactSums
import GradientMerge.Proofs.Exchange
import GradientMerge.Proofs.FamilyEntries
import GradientMerge.Proofs.FamilyShapes
import GradientMerge.Proofs.FieldSpacing
import GradientMerge.Proofs.ForwardTangents
import GradientMerge.Proofs.FrameIsolation
import GradientMerge.Proofs.FramedMessages
import GradientMerge.Proofs.GradientDescent
import GradientMerge.Proofs.Gradients
import GradientMerge.Proofs.Handler
import GradientMerge.Proofs.HandlerLinks
import GradientMerge.Proofs.Handshakes
import GradientMerge.Proofs.InPlacePasses
import GradientMerge.Proofs.Installation
import GradientMerge.Proofs.JobEnd
import GradientMerge.Proofs.JobFitness
import GradientMerge.Proofs.JobRuns
import GradientMerge.Proofs.JsonResults
import GradientMerge.Proofs.JsonStructure
import GradientMerge.Proofs.JsonWriting
import GradientMerge.Proofs.KeptUnits
import GradientMerge.Proofs.Lifecycle
import GradientMerge.Proofs.LineDescent
import GradientMerge.Proofs.LoneConnection
import GradientMerge.Proofs.MalformedMerge
import GradientMerge.Proofs.MaskDraws
import GradientMerge.Proofs.MaskMeans
import GradientMerge.Proofs.MaskedPasses
import GradientMerge.Proofs.MatrixEntries
import GradientMerge.Proofs.MergeCodec
import GradientMerge.Proofs.MergeOrder
import GradientMerge.Proofs.MergeSequence
import GradientMerge.Proofs.MessageStreams
import GradientMerge.Proofs.ModelCalls
import GradientMerge.Proofs.NearestPattern
import GradientMerge.Proofs.NetworkCalls
import GradientMerge.Proofs.NetworkOutline
import GradientMerge.Proofs.NetworkRound
import GradientMerge.Proofs.NetworkTwins
import GradientMerge.Proofs.NumberText
import GradientMerge.Proofs.Outcome
import GradientMerge.Proofs.Outlet
import GradientMerge.Proofs.PartitionReading
import GradientMerge.Proofs.PassFunctions
import GradientMerge.Proofs.PassShapes
import GradientMerge.Proofs.PeerActions
import GradientMerge.Proofs.PeerSteps
import GradientMerge.Proofs.Replacement
import GradientMerge.Proofs.RoundTallies
import GradientMerge.Proofs.Rounds
import GradientMerge.Proofs.RunShapes
import GradientMerge.Proofs.ScriptedConnection
import GradientMerge.Proofs.ServedOrder
import GradientMerge.Proofs.ServedProgress
import GradientMerge.Proofs.ServedSteps
import GradientMerge.Proofs.ServerOrder
import GradientMerge.Proofs.ServiceHistory
import GradientMerge.Proofs.ServiceShapes
import GradientMerge.Proofs.ShardDivision
import GradientMerge.Proofs.ShortestDigits
import GradientMerge.Proofs.SlaveInstances
import GradientMerge.Proofs.SlaveLinks
import GradientMerge.Proofs.StaleCopies
import GradientMerge.Proofs.StaleOutputs
import GradientMerge.Proofs.StoppingRule
import GradientMerge.Proofs.StoredFiles
import GradientMerge.Proofs.StoredModels
import GradientMerge.Proofs.StoredNumbers
import GradientMerge.Proofs.StoredText
import GradientMerge.Proofs.SurvivingUnits
import GradientMerge.Proofs.TaskHistory
import GradientMerge.Proofs.TaskOrder
import GradientMerge.Proofs.TaskResults
import GradientMerge.Proofs.TaskSteps
import GradientMerge.Proofs.ThinnedNetworks
import GradientMerge.Proofs.ThinnedPasses
import GradientMerge.Proofs.TrainableModels
import GradientMerge.Proofs.TrainingRound
import GradientMerge.Proofs.TrainingShapes
import GradientMerge.Proofs.Transfer
import GradientMerge.Proofs.Transparency
import GradientMerge.Proofs.Word
import GradientMerge.Proofs.WordShapes
import GradientMerge.Random.ChaCha
import GradientMerge.Random.Generator
import GradientMerge.Store.Calls
import GradientMerge.Store.Files
import GradientMerge.Store.Model
import GradientMerge.Store.ModelText
import GradientMerge.Text.Blank
import GradientMerge.Text.Quoted
import GradientMerge.Text.Split
import GradientMerge.Text.Utf8
import GradientMerge.Text.Visible
import GradientMerge.Wire.Frame
import GradientMerge.Wire.MergeMessage
import GradientMerge.Wire.Message
import GradientMerge.Wire.Receiver
import GradientMerge.Wire.Sender
import GradientMerge.Wire.Word
import GradientMerge.Worker.Accumulator
import GradientMerge.Worker.Client
import GradientMerge.Worker.Error
