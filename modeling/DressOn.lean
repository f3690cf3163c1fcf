import DressOn.Lib.Schedule
import DressOn.Ggml.Graph
import DressOn.Ggml.Barriers
import DressOn.Lib.CountingSort
import DressOn.Avbd.Csr
import DressOn.Avbd.Batches
import DressOn.Avbd.Step
import DressOn.Avbd.Sweep
import DressOn.Lbfgsb.Cells
import DressOn.Lbfgsb.History
import DressOn.Avbd.Backends
import DressOn.Lib.Lockstep
import DressOn.Avbd.Snapshots
import DressOn.Avbd.Lanes
import DressOn.Avbd.RaggedTails
import DressOn.Drape.SharedDevice
import DressOn.Avbd.Backward
import DressOn.Avbd.Transpose
import DressOn.Avbd.Adjoint
import DressOn.Avbd.SpringKernel
import DressOn.Avbd.Attachments
import DressOn.Avbd.Penalties
import DressOn.Drape.Scene
import DressOn.Drape.Solver
import DressOn.Drape.Sim
import DressOn.Drape.Backward
import DressOn.Drape.Session
import DressOn.Drape.Reload
import DressOn.Drape.Moves
import DressOn.Drape.Stages
import DressOn.Drape.Consistency
import DressOn.Drape.FitPhase
import DressOn.Drape.Primitives
import DressOn.Drape.Rewind
import DressOn.Ggml.Move
import DressOn.Lib.NestedAxes
import DressOn.Lib.OwnedCells
import DressOn.Ggml.MoveKernels
import DressOn.Ggml.Layout
import DressOn.Ggml.HalfWords
import DressOn.Ggml.SixteenBit
import DressOn.Lbfgsb.Vec
import DressOn.Lbfgsb.VecRd
import DressOn.Lib.BinaryFloats
import DressOn.Lbfgsb.Phases
import DressOn.Lbfgsb.Evaluations
import DressOn.Lbfgsb.Driver
import DressOn.Lbfgsb.Reports
import DressOn.Common.MeshWire
import DressOn.Lib.DepthFirst
import DressOn.Jobs.Job
import DressOn.Ggml.Launch
import DressOn.Ggml.ParamsWords
import DressOn.Ggml.Reshape
import DressOn.Lib.Interruptible
import DressOn.Rdc.Device
import DressOn.Rdc.Killed
import DressOn.Lib.Handles
import DressOn.Ggml.UniformSets
import DressOn.Ggml.CachedSets
import DressOn.Ggml.SetPaths
import DressOn.Ggml.SetCache
import DressOn.Lib.Peaks
import DressOn.Common.Blake3
import DressOn.Common.Blake3Tree
import DressOn.Lib.Stutter
import DressOn.Pump.Protocol
import DressOn.Pump.Plain
import DressOn.Common.HostWire
import DressOn.Lib.Keyed
import DressOn.Lib.Lines
import DressOn.Usd.Strokes
import DressOn.Lib.Windows
import DressOn.Usd.Packages
import DressOn.Host.Worker
import DressOn.Host.Pipeline
import DressOn.Host.Records
import DressOn.Host.Starts
import DressOn.Host.Guest
import DressOn.Host.Refusals
import DressOn.Host.World
import DressOn.Host.Verdicts
import DressOn.Host.Leaks
import DressOn.Host.PenBridge
import DressOn.Lib.Spans
import DressOn.Host.PenStrokes
import DressOn.Rdc.ReadBack
import DressOn.Curvenet.Weld
import DressOn.Drape.FitStops
import DressOn.Lib.ClosedWalks
import DressOn.Lib.Tallies
import DressOn.Lib.UnionFind
import DressOn.Curvenet.Topology
import DressOn.Curvenet.BuildMesh
import DressOn.Avbd.SelfCollision
import DressOn.Ggml.SetWindow
import DressOn.Drape.BodyMesh
import DressOn.Drape.ClosestPoint
import DressOn.Avbd.ClothGrid
import DressOn.Avbd.Islands
import DressOn.Avbd.PanelTiles
import DressOn.Lib.Checked
import DressOn.Drape.SceneArrays
import DressOn.Drape.FitSet
import DressOn.Drape.RestShape
import DressOn.Drape.MaterialGradient
import DressOn.Lib.Ranks
import DressOn.Ggml.Argsort
import DressOn.Ggml.Concat
import DressOn.Lib.Strides
import DressOn.Usd.Flatten
import DressOn.Lib.Words
import DressOn.Usd.CurvesText
import DressOn.Host.Skeleton15
import DressOn.Lib.Trails
import DressOn.Host.SkeletonChains
import DressOn.Host.SkeletonSlots
import DressOn.Avbd.Owned
import DressOn.Drape.Optimize
import DressOn.Lib.JsonTexts
import DressOn.Lib.JsonRuns
import DressOn.Lib.JsonEdits
import DressOn.Lib.JsonLexing
import DressOn.Host.FitOverrides
import DressOn.Lib.Successions
import DressOn.Lib.Rounds
import DressOn.Lib.OpenWalks
import DressOn.Lib.Explorations
import DressOn.Host.MeshTopo
import DressOn.Drape.Replay
import DressOn.Lib.ThreadGroups
import DressOn.Lib.TreeReductions
import DressOn.Ggml.RowKernels
import DressOn.Ggml.RowDispatches
import DressOn.Ggml.MatMul
import DressOn.Ggml.MatMulTiles
import DressOn.Ggml.MatMulVecs
import DressOn.Ggml.MatMulProducts
import DressOn.Ggml.FlashAttention
import DressOn.Ggml.FlashAttentionTiles
import DressOn.Ggml.FlashAttentionSerial
import DressOn.Ggml.FlashAttentionMeans
import DressOn.Ggml.Offsets
