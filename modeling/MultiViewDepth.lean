import MultiViewDepth.Depth.Hypotheses
import MultiViewDepth.Depth.Lending
import MultiViewDepth.Depth.Range
import MultiViewDepth.Depth.Readout
import MultiViewDepth.Estimator
import MultiViewDepth.Failure
import MultiViewDepth.Features
import MultiViewDepth.Layer.Blueprint
import MultiViewDepth.Layer.Convolution
import MultiViewDepth.Layer.Normalization
import MultiViewDepth.Layer.Voxelwise
import MultiViewDepth.Matching.Confidence
import MultiViewDepth.Matching.Matcher
import MultiViewDepth.Matching.NeighborWeight
import MultiViewDepth.Matching.Similarity
import MultiViewDepth.Neighbors.NeighborGrid
import MultiViewDepth.Neighbors.Pattern
import MultiViewDepth.Neighbors.PatternTable
import MultiViewDepth.Parameters.Storage
import MultiViewDepth.Parameters.Table
import MultiViewDepth.Proofs.ArraySizes
import MultiViewDepth.Proofs.Assembly
import MultiViewDepth.Proofs.BatchElements
import MultiViewDepth.Proofs.BilinearReads
import MultiViewDepth.Proofs.Bounds
import MultiViewDepth.Proofs.CameraScenes
import MultiViewDepth.Proofs.ComparedViews
import MultiViewDepth.Proofs.CompletionOrders
import MultiViewDepth.Proofs.ConfidenceWindows
import MultiViewDepth.Proofs.CostShifts
import MultiViewDepth.Proofs.DepthBins
import MultiViewDepth.Proofs.DepthBounds
import MultiViewDepth.Proofs.DepthGaps
import MultiViewDepth.Proofs.DoubledMaps
import MultiViewDepth.Proofs.DrawCounts
import MultiViewDepth.Proofs.Draws
import MultiViewDepth.Proofs.EvenScores
import MultiViewDepth.Proofs.Exact
import MultiViewDepth.Proofs.FeatureSizes
import MultiViewDepth.Proofs.FilledAxes
import MultiViewDepth.Proofs.FrameChanges
import MultiViewDepth.Proofs.GroupSimilarities
import MultiViewDepth.Proofs.HarmonicMeans
import MultiViewDepth.Proofs.HypothesisBounds
import MultiViewDepth.Proofs.HypothesisOrder
import MultiViewDepth.Proofs.HypothesisShuffles
import MultiViewDepth.Proofs.HypothesisVolumes
import MultiViewDepth.Proofs.IdleStages
import MultiViewDepth.Proofs.Indices
import MultiViewDepth.Proofs.LadderRungs
import MultiViewDepth.Proofs.LearnedParts
import MultiViewDepth.Proofs.LengthUnit
import MultiViewDepth.Proofs.LentDepths
import MultiViewDepth.Proofs.Loading
import MultiViewDepth.Proofs.NeighborReads
import MultiViewDepth.Proofs.NeighborShares
import MultiViewDepth.Proofs.NeighborSteps
import MultiViewDepth.Proofs.Notations
import MultiViewDepth.Proofs.Outcome
import MultiViewDepth.Proofs.ParameterNames
import MultiViewDepth.Proofs.PatternOffsets
import MultiViewDepth.Proofs.PixelScores
import MultiViewDepth.Proofs.PixelViews
import MultiViewDepth.Proofs.PlannedRounds
import MultiViewDepth.Proofs.PortableParameters
import MultiViewDepth.Proofs.Probabilities
import MultiViewDepth.Proofs.ReadoutBounds
import MultiViewDepth.Proofs.ReadoutFormulas
import MultiViewDepth.Proofs.RefinedDepths
import MultiViewDepth.Proofs.RelativeWeights
import MultiViewDepth.Proofs.Reordering
import MultiViewDepth.Proofs.RoundSizes
import MultiViewDepth.Proofs.RoundedAddresses
import MultiViewDepth.Proofs.Rounds
import MultiViewDepth.Proofs.SamplingBounds
import MultiViewDepth.Proofs.SavedEstimators
import MultiViewDepth.Proofs.ScaledDepths
import MultiViewDepth.Proofs.ScaledRuns
import MultiViewDepth.Proofs.ScaledViews
import MultiViewDepth.Proofs.Scaling
import MultiViewDepth.Proofs.Scenes
import MultiViewDepth.Proofs.ScoreDistributions
import MultiViewDepth.Proofs.ScoreFormula
import MultiViewDepth.Proofs.SharedParameters
import MultiViewDepth.Proofs.SharedPatterns
import MultiViewDepth.Proofs.SingleArrays
import MultiViewDepth.Proofs.SingularViews
import MultiViewDepth.Proofs.Soundness
import MultiViewDepth.Proofs.StageScales
import MultiViewDepth.Proofs.StageSplit
import MultiViewDepth.Proofs.StoppedLoads
import MultiViewDepth.Proofs.TexelAddresses
import MultiViewDepth.Proofs.Totality
import MultiViewDepth.Proofs.TransformMatrices
import MultiViewDepth.Proofs.TwinArithmetic
import MultiViewDepth.Proofs.TwinHypotheses
import MultiViewDepth.Proofs.TwinLayers
import MultiViewDepth.Proofs.TwinMatching
import MultiViewDepth.Proofs.TwinPoses
import MultiViewDepth.Proofs.TwinReadout
import MultiViewDepth.Proofs.TwinRun
import MultiViewDepth.Proofs.TwinSampling
import MultiViewDepth.Proofs.TwinScene
import MultiViewDepth.Proofs.TwinStage
import MultiViewDepth.Proofs.TwinViews
import MultiViewDepth.Proofs.TwinWeights
import MultiViewDepth.Proofs.Twins
import MultiViewDepth.Proofs.VariedScenes
import MultiViewDepth.Proofs.ViewOrder
import MultiViewDepth.Proofs.ViewPairs
import MultiViewDepth.Proofs.ViewWeights
import MultiViewDepth.Proofs.VoxelHeads
import MultiViewDepth.Proofs.VoxelPermutations
import MultiViewDepth.Proofs.WorkerOrders
import MultiViewDepth.Proofs.WorldFrame
import MultiViewDepth.Proofs.ZeroLayers
import MultiViewDepth.Proofs.ZeroRuns
import MultiViewDepth.Random
import MultiViewDepth.Refiner
import MultiViewDepth.Sampling.Bilinear
import MultiViewDepth.Sampling.Doubling
import MultiViewDepth.Scalar
import MultiViewDepth.Scene
import MultiViewDepth.Settings.Basic
import MultiViewDepth.Settings.Json
import MultiViewDepth.Stage
import MultiViewDepth.Tasks
import MultiViewDepth.Tensor.Arithmetic
import MultiViewDepth.Tensor.Basic
import MultiViewDepth.Tensor.Conversion
import MultiViewDepth.Tensor.Elements
import MultiViewDepth.Tensor.Index
import MultiViewDepth.Tensor.Layout
import MultiViewDepth.View.Camera
import MultiViewDepth.View.Projections
import MultiViewDepth.View.Relative
import MultiViewDepth.View.Reprojection
import MultiViewDepth.View.Transform
