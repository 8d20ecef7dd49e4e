import TensorEngine.Arithmetic
import TensorEngine.Breach
import TensorEngine.Cache.Fingerprint
import TensorEngine.Cache.PublishOnce
import TensorEngine.Cache.Sha256
import TensorEngine.Cache.Workshop
import TensorEngine.Catalog.Features
import TensorEngine.Catalog.Selection
import TensorEngine.Catalog.Standard
import TensorEngine.Execution.Binding
import TensorEngine.Execution.BlobTable
import TensorEngine.Execution.Compilation
import TensorEngine.Execution.Executable
import TensorEngine.Execution.Reshape
import TensorEngine.Execution.Run
import TensorEngine.Execution.Trace
import TensorEngine.Fault
import TensorEngine.Graph.Admission
import TensorEngine.Graph.Builder
import TensorEngine.Graph.GraphFault
import TensorEngine.Graph.Name
import TensorEngine.Graph.Node
import TensorEngine.Graph.OpKind
import TensorEngine.Graph.ShapeRule
import TensorEngine.Graph.Table
import TensorEngine.Graph.Typing
import TensorEngine.Inspection
import TensorEngine.Interchange
import TensorEngine.Journal
import TensorEngine.Json.Reader
import TensorEngine.Json.Value
import TensorEngine.Json.Writer
import TensorEngine.Kernel.BroadcastPlan
import TensorEngine.Kernel.Combination
import TensorEngine.Kernel.Conversion
import TensorEngine.Kernel.Elementwise
import TensorEngine.Kernel.Mapping
import TensorEngine.Kernel.Operator
import TensorEngine.Kernel.PackedWeights
import TensorEngine.Kernel.Pooling
import TensorEngine.Kernel.Product
import TensorEngine.Kernel.StandardOperator
import TensorEngine.Kernel.Tiling
import TensorEngine.Kernel.UnaryFunction
import TensorEngine.Numeric.Binary32
import TensorEngine.Numeric.Decimal
import TensorEngine.Numeric.Dyadic
import TensorEngine.Numeric.Half
import TensorEngine.Numeric.RoundEven
import TensorEngine.Proofs.Cache.Accounting
import TensorEngine.Proofs.Cache.Fingerprint
import TensorEngine.Proofs.Cache.Keeping
import TensorEngine.Proofs.Cache.Making
import TensorEngine.Proofs.Catalog.Selection
import TensorEngine.Proofs.Catalog.Standard
import TensorEngine.Proofs.Checked
import TensorEngine.Proofs.Execution.Acceptance
import TensorEngine.Proofs.Execution.BiasUnits
import TensorEngine.Proofs.Execution.Binding
import TensorEngine.Proofs.Execution.ClampRoutes
import TensorEngine.Proofs.Execution.ClosedGraph
import TensorEngine.Proofs.Execution.CodeRange
import TensorEngine.Proofs.Execution.CombinedElements
import TensorEngine.Proofs.Execution.Compilation
import TensorEngine.Proofs.Execution.ConfinedResults
import TensorEngine.Proofs.Execution.Dataflow
import TensorEngine.Proofs.Execution.Engine
import TensorEngine.Proofs.Execution.FaultyRun
import TensorEngine.Proofs.Execution.HostFreedom
import TensorEngine.Proofs.Execution.Lending
import TensorEngine.Proofs.Execution.Lifecycle
import TensorEngine.Proofs.Execution.MappedElements
import TensorEngine.Proofs.Execution.OwnTables
import TensorEngine.Proofs.Execution.PathIndependence
import TensorEngine.Proofs.Execution.PooledElements
import TensorEngine.Proofs.Execution.ProductFolds
import TensorEngine.Proofs.Execution.ProductSums
import TensorEngine.Proofs.Execution.Rebuild
import TensorEngine.Proofs.Execution.Replay
import TensorEngine.Proofs.Execution.Reshape
import TensorEngine.Proofs.Execution.ReshapeEffect
import TensorEngine.Proofs.Execution.RunFrame
import TensorEngine.Proofs.Execution.Safety
import TensorEngine.Proofs.Execution.Session
import TensorEngine.Proofs.Execution.SharedCompilation
import TensorEngine.Proofs.Execution.TraceWindow
import TensorEngine.Proofs.Execution.UnboundedRange
import TensorEngine.Proofs.Graph.Admission
import TensorEngine.Proofs.Graph.Construction
import TensorEngine.Proofs.Graph.NodeRules
import TensorEngine.Proofs.Graph.ShapeRule
import TensorEngine.Proofs.Graph.WellFormed
import TensorEngine.Proofs.Graph.WordSizes
import TensorEngine.Proofs.Kernel.Acceptance
import TensorEngine.Proofs.Kernel.Broadcasting
import TensorEngine.Proofs.Kernel.CodeProducts
import TensorEngine.Proofs.Kernel.Combining
import TensorEngine.Proofs.Kernel.Contents
import TensorEngine.Proofs.Kernel.Creation
import TensorEngine.Proofs.Kernel.Delivery
import TensorEngine.Proofs.Kernel.ElementWrites
import TensorEngine.Proofs.Kernel.LookUp
import TensorEngine.Proofs.Kernel.MappedElements
import TensorEngine.Proofs.Kernel.NarrowedCodes
import TensorEngine.Proofs.Kernel.NumberProducts
import TensorEngine.Proofs.Kernel.Packing
import TensorEngine.Proofs.Kernel.PanelLayout
import TensorEngine.Proofs.Kernel.PanelProducts
import TensorEngine.Proofs.Kernel.Pointwise
import TensorEngine.Proofs.Kernel.PooledMeans
import TensorEngine.Proofs.Kernel.Recreation
import TensorEngine.Proofs.Kernel.Setup
import TensorEngine.Proofs.Kernel.SharedWeights
import TensorEngine.Proofs.Kernel.SoundCreation
import TensorEngine.Proofs.Kernel.Soundness
import TensorEngine.Proofs.Kernel.Strides
import TensorEngine.Proofs.Kernel.TileFreedom
import TensorEngine.Proofs.Kernel.Tiling
import TensorEngine.Proofs.Kernel.WholeWeights
import TensorEngine.Proofs.Numeric.Binary32
import TensorEngine.Proofs.Numeric.Bounded
import TensorEngine.Proofs.Numeric.HalfConversion
import TensorEngine.Proofs.Numeric.HalfRounding
import TensorEngine.Proofs.Numeric.Nearest
import TensorEngine.Proofs.Numeric.Packed
import TensorEngine.Proofs.Numeric.Places
import TensorEngine.Proofs.Numeric.ScaledIntegers
import TensorEngine.Proofs.Numeric.SinglePattern
import TensorEngine.Proofs.Numeric.Unpacked
import TensorEngine.Proofs.Tensor.Broadcast
import TensorEngine.Proofs.Tensor.CodeBounds
import TensorEngine.Proofs.Tensor.CodeConfinement
import TensorEngine.Proofs.Tensor.MultiIndex
import TensorEngine.Proofs.Tensor.Quantization
import TensorEngine.Proofs.Tensor.RowAccess
import TensorEngine.Proofs.Tensor.Saturation
import TensorEngine.Settings.Basic
import TensorEngine.Settings.Document
import TensorEngine.Settings.Variables
import TensorEngine.Tensor.Broadcast
import TensorEngine.Tensor.Buffer
import TensorEngine.Tensor.ElementType
import TensorEngine.Tensor.Quantization
import TensorEngine.Tensor.RowView
import TensorEngine.Tensor.Shape
import TensorEngine.Text.Blank
import TensorEngine.Text.Hexadecimal
import TensorEngine.Text.Printable
import TensorEngine.Text.Quoted
