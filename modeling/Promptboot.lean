import Promptboot.Engine.Attention
import Promptboot.Engine.Backends
import Promptboot.Engine.BlockDot
import Promptboot.Engine.Evaluate
import Promptboot.Engine.EvaluateAgree
import Promptboot.Engine.EvaluateSpec
import Promptboot.Engine.Extend
import Promptboot.Engine.Generator
import Promptboot.Engine.Invariant
import Promptboot.Engine.Kv
import Promptboot.Engine.KvFrame
import Promptboot.Engine.Operations
import Promptboot.Engine.Repetition
import Promptboot.Engine.Replay
import Promptboot.Engine.Reuse
import Promptboot.Engine.SampleTopK
import Promptboot.Engine.Sampling
import Promptboot.Engine.SourceKernels
import Promptboot.Engine.TopLogits
import Promptboot.Engine.Types
import Promptboot.Engine.ZeroKernels
import Promptboot.Hash.AnyBackend
import Promptboot.Hash.Fips180
import Promptboot.Hash.Sha256
import Promptboot.Hash.ShaNi
import Promptboot.Hash.Streaming
import Promptboot.Lib.Absorb
import Promptboot.Lib.Access
import Promptboot.Lib.Bits
import Promptboot.Lib.Buffer
import Promptboot.Lib.BytePair
import Promptboot.Lib.Fallible
import Promptboot.Lib.FairSchedule
import Promptboot.Lib.ForkJoin
import Promptboot.Lib.Lines
import Promptboot.Lib.LongDivision
import Promptboot.Lib.Marker
import Promptboot.Lib.Memory
import Promptboot.Lib.OpenAddress
import Promptboot.Lib.Packed
import Promptboot.Lib.Projects
import Promptboot.Lib.Regex
import Promptboot.Lib.TextScreen
import Promptboot.Lib.TopWindow
import Promptboot.Lib.Words
import Promptboot.Lib.Xorshift
import Promptboot.Machine.Cpu
import Promptboot.Machine.Dispatch
import Promptboot.Model.Open
import Promptboot.Model.OpenChecks
import Promptboot.Model.OpenSafe
import Promptboot.Model.OpenTokens
import Promptboot.Model.View
import Promptboot.Primitive.ArenaRun
import Promptboot.Primitive.ArenaSafe
import Promptboot.Primitive.Divide
import Promptboot.Primitive.Entry
import Promptboot.Primitive.ExecuteInside
import Promptboot.Primitive.Frame
import Promptboot.Primitive.Kernels
import Promptboot.Primitive.KernelsInside
import Promptboot.Primitive.Request
import Promptboot.Release.ArchiveExact
import Promptboot.Release.ArchiveSpec
import Promptboot.Release.Checksums
import Promptboot.Release.ChecksumsExact
import Promptboot.Release.Path
import Promptboot.Release.SourceArchive
import Promptboot.Release.SourceTree
import Promptboot.Repl.Console
import Promptboot.Repl.Controller
import Promptboot.Repl.Cursor
import Promptboot.Repl.Editor
import Promptboot.Repl.EventSink
import Promptboot.Repl.History
import Promptboot.Repl.QuietTurn
import Promptboot.Repl.RenderInto
import Promptboot.Repl.Screen
import Promptboot.Repl.ScreenCalls
import Promptboot.Repl.ScreenPaint
import Promptboot.Repl.ScreenProjects
import Promptboot.Repl.ScreenShows
import Promptboot.Repl.ScreenTracks
import Promptboot.Repl.Turn
import Promptboot.Repl.TurnAtomic
import Promptboot.Repl.TurnCoherent
import Promptboot.Repl.TurnPrepare
import Promptboot.Repl.TurnStep
import Promptboot.Repl.Utf8
import Promptboot.Target.Cleanup
import Promptboot.Target.Delivery
import Promptboot.Target.Load
import Promptboot.Target.Nonoverlap
import Promptboot.Target.Session
import Promptboot.Target.Verify
import Promptboot.Tokenizer.Bpe
import Promptboot.Tokenizer.Control
import Promptboot.Tokenizer.Conversation
import Promptboot.Tokenizer.Decode
import Promptboot.Tokenizer.Index
import Promptboot.Tokenizer.IndexRow
import Promptboot.Tokenizer.Pieces
import Promptboot.Tokenizer.Pretoken
import Promptboot.Tokenizer.Prompt
import Promptboot.Tokenizer.Render
import Promptboot.Tokenizer.SystemPrefix
import Promptboot.Tools.ContainerFacts
import Promptboot.Tools.ContainerInspect
import Promptboot.Tools.ContainerOpens
import Promptboot.Tools.ContainerTensors
import Promptboot.Tools.EventTopology
import Promptboot.Tools.Gguf
import Promptboot.Tools.GgufAgree
import Promptboot.Tools.Image
import Promptboot.Tools.ImageAccept
import Promptboot.Tools.ImageFat
import Promptboot.Tools.ImageInspect
import Promptboot.Tools.ImageLayout
import Promptboot.Tools.ImageSound
import Promptboot.Tools.InspectAccept
import Promptboot.Tools.InspectArithmetic
import Promptboot.Tools.InspectCanonical
import Promptboot.Tools.InspectComplete
import Promptboot.Tools.InspectExact
import Promptboot.Tools.InspectFacts
import Promptboot.Tools.InspectFree
import Promptboot.Tools.InspectMatches
import Promptboot.Tools.InspectPasses
import Promptboot.Tools.InspectRows
import Promptboot.Tools.InspectStages
import Promptboot.Tools.Pack
import Promptboot.Tools.PackFile
import Promptboot.Tools.PackOpens
import Promptboot.Tools.PackRoundTrip
import Promptboot.Tools.PackTokenizer
import Promptboot.Tools.PackTokens
import Promptboot.Tools.SourceReader
import Promptboot.Tools.Stop
import Promptboot.Tools.TopologyItems
import Promptboot.Tools.TopologyReads
import Promptboot.Workers.Correctness
import Promptboot.Workers.Entry
import Promptboot.Workers.EntryCorrect
import Promptboot.Workers.EntryInvariant
import Promptboot.Workers.EntryProgress
import Promptboot.Workers.Job
import Promptboot.Workers.Joining
import Promptboot.Workers.Progress
import Promptboot.Workers.Simulation
import Promptboot.Workers.Steps
