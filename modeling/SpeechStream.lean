import SpeechStream.Backend.Basic
import SpeechStream.Backend.Graphs
import SpeechStream.Backend.Synthetic
import SpeechStream.Cli.Arguments
import SpeechStream.Cli.Run
import SpeechStream.Decimal.Fixed
import SpeechStream.Decimal.Layout
import SpeechStream.Decimal.Shortest
import SpeechStream.Decoding.Options
import SpeechStream.Decoding.Ranking
import SpeechStream.Decoding.Recognizer
import SpeechStream.Decoding.Session
import SpeechStream.Directory.Arrays
import SpeechStream.Directory.Files
import SpeechStream.Directory.Load
import SpeechStream.Document.Basic
import SpeechStream.Document.Json
import SpeechStream.Document.Literal
import SpeechStream.Document.Yaml
import SpeechStream.Fault
import SpeechStream.FrameQueue
import SpeechStream.Main
import SpeechStream.Metadata
import SpeechStream.Network.Attention
import SpeechStream.Network.Block
import SpeechStream.Network.Cmvn
import SpeechStream.Network.Config
import SpeechStream.Network.Decoder
import SpeechStream.Network.Elementary
import SpeechStream.Network.Encoder
import SpeechStream.Network.Front
import SpeechStream.Network.Kernel
import SpeechStream.Network.Model
import SpeechStream.Network.Positional
import SpeechStream.Network.Weights
import SpeechStream.Rescoring.Basic
import SpeechStream.Rescoring.Rescorer
import SpeechStream.Search.Greedy
import SpeechStream.Search.Searcher
import SpeechStream.Stream
import SpeechStream.Tensor.Basic
import SpeechStream.Text.Blank
import SpeechStream.Text.Digit
import SpeechStream.Text.Integer
import SpeechStream.Text.Printable
import SpeechStream.Text.Quoted
import SpeechStream.Text.Real
import SpeechStream.Vocabulary
import SpeechStream.Proofs.ExceptSteps
import SpeechStream.Proofs.SessionSteps
import SpeechStream.Proofs.BlockFeeding
import SpeechStream.Proofs.SessionRuns
import SpeechStream.Proofs.ChunkWindows
import SpeechStream.Proofs.ReferenceChunks
import SpeechStream.Proofs.FrameCounts
import SpeechStream.Proofs.AttentionCache
import SpeechStream.Proofs.PaddingMask
import SpeechStream.Proofs.ChunkFaults
import SpeechStream.Proofs.DecodingLoop
import SpeechStream.Proofs.FinalResults
import SpeechStream.Proofs.FreshSessions
import SpeechStream.Proofs.PaddedSessions
import SpeechStream.Proofs.SubsamplingGeometry
import SpeechStream.Proofs.StreamArithmetic
import SpeechStream.Proofs.OffsetBookkeeping
import SpeechStream.Proofs.EncoderContract
import SpeechStream.Proofs.LosslessQueue
import SpeechStream.Proofs.GreedyCollapse
import SpeechStream.Proofs.DecoderInputs
import SpeechStream.Proofs.StableRanking
import SpeechStream.Proofs.NbestRescoring
import SpeechStream.Proofs.IntegerTexts
import SpeechStream.Proofs.MetadataDocuments
import SpeechStream.Proofs.GraphBindings
import SpeechStream.Proofs.TextLines
import SpeechStream.Proofs.UnitsFiles
import SpeechStream.Proofs.PositionTables
import SpeechStream.Proofs.FrameLocality
import SpeechStream.Proofs.ChunkedConvolution
import SpeechStream.Proofs.CachedAttention
