import RealtimeAsr.Lib.Prog
import RealtimeAsr.Lib.Commutes
import RealtimeAsr.Lib.Respects
import RealtimeAsr.Lib.Script
import RealtimeAsr.Lib.Machine
import RealtimeAsr.Lib.Rounding
import RealtimeAsr.Lib.Greedy
import RealtimeAsr.Lib.Join
import RealtimeAsr.Lib.Slice
import RealtimeAsr.Lib.Tiling
import RealtimeAsr.Lib.Delimited
import RealtimeAsr.Lib.Width
import RealtimeAsr.Segment.Acts
import RealtimeAsr.Segment.Greedy
import RealtimeAsr.Segment.Paired
import RealtimeAsr.Segment.Coverage
import RealtimeAsr.Segment.Onset
import RealtimeAsr.Segment.Last
import RealtimeAsr.Websocket.Basic
import RealtimeAsr.Websocket.Decode
import RealtimeAsr.Websocket.Connection
import RealtimeAsr.Websocket.Batch
import RealtimeAsr.Websocket.Output
import RealtimeAsr.Websocket.Text
import RealtimeAsr.Websocket.Invariant
import RealtimeAsr.Websocket.Posting
import RealtimeAsr.Websocket.Pass
import RealtimeAsr.Websocket.Reader
import RealtimeAsr.Websocket.Bounds
import RealtimeAsr.Websocket.Session
import RealtimeAsr.Websocket.Refinement
import RealtimeAsr.Websocket.Protocol
import RealtimeAsr.Websocket.Complete
import RealtimeAsr.Websocket.Handle
import RealtimeAsr.Websocket.LongBlock
import RealtimeAsr.Websocket.Closing
import RealtimeAsr.Websocket.Percent
import RealtimeAsr.Websocket.Control
import RealtimeAsr.Http.Httpaudio
import RealtimeAsr.Websocket.Replies
import RealtimeAsr.Websocket.Ranges
import RealtimeAsr.Websocket.Server
import RealtimeAsr.Websocket.Relations
import RealtimeAsr.Websocket.Agree
import RealtimeAsr.Websocket.Reset
import RealtimeAsr.Websocket.Oblivious
import RealtimeAsr.Websocket.Isolation
import RealtimeAsr.Vad.FileCut
import RealtimeAsr.Vad.Call
import RealtimeAsr.Vad.Pieces
import RealtimeAsr.Vad.Limits
import RealtimeAsr.Vad.Silence
import RealtimeAsr.Vad.Label
import RealtimeAsr.Vad.CutAt
import RealtimeAsr.Vad.Failure
import RealtimeAsr.Vad.Names
import RealtimeAsr.Lib.Block
import RealtimeAsr.Lib.Runs
import RealtimeAsr.Vad.PeriodFormat
import RealtimeAsr.Vad.Periods
import RealtimeAsr.Vad.LastPeriod
import RealtimeAsr.Vad.Growth
import RealtimeAsr.Vad.Print
import RealtimeAsr.Vad.SimpleVad
import RealtimeAsr.Vad.Frames
import RealtimeAsr.Lib.Blocks
import RealtimeAsr.Cppcodec.StreamCodec
import RealtimeAsr.Cppcodec.Codecs
import RealtimeAsr.Lib.Bits
import RealtimeAsr.Cppcodec.Grammar
import RealtimeAsr.Cppcodec.RoundTrip
import RealtimeAsr.Cppcodec.Laws
import RealtimeAsr.Cppcodec.Access
import RealtimeAsr.Lib.Hangover
import RealtimeAsr.Lib.Word16
import RealtimeAsr.Webrtc.Spl
import RealtimeAsr.Webrtc.Inst
import RealtimeAsr.Webrtc.Gmm
import RealtimeAsr.Webrtc.Filterbank
import RealtimeAsr.Webrtc.Core
import RealtimeAsr.Webrtc.Vad
import RealtimeAsr.Webrtc.Calls
import RealtimeAsr.Webrtc.Smoothing
import RealtimeAsr.Webrtc.Silence
import RealtimeAsr.Webrtc.Features
import RealtimeAsr.Lib.Shift
import RealtimeAsr.Lib.Lowest
import RealtimeAsr.Webrtc.Window
import RealtimeAsr.Webrtc.Minimum
import RealtimeAsr.Webrtc.Gaussian
import RealtimeAsr.Webrtc.Likelihood
import RealtimeAsr.Webrtc.Means
import RealtimeAsr.Webrtc.Models
import RealtimeAsr.Webrtc.Bounds
import RealtimeAsr.Webrtc.Exact
import RealtimeAsr.Lib.Maps
import RealtimeAsr.Websocket.Transfer
import RealtimeAsr.Websocket.Shared
import RealtimeAsr.Websocket.Deployed
import RealtimeAsr.Websocket.Hush
import RealtimeAsr.Http.Encoding
