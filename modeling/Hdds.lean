import Hdds.Foundations.Bytes
import Hdds.Foundations.Bitmap
import Hdds.Foundations.Machine
import Hdds.Foundations.Assoc
import Hdds.Foundations.Text
import Hdds.Foundations.Chunking
import Hdds.Foundations.Positions
import Hdds.Foundations.Codec
import Hdds.Foundations.PriorityQueue
import Hdds.Foundations.Reading
import Hdds.Foundations.TagChain
import Hdds.Foundations.Cursor
import Hdds.Foundations.Utf16
import Hdds.Rtps.Encoder
import Hdds.Discovery.ControlParser
import Hdds.Discovery.Classifier
import Hdds.Discovery.FragmentBuffer
import Hdds.Discovery.FragmentRoundTrip
import Hdds.Engine.Router
import Hdds.Discovery.ParameterList
import Hdds.Discovery.Spdp
import Hdds.Rtps.Builder
import Hdds.Reliability.Messages
import Hdds.Reliability.Reader
import Hdds.Reliability.GapInvariant
import Hdds.Reliability.HistoryCache
import Hdds.Reliability.Writer
import Hdds.Lowbw.Reliable
import Hdds.Lowbw.Varint
import Hdds.Lowbw.Frame
import Hdds.Lowbw.Fragment
import Hdds.Lowbw.Scheduler
import Hdds.Lowbw.Control
import Hdds.Lowbw.Transport
import Hdds.Lowbw.Delta
import Hdds.Congestion.Wfq
import Hdds.Congestion.TokenBucket
import Hdds.Congestion.Fairness
import Hdds.Rtps.GapPacket
import Hdds.Micro.Submessages
import Hdds.Rtps.Heartbeat
import Hdds.Dds.ReaderHeartbeat
import Hdds.Dds.SampleCache
import Hdds.Dds.Filter.Parser
import Hdds.Dds.Filter.Evaluator
import Hdds.Ser.Cdr2
import Hdds.Xtypes.TypeObject
import Hdds.Xtypes.Primitives
import Hdds.Xtypes.Encode
import Hdds.Xtypes.Decode
import Hdds.Xtypes.Safety
import Hdds.Xtypes.RoundTrip
import Hdds.Dynamic.Types
import Hdds.Dynamic.Cdr
import Hdds.Dynamic.RoundTrip
import Hdds.Security.Access
import Hdds.Security.DynamicPermissions
import Hdds.Xrce.Protocol
import Hdds.Xrce.Fragmentation
import Hdds.Xrce.Session
import Hdds.Xrce.Agent
import Hdds.Transport.FrameCodec
import Hdds.Congestion.NackCoalescer
import Hdds.Congestion.RepairQueue
