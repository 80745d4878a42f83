import H264Streaming.Semantics.Numbering
import H264Streaming.RtpSend.Aggregation
import H264Streaming.RtpSend.RoundTrip
import H264Streaming.RtpSend.Safety
import H264Streaming.RtpSend.AVC
import H264Streaming.RtpSend.Stream
import H264Streaming.Bytes.Fields
import H264Streaming.H264Send.Packetizer
import H264Streaming.H264Send.WholeRun
import H264Streaming.UdpH264.Client
import H264Streaming.UdpH264.Server
import H264Streaming.UdpH264.RoundTrip
import H264Streaming.Bytes.Text
import H264Streaming.RtspClient.Player
import H264Streaming.RtspClient.Handling
import H264Streaming.RtspClient.Iteration
import H264Streaming.RtspClient.Ordering
import H264Streaming.RtspClient.Session
import H264Streaming.RtspClient.Fitting
import H264Streaming.H264Dec.Demux
import H264Streaming.Semantics.Framing
import H264Streaming.H264Dec.Commands
import H264Streaming.H264Dec.Cuts
import H264Streaming.H264Dec.Ordering
import H264Streaming.RtspClient.Depacketizing
import H264Streaming.UdpH264.Numbers
import H264Streaming.Jrtplib.Framing
import H264Streaming.Format.AnnexB
import H264Streaming.H264Send.Parser
import H264Streaming.H264Send.Parsing
import H264Streaming.Bytes.File
import H264Streaming.UdpH264.Reader
import H264Streaming.UdpH264.Partition
import H264Streaming.H264Dec.Rtp
import H264Streaming.H264Dec.Writing
import H264Streaming.H264Dec.Highest
import H264Streaming.H264Dec.Compound
import H264Streaming.RtpSend.Carrying
import H264Streaming.RtpSend.Timing
import H264Streaming.RtpSend.Splitting
import H264Streaming.RtpSend.Headers
import H264Streaming.H264Send.Indicators
import H264Streaming.H264Send.Escaping
import H264Streaming.H264Send.Padding
import H264Streaming.UdpH264.Searching
import H264Streaming.UdpH264.Sending
import H264Streaming.Jrtplib.Covering
import H264Streaming.Jrtplib.Splitter
import H264Streaming.Format.Interleaved
import H264Streaming.H264Dec.Reports
import H264Streaming.Format.Packet
import H264Streaming.Bytes.Search
import H264Streaming.H264Dec.Header
import H264Streaming.H264Dec.Containment
import H264Streaming.H264Dec.Turns
import H264Streaming.H264Dec.Pending
import H264Streaming.H264Dec.Table
import H264Streaming.Bytes.Numerals
import H264Streaming.H264Dec.Status
import H264Streaming.H264Dec.Address
import H264Streaming.H264Dec.Responses
import H264Streaming.H264Dec.ParameterSets
import H264Streaming.H264Dec.SessionEcho
import H264Streaming.RtspClient.Responses
import H264Streaming.RtspClient.Tolerance
import H264Streaming.H264Dec.Loss
import H264Streaming.Bytes.Strtol
import H264Streaming.Sdp.NormalForm
import H264Streaming.RtspClient.Describing
import H264Streaming.H264Dec.Metadata
import H264Streaming.H264Dec.Relay
import H264Streaming.Interop.SendPlay
import H264Streaming.Interop.StreamPlay
import H264Streaming.UdpH264.Serving
import H264Streaming.Jrtplib.Transferring
