import YlongHttp.H2.Hpack.TableBound
import YlongHttp.H2.Decoder.Segments
import YlongHttp.H2.Decoder.Safety
import YlongHttp.H2.Decoder.Continuation
import YlongHttp.H2.Decoder.PushPromise
import YlongHttp.H2.Encoder.Cuts
import YlongHttp.H2.Encoder.Data
import YlongHttp.H2.Encoder.Headers
import YlongHttp.H2.ControlRoundTrip
import YlongHttp.H1.RequestHead
import YlongHttp.H1.ResponseHead
import YlongHttp.Body.ChunkSegments
import YlongHttp.Body.ChunkBytes
import YlongHttp.Client.H2.PeerView
import YlongHttp.Uri.Builder
import YlongHttp.H3.Qpack.SectionSize
import YlongHttp.H3.Qpack.TableBound
import YlongHttp.H3.Qpack.Blocked
import YlongHttp.Client.H1.Pool
import YlongHttp.H2.Hpack.Segments
import YlongHttp.Client.FormReader
import YlongHttp.Client.H2.GoAway
import YlongHttp.H3.Qpack.SectionPrefix
import YlongHttp.H3.Qpack.KnownReceived
import YlongHttp.Client.Downloader
import YlongHttp.H2.Hpack.IntegerBounds
import YlongHttp.H2.Hpack.TableHistory
