import Ucisdk.Routing
import Ucisdk.Inflight
import Ucisdk.RequestLine
import Ucisdk.ClientRoundTrip
import Ucisdk.KeyRoundTrip
import Ucisdk.HybridKeys
import Ucisdk.ConfigExact
import Ucisdk.DeviceIds
import Ucisdk.GatewayPin
import Ucisdk.KeySources
import Ucisdk.BareIndex
import Ucisdk.CcmData
import Ucisdk.Reply
import Ucisdk.Server
import Ucisdk.Connection
import Ucisdk.SkfOutput
import Ucisdk.SkfRelease
import Ucisdk.KeyContainer
import Ucisdk.SkfConduct
import Ucisdk.SkfReady
import Ucisdk.RuleCoverage
import Ucisdk.Failures
import Ucisdk.Encoders
import Ucisdk.SequenceGrammar
import Ucisdk.Pieces
import Ucisdk.EntryPoints
import Ucisdk.Numerals
import Ucisdk.HexScanner
import Ucisdk.Spellings
import Ucisdk.Transport
import Ucisdk.QueueThreads
import Ucisdk.Liveness
import Ucisdk.Answers
import Ucisdk.ClientCore
import Ucisdk.SequenceJoin
import Ucisdk.Interference
import Ucisdk.SkfConforms
