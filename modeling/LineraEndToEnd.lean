import LineraEndToEnd.Fungible.Conservation
import LineraEndToEnd.Fungible.Authority
import LineraEndToEnd.Fungible.RemoteClaim
import LineraEndToEnd.Fungible.Refund
import LineraEndToEnd.Fungible.Ledger
import LineraEndToEnd.Fungible.Distribution
import LineraEndToEnd.Social.Comments
import LineraEndToEnd.Social.Blocking
import LineraEndToEnd.Social.Replay
import LineraEndToEnd.Social.Codec
import LineraEndToEnd.LocalNet.Servers
import LineraEndToEnd.Counter.Persistence
import LineraEndToEnd.LocalNet.Ports
import LineraEndToEnd.LocalNet.LogFiles
import LineraEndToEnd.Evm.Encoding
import LineraEndToEnd.Storage.Write
import LineraEndToEnd.Storage.Read
import LineraEndToEnd.Monitor.Verdict
import LineraEndToEnd.Morpho.RoundTrip
import LineraEndToEnd.Morpho.Terms
import LineraEndToEnd.Morpho.Solvency
import LineraEndToEnd.LineraTypes.Calls
