import PassiveBitcoin.Go.Map
import PassiveBitcoin.Go.Sync
import PassiveBitcoin.Go.Trace
import PassiveBitcoin.Go.Binary
import PassiveBitcoin.Go.Time
import PassiveBitcoin.Net.TCPAddr
import PassiveBitcoin.Repository.Node
import PassiveBitcoin.Repository.NodeHandler
import PassiveBitcoin.Repository.Gob
import PassiveBitcoin.Repository.NodesDat
import PassiveBitcoin.Repository.System
import PassiveBitcoin.Repository.Save
import PassiveBitcoin.Repository.Bookkeeping
import PassiveBitcoin.Manager.Listener
import PassiveBitcoin.Manager.PeerHandler
import PassiveBitcoin.Manager.System
import PassiveBitcoin.Manager.AddPeer
import PassiveBitcoin.Manager.LocalAddrs
import PassiveBitcoin.Manager.Shutdown
import PassiveBitcoin.Manager.Dial
import PassiveBitcoin.Recorder.AddressRecord
import PassiveBitcoin.Writer.FileSystem
import PassiveBitcoin.Writer.FileWriter
import PassiveBitcoin.Writer.Handles
import PassiveBitcoin.Writer.Durability
import PassiveBitcoin.Writer.Safety
import PassiveBitcoin.Writer.Faults
