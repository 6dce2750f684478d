import BluetoothFormal.Av.AvctMessages
import BluetoothFormal.Av.AvdtConfig
import BluetoothFormal.Av.AvdtMessages
import BluetoothFormal.Bta.DatabaseHash
import BluetoothFormal.Bta.DescriptorRanges
import BluetoothFormal.Btm.AdvertiseDataParser
import BluetoothFormal.Btm.ScoDecode
import BluetoothFormal.Common.LruCache
import BluetoothFormal.Gatt.AttServerBearer
import BluetoothFormal.Gatt.FindInformation
import BluetoothFormal.Gatt.GattModule
import BluetoothFormal.Gatt.Legacy.AcceptListInterest
import BluetoothFormal.Gatt.Legacy.ClientDiscovery
import BluetoothFormal.Gatt.Legacy.ClientLongRead
import BluetoothFormal.Gatt.Legacy.ClientLongWrite
import BluetoothFormal.Gatt.Legacy.ServerBearers
import BluetoothFormal.Gatt.Legacy.ServiceLists
import BluetoothFormal.Gatt.Legacy.TargetedAnnouncements
import BluetoothFormal.Gatt.ReadByGroupType
import BluetoothFormal.Hci.AclFragmentation
import BluetoothFormal.Hci.AclScheduler
import BluetoothFormal.Hci.HciCommandOrder
import BluetoothFormal.Hci.LeAddressAssertion
import BluetoothFormal.Hci.LeAddressCommands
import BluetoothFormal.Hci.LeAddressNotices
import BluetoothFormal.Hci.LeScanningManager
import BluetoothFormal.Hci.RoundRobinCredits
import BluetoothFormal.L2cap.DynamicChannelAllocator
import BluetoothFormal.L2cap.FcrTimeouts
import BluetoothFormal.L2cap.FifoScheduler
import BluetoothFormal.L2cap.FrameCheckSequence
import BluetoothFormal.L2cap.LeCocTransfer
import BluetoothFormal.L2cap.LeCreditBasedReassembly
import BluetoothFormal.L2cap.LinkWindow
import BluetoothFormal.L2cap.SarReassembly
import BluetoothFormal.LeAudio.AseControlPoint
import BluetoothFormal.Rfcomm.MxMessages
import BluetoothFormal.Rfcomm.PortOrder
import BluetoothFormal.Rfcomm.PortReceiveCredits
import BluetoothFormal.Rfcomm.StartConfirm
import BluetoothFormal.Smp.CurveP256
import BluetoothFormal.Storage.ConfigNotices
