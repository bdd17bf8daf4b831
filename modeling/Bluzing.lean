import Bluzing.Core.TypedAccess
import Bluzing.Core.TimerHeap
import Bluzing.Core.TimerQueue
import Bluzing.Transport.H4Recovery
import Bluzing.Controller.InquiryResults
import Bluzing.Controller.CommandTimeouts
import Bluzing.Controller.SendErrors
import Bluzing.Controller.DiscoveryErrors
import Bluzing.Controller.RegistryRuns
import Bluzing.Bonds.Uniqueness
import Bluzing.Bonds.Corruption
import Bluzing.L2cap.ConfigureOptions
import Bluzing.L2cap.Outstanding
import Bluzing.L2cap.Bundles
import Bluzing.Gatt.ConnectErrors
import Bluzing.Gatt.LateResponses
import Bluzing.Gatt.Mtu
import Bluzing.Gatt.LongRead
import Bluzing.Smp.Cmac
import Bluzing.Smp.Association
import Bluzing.Smp.FlowRuns
import Bluzing.Smp.LtkOrder
import Bluzing.Smp.Reflection
import Bluzing.Hid.ExactSizes
import Bluzing.Hid.UsageLists
import Bluzing.Hid.ArrayFields
import Bluzing.Hid.Repeats
import Bluzing.Hid.VariableSlots
import Bluzing.Aros.InputBridge
import Bluzing.Sdp.Delimiting
import Bluzing.Sdp.Connecting
import Bluzing.Manager.Balance
import Bluzing.Hogp.InputReports
import Bluzing.Hogp.ForeignHandles
import Bluzing.Transport.Uart
import Bluzing.Transport.AclPath
import Bluzing.Controller.PendingLinks
