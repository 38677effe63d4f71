import MqttAccelero.Lib.System
import MqttAccelero.Lib.Framing
import MqttAccelero.Lib.Memory
import MqttAccelero.Lib.Threads
import MqttAccelero.Lib.Nesting
import MqttAccelero.Lib.Windows
import MqttAccelero.Lib.Scaling
import MqttAccelero.Lib.Ledger
import MqttAccelero.Lib.HexText
import MqttAccelero.Lib.FreeList
import MqttAccelero.Lib.Cyclic
import MqttAccelero.Lib.Varint
import MqttAccelero.Lib.Chain
import MqttAccelero.Lib.DeltaQueue
import MqttAccelero.Osal.Timeout
import MqttAccelero.Osal.KernelObjects
import MqttAccelero.Usb.Device
import MqttAccelero.Net.Pbuf
import MqttAccelero.Net.EventLoop
import MqttAccelero.Net.Ownership
import MqttAccelero.Net.CoreLock
import MqttAccelero.Net.LinkState
import MqttAccelero.Net.Session
import MqttAccelero.Net.Reception
import MqttAccelero.Net.FrameFit
import MqttAccelero.Net.Delivery
import MqttAccelero.Net.Output
import MqttAccelero.Net.Transmission
import MqttAccelero.Net.CoreThreads
import MqttAccelero.Net.OutputHandle
import MqttAccelero.Uart.DebugUart
import MqttAccelero.Uart.MemoryDump
import MqttAccelero.Spi.Accelero
import MqttAccelero.Spi.Lis3dsh
import MqttAccelero.Spi.Sensor
import MqttAccelero.App.Telemetry
import MqttAccelero.Spi.Interrupt
import MqttAccelero.Spi.Objects
import MqttAccelero.Usb.Control
import MqttAccelero.Usb.Notification
import MqttAccelero.Usb.Leak
import MqttAccelero.Usb.Requests
import MqttAccelero.App.Uptimer
import MqttAccelero.App.Ping
import MqttAccelero.App.Shell
import MqttAccelero.Osal.Heap4
import MqttAccelero.Mqtt.Packet
import MqttAccelero.Mqtt.Output
import MqttAccelero.Mqtt.Requests
import MqttAccelero.Mqtt.Incoming
import MqttAccelero.Mqtt.Client
import MqttAccelero.Mqtt.Traffic
import MqttAccelero.Mqtt.Lifecycle
import MqttAccelero.Mqtt.Sessions
import MqttAccelero.Mqtt.Publications
