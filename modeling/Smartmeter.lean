import Smartmeter.Foundation.BigEndian
import Smartmeter.Foundation.ByteProg
import Smartmeter.Foundation.Budget
import Smartmeter.Foundation.Hoare
import Smartmeter.Foundation.Machine
import Smartmeter.Sml.Message
import Smartmeter.Sml.Frame.CheckingReader
import Smartmeter.Sml.Frame.Decode
import Smartmeter.Sml.Frame.Delivery
import Smartmeter.Sml.Frame.Reference
import Smartmeter.Sml.Crc
import Smartmeter.Sml.Error
import Smartmeter.Sml.Tlv.Reader
import Smartmeter.Sml.Tlv.Read
import Smartmeter.Sml.Types
import Smartmeter.Sml.Task
import Smartmeter.Firmware.MessageCallback
import Smartmeter.Sml.Executor
import Smartmeter.Sml.Stream
import Smartmeter.Sml.Simulation
import Smartmeter.Firmware.Capi
import Smartmeter.Sml.Tlv.Header
import Smartmeter.Sml.Tlv.Reading
import Smartmeter.Sml.Tlv.Skip
import Smartmeter.Sml.Tlv.Items
import Smartmeter.Sml.Frame.Buffers
import Smartmeter.Sml.Frame.Grammar
import Smartmeter.Sml.Position
import Smartmeter.Sml.Run
import Smartmeter.Sml.Tlv.Encode
import Smartmeter.Sml.Tlv.Elements
import Smartmeter.Sml.Tlv.EndMarker
import Smartmeter.Sml.Tlv.Forest
import Smartmeter.Sml.Tlv.Walk
import Smartmeter.Sml.Tlv.Lazy
import Smartmeter.Sml.Tlv.Recovery
import Smartmeter.Sml.Tlv.Bookkeeping
import Smartmeter.Sml.StartMarker
import Smartmeter.Sml.ReadFrame
import Smartmeter.Sml.Integrity
import Smartmeter.Sml.Build.Choice
import Smartmeter.Sml.Numbers
import Smartmeter.Sml.Tlv.Descent
import Smartmeter.Io.Finite
import Smartmeter.Sml.Blocked
import Smartmeter.Sml.EndOfInput
import Smartmeter.Sml.Termination
import Smartmeter.Sml.Parts
import Smartmeter.Sml.FrameRun
import Smartmeter.Sml.Acceptance
import Smartmeter.Sml.Checksum
import Smartmeter.Sml.Frame.Encode
import Smartmeter.Sml.RoundTrip
import Smartmeter.Sml.Build.Accessors
import Smartmeter.Sml.Build.Chain
import Smartmeter.Firmware.ParticleSensor
import Smartmeter.Firmware.Powermeter.Requests
import Smartmeter.Firmware.Powermeter.Ledger
import Smartmeter.Firmware.Powermeter.RxWork
import Smartmeter.Firmware.Powermeter.Receiver
import Smartmeter.Sml.Heard
import Smartmeter.Firmware.ValueList
import Smartmeter.Firmware.Told
import Smartmeter.Sml.Typed
import Smartmeter.Firmware.TypedList
import Smartmeter.Sml.Leaves
import Smartmeter.Firmware.Meter
import Smartmeter.Firmware.Calls
import Smartmeter.Firmware.OtherEntries
import Smartmeter.Sml.Build.Items
import Smartmeter.Firmware.Mqttsndev.Client
import Smartmeter.Firmware.Mqttsndev.Requests
import Smartmeter.Firmware.Mqttsndev.Latest
import Smartmeter.Firmware.Mqttsndev.Recovery
import Smartmeter.Firmware.Mqttsndev.Protocol
import Smartmeter.Firmware.Packets
import Smartmeter.Firmware.ParticlePublisher
import Smartmeter.Firmware.Co2Sensor
import Smartmeter.Firmware.Mqttsndev.Watchdog
import Smartmeter.Firmware.Logger
import Smartmeter.Firmware.Powermeter.Refinement
import Smartmeter.Firmware.Powermeter.Sent
import Smartmeter.Firmware.Mqttsndev.Memory
import Smartmeter.Firmware.Mqttsndev.PortNumber
