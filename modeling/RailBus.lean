import RailBus.Checksum.Crc8
import RailBus.Checksum.Crc16
import RailBus.Wire.Septets
import RailBus.Wire.Block
import RailBus.Wire.Format
import RailBus.Wire.Packed
import RailBus.Wire.Command
import RailBus.Text.Blank
import RailBus.Firmware.HexRecord
import RailBus.Firmware.Frame
import RailBus.Firmware.Image
import RailBus.Firmware.Session
import RailBus.Firmware.Transfer
import RailBus.Queue
import RailBus.UnitTable
import RailBus.Discovery
import RailBus.Version
import RailBus.Transport
import RailBus.Layout.Basic
import RailBus.Layout.Store
import RailBus.Station.Basic
import RailBus.Station.Dispatch
import RailBus.Station.Schedule
import RailBus.Station.Update
import RailBus.Station.Checked
import RailBus.Link
import RailBus.Proofs.Firmware.ImageShape
import RailBus.Proofs.Firmware.Delivery
import RailBus.Proofs.Wire.Valid
import RailBus.Proofs.Link.Framing
import RailBus.Proofs.Wire.SevenBit
import RailBus.Proofs.Station.SentValid
import RailBus.Proofs.Discovery.Cursor
import RailBus.Proofs.Discovery.Hunt
import RailBus.Proofs.Station.FirmwareUpdate
import RailBus.Proofs.Station.Handling
import RailBus.Proofs.Station.SlotChoice
import RailBus.Proofs.Station.Rotation
import RailBus.Proofs.Discovery.Toward
import RailBus.Proofs.Station.QuietTurns
import RailBus.Proofs.Station.Enrolment
import RailBus.Proofs.Wire.ErrorDetection
import RailBus.Proofs.Station.Exposure
import RailBus.Proofs.Station.Keepalive
import RailBus.Proofs.Link.Transmit
import RailBus.Proofs.Firmware.FrameCut
import RailBus.Proofs.Firmware.Retransmission
import RailBus.Proofs.Firmware.Progress
import RailBus.Proofs.Firmware.FlatMemory
import RailBus.Proofs.Discovery.Window
import RailBus.Proofs.Firmware.HexGrammar
import RailBus.Proofs.Firmware.HexFile
import RailBus.Proofs.Station.StaleUpdates
import RailBus.Proofs.Wire.Codec
import RailBus.Proofs.Station.LocoReplies
import RailBus.Proofs.Station.Browsing
import RailBus.Proofs.Station.NameWriting
import RailBus.Proofs.Queue.ListModel
import RailBus.Proofs.Firmware.WireLayout
import RailBus.Proofs.UnitTable.Budgets
import RailBus.Proofs.Station.Takeover
