import FK1.Batching
import FK1.SectorRoundTrip
import FK1.DiskRead
import FK1.MarkHunt
import FK1.ByteCount
import FK1.FormatEnd
import FK1.DiskWrite
import FK1.UartReceive
import FK1.UartLoopback
import FK1.UartTransmit
import FK1.SerialSession
import FK1.Backpressure
import FK1.MountedDrives
import FK1.DiskTimeout
import FK1.TrackMap
import FK1.TimeSplit
import FK1.ExportSound
import FK1.PitWaves
import FK1.PitGate
import FK1.PitLatch
import FK1.PortMailboxes
import FK1.SyncHunt
import FK1.MouseQuadrature
import FK1.FieldCrc
import FK1.KeyRepeat
import FK1.UartIndices
import FK1.Lib.Record
import FK1.SystemSide
import FK1.MemoryBanks
import FK1.Picture
import FK1.InterruptLatches
import FK1.HeadPosition
import FK1.MediaHistory
import FK1.SectorRead
import FK1.GuestRead
import FK1.SectorWrite
import FK1.GuestWrite
import FK1.SavedFile
import FK1.PrinterKeyboard
import FK1.AtKeyboard
import FK1.UartFlags
import FK1.UartLine
import FK1.HostEvents
import FK1.CommandForms
import FK1.BidirectionalPort
