import BeepMusic.Lib.System
import BeepMusic.Lib.Traversal
import BeepMusic.Grouper.Assign
import BeepMusic.Grouper.Canonical
import BeepMusic.Grouper.Sources
import BeepMusic.Grouper.Grouping
import BeepMusic.Async.Channel
import BeepMusic.Async.Scheduler
import BeepMusic.Async.Wakeup
import BeepMusic.Distributor.Play
import BeepMusic.Distributor.Stream
import BeepMusic.Distributor.Transport
import BeepMusic.Distributor.Replies
import BeepMusic.Distributor.Arrival
import BeepMusic.Distributor.Blocking
import BeepMusic.Distributor.Rebuffer
import BeepMusic.Distributor.Replay
import BeepMusic.Distributor.Cookies
import BeepMusic.Distributor.FlowControl
import BeepMusic.Distributor.Playback
import BeepMusic.Distributor.Members
import BeepMusic.Distributor.TrackStart
import BeepMusic.Distributor.Volume
import BeepMusic.Distributor.VolumeTables
import BeepMusic.Distributor.VolumeRange
import BeepMusic.Lib.File
import BeepMusic.Update.Digest
import BeepMusic.Update.Package
import BeepMusic.Update.Authenticity
import BeepMusic.Boot.Bootcount
import BeepMusic.Boot.Attempts
import BeepMusic.Iomcu.AppRecord
import BeepMusic.Iomcu.Bootloader
import BeepMusic.Iomcu.Integrity
import BeepMusic.Audio.Fifo
import BeepMusic.Audio.Streambuf
import BeepMusic.Audio.Framing
import BeepMusic.Audio.CommandSlots
import BeepMusic.Audio.FifoLists
import BeepMusic.Audio.PointerFifo
import BeepMusic.Audio.StaleCounters
import BeepMusic.Lib.Word
import BeepMusic.Audio.DecodeTurn
import BeepMusic.Audio.Sync
import BeepMusic.Audio.Handover
import BeepMusic.Net.Packet
import BeepMusic.Net.Receiver
import BeepMusic.Net.Robustness
import BeepMusic.Net.Codec
import BeepMusic.Iomcu.Bus
import BeepMusic.Lib.Program
import BeepMusic.Iomcu.Ioutil
import BeepMusic.Iomcu.Access
import BeepMusic.Iomcu.Standby
import BeepMusic.Iomcu.Firmware
import BeepMusic.Beephead.Events
import BeepMusic.Beephead.Polling
import BeepMusic.Beephead.Lossless
import BeepMusic.Apps.App
import BeepMusic.Apps.Lifecycle
import BeepMusic.Apps.Settled
import BeepMusic.Manager.Grouping
import BeepMusic.Manager.Departure
import BeepMusic.Manager.Requests
import BeepMusic.Devices.Attempts
import BeepMusic.Devices.Device
import BeepMusic.Devices.Evidence
import BeepMusic.Urelay.Client
import BeepMusic.Urelay.Ownership
import BeepMusic.Lib.Loop
import BeepMusic.Urelay.Blob
import BeepMusic.Urelay.Reading
import BeepMusic.Castchat.Clients
import BeepMusic.Castchat.LifeCycle
import BeepMusic.Castchat.Attribution
import BeepMusic.Update.Download
import BeepMusic.Lib.Hex
import BeepMusic.Update.Signer
import BeepMusic.Update.Agreement
import BeepMusic.Wifisetup.Daemon
import BeepMusic.Wifisetup.Wakeups
import BeepMusic.Iomcu.Confinement
import BeepMusic.Distributor.MasterVolume
import BeepMusic.Distributor.StateThread
import BeepMusic.Distributor.Discipline
import BeepMusic.Distributor.Elapsed
import BeepMusic.Distributor.Publication
import BeepMusic.Distributor.Retention
import BeepMusic.Distributor.Streams
import BeepMusic.Async.Traffic
import BeepMusic.Async.Mult
import BeepMusic.Grouper.Delta
import BeepMusic.Grouper.Stability
import BeepMusic.Grouper.Integrations
import BeepMusic.Distributor.History
import BeepMusic.Beepdata.Json
import BeepMusic.Beepdata.Lucky
import BeepMusic.Audio.MessageQueue
import BeepMusic.Audio.MessageIntegrity
import BeepMusic.Audio.DecodeAudio
import BeepMusic.Audio.Playback
import BeepMusic.Audio.OutputFrames
import BeepMusic.Audio.DecodedFrames
import BeepMusic.Audio.FlushPosition
import BeepMusic.Audio.LateStart
import BeepMusic.Audio.TrackCount
import BeepMusic.Audio.Discards
import BeepMusic.Audio.Freeze
import BeepMusic.Beepdata.Jsonfile
import BeepMusic.Update.Readers
import BeepMusic.Update.DelSignature
import BeepMusic.Update.Bpk
import BeepMusic.Iomcu.Knob
import BeepMusic.Update.Restart
import BeepMusic.Update.Edits
import BeepMusic.Beephead.Purge
import BeepMusic.Beepio.Multitap
import BeepMusic.Devices.Notifications
import BeepMusic.Beepio.InputSeq
import BeepMusic.Wifisetup.ScanList
import BeepMusic.Lib.Strtoll
import BeepMusic.Beeplib.Strtoi
import BeepMusic.Castchat.AppRequests
import BeepMusic.Grouper.Settling
import BeepMusic.Iomcu.Corruption
