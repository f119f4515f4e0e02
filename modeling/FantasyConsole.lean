import FantasyConsole.Guest.Checked
import FantasyConsole.Machine.Lifecycle
import FantasyConsole.Machine.Pause
import FantasyConsole.Machine.SaveState
import FantasyConsole.Proofs.Draw.Footprint
import FantasyConsole.Proofs.Memory.BitArray
import FantasyConsole.Proofs.Sound.PlayQueue
import FantasyConsole.Proofs.Guest.Footprint
import FantasyConsole.Proofs.Memory.Regions
import FantasyConsole.Proofs.Raster.Overlay
import FantasyConsole.Proofs.Guest.Reach
import FantasyConsole.Proofs.Machine.Recording
import FantasyConsole.Proofs.Machine.Cases
import FantasyConsole.Proofs.Machine.Reach
import FantasyConsole.Proofs.Machine.Coherence
import FantasyConsole.Proofs.Machine.Liveness
import FantasyConsole.Proofs.Machine.Protocol
import FantasyConsole.Proofs.Raster.Rows
import FantasyConsole.Proofs.Machine.Session
import FantasyConsole.Proofs.Machine.TimeBase
import FantasyConsole.Proofs.Machine.Resumption
import FantasyConsole.Proofs.Input.Presses
import FantasyConsole.Proofs.Cart.Sections
import FantasyConsole.Proofs.Cart.Transfers
import FantasyConsole.Proofs.Cart.SyncFrame
import FantasyConsole.Proofs.Machine.Startup
import FantasyConsole.Proofs.Sound.ChannelRange
import FantasyConsole.Proofs.Sound.SoundRange
import FantasyConsole.Proofs.Sound.SampleRate
import FantasyConsole.Proofs.Sound.MusicSchedule
import FantasyConsole.Proofs.Machine.WellFormed
import FantasyConsole.Proofs.Sound.SongStart
import FantasyConsole.Proofs.Sound.EffectPlayback
import FantasyConsole.Proofs.Guest.VideoBanks
import FantasyConsole.Proofs.Machine.HiddenDevices
import FantasyConsole.Proofs.Sound.OwnChannel
import FantasyConsole.Proofs.Sound.StartRow
import FantasyConsole.Proofs.Sound.Registers
import FantasyConsole.Proofs.Sound.FrameRegisters
import FantasyConsole.Proofs.Sound.DelayedRows
import FantasyConsole.Proofs.Sound.CheckedFrames
import FantasyConsole.Proofs.Sound.SafeFrames
import FantasyConsole.Proofs.Memory.Ranges
import FantasyConsole.Proofs.Guest.Writes
import FantasyConsole.Proofs.Draw.Shapes
import FantasyConsole.Proofs.Draw.LineWalk
import FantasyConsole.Proofs.Guest.SyncCalls
import FantasyConsole.Proofs.Raster.OverlayBanks
import FantasyConsole.Proofs.Guest.CheckedCalls
import FantasyConsole.Proofs.Draw.ClippedLines
import FantasyConsole.Proofs.Machine.SaveIds
import FantasyConsole.Proofs.Script.TagLines
import FantasyConsole.Proofs.Log.Accounts
import FantasyConsole.Proofs.Machine.SavedStates
import FantasyConsole.Proofs.Script.Cuts
import FantasyConsole.Proofs.Memory.MarkedPixels
import FantasyConsole.Proofs.Input.RoundTrip
