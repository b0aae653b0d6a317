import Upse.Bios.Kernel.Blocking
import Upse.Bios.Kernel.Conservation
import Upse.Bios.Kernel.Reports
import Upse.Bios.Placement
import Upse.Hw.Ps1.SoundTransfers
import Upse.Hw.Ps1.TimerWidths
import Upse.Hw.Ps2.DmaEvents
import Upse.Hw.Ps2.DmaInterrupts
import Upse.Hw.Ps2.TimerCycles
import Upse.Hw.Ps2.Refresh
import Upse.Bios.Kernel.Switches
import Upse.Bios.Kernel.WaitOrder
import Upse.Bios.Kernel.Yield
import Upse.Support.SchedulerRuns
import Upse.Bios.Modules.Libraries
import Upse.Api.Seeking
import Upse.Support.Silence
import Upse.Machine.Pulling
import Upse.Machine.Ps1.Backlog
import Upse.Formats.Ps2.RoundTrip
import Upse.Formats.Ps2.IrxSafety
import Upse.Formats.Ps2.ParseBounds
import Upse.Formats.Ps1.Image
import Upse.Formats.Psf.DurationGrammar
import Upse.Formats.Psf.Confined
import Upse.Hw.Shared.InterruptSampling
import Upse.Hw.Shared.BusFailures
import Upse.Hw.Shared.Unaligned
import Upse.Bios.Ps1.KernelAllocation
import Upse.Bios.Ps1.EventDelivery
import Upse.Bios.Ps1.LibcSearching
import Upse.Machine.Ps2.Argv
import Upse.Machine.Ps2.TimerCallbacks
import Upse.Machine.Ps2.Reporting
import Upse.Machine.Ps2.LibsdRegisters
import Upse.Hw.EffectAreas
import Upse.Hw.Shared.Adsr
import Upse.Services.Cursors
import Upse.Services.StringReference
import Upse.Services.TokenRuns
import Upse.Services.FormatRuns
import Upse.Bios.RawTable
import Upse.Hw.GuestMemories
import Upse.Hw.InterruptLatches
