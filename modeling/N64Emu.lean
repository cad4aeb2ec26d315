import N64Emu.CpuRun
import N64Emu.BusBytes
import N64Emu.DpList
import N64Emu.CoherentRun
import N64Emu.InterruptReturn
import N64Emu.UserMode
import N64Emu.Reservation
import N64Emu.RspResume
import N64Emu.VectorAccumulate
import N64Emu.JoybusPackets
import N64Emu.SampleRing
import N64Emu.AudioPlayback
import N64Emu.FpuExceptions
import N64Emu.LoaderAgreement
import N64Emu.SoftReset
import N64Emu.BootInvariant
import N64Emu.InterruptRun
import N64Emu.ElapsedCycles
import N64Emu.TimerInterrupt
import N64Emu.WiredEntries
import N64Emu.SchedulerHistory
import N64Emu.BlockSteps
import N64Emu.TlbIntervals
import N64Emu.UnalignedPairs
import N64Emu.BlockWords
import N64Emu.CacheInvalidation
import N64Emu.BranchSlots
import N64Emu.VectorDouble
import N64Emu.VectorClip
import N64Emu.ScanLines
import N64Emu.FrameSignals
import N64Emu.FramePeriod
import N64Emu.AudioLength
import N64Emu.AudioBatches
import N64Emu.FramebufferPaths
import N64Emu.BootCoherence
import N64Emu.CommandPairs
import N64Emu.SubWordStores
import N64Emu.CachedTranslations
import N64Emu.CacheTransparency
import N64Emu.DigitRoot
import N64Emu.DivisionTable
import N64Emu.DivisionAccuracy
import N64Emu.Fills
import N64Emu.VectorMemory
import N64Emu.VectorTranspose
import N64Emu.SpDma
import N64Emu.PiDma
import N64Emu.PixelWrites
import N64Emu.FillRectangles
import N64Emu.TextureRectangles
import N64Emu.TextureBlit
import N64Emu.PixelColors
import N64Emu.PackedWords
import N64Emu.CommandWords
import N64Emu.CommandRoundTrip
import N64Emu.GroupMirror
import N64Emu.CartEndian
import N64Emu.WideProduct
import N64Emu.MultiplyDivide
import N64Emu.CheckedSigned
import N64Emu.IntegerArithmetic
import N64Emu.Debugger
import N64Emu.CheckedMemory
import N64Emu.JoybusSlots
import N64Emu.JoybusRobust
import N64Emu.DebugTrace
import N64Emu.Watchpoints
import N64Emu.DebugReplay
import N64Emu.MmioLog
import N64Emu.BootChecksum
import N64Emu.BusStore
import N64Emu.AtRest
import N64Emu.Semaphore
import N64Emu.RspShape
import N64Emu.Picture
import N64Emu.SerialPoll
import N64Emu.FrameCalls
import N64Emu.BootProgram
