import N64Emu.PeripheralDma

/-!
# The audio interface

At most one active and one queued transfer; `tick` plays the active one into
the sample ring, one stereo frame per `cycles_per_frame`.
-/

set_option autoImplicit false

namespace N64

open Words Loops

namespace Ai

def DramAddr : ℕ := 0x00 / 4
def Len : ℕ := 0x04 / 4
def Control : ℕ := 0x08 / 4
def Status : ℕ := 0x0C / 4
def DacRate : ℕ := 0x10 / 4
def BitRate : ℕ := 0x14 / 4

def StatusFull : U32 := 1#32 <<< 0
def StatusBusy : U32 := 1#32 <<< 30
def ControlDmaOn : U32 := 1#32 <<< 0
def kDacClockHz : U32 := 48681812
def kDefaultSampleRate : U32 := 32000
def kRingFrames : U64 := 8192
def kRingMask : U64 := kRingFrames - 1
def kCpuHz : Cycles := 93750000

def setReg (a : AudioInterface) (i : ℕ) (v : U32) : AudioInterface :=
  { a with regs := Function.update a.regs i v }

def sampleRate (a : AudioInterface) : U32 :=
  let dac := a.regs DacRate &&& 0x3FFF
  if dac = 0 then kDefaultSampleRate
  else
    let rate := kDacClockHz / (dac + 1)
    if rate < 4000 then 4000 else if rate > 96000 then 96000 else rate

/-- `(sr > 0) ? (kCpuHz / sr) : (kCpuHz / kDefaultSampleRate)`. -/
def rateCycles (sr : U32) : Cycles :=
  if sr > 0 then kCpuHz / sr.setWidth 64 else kCpuHz / kDefaultSampleRate.setWidth 64

def setCyclesPerFrame (a : AudioInterface) : AudioInterface :=
  let cycles := rateCycles (sampleRate a)
  { a with cyclesPerFrame := if cycles = 0 then 1 else cycles }

def reset (_ : AudioInterface) : AudioInterface :=
  let a : AudioInterface := {}
  let a := setReg a DacRate (kDacClockHz / kDefaultSampleRate - 1)
  let a := setReg a BitRate 0xF
  { a with cyclesPerFrame := rateCycles (sampleRate a) }

def updateStatusBits (a : AudioInterface) : AudioInterface :=
  let st : U32 := 0
  let st := if a.dmaQueued then st ||| StatusFull else st
  let st := if a.dmaActive then st ||| StatusBusy else st
  setReg a Status st

def read (a : AudioInterface) (offset : U32) : U32 :=
  match (offset &&& 0x1C).toNat with
  | 0x00 => a.regs DramAddr &&& 0x00FFFFF8
  | 0x04 => a.regs Len &&& 0x0003FFF8
  | 0x08 => a.regs Control &&& 0x1
  | 0x0C => a.regs Status
  | 0x10 => a.regs DacRate &&& 0x3FFF
  | 0x14 => a.regs BitRate &&& 0xF
  | _ => 0

def alignLen (v : U32) : U32 := v &&& ~~~7

def beginDma (a : AudioInterface) (job : DmaJob) : AudioInterface :=
  let a := { a with
    current := job
    dmaActive := true
    bytesRemaining := job.length
    readCursor := job.dramAddr }
  let a := setReg a Len job.length
  let a := updateStatusBits a
  setCyclesPerFrame { a with cycleAccum := 0 }

def startOrQueueDma (a : AudioInterface) (lengthReg : U32) : AudioInterface :=
  let length := alignLen lengthReg
  if length = 0 then a
  else
    let job : DmaJob := { dramAddr := a.regs DramAddr &&& 0x00FFFFF8, length := length }
    if !a.dmaActive then beginDma a job
    else if !a.dmaQueued then updateStatusBits { a with queued := job, dmaQueued := true }
    else a

def write (s : Sys) (offset value : U32) : Sys :=
  match (offset &&& 0x1C).toNat with
  | 0x0C => Mi.clear s MiIntr.AI
  | 0x00 => { s with ai := setReg s.ai DramAddr (value &&& 0x00FFFFF8) }
  | 0x08 =>
    { s with ai := { setReg s.ai Control (value &&& 0x1) with
      dmaEnabled := (value &&& ControlDmaOn) != 0 } }
  | 0x10 => { s with ai := setCyclesPerFrame (setReg s.ai DacRate (value &&& 0x3FFF)) }
  | 0x14 => { s with ai := setReg s.ai BitRate (value &&& 0xF) }
  | 0x04 =>
    let a := setReg s.ai Len (value &&& 0x0003FFF8)
    { s with ai := startOrQueueDma a (a.regs Len) }
  | _ => s

def finishCurrentDma (s : Sys) : Sys :=
  let a := { s.ai with dmaActive := false, bytesRemaining := 0 }
  let a := setReg a Len 0
  let a := updateStatusBits { a with dmasCompleted := a.dmasCompleted + 1 }
  let s := Mi.raise { s with ai := a } MiIntr.AI
  if s.ai.dmaQueued then
    { s with ai := beginDma { s.ai with dmaQueued := false, queued := {} } s.ai.queued }
  else { s with ai := updateStatusBits s.ai }

def beS16FromRdram (b : Bus) (addr : U32) : U16 :=
  if b.rdramSize = 0 then 0
  else join16 (b.rdram (addr.toNat % b.rdramSize)) (b.rdram ((addr + 1).toNat % b.rdramSize))

def pushFrame (a : AudioInterface) (left right : U16) : AudioInterface :=
  let w := a.ringW
  let r := a.ringR
  let count := w - r
  let a := { a with samplesPushed := a.samplesPushed + 1 }
  if count ≥ kRingFrames then { a with framesDropped := a.framesDropped + 1 }
  else
    let slot := (w &&& kRingMask).toNat * 2
    { a with
      ring := Function.update (Function.update a.ring slot left) (slot + 1) right
      ringW := w + 1 }

/-- The frames that a span of `maxFrames` stereo frames receives. -/
def pullFrames (a : AudioInterface) (maxFrames : U64) : AudioInterface × List (U16 × U16) :=
  if maxFrames = 0 then (a, [])
  else
    let r := a.ringR
    let w := a.ringW
    if w ≤ r then (a, [])
    else
      let available := w - r
      let n := if available < maxFrames then available else maxFrames
      let out := (List.range n.toNat).map fun f =>
        let slot := ((r + BitVec.ofNat 64 f) &&& kRingMask).toNat * 2
        (a.ring slot, a.ring (slot + 1))
      ({ a with ringR := r + n }, out)

def tickFrame (b : Bus) (a : AudioInterface) : AudioInterface :=
  let a := { a with cycleAccum := a.cycleAccum - a.cyclesPerFrame }
  let a := pushFrame a (beS16FromRdram b a.readCursor) (beS16FromRdram b (a.readCursor + 2))
  let a := { a with readCursor := a.readCursor + 4, bytesRemaining := a.bytesRemaining - 4 }
  setReg a Len (a.bytesRemaining &&& 0x0003FFF8)

def tick (s : Sys) (cpuCycles : Cycles) : Sys :=
  if !s.ai.dmaActive ∨ s.ai.bytesRemaining = 0 ∨ s.ai.cyclesPerFrame = 0 then s
  else
    let a := { s.ai with cycleAccum := s.ai.cycleAccum + cpuCycles }
    let a : AudioInterface := whileDo
      (fun (a : AudioInterface) => a.dmaActive && a.cyclesPerFrame ≤ a.cycleAccum &&
        a.bytesRemaining ≥ 4)
      (tickFrame s.bus) a.bytesRemaining.toNat a
    let s := { s with ai := a }
    if s.ai.dmaActive ∧ s.ai.bytesRemaining < 4 then
      finishCurrentDma { s with ai.bytesRemaining := 0 }
    else s

end Ai

end N64
