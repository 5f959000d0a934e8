import CanopenReference.Library.Buffer
import CanopenReference.Library.Clock

/-!
# Download to the staging image

The download object of `uds_download.c`. The memory callbacks are functions on
the memory behind the context pointer, any of which may be missing, and every
operation lists the callbacks it invoked. The object itself is never null.
-/

set_option autoImplicit false

namespace CanopenReference.Download
open Library

def udsDownloadMaxChunkLength : ℕ := 256
def udsDownloadTimeoutMs : UInt32 := 5000
def udsDownloadMetadataMagic : UInt32 := 0x55445349

inductive UdsDownloadResult where
  | ok
  | busy
  | invalidArgument
  | notReady
  | outOfRange
  | alignmentError
  | overflow
  | sequenceError
  | programError
  | eraseError
  | verifyError
  | timeout
  | aborted
  deriving DecidableEq, Repr

inductive UdsDownloadState where
  | idle
  | erasing
  | receiving
  | verifying
  | complete
  | abortedState
  deriving DecidableEq, Repr

structure UdsDownloadRegion where
  start : UInt32
  endExclusive : UInt32
  deriving DecidableEq

structure UdsDownloadMemoryMap where
  stagingImage : UdsDownloadRegion
  bootloader : UdsDownloadRegion
  activeApplication : UdsDownloadRegion
  canopenNvm : UdsDownloadRegion
  diagnosticStorage : UdsDownloadRegion
  eraseAlignment : UInt32
  programAlignment : UInt32
  maxBlockLength : UInt16
  activationSupported : Bool
  deriving DecidableEq

structure UdsDownloadMetadata where
  magic : UInt32
  imageAddress : UInt32
  imageLength : UInt32
  receivedLength : UInt32
  crc32 : UInt32
  hash : Buffer UInt8 32
  crcValid : Bool
  hashValid : Bool
  activationPending : Bool
  deriving DecidableEq

structure UdsDownloadCallbacks (σ : Type) where
  eraseStart : Option (σ → UInt32 → UInt32 → σ × UdsDownloadResult)
  erasePoll : Option (σ → σ × UdsDownloadResult)
  program : Option (σ → UInt32 → List UInt8 → σ × UdsDownloadResult)
  verifyImage : Option (σ → UdsDownloadMetadata → UInt32 → Bool → σ × UdsDownloadResult)
  abort : Option (σ → σ)
  watchdogKick : Option (σ → σ)

structure UdsDownload (σ : Type) where
  memory : UdsDownloadMemoryMap
  callbacks : UdsDownloadCallbacks σ
  context : σ
  state : UdsDownloadState
  metadata : UdsDownloadMetadata
  expectedBlock : UInt8
  deadlineMs : UInt32
  crc32 : UInt32

/-- A callback invocation with the arguments that reach the memory. -/
inductive MemoryCall where
  | eraseStart (address length : UInt32)
  | erasePoll
  | program (address : UInt32) (data : List UInt8)
  | verifyImage (metadata : UdsDownloadMetadata)
  | abort
  | watchdogKick
  deriving DecidableEq

def noRegion : UdsDownloadRegion := ⟨0,0⟩

def noMemory : UdsDownloadMemoryMap :=
  ⟨noRegion,noRegion,noRegion,noRegion,noRegion,0,0,0,false⟩

def noCallbacks (σ : Type) : UdsDownloadCallbacks σ := ⟨none,none,none,none,none,none⟩

def noMetadata : UdsDownloadMetadata := ⟨0,0,0,0,0,Buffer.blank _ 0,false,false,false⟩

def timeExpired (nowMs deadlineMs : UInt32) : Bool := Clock.reached nowMs deadlineMs

def rangeInside (region : UdsDownloadRegion) (address length : UInt32) : Bool :=
  if length = 0 ∨ address < region.start ∨ region.endExclusive < region.start then false
  else length ≤ region.endExclusive-address

/-- A test, with the divisors of the remainders that it computes. -/
structure Test where
  holds : Bool
  divisors : List UInt32

namespace Test

def negate (t : Test) : Test := ⟨!t.holds,t.divisors⟩

def either (t u : Test) : Test := if t.holds then t else ⟨u.holds,t.divisors++u.divisors⟩

def leavesRemainder (value divisor : UInt32) : Test := ⟨value%divisor ≠ 0,[divisor]⟩

def aligned (value alignment : UInt32) : Test :=
  if alignment ≠ 0 then (leavesRemainder value alignment).negate else ⟨false,[]⟩

theorem either_holds (t u : Test) : (t.either u).holds = true ↔ t.holds = true ∨ u.holds = true := by
  unfold either
  cases h : t.holds <;> simp [h]

end Test

def aligned (value alignment : UInt32) : Bool := (Test.aligned value alignment).holds

/-- The alignment test of a begin. -/
def imageMisaligned (m : UdsDownloadMemoryMap) (address length : UInt32) : Test :=
  (Test.aligned address m.eraseAlignment).negate.either
    ((Test.aligned length m.eraseAlignment).negate.either
      (Test.aligned address m.programAlignment).negate)

/-- The alignment test of a write. -/
def chunkMisaligned (m : UdsDownloadMemoryMap) (receivedLength length : UInt32) : Test :=
  (Test.leavesRemainder receivedLength m.programAlignment).either
    (Test.leavesRemainder length m.programAlignment)

theorem aligned_iff (value alignment : UInt32) :
    aligned value alignment = true ↔ alignment ≠ 0 ∧ value%alignment = 0 := by
  unfold aligned Test.aligned
  split
  · rename_i h
    simp [Test.negate,Test.leavesRemainder,h]
  · rename_i h
    simp [not_not.mp h]

theorem image_misaligned (m : UdsDownloadMemoryMap) (address length : UInt32) :
    (imageMisaligned m address length).holds = true ↔ ¬aligned address m.eraseAlignment = true ∨
      ¬aligned length m.eraseAlignment = true ∨ ¬aligned address m.programAlignment = true := by
  rw [imageMisaligned,Test.either_holds,Test.either_holds]
  simp [aligned,Test.negate]

theorem chunk_misaligned (m : UdsDownloadMemoryMap) (receivedLength length : UInt32) :
    (chunkMisaligned m receivedLength length).holds = true ↔
      receivedLength%m.programAlignment ≠ 0 ∨ length%m.programAlignment ≠ 0 := by
  rw [chunkMisaligned,Test.either_holds]
  simp [Test.leavesRemainder]

def overlaps (left right : UdsDownloadRegion) : Bool :=
  left.start < right.endExclusive ∧ right.start < left.endExclusive

def crc32Bit (value : UInt32) : UInt32 :=
  if value &&& 1 ≠ 0 then (value >>> 1) ^^^ 0xEDB88320 else value >>> 1

def crc32Update (crc : UInt32) (data : List UInt8) : UInt32 :=
  data.foldl (fun value byte => Nat.repeat crc32Bit 8 (value ^^^ byte.toUInt32)) crc

section Operations
variable {σ : Type}

def udsDownloadInit (memory : Option UdsDownloadMemoryMap)
    (callbacks : Option (UdsDownloadCallbacks σ)) (context : σ) : UdsDownload σ where
  memory := memory.getD noMemory
  callbacks := callbacks.getD (noCallbacks σ)
  context := context
  state := .idle
  metadata := noMetadata
  expectedBlock := 1
  deadlineMs := 0
  crc32 := 0xFFFFFFFF

def kickWatchdog (d : UdsDownload σ) : UdsDownload σ × List MemoryCall :=
  match d.callbacks.watchdogKick with
  | none => (d,[])
  | some watchdogKick => ({ d with context := watchdogKick d.context },[.watchdogKick])

def udsDownloadAbort (d : UdsDownload σ) : UdsDownload σ × List MemoryCall :=
  let stopped : UdsDownload σ :=
    { d with state := .abortedState, metadata := { d.metadata with activationPending := false } }
  match d.callbacks.abort with
  | none => (stopped,[])
  | some abort => ({ stopped with context := abort d.context },[.abort])

/-- The checks of `uds_download_begin` before it starts the erase, with the
result of the first that fails. -/
def beginRefusal (d : UdsDownload σ) (address length : UInt32) : Option UdsDownloadResult :=
  let image : UdsDownloadRegion := ⟨address,address+length⟩
  if d.callbacks.eraseStart.isNone ∨ d.callbacks.erasePoll.isNone ∨ d.callbacks.program.isNone ∨
      d.callbacks.verifyImage.isNone then some .invalidArgument
  else if length = 0 ∨ image.endExclusive < address ∨
      !rangeInside d.memory.stagingImage address length ∨ overlaps image d.memory.bootloader ∨
      overlaps image d.memory.activeApplication ∨ overlaps image d.memory.canopenNvm ∨
      overlaps image d.memory.diagnosticStorage then some .outOfRange
  else if (imageMisaligned d.memory address length).holds then some .alignmentError
  else if d.memory.maxBlockLength < 3 ∨
      udsDownloadMaxChunkLength < d.memory.maxBlockLength.toNat then some .invalidArgument
  else none

def udsDownloadBegin (d : UdsDownload σ) (address length nowMs : UInt32) :
    UdsDownload σ × UdsDownloadResult × List MemoryCall :=
  match beginRefusal d address length, d.callbacks.eraseStart with
  | some refusal, _ => (d,refusal,[])
  | none, none => (d,.invalidArgument,[])
  | none, some eraseStart =>
    let (context,result) := eraseStart d.context address length
    let called : UdsDownload σ := { d with context := context }
    if result ≠ .ok then (called,result,[.eraseStart address length])
    else
      ({ called with
          metadata :=
            { d.metadata with
              magic := udsDownloadMetadataMagic, imageAddress := address, imageLength := length,
              receivedLength := 0, crc32 := 0xFFFFFFFF, crcValid := false, hashValid := false,
              activationPending := false }
          crc32 := 0xFFFFFFFF
          expectedBlock := 1
          deadlineMs := nowMs+udsDownloadTimeoutMs
          state := .erasing },
        .ok,[.eraseStart address length])

def udsDownloadPollErase (d : UdsDownload σ) (nowMs : UInt32) :
    UdsDownload σ × UdsDownloadResult × List MemoryCall :=
  match d.callbacks.erasePoll with
  | none => (d,.notReady,[])
  | some erasePoll =>
    if d.state ≠ .erasing then (d,.notReady,[])
    else if timeExpired nowMs d.deadlineMs then
      let (stopped,calls) := udsDownloadAbort d
      (stopped,.timeout,calls)
    else
      let (kicked,calls) := kickWatchdog d
      let (context,result) := erasePoll kicked.context
      let polled : UdsDownload σ := { kicked with context := context }
      (if result = .ok then
          { polled with state := .receiving, deadlineMs := nowMs+udsDownloadTimeoutMs }
        else polled,
        result,calls++[.erasePoll])

def udsDownloadWrite (d : UdsDownload σ) (block : UInt8) (data : List UInt8) (nowMs : UInt32) :
    UdsDownload σ × UdsDownloadResult × List MemoryCall :=
  let length := UInt32.ofNat data.length
  match d.callbacks.program with
  | none => (d,.notReady,[])
  | some program =>
    if data.length = 0 ∨ udsDownloadMaxChunkLength < data.length ∨ d.state ≠ .receiving then
      (d,.notReady,[])
    else if timeExpired nowMs d.deadlineMs then
      let (stopped,calls) := udsDownloadAbort d
      (stopped,.timeout,calls)
    else if block ≠ d.expectedBlock then (d,.sequenceError,[])
    else if d.metadata.imageLength-d.metadata.receivedLength < length then (d,.overflow,[])
    else if (chunkMisaligned d.memory d.metadata.receivedLength length).holds then
      (d,.alignmentError,[])
    else
      let address := d.metadata.imageAddress+d.metadata.receivedLength
      let (context,result) := program d.context address data
      let called : UdsDownload σ := { d with context := context }
      if result ≠ .ok then (called,.programError,[.program address data])
      else
        let crc := crc32Update d.crc32 data
        let (kicked,calls) := kickWatchdog
          { called with
            metadata :=
              { d.metadata with
                receivedLength := d.metadata.receivedLength+length, crc32 := crc }
            crc32 := crc
            expectedBlock := d.expectedBlock+1
            deadlineMs := nowMs+udsDownloadTimeoutMs }
        (kicked,.ok,.program address data::calls)

def udsDownloadFinish (d : UdsDownload σ) (expectedCrc32 : UInt32) (hasExpectedCrc32 : Bool)
    (nowMs : UInt32) : UdsDownload σ × UdsDownloadResult × List MemoryCall :=
  match d.callbacks.verifyImage with
  | none => (d,.notReady,[])
  | some verifyImage =>
    if d.state ≠ .receiving ∨ d.metadata.receivedLength ≠ d.metadata.imageLength then
      (d,.notReady,[])
    else if timeExpired nowMs d.deadlineMs then
      let (stopped,calls) := udsDownloadAbort d
      (stopped,.timeout,calls)
    else
      let crcValid : Bool := !hasExpectedCrc32 || (d.crc32 ^^^ 0xFFFFFFFF) == expectedCrc32
      let checked : UdsDownload σ :=
        { d with state := .verifying, metadata := { d.metadata with crcValid := crcValid } }
      if !crcValid then
        let (stopped,calls) := udsDownloadAbort checked
        (stopped,.verifyError,calls)
      else
        let (context,result) :=
          verifyImage checked.context checked.metadata expectedCrc32 hasExpectedCrc32
        let verified : UdsDownload σ := { checked with context := context }
        if result ≠ .ok then
          let (stopped,calls) := udsDownloadAbort verified
          (stopped,result,.verifyImage checked.metadata::calls)
        else
          ({ verified with
              metadata :=
                { checked.metadata with activationPending := !d.memory.activationSupported }
              state := .complete },
            .ok,[.verifyImage checked.metadata])

def udsDownloadTick (d : UdsDownload σ) (nowMs : UInt32) :
    UdsDownload σ × UdsDownloadResult × List MemoryCall :=
  if d.state = .idle ∨ d.state = .complete ∨ d.state = .abortedState then (d,.ok,[])
  else if timeExpired nowMs d.deadlineMs then
    let (stopped,calls) := udsDownloadAbort d
    (stopped,.timeout,calls)
  else
    let (kicked,calls) := kickWatchdog d
    (kicked,.ok,calls)

def udsDownloadMetadata (d : UdsDownload σ) : UdsDownloadMetadata := d.metadata

end Operations

/-- The memory map of the reference runtime. -/
def referenceMemory : UdsDownloadMemoryMap where
  stagingImage := ⟨0x08080000,0x080C0000⟩
  bootloader := ⟨0x08000000,0x08040000⟩
  activeApplication := ⟨0x08040000,0x08080000⟩
  canopenNvm := ⟨0x08180000,0x08200000⟩
  diagnosticStorage := ⟨0x08170000,0x08180000⟩
  eraseAlignment := 4
  programAlignment := 4
  maxBlockLength := 256
  activationSupported := false

end CanopenReference.Download
