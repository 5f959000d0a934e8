import Mathlib.Data.Set.Lattice
import Mathlib.Order.CompletePartialOrder
import Mathlib.Order.Interval.Set.Disjoint
import CanopenReference.Library.Runs
import CanopenReference.Download

/-!
# Which addresses a download touches

Regions and calls are read as sets of addresses without wrap. Every range the
callbacks receive lies in the window of the last accepted request, so a run is
safe exactly when every accepted window is.
-/

set_option autoImplicit false

namespace CanopenReference.DownloadSafety
open Library Library.Runs Download

def UdsDownloadRegion.span (r : UdsDownloadRegion) : Set ℕ :=
  Set.Ico r.start.toNat r.endExclusive.toNat

def bytes (address length : ℕ) : Set ℕ := Set.Ico address (address+length)

/-- Inside the staging image and clear of the four protected regions. -/
structure Contained (m : UdsDownloadMemoryMap) (range : Set ℕ) : Prop where
  staging : range ⊆ UdsDownloadRegion.span m.stagingImage
  bootloader : Disjoint range (UdsDownloadRegion.span m.bootloader)
  activeApplication : Disjoint range (UdsDownloadRegion.span m.activeApplication)
  canopenNvm : Disjoint range (UdsDownloadRegion.span m.canopenNvm)
  diagnosticStorage : Disjoint range (UdsDownloadRegion.span m.diagnosticStorage)

def SafeCall (m : UdsDownloadMemoryMap) : MemoryCall → Prop
  | .eraseStart address length => Contained m (bytes address.toNat length.toNat)
  | .program address data => Contained m (bytes address.toNat data.length)
  | _ => True

theorem contained_mono {m : UdsDownloadMemoryMap} {s t : Set ℕ} (h : Contained m t) (hs : s ⊆ t) :
    Contained m s :=
  ⟨hs.trans h.staging,h.bootloader.mono_left hs,h.activeApplication.mono_left hs,
    h.canopenNvm.mono_left hs,h.diagnosticStorage.mono_left hs⟩

theorem bytes_mono {a b n k : ℕ} (h : a ≤ b) (hn : b+n ≤ a+k) : bytes b n ⊆ bytes a k :=
  Set.Ico_subset_Ico h hn

theorem no_wrap {a b : UInt32} (h : ¬a+b < a) : (a+b).toNat = a.toNat+b.toNat := by
  rw [UInt32.lt_iff_toNat_lt,UInt32.toNat_add] at h
  rw [UInt32.toNat_add]
  have := a.toNat_lt
  have := b.toNat_lt
  omega

theorem disjoint_of_not_overlaps {address length : UInt32} {r : UdsDownloadRegion}
    (hw : ¬address+length < address) (h : ¬overlaps ⟨address,address+length⟩ r = true) :
    Disjoint (bytes address.toNat length.toNat) (UdsDownloadRegion.span r) := by
  simp only [overlaps,decide_eq_true_eq,UInt32.lt_iff_toNat_lt,no_wrap hw] at h
  rw [bytes,UdsDownloadRegion.span,Set.Ico_disjoint_Ico]
  omega

theorem inside_iff {address length : UInt32} {r : UdsDownloadRegion}
    (h : rangeInside r address length = true) :
    bytes address.toNat length.toNat ⊆ UdsDownloadRegion.span r ↔ address ≤ r.endExclusive := by
  unfold rangeInside at h
  split at h
  · cases h
  rename_i hc
  simp only [not_or,UInt32.lt_iff_toNat_lt,Nat.not_lt] at hc
  obtain ⟨hz,hlow,hend⟩ := hc
  have hpos : 0 < length.toNat := Nat.pos_of_ne_zero fun h0 => hz (UInt32.toNat_inj.mp h0)
  rw [bytes,UdsDownloadRegion.span,Set.Ico_subset_Ico_iff (by omega),UInt32.le_iff_toNat_le]
  constructor
  · intro hin
    omega
  · intro hle
    simp only [decide_eq_true_eq,UInt32.le_iff_toNat_le] at h
    rw [UInt32.toNat_sub_of_le _ _ (UInt32.le_iff_toNat_le.mpr hle)] at h
    exact ⟨hlow,by omega⟩

section Run
variable {σ : Type}

inductive DownloadCall where
  | begin (address length nowMs : UInt32)
  | pollErase (nowMs : UInt32)
  | write (block : UInt8) (data : List UInt8) (nowMs : UInt32)
  | finish (expectedCrc32 : UInt32) (hasExpectedCrc32 : Bool) (nowMs : UInt32)
  | tick (nowMs : UInt32)
  | abort

def downloadStep (d : UdsDownload σ) : DownloadCall → UdsDownload σ × List MemoryCall
  | .begin address length now =>
    let r := udsDownloadBegin d address length now
    (r.1,r.2.2)
  | .pollErase now =>
    let r := udsDownloadPollErase d now
    (r.1,r.2.2)
  | .write block data now =>
    let r := udsDownloadWrite d block data now
    (r.1,r.2.2)
  | .finish crc has now =>
    let r := udsDownloadFinish d crc has now
    (r.1,r.2.2)
  | .tick now =>
    let r := udsDownloadTick d now
    (r.1,r.2.2)
  | .abort => udsDownloadAbort d

/-- A request that passes every check does not start beyond the staging image. -/
def BeginBelowEnd (d : UdsDownload σ) : DownloadCall → Prop
  | .begin address length _ =>
    beginRefusal d address length = none → address ≤ d.memory.stagingImage.endExclusive
  | _ => True

theorem accepted_contained {d : UdsDownload σ} {address length : UInt32}
    (h : beginRefusal d address length = none) :
    Contained d.memory (bytes address.toNat length.toNat) ↔
      address ≤ d.memory.stagingImage.endExclusive := by
  unfold beginRefusal at h
  simp only at h
  split at h
  · cases h
  split at h
  · cases h
  rename_i hr
  simp only [not_or,Bool.not_eq_true'] at hr
  obtain ⟨_,hw,hin,hb,ha,hn,hs⟩ := hr
  have hi := inside_iff (by simpa using hin)
  constructor
  · intro hc
    exact hi.mp hc.staging
  · intro hle
    exact ⟨hi.mpr hle,disjoint_of_not_overlaps hw hb,disjoint_of_not_overlaps hw ha,
      disjoint_of_not_overlaps hw hn,disjoint_of_not_overlaps hw hs⟩

/-- While data can be programmed the accepted window is contained, and what
was received lies inside it. -/
structure Windowed (m : UdsDownloadMemoryMap) (d : UdsDownload σ) : Prop where
  memory : d.memory = m
  window : d.state = .erasing ∨ d.state = .receiving →
    Contained m (bytes d.metadata.imageAddress.toNat d.metadata.imageLength.toNat) ∧
      d.metadata.receivedLength.toNat ≤ d.metadata.imageLength.toNat

def AllSafe (m : UdsDownloadMemoryMap) (calls : List MemoryCall) : Prop :=
  ∀ e ∈ calls, SafeCall m e

theorem kick_effect (d : UdsDownload σ) (m : UdsDownloadMemoryMap) :
    (∃ c, (kickWatchdog d).1 = { d with context := c }) ∧ AllSafe m (kickWatchdog d).2 := by
  unfold kickWatchdog
  cases d.callbacks.watchdogKick with
  | none => exact ⟨⟨d.context,rfl⟩,by simp [AllSafe]⟩
  | some watchdogKick => exact ⟨⟨watchdogKick d.context,rfl⟩,by simp [AllSafe,SafeCall]⟩

theorem abort_effect (d : UdsDownload σ) (m : UdsDownloadMemoryMap) (hm : d.memory = m) :
    Windowed m (udsDownloadAbort d).1 ∧ AllSafe m (udsDownloadAbort d).2 := by
  unfold udsDownloadAbort
  cases d.callbacks.abort with
  | none => exact ⟨⟨hm,by simp⟩,by simp [AllSafe]⟩
  | some abort => exact ⟨⟨hm,by simp⟩,by simp [AllSafe,SafeCall]⟩

theorem windowed_context {m : UdsDownloadMemoryMap} {d : UdsDownload σ} (h : Windowed m d)
    (c : σ) : Windowed m { d with context := c } := ⟨h.memory,h.window⟩

theorem begin_effect {m : UdsDownloadMemoryMap} {d : UdsDownload σ} (h : Windowed m d)
    (address length now : UInt32) :
    (BeginBelowEnd d (.begin address length now) →
      Windowed m (udsDownloadBegin d address length now).1) ∧
    (AllSafe m (udsDownloadBegin d address length now).2.2 ↔
      BeginBelowEnd d (.begin address length now)) := by
  have hmem := h.memory
  unfold udsDownloadBegin
  cases hr : beginRefusal d address length with
  | some refusal => exact ⟨fun _ => h,by simp [AllSafe,BeginBelowEnd,hr]⟩
  | none =>
    have hcontained := accepted_contained hr
    rw [hmem] at hcontained
    have hiff : AllSafe m [.eraseStart address length] ↔
        BeginBelowEnd d (.begin address length now) := by
      simp [AllSafe,SafeCall,BeginBelowEnd,hr,hcontained,hmem]
    cases he : d.callbacks.eraseStart with
    | none => simp [beginRefusal,he] at hr
    | some eraseStart =>
      simp only
      split
      · exact ⟨fun _ => windowed_context h _,hiff⟩
      · refine ⟨fun hc => ⟨hmem,fun _ => ?_⟩,hiff⟩
        exact ⟨hcontained.mpr (hmem ▸ hc hr),Nat.zero_le _⟩

theorem poll_effect {m : UdsDownloadMemoryMap} {d : UdsDownload σ} (h : Windowed m d)
    (now : UInt32) :
    Windowed m (udsDownloadPollErase d now).1 ∧ AllSafe m (udsDownloadPollErase d now).2.2 := by
  unfold udsDownloadPollErase
  cases d.callbacks.erasePoll with
  | none => exact ⟨h,by simp [AllSafe]⟩
  | some erasePoll =>
    simp only
    split
    · exact ⟨h,by simp [AllSafe]⟩
    rename_i hs
    have hstate : d.state = .erasing := not_not.mp hs
    split
    · exact abort_effect d m h.memory
    · obtain ⟨⟨c,hk⟩,hcalls⟩ := kick_effect d m
      rw [hk]
      constructor
      · split
        · exact ⟨h.memory,fun _ => h.window (Or.inl hstate)⟩
        · exact ⟨h.memory,h.window⟩
      · intro e he
        rcases List.mem_append.mp he with he | he
        · exact hcalls e he
        · rw [List.mem_singleton.mp he]
          trivial

theorem chunk_fits {image received : UInt32} {data : List UInt8}
    (hmax : data.length ≤ udsDownloadMaxChunkLength) (hreceived : received.toNat ≤ image.toNat)
    (hroom : ¬image-received < UInt32.ofNat data.length) :
    (received+UInt32.ofNat data.length).toNat = received.toNat+data.length ∧
      received.toNat+data.length ≤ image.toNat := by
  have hlength : (UInt32.ofNat data.length).toNat = data.length := by
    rw [UInt32.toNat_ofNat']
    apply Nat.mod_eq_of_lt
    rw [udsDownloadMaxChunkLength] at hmax
    omega
  have hfit : received.toNat+data.length ≤ image.toNat := by
    rw [UInt32.lt_iff_toNat_lt,Nat.not_lt,hlength,
      UInt32.toNat_sub_of_le _ _ (UInt32.le_iff_toNat_le.mpr hreceived)] at hroom
    omega
  refine ⟨?_,hfit⟩
  rw [UInt32.toNat_add,hlength]
  have := image.toNat_lt
  exact Nat.mod_eq_of_lt (by omega)

theorem chunk_safe {m : UdsDownloadMemoryMap} {address image received : UInt32}
    {data : List UInt8} (h : Contained m (bytes address.toNat image.toNat))
    (hpos : 0 < data.length) (hfit : received.toNat+data.length ≤ image.toNat) :
    SafeCall m (.program (address+received) data) := by
  have hend := (Set.Ico_subset_Ico_iff (by omega)).mp h.staging
  have hsum : (address+received).toNat = address.toNat+received.toNat := by
    rw [UInt32.toNat_add]
    apply Nat.mod_eq_of_lt
    have := m.stagingImage.endExclusive.toNat_lt
    omega
  apply contained_mono h
  rw [hsum]
  exact bytes_mono (by omega) (by omega)

theorem write_effect {m : UdsDownloadMemoryMap} {d : UdsDownload σ} (h : Windowed m d)
    (block : UInt8) (data : List UInt8) (now : UInt32) :
    Windowed m (udsDownloadWrite d block data now).1 ∧
      AllSafe m (udsDownloadWrite d block data now).2.2 := by
  unfold udsDownloadWrite
  cases d.callbacks.program with
  | none => exact ⟨h,by simp [AllSafe]⟩
  | some program =>
    simp only
    split
    · exact ⟨h,by simp [AllSafe]⟩
    rename_i hready
    simp only [not_or,Nat.not_lt,not_not] at hready
    obtain ⟨hpos,hmax,hstate⟩ := hready
    split
    · exact abort_effect d m h.memory
    split
    · exact ⟨h,by simp [AllSafe]⟩
    split
    · exact ⟨h,by simp [AllSafe]⟩
    rename_i hroom
    split
    · exact ⟨h,by simp [AllSafe]⟩
    obtain ⟨hcontained,hreceived⟩ := h.window (Or.inr hstate)
    obtain ⟨hnext,hfit⟩ := chunk_fits hmax hreceived hroom
    have hsafe := chunk_safe hcontained (Nat.pos_of_ne_zero hpos) hfit
    split
    · exact ⟨windowed_context h _,by simpa [AllSafe] using hsafe⟩
    · let taken : UdsDownload σ :=
        { d with
          context := (program d.context
            (d.metadata.imageAddress+d.metadata.receivedLength) data).1
          metadata :=
            { d.metadata with
              receivedLength := d.metadata.receivedLength+UInt32.ofNat data.length
              crc32 := crc32Update d.crc32 data }
          crc32 := crc32Update d.crc32 data
          expectedBlock := d.expectedBlock+1
          deadlineMs := now+udsDownloadTimeoutMs }
      have htaken : Windowed m taken := by
        refine ⟨h.memory,fun _ => ⟨hcontained,?_⟩⟩
        show (d.metadata.receivedLength+UInt32.ofNat data.length).toNat ≤ _
        rw [hnext]
        exact hfit
      obtain ⟨⟨c,hk⟩,hcalls⟩ := kick_effect taken m
      constructor
      · show Windowed m (kickWatchdog taken).1
        rw [hk]
        exact windowed_context htaken c
      · intro e he
        rcases List.mem_cons.mp he with rfl | he
        · exact hsafe
        · exact hcalls e he

theorem finish_effect {m : UdsDownloadMemoryMap} {d : UdsDownload σ} (h : Windowed m d)
    (crc : UInt32) (has : Bool) (now : UInt32) :
    Windowed m (udsDownloadFinish d crc has now).1 ∧
      AllSafe m (udsDownloadFinish d crc has now).2.2 := by
  unfold udsDownloadFinish
  cases d.callbacks.verifyImage with
  | none => exact ⟨h,by simp [AllSafe]⟩
  | some verifyImage =>
    simp only
    split
    · exact ⟨h,by simp [AllSafe]⟩
    split
    · exact abort_effect d m h.memory
    split
    · exact abort_effect _ m h.memory
    split
    · have ha := abort_effect
        { d with
          context := (verifyImage d.context
            { d.metadata with crcValid := !has || (d.crc32 ^^^ 0xFFFFFFFF) == crc } crc has).1
          state := .verifying
          metadata := { d.metadata with crcValid := !has || (d.crc32 ^^^ 0xFFFFFFFF) == crc } }
        m h.memory
      refine ⟨ha.1,fun e he => ?_⟩
      rcases List.mem_cons.mp he with rfl | he
      · trivial
      · exact ha.2 e he
    · exact ⟨⟨h.memory,by simp⟩,by simp [AllSafe,SafeCall]⟩

theorem tick_effect {m : UdsDownloadMemoryMap} {d : UdsDownload σ} (h : Windowed m d)
    (now : UInt32) :
    Windowed m (udsDownloadTick d now).1 ∧ AllSafe m (udsDownloadTick d now).2.2 := by
  unfold udsDownloadTick
  split
  · exact ⟨h,by simp [AllSafe]⟩
  split
  · exact abort_effect d m h.memory
  · obtain ⟨⟨c,hk⟩,hcalls⟩ := kick_effect d m
    exact ⟨hk ▸ windowed_context h c,hcalls⟩

theorem step_effect {m : UdsDownloadMemoryMap} {d : UdsDownload σ} (c : DownloadCall)
    (h : Windowed m d) :
    (BeginBelowEnd d c → Windowed m (downloadStep d c).1) ∧
      (AllSafe m (downloadStep d c).2 ↔ BeginBelowEnd d c) := by
  have hfree : ∀ r : UdsDownload σ × List MemoryCall, Windowed m r.1 ∧ AllSafe m r.2 →
      (True → Windowed m r.1) ∧ (AllSafe m r.2 ↔ True) :=
    fun r hr => ⟨fun _ => hr.1,iff_true_intro hr.2⟩
  cases c with
  | begin address length now => exact begin_effect h address length now
  | pollErase now => exact hfree _ (poll_effect h now)
  | write block data now => exact hfree _ (write_effect h block data now)
  | finish crc has now => exact hfree _ (finish_effect h crc has now)
  | tick now => exact hfree _ (tick_effect h now)
  | abort => exact hfree _ (abort_effect d m h.memory)

theorem init_windowed (memory : Option UdsDownloadMemoryMap)
    (callbacks : Option (UdsDownloadCallbacks σ)) (context : σ) :
    Windowed (memory.getD noMemory) (udsDownloadInit memory callbacks context) :=
  ⟨rfl,by simp [udsDownloadInit]⟩

/-- A run stays inside the staging image and clear of the protected regions
exactly when no accepted request starts beyond the staging image. -/
theorem download_address_safety (memory : Option UdsDownloadMemoryMap)
    (callbacks : Option (UdsDownloadCallbacks σ)) (context : σ) (calls : List DownloadCall) :
    (∀ e ∈ (run downloadStep (udsDownloadInit memory callbacks context) calls).2,
      SafeCall (memory.getD noMemory) e) ↔
    Along downloadStep BeginBelowEnd (udsDownloadInit memory callbacks context) calls :=
  along_iff_events downloadStep BeginBelowEnd (Windowed (memory.getD noMemory)) _
    (fun _ c h hc => (step_effect c h).1 hc) (fun _ c h => (step_effect c h).2) _ calls
    (init_windowed memory callbacks context)

end Run

def agreeableCallbacks : UdsDownloadCallbacks Unit where
  eraseStart := some fun _ _ _ => ((),.ok)
  erasePoll := some fun _ => ((),.ok)
  program := some fun _ _ _ => ((),.ok)
  verifyImage := some fun _ _ _ _ => ((),.ok)
  abort := none
  watchdogKick := none

/-- A request for data memory, far beyond the staging image, starts an erase. -/
theorem begin_beyond_staging :
    MemoryCall.eraseStart 0x20000000 4 ∈
        (run downloadStep (udsDownloadInit (some referenceMemory) (some agreeableCallbacks) ())
          [.begin 0x20000000 4 0]).2 ∧
      ¬SafeCall referenceMemory (.eraseStart 0x20000000 4) := by
  refine ⟨by decide,fun h => ?_⟩
  have hs := (Set.Ico_subset_Ico_iff (by decide)).mp h.staging
  exact absurd hs (by decide)

end CanopenReference.DownloadSafety
