import CanopenReference.Library.Ring
import CanopenReference.UdsStm32

/-!
# The receive rings access by access

The receive rings of the diagnostic adapter and of `can_port.c`, each a ring
that the receive interrupt fills and the main loop empties. Every access to an
index, a slot field or a data byte is a step of its own.
-/

set_option autoImplicit false

namespace CanopenReference.RxRings
open Library Library.Runs Library.Ring IsoTp UdsStm32

/-- Bytes copied one by one, as far as a length goes. -/
def copyByte {n : ℕ} (src : Buffer UInt8 n) (i : ℕ) (dest : Buffer UInt8 n) : Buffer UInt8 n :=
  dest.write i [src.cell i 0]

/-- The accesses of `uds_stm32_can_rx_from_isr` to the slot. -/
def rxFromIsrWrites (frame : IsoTpCanFrame) : List (IsoTpCanFrame → IsoTpCanFrame) :=
  (fun slot => { slot with canId := frame.canId })::
    (fun slot => { slot with dlc := frame.dlc })::
      (List.range frame.dlc).map fun i slot => { slot with data := copyByte frame.data i slot.data }

/-- The frame that `uds_stm32_can_rx_pop` fills, with the length it copies. -/
structure RxPopCopy where
  frame : IsoTpCanFrame
  length : ℕ

/-- The accesses of `uds_stm32_can_rx_pop` to the slot. -/
def rxPopReads : List (IsoTpCanFrame → RxPopCopy → RxPopCopy) :=
  (fun slot copy => { copy with frame := { copy.frame with canId := slot.canId } })::
    (fun slot copy => { copy with frame := { copy.frame with dlc := slot.dlc } })::
      (fun slot copy => { copy with length := slot.dlc })::
        (List.range isotpMaxFrameData).map fun i slot copy =>
          if i < copy.length then
            { copy with
              frame := { copy.frame with data := copyByte slot.data i copy.frame.data } }
          else copy

/-- What `uds_stm32_can_rx_from_isr` does with a frame before it reads the head. -/
def rxFromIsrScreen (requestId responseId : UInt32) (frame : IsoTpCanFrame) : Screening :=
  if !validFrame frame.canId frame.dlc then .invalid
  else if frame.canId ≠ requestId ∧ frame.canId ≠ responseId then .passed
  else .taken

def udsRxRing (capacity : ℕ) (requestId responseId : UInt32) :
    Access IsoTpCanFrame IsoTpCanFrame RxPopCopy where
  capacity := capacity
  next := fun index => nextIndex index capacity
  screen := rxFromIsrScreen requestId responseId
  writes := rxFromIsrWrites
  reads := rxPopReads
  blank := ⟨emptyFrame,0⟩
  countsAccepted := true

def canPortMaxDlc : ℕ := 8
def canPortRxQueueCapacity : ℕ := 8

structure CanPortRxFrame where
  id : UInt32
  data : Buffer UInt8 canPortMaxDlc
  len : ℕ
  deriving DecidableEq

def canPortNextIndex (index capacity : ℕ) : ℕ := (index+1)%capacity

/-- The accesses of `can_port_stm32_dispatch_rx_from_isr` to the slot. -/
def dispatchRxFromIsrWrites (frame : CanPortRxFrame) : List (CanPortRxFrame → CanPortRxFrame) :=
  (fun slot => { slot with id := frame.id })::(fun slot => { slot with len := frame.len })::
    (List.range frame.len).map fun i slot => { slot with data := copyByte frame.data i slot.data }

/-- The accesses of `can_port_poll_one` to the slot, which it copies as a whole. -/
def pollOneReads : List (CanPortRxFrame → CanPortRxFrame → CanPortRxFrame) :=
  (fun slot frame => { frame with id := slot.id })::
    ((List.range canPortMaxDlc).map fun i slot frame =>
      { frame with data := copyByte slot.data i frame.data })++
    [fun slot frame => { frame with len := slot.len }]

def dispatchRxFromIsrScreen (frame : CanPortRxFrame) : Screening :=
  if canPortMaxDlc < frame.len ∨ 0x7FF < frame.id then .passed else .taken

def canPortRxRing (capacity : ℕ) : Access CanPortRxFrame CanPortRxFrame CanPortRxFrame where
  capacity := capacity
  next := fun index => canPortNextIndex index capacity
  screen := dispatchRxFromIsrScreen
  writes := dispatchRxFromIsrWrites
  reads := pollOneReads
  blank := ⟨0,Buffer.blank _ 0,0⟩
  countsAccepted := false

/-- What a frame says: its identifier, its length and that many data bytes. -/
def frameContent (frame : IsoTpCanFrame) : UInt32 × ℕ × List UInt8 :=
  (frame.canId,frame.dlc,frame.data.front frame.dlc)

def portContent (frame : CanPortRxFrame) : UInt32 × ℕ × List UInt8 :=
  (frame.id,frame.len,frame.data.front frame.len)

section Bytes
variable {n : ℕ} (src dest : Buffer UInt8 n)

theorem buffer_ext {a b : Buffer UInt8 n} (h : a.cells = b.cells) : a = b := by
  cases a
  cases b
  cases h
  rfl

theorem write_beyond (k : ℕ) (xs : List UInt8) (h : n ≤ k) : dest.write k xs = dest := by
  have hsize := dest.size
  apply buffer_ext
  show (dest.cells.take k++xs++dest.cells.drop (k+xs.length)).take n = dest.cells
  rw [List.append_assoc,List.take_of_length_le (show dest.cells.length ≤ k by omega)]
  exact List.take_left' hsize

theorem copy_bytes (k : ℕ) :
    (List.range k).foldl (fun dest i => copyByte src i dest) dest = dest.write 0 (src.front k) := by
  have hsrc := src.size
  have hdest := dest.size
  induction k with
  | zero =>
    apply buffer_ext
    show dest.cells = (dest.cells.take 0++[]++dest.cells.drop 0).take n
    rw [List.take_of_length_le (by simp [hdest])]
    rfl
  | succ k ih =>
    rw [List.range_succ,List.foldl_append,ih]
    show (dest.write 0 (src.front k)).write k [src.cell k 0] = _
    by_cases hk : k < n
    · have hfront : src.front (k+1) = src.front k++[src.cell k 0] := by
        unfold Buffer.front Buffer.cell
        rw [List.take_add_one,List.getD_eq_getElem?_getD,List.getElem?_eq_getElem (by omega)]
        rfl
      have hlength : (src.front k).length = k := src.front_length k (by omega)
      have hlater : (src.front (k+1)).length = k+1 := src.front_length (k+1) (by omega)
      apply buffer_ext
      rw [Buffer.write_cells _ _ _ (by rw [List.length_singleton]; omega),
        Buffer.write_cells _ _ _ (by omega),Buffer.write_cells _ _ _ (by omega)]
      simp only [List.take_zero,List.nil_append,Nat.zero_add,hlength,hlater,List.length_singleton]
      rw [List.take_left' hlength,hfront,List.drop_append,hlength,
        List.drop_eq_nil_of_le (by omega),List.nil_append,List.drop_drop,
        show k+(k+1-k) = k+1 by omega]
    · have hfront : src.front (k+1) = src.front k := by
        unfold Buffer.front
        rw [List.take_of_length_le (by omega),List.take_of_length_le (by omega)]
      rw [write_beyond _ k _ (by omega),hfront]

end Bytes

theorem front_past {n : ℕ} (b : Buffer UInt8 n) {k : ℕ} (h : n ≤ k) : b.front k = b.front n := by
  have hsize := b.size
  unfold Buffer.front
  rw [List.take_of_length_le (by omega),List.take_of_length_le (by omega)]

theorem copied_front {n : ℕ} (src dest : Buffer UInt8 n) (k : ℕ) :
    (dest.write 0 (src.front k)).front k = src.front k := by
  by_cases hk : k ≤ n
  · have hlength := src.front_length k hk
    have hfront := dest.front_write_zero (src.front k) (by omega)
    rwa [hlength] at hfront
  · have hfront := dest.front_write_zero (src.front n)
      (Nat.le_of_eq (src.front_length n (Nat.le_refl n)))
    rw [src.front_length n (Nat.le_refl n)] at hfront
    rw [front_past src (by omega),front_past _ (by omega)]
    exact hfront

theorem fold_field {σ β ι : Type*} (set : β → σ) (step : ι → σ → σ) (act : ι → β → β)
    (h : ∀ i b, step i (set b) = set (act i b)) (is : List ι) (b : β) :
    is.foldl (fun s i => step i s) (set b) = set (is.foldl (fun b i => act i b) b) := by
  induction is generalizing b with
  | nil => rfl
  | cons i is ih => rw [List.foldl_cons,h,ih,List.foldl_cons]

theorem copy_guarded {n : ℕ} (src dest : Buffer UInt8 n) (length m : ℕ) :
    (List.range m).foldl (fun dest i => if i < length then copyByte src i dest else dest) dest =
      dest.write 0 (src.front (min m length)) := by
  rw [← copy_bytes]
  induction m with
  | zero =>
    rw [Nat.zero_min]
    rfl
  | succ m ih =>
    rw [List.range_succ,List.foldl_append,ih]
    by_cases hm : m < length
    · rw [Nat.min_eq_left (by omega),Nat.min_eq_left (by omega),List.range_succ,List.foldl_append]
      simp [hm]
    · rw [Nat.min_eq_right (by omega),Nat.min_eq_right (by omega)]
      simp [hm]

theorem next_turn {n : ℕ} (hn : 0 < n) (k : ℕ) : nextIndex (k%n) n = (k+1)%n := by
  have hk := Nat.mod_lt k hn
  rw [← Nat.mod_add_mod]
  unfold nextIndex
  split
  · rename_i h
    rw [h,Nat.mod_self]
  · rename_i h
    exact (Nat.mod_eq_of_lt (by omega)).symm

theorem filled_slot (frame slot : IsoTpCanFrame) :
    (rxFromIsrWrites frame).foldl (fun slot access => access slot) slot = fillSlot slot frame := by
  unfold rxFromIsrWrites
  rw [List.foldl_cons,List.foldl_cons,List.foldl_map]
  refine (fold_field (fun data => (⟨frame.canId,frame.dlc,data⟩ : IsoTpCanFrame)) _
    (fun i => copyByte frame.data i) (fun _ _ => rfl) (List.range frame.dlc) slot.data).trans ?_
  rw [copy_bytes]
  rfl

theorem front_min {n : ℕ} (src : Buffer UInt8 n) (k : ℕ) :
    src.front (min n k) = src.front k := by
  by_cases hk : k ≤ n
  · rw [Nat.min_eq_right hk]
  · rw [Nat.min_eq_left (show n ≤ k by omega),front_past src (show n ≤ k by omega)]

theorem fetched_slot (slot : IsoTpCanFrame) :
    (rxPopReads.foldl (fun copy access => access slot copy) (⟨emptyFrame,0⟩ : RxPopCopy)).frame =
      fillSlot emptyFrame slot := by
  have hbytes := fold_field (fun data => (⟨⟨slot.canId,slot.dlc,data⟩,slot.dlc⟩ : RxPopCopy))
    (fun i copy => if i < copy.length then
      { copy with frame := { copy.frame with data := copyByte slot.data i copy.frame.data } }
      else copy)
    (fun i data => if i < slot.dlc then copyByte slot.data i data else data)
    (fun i data => by by_cases hi : i < slot.dlc <;> simp [hi])
    (List.range isotpMaxFrameData) emptyFrame.data
  unfold rxPopReads
  rw [List.foldl_cons,List.foldl_cons,List.foldl_cons,List.foldl_map]
  refine (congrArg RxPopCopy.frame hbytes).trans ?_
  rw [copy_guarded,front_min]
  rfl

theorem fill_content (slot frame : IsoTpCanFrame) :
    frameContent (fillSlot slot frame) = frameContent frame := by
  unfold frameContent fillSlot
  rw [copied_front]

theorem uds_lawful (capacity : ℕ) (hroom : 0 < capacity) (requestId responseId : UInt32) :
    Lawful (udsRxRing capacity requestId responseId)
      (fun slot frame => frameContent slot = frameContent frame) frameContent
      (fun copy => frameContent copy.frame) where
  room := hroom
  next := next_turn hroom
  fill frame slot := by
    dsimp only [udsRxRing]
    rw [filled_slot,fill_content]
  fetch frame slot h := by
    dsimp only [udsRxRing]
    rw [fetched_slot,fill_content]
    exact h

theorem dispatched_slot (frame slot : CanPortRxFrame) :
    (dispatchRxFromIsrWrites frame).foldl (fun slot access => access slot) slot =
      ⟨frame.id,slot.data.write 0 (frame.data.front frame.len),frame.len⟩ := by
  unfold dispatchRxFromIsrWrites
  rw [List.foldl_cons,List.foldl_cons,List.foldl_map]
  refine (fold_field (fun data => (⟨frame.id,data,frame.len⟩ : CanPortRxFrame)) _
    (fun i => copyByte frame.data i) (fun _ _ => rfl) (List.range frame.len) slot.data).trans ?_
  rw [copy_bytes]

theorem polled_slot (slot frame : CanPortRxFrame) :
    pollOneReads.foldl (fun frame access => access slot frame) frame =
      ⟨slot.id,frame.data.write 0 (slot.data.front canPortMaxDlc),slot.len⟩ := by
  unfold pollOneReads
  rw [List.cons_append,List.foldl_cons,List.foldl_append,List.foldl_map]
  have hbytes := fold_field (fun data => (⟨slot.id,data,frame.len⟩ : CanPortRxFrame))
    (fun i frame => { frame with data := copyByte slot.data i frame.data })
    (fun i => copyByte slot.data i) (fun _ _ => rfl) (List.range canPortMaxDlc) frame.data
  rw [copy_bytes] at hbytes
  exact congrArg (fun frame : CanPortRxFrame => { frame with len := slot.len }) hbytes

theorem polled_content (slot frame : CanPortRxFrame) :
    portContent ⟨slot.id,frame.data.write 0 (slot.data.front canPortMaxDlc),slot.len⟩ =
      portContent slot := by
  have hwhole := copied_front slot.data frame.data canPortMaxDlc
  rw [Buffer.front_size,Buffer.front_size] at hwhole
  show (slot.id,slot.len,List.take _ _) = _
  rw [Buffer.front_size,hwhole]
  rfl

theorem port_lawful (capacity : ℕ) (hroom : 0 < capacity) :
    Lawful (canPortRxRing capacity) (fun slot frame => portContent slot = portContent frame)
      portContent portContent where
  room := hroom
  next k := Nat.mod_add_mod k capacity 1
  fill frame slot := by
    refine (congrArg portContent (dispatched_slot frame slot)).trans ?_
    unfold portContent
    rw [copied_front]
  fetch frame slot h :=
    (congrArg portContent (polled_slot slot _)).trans ((polled_content slot _).trans h)

/-- Both receive rings hand over what the interrupt accepted, for every
interleaving of the accesses of the two sides. -/
theorem rx_rings_faithful (capacity : ℕ) (hroom : 0 < capacity) (requestId responseId : UInt32)
    (slots : ℕ → IsoTpCanFrame) (moves : List (Move IsoTpCanFrame)) (portSlots : ℕ → CanPortRxFrame)
    (portMoves : List (Move CanPortRxFrame)) :
    let uds := run (step (udsRxRing capacity requestId responseId)) (start slots) moves
    let port := run (step (canPortRxRing capacity)) (start portSlots) portMoves
    HandsOver (udsRxRing capacity requestId responseId) frameContent
        (fun copy => frameContent copy.frame) uds.1 uds.2 ∧
      HandsOver (canPortRxRing capacity) portContent portContent port.1 port.2 :=
  ⟨ring_run (uds_lawful capacity hroom requestId responseId) slots moves,
    ring_run (port_lawful capacity hroom) portSlots portMoves⟩

def interleaved : List (Move IsoTpCanFrame) :=
  .interrupt ⟨0x7E0,2,⟨[2,0x3E,0,0,0,0,0,0],rfl⟩⟩::List.replicate 8 .produce++
    [.consume,.consume,.consume,.interrupt ⟨0x7E0,1,⟨[7,0,0,0,0,0,0,0],rfl⟩⟩]++
      (List.replicate 10 [.produce,.consume]).flatten++[.consume]

theorem rx_rings_faithful_default :
    let uds := run (step (udsRxRing udsStm32RxQueueCapacity udsRxCanId udsTxCanId))
      (start fun _ => emptyFrame) interleaved
    (popped uds.2).map (fun copy => frameContent copy.frame) = [(0x7E0,2,[2,0x3E])] ∧
      HandsOver (udsRxRing udsStm32RxQueueCapacity udsRxCanId udsTxCanId) frameContent
        (fun copy => frameContent copy.frame) uds.1 uds.2 := by
  intro uds
  exact ⟨by decide +kernel,(rx_rings_faithful udsStm32RxQueueCapacity (by decide) udsRxCanId
    udsTxCanId (fun _ => emptyFrame) interleaved (fun _ => ⟨0,Buffer.blank _ 0,0⟩) []).1⟩

def adapterRing (a : UdsStm32Can) : State IsoTpCanFrame IsoTpCanFrame RxPopCopy where
  slots := fun i => a.rxQueue.cell i emptyFrame
  head := a.rxHead
  tail := a.rxTail
  accepted := a.stats.rxFrames
  overflow := a.stats.rxOverflow
  invalid := a.stats.rxInvalid
  producer := .idle
  consumer := .idle

def adapterAccess (a : UdsStm32Can) : Access IsoTpCanFrame IsoTpCanFrame RxPopCopy :=
  udsRxRing udsStm32RxQueueCapacity a.requestId a.responseId

theorem cell_written (b : Buffer IsoTpCanFrame udsStm32RxQueueCapacity) {i : ℕ}
    (h : i < udsStm32RxQueueCapacity) (frame : IsoTpCanFrame) :
    (fun j => (b.write i [frame]).cell j emptyFrame) =
      setSlot (fun j => b.cell j emptyFrame) i frame := by
  have hsize := b.size
  have hone : [frame].length = 1 := rfl
  funext j
  rcases Nat.lt_trichotomy j i with hj | rfl | hj
  · rw [setSlot_other _ _ (by omega),Buffer.cell_write_before _ _ _ _ _ hj]
  · have hfront : (b.cells.take j).length = j := by
      rw [List.length_take]
      omega
    rw [setSlot_self,Buffer.cell,Buffer.write_cells _ _ _ (by omega),List.append_assoc,
      List.getD_eq_getElem?_getD,List.getElem?_append_right (Nat.le_of_eq hfront),hfront,
      Nat.sub_self]
    rfl
  · rw [setSlot_other _ _ (by omega),Buffer.cell_write_after _ _ _ _ _ (by omega) (by omega)]

/-- Between two calls, the whole-call functions are the accesses of the call
one after the other. -/
theorem isr_accesses (a : UdsStm32Can) (frame : IsoTpCanFrame)
    (hhead : a.rxHead < udsStm32RxQueueCapacity) :
    (run (step (adapterAccess a)) (adapterRing a)
      (.interrupt frame::List.replicate ((rxFromIsrWrites frame).length+4) .produce)).1 =
      adapterRing (udsStm32CanRxFromIsr a frame) := by
  have hquiet : ∀ {next : State IsoTpCanFrame IsoTpCanFrame RxPopCopy}
      (events : List (Event IsoTpCanFrame RxPopCopy)) {n : ℕ},
      step (adapterAccess a) (adapterRing a) (.interrupt frame) = (next,events) →
      next.producer = .idle →
        (run (step (adapterAccess a)) (adapterRing a)
          (.interrupt frame::List.replicate n .produce)).1 = next := by
    intro next events n hstep hidle
    rw [run_cons,hstep,run_idle hidle]
  unfold udsStm32CanRxFromIsr
  split
  · rename_i hinvalid
    refine hquiet [] ?_ rfl
    have hscreen : (adapterAccess a).screen frame = .invalid := if_pos hinvalid
    simp only [step,interrupt,adapterRing,hscreen]
  rename_i hvalid
  split
  · rename_i hother
    have hscreen : (adapterAccess a).screen frame = .passed :=
      (if_neg hvalid).trans (if_pos hother)
    refine hquiet [] ?_ rfl
    simp only [step,interrupt,adapterRing,hscreen]
  rename_i hmatches
  have hscreen : (adapterAccess a).screen frame = .taken := (if_neg hvalid).trans (if_neg hmatches)
  split
  · rename_i hfull
    exact congrArg Prod.fst (run_refused (s := adapterRing a) rfl hscreen hfull _)
  · rename_i hroom
    have hrun := run_push (s := adapterRing a) rfl hscreen hroom rfl
    have hslot := filled_slot frame (a.rxQueue.cell a.rxHead emptyFrame)
    have hcells := cell_written a.rxQueue hhead
      (fillSlot (a.rxQueue.cell a.rxHead emptyFrame) frame)
    refine (congrArg Prod.fst hrun).trans ?_
    simp only [adapterRing,adapterAccess,udsRxRing,hslot,hcells]

theorem pop_accesses (a : UdsStm32Can) (hsome : a.rxTail ≠ a.rxHead) :
    let calls := run (step (adapterAccess a)) (adapterRing a)
      (List.replicate (rxPopReads.length+3) .consume)
    calls.1 = adapterRing (udsStm32CanRxPop a).1 ∧
      (popped calls.2).map RxPopCopy.frame = (udsStm32CanRxPop a).2.toList := by
  intro calls
  have hrun : calls = _ := run_pop rfl hsome
  unfold udsStm32CanRxPop
  rw [if_neg hsome,hrun]
  exact ⟨rfl,congrArg (fun frame => [frame]) (fetched_slot (a.rxQueue.cell a.rxTail emptyFrame))⟩

end CanopenReference.RxRings
