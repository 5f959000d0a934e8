import CanopenReference.Library.Buffer
import CanopenReference.Library.Journal
import CanopenReference.Library.Runs

/-!
# Power-fail atomic storage

The flash backend of `canopen_reference_storage.c` on two slots of words; a
payload has `n` words. Programming a word can only clear bits, and every store
may be cut short. Read as journals, the slots follow the two-slot discipline:
a store leaves the current image alone until its magic word is in place.
-/

set_option autoImplicit false

namespace CanopenReference.Storage
open Library Library.Runs

def storageMagic : UInt32 := 0x434F5354
def storageVersion : UInt32 := 1
def erasedWord : UInt32 := 0xFFFFFFFF

/-- The header has five words. -/
def imageWords (n : ℕ) : ℕ := 5+n

inductive Slot where
  | slotA
  | slotB
  deriving DecidableEq, Repr

structure Flash (n : ℕ) where
  slotA : Buffer UInt32 (imageWords n)
  slotB : Buffer UInt32 (imageWords n)
  deriving DecidableEq

structure StorageImage where
  magic : UInt32
  version : UInt32
  sequence : UInt32
  length : UInt32
  crc32 : UInt32
  payload : List UInt32
  deriving DecidableEq

section Backend
variable {n : ℕ}

def Flash.read (flash : Flash n) : Slot → Buffer UInt32 (imageWords n)
  | .slotA => flash.slotA
  | .slotB => flash.slotB

def Flash.write (flash : Flash n) (slot : Slot) (x : Buffer UInt32 (imageWords n)) : Flash n :=
  match slot with
  | .slotA => { flash with slotA := x }
  | .slotB => { flash with slotB := x }

def erasedSlot (n : ℕ) : Buffer UInt32 (imageWords n) := Buffer.blank _ erasedWord

def erasedFlash (n : ℕ) : Flash n := ⟨erasedSlot n,erasedSlot n⟩

def wordBytes (w : UInt32) : List UInt8 :=
  [w.toUInt8,(w >>> 8).toUInt8,(w >>> 16).toUInt8,(w >>> 24).toUInt8]

def storageCrc32Bit (crc : UInt32) : UInt32 :=
  if crc &&& 1 ≠ 0 then (crc >>> 1) ^^^ 0xEDB88320 else crc >>> 1

def storageCrc32 (data : List UInt8) : UInt32 :=
  ~~~data.foldl (fun crc byte => Nat.repeat storageCrc32Bit 8 (crc ^^^ byte.toUInt32)) 0xFFFFFFFF

def payloadSize (n : ℕ) : UInt32 := UInt32.ofNat (4*n)

def storageFlashImage (slot : Buffer UInt32 (imageWords n)) : StorageImage where
  magic := slot.cell 0 0
  version := slot.cell 1 0
  sequence := slot.cell 2 0
  length := slot.cell 3 0
  crc32 := slot.cell 4 0
  payload := slot.slice 5 n

def storageFlashValid (n : ℕ) (image : StorageImage) : Bool :=
  image.magic = storageMagic ∧ image.version = storageVersion ∧ image.length = payloadSize n ∧
    image.crc32 = storageCrc32 (image.payload.flatMap wordBytes)

def storageFlashNewest (flash : Flash n) : Option Slot :=
  let slotA := storageFlashImage flash.slotA
  let slotB := storageFlashImage flash.slotB
  if !storageFlashValid n slotA then
    if storageFlashValid n slotB then some .slotB else none
  else if !storageFlashValid n slotB then some .slotA
  else if Clock.reached slotA.sequence slotB.sequence then some .slotA else some .slotB

def newestImage (flash : Flash n) : Option StorageImage :=
  (storageFlashNewest flash).map fun slot => storageFlashImage (flash.read slot)

def storageFlashNextSequence (flash : Flash n) : UInt32 :=
  match newestImage flash with
  | none => 1
  | some image => image.sequence+1

/-- Programming clears bits and sets none. -/
def programWord (slot : Buffer UInt32 (imageWords n)) (offset : ℕ) (word : UInt32) :
    Buffer UInt32 (imageWords n) :=
  slot.write offset [slot.cell offset 0 &&& word]

/-- The programming loop, which ends early when the budget of words that can
still be programmed is used up. -/
def storageFlashProgramWords (slot : Buffer UInt32 (imageWords n)) (offset : ℕ) :
    List UInt32 → ℕ → Buffer UInt32 (imageWords n) × ℕ × Bool
  | [], budget => (slot,budget,true)
  | _::_, 0 => (slot,0,false)
  | word::words, budget+1 =>
    storageFlashProgramWords (programWord slot offset word) (offset+1) words budget

/-- How a store ends: undisturbed, by a failing unlock or erase, by a reset
before the erase, or by a reset or a failing call after some words. -/
inductive Interruption where
  | none
  | unlock
  | beforeErase
  | erase (erased : Bool)
  | programmed (words : ℕ)
  deriving DecidableEq

def programImage (words : List UInt32) (budget : ℕ) : Buffer UInt32 (imageWords n) × Bool :=
  let body := storageFlashProgramWords (erasedSlot n) 1 words budget
  if body.2.2 then
    let commit := storageFlashProgramWords body.1 0 [storageMagic] body.2.1
    (commit.1,commit.2.2)
  else (body.1,false)

def storageFlashStore (flash : Flash n) (data : List UInt32) (cut : Interruption) :
    Flash n × Bool :=
  if data.length ≠ n then (flash,false)
  else
    let target : Slot := if storageFlashNewest flash = some .slotA then .slotB else .slotA
    let words := storageVersion::storageFlashNextSequence flash::payloadSize n::
      storageCrc32 (data.flatMap wordBytes)::data
    match cut with
    | .none =>
      let image := programImage words (imageWords n)
      (flash.write target image.1,image.2)
    | .unlock => (flash,false)
    | .beforeErase => (flash,false)
    | .erase erased => (if erased then flash.write target (erasedSlot n) else flash,false)
    | .programmed budget => (flash.write target (programImage words budget).1,false)

def storageFlashRestore (flash : Flash n) (size : ℕ) : Option (List UInt32) :=
  if size ≠ 4*n then none else (newestImage flash).map fun image => image.payload

def content (slot : Buffer UInt32 (imageWords n)) : Option (UInt32 × List UInt32) :=
  let image := storageFlashImage slot
  if storageFlashValid n image then some (image.sequence,image.payload) else none

def journal (flash : Flash n) : Journal (List UInt32) :=
  ⟨content flash.slotA,content flash.slotB⟩

def Slot.side : Slot → Journal.Side
  | .slotA => .a
  | .slotB => .b

/-- Selection, sequence and payload are those of the journal. -/
theorem current_refines (flash : Flash n) :
    (journal flash).current =
      (newestImage flash).map fun image => (image.sequence,image.payload) := by
  simp only [Journal.current,Journal.newest,newestImage,storageFlashNewest,journal,content]
  cases ha : storageFlashValid n (storageFlashImage flash.slotA) <;>
    cases hb : storageFlashValid n (storageFlashImage flash.slotB)
  · simp
  · simp [Journal.get,Flash.read]
  · simp [Journal.get,Flash.read]
  · by_cases hr : Clock.reached (storageFlashImage flash.slotA).sequence
        (storageFlashImage flash.slotB).sequence = true
    · simp [Journal.get,Flash.read,hr]
    · simp [Journal.get,Flash.read,hr]

theorem sequence_refines (flash : Flash n) :
    storageFlashNextSequence flash = (journal flash).nextNumber := by
  rw [storageFlashNextSequence,Journal.nextNumber,current_refines]
  cases newestImage flash <;> rfl

theorem newest_refines (flash : Flash n) :
    (journal flash).newest = (storageFlashNewest flash).map Slot.side := by
  simp only [storageFlashNewest,journal,content,Journal.newest]
  cases storageFlashValid n (storageFlashImage flash.slotA) <;>
    cases storageFlashValid n (storageFlashImage flash.slotB) <;> simp [Slot.side]
  split <;> rfl

theorem target_refines (flash : Flash n) :
    Slot.side (if storageFlashNewest flash = some .slotA then .slotB else .slotA) =
      (journal flash).target := by
  rw [Journal.target,newest_refines]
  cases storageFlashNewest flash with
  | none => rfl
  | some slot => cases slot <;> rfl

theorem write_refines (flash : Flash n) (slot : Slot) (x : Buffer UInt32 (imageWords n)) :
    journal (flash.write slot x) = (journal flash).put slot.side (content x) := by
  cases slot <;> rfl

/-- Nothing from `offset` on has been programmed. -/
def ErasedFrom (slot : Buffer UInt32 (imageWords n)) (offset : ℕ) : Prop :=
  ∀ i, offset ≤ i → i < imageWords n → slot.cell i 0 = erasedWord

theorem erased_slot (offset : ℕ) : ErasedFrom (erasedSlot n) offset := by
  intro i _ hi
  simp [erasedSlot,Buffer.blank,Buffer.cell,hi]

theorem program_erased {slot : Buffer UInt32 (imageWords n)} {offset : ℕ} (word : UInt32)
    (h : ErasedFrom slot offset) (ho : offset < imageWords n) :
    (programWord slot offset word).front (offset+1) = slot.front offset++[word] ∧
      ErasedFrom (programWord slot offset word) (offset+1) := by
  have hw : slot.cell offset 0 &&& word = word := by
    rw [h offset (Nat.le_refl _) ho]
    exact UInt32.neg_one_and
  constructor
  · rw [programWord,hw]
    exact Buffer.front_write slot offset [word] ho
  · intro i hi hin
    rw [programWord,hw,Buffer.cell_write_after slot offset i [word] 0 hi ho]
    exact h i (by omega) hin

theorem program_all (words : List UInt32) (slot : Buffer UInt32 (imageWords n))
    (offset budget : ℕ) (h : ErasedFrom slot offset)
    (hfit : offset+words.length ≤ imageWords n) (hb : words.length ≤ budget) :
    ∃ slot', storageFlashProgramWords slot offset words budget =
        (slot',budget-words.length,true) ∧
      slot'.front (offset+words.length) = slot.front offset++words := by
  induction words generalizing slot offset budget with
  | nil => exact ⟨slot,by cases budget <;> rfl,by simp⟩
  | cons word words ih =>
    simp only [List.length_cons] at hfit hb
    obtain ⟨budget,rfl⟩ : ∃ k, budget = k+1 := ⟨budget-1,by omega⟩
    obtain ⟨hfront,herased⟩ := program_erased word h (by omega)
    obtain ⟨slot',hr,hs⟩ := ih (programWord slot offset word) (offset+1) budget herased
      (by omega) (by omega)
    refine ⟨slot',?_,?_⟩
    · rw [storageFlashProgramWords,hr,List.length_cons,Nat.add_sub_add_right]
    · rw [hfront,List.append_assoc,List.singleton_append] at hs
      rw [List.length_cons,Nat.add_comm words.length 1,← Nat.add_assoc]
      exact hs

theorem program_part (words : List UInt32) (slot : Buffer UInt32 (imageWords n))
    (offset budget k : ℕ) (hk : k ≤ offset) (hfit : offset+words.length ≤ imageWords n)
    (hb : budget < words.length) :
    ∃ slot', storageFlashProgramWords slot offset words budget = (slot',0,false) ∧
      slot'.front k = slot.front k := by
  induction words generalizing slot offset budget with
  | nil => simp at hb
  | cons word words ih =>
    simp only [List.length_cons] at hfit hb
    cases budget with
    | zero => exact ⟨slot,rfl,rfl⟩
    | succ budget =>
      obtain ⟨slot',hr,hs⟩ := ih (programWord slot offset word) (offset+1) budget (by omega)
        (by omega) (by omega)
      refine ⟨slot',hr,hs.trans ?_⟩
      exact Buffer.front_write_before slot offset k _ hk

theorem cell_zero {slot : Buffer UInt32 (imageWords n)} {w : UInt32} (h : slot.front 1 = [w]) :
    slot.cell 0 0 = w := by
  obtain ⟨cells,size⟩ := slot
  cases cells with
  | nil => simp [Buffer.front] at h
  | cons x cells => simpa [Buffer.front,Buffer.cell] using h

theorem erased_front : (erasedSlot n).front 1 = [erasedWord] := by
  have hmin : min 1 (imageWords n) = 1 := by
    rw [imageWords]
    omega
  rw [erasedSlot,Buffer.front,Buffer.blank,List.take_replicate,hmin]
  rfl

theorem torn_content {slot : Buffer UInt32 (imageWords n)} (h : slot.front 1 = [erasedWord]) :
    content slot = none := by
  have hm : (storageFlashImage slot).magic = erasedWord := cell_zero h
  have hv : storageFlashValid n (storageFlashImage slot) = false := by
    simp only [storageFlashValid,hm,decide_eq_false_iff_not,not_and]
    intro hc
    exact absurd hc (by decide)
  simp [content,hv]

def imageBody (n : ℕ) (sequence : UInt32) (data : List UInt32) : List UInt32 :=
  storageVersion::sequence::payloadSize n::storageCrc32 (data.flatMap wordBytes)::data

theorem body_length (sequence : UInt32) {data : List UInt32} (hd : data.length = n) :
    1+(imageBody n sequence data).length = imageWords n := by
  simp only [imageBody,List.length_cons,hd,imageWords]
  omega

theorem image_written (sequence : UInt32) {data : List UInt32} {budget : ℕ}
    (hd : data.length = n) (hb : imageWords n ≤ budget) :
    ∃ slot : Buffer UInt32 (imageWords n),
      programImage (imageBody n sequence data) budget = (slot,true) ∧
      content slot = some (sequence,data) := by
  have hlen := body_length sequence hd
  obtain ⟨slot,hr,hs⟩ := program_all (imageBody n sequence data) (erasedSlot n) 1 budget
    (erased_slot 1) (Nat.le_of_eq hlen) (by omega)
  rw [hlen,Buffer.front_size,erased_front] at hs
  obtain ⟨rest,hrest⟩ : ∃ k, budget-(imageBody n sequence data).length = k+1 :=
    ⟨budget-(imageBody n sequence data).length-1,by omega⟩
  have hcommit : (programWord slot 0 storageMagic).cells =
      storageMagic::imageBody n sequence data := by
    have hzero : slot.cell 0 0 &&& storageMagic = storageMagic := by
      rw [Buffer.cell,hs]
      exact UInt32.neg_one_and
    rw [programWord,hzero,Buffer.write_cells slot 0 _ (by simp [imageWords]; omega),hs]
    rfl
  refine ⟨programWord slot 0 storageMagic,?_,?_⟩
  · rw [programImage,hr,hrest]
    simp [storageFlashProgramWords]
  · have himage : storageFlashImage (programWord slot 0 storageMagic) =
        ⟨storageMagic,storageVersion,sequence,payloadSize n,
          storageCrc32 (data.flatMap wordBytes),data⟩ := by
      simp [storageFlashImage,Buffer.cell,Buffer.slice,hcommit,imageBody,
        List.take_of_length_le (Nat.le_of_eq hd)]
    simp [content,himage,storageFlashValid]

theorem image_torn (sequence : UInt32) {data : List UInt32} {budget : ℕ}
    (hd : data.length = n) (hb : budget < imageWords n) :
    ∃ slot : Buffer UInt32 (imageWords n),
      programImage (imageBody n sequence data) budget = (slot,false) ∧ content slot = none := by
  have hlen := body_length sequence hd
  by_cases hpart : budget < (imageBody n sequence data).length
  · obtain ⟨slot,hr,hs⟩ := program_part (imageBody n sequence data) (erasedSlot n) 1 budget 1
      (Nat.le_refl _) (Nat.le_of_eq hlen) hpart
    refine ⟨slot,?_,torn_content (hs.trans erased_front)⟩
    rw [programImage,hr]
    rfl
  · obtain ⟨slot,hr,hs⟩ := program_all (imageBody n sequence data) (erasedSlot n) 1 budget
      (erased_slot 1) (Nat.le_of_eq hlen) (by omega)
    have hrest : budget-(imageBody n sequence data).length = 0 := by omega
    rw [hrest] at hr
    refine ⟨slot,?_,torn_content ?_⟩
    · rw [programImage,hr]
      rfl
    · have ht := congrArg (List.take 1) hs
      rw [Buffer.front,List.take_take,Nat.min_eq_left (by omega),erased_front] at ht
      exact ht

/-- All words of the image, the magic word included, were programmed. -/
def AllWritten (n : ℕ) (data : List UInt32) (cut : Interruption) : Prop :=
  data.length = n ∧ (cut = .none ∨ ∃ words, cut = .programmed words ∧ imageWords n ≤ words)

theorem complete_image (flash : Flash n) {data : List UInt32} (hd : data.length = n) :
    ∃ slot, storageFlashStore flash data .none =
        (flash.write (if storageFlashNewest flash = some .slotA then .slotB else .slotA) slot,
          true) ∧
      content slot = some (storageFlashNextSequence flash,data) := by
  obtain ⟨slot,hr,hs⟩ := image_written (storageFlashNextSequence flash) hd (Nat.le_refl _)
  rw [imageBody] at hr
  refine ⟨slot,?_,hs⟩
  unfold storageFlashStore
  rw [if_neg (not_not.mpr hd)]
  simp only [hr]

theorem store_effect (flash : Flash n) (data : List UInt32) (cut : Interruption) :
    (AllWritten n data cut → (journal (storageFlashStore flash data cut).1).current =
      some ((journal flash).nextNumber,data)) ∧
    (¬AllWritten n data cut →
      (journal (storageFlashStore flash data cut).1).current = (journal flash).current) ∧
    ((storageFlashStore flash data cut).2 = true ↔ data.length = n ∧ cut = .none) := by
  unfold storageFlashStore
  by_cases hd : data.length = n
  swap
  · rw [if_pos hd]
    exact ⟨fun h => absurd h.1 hd,fun _ => rfl,by simp [hd]⟩
  rw [if_neg (not_not.mpr hd)]
  have hfill : ∀ slot : Buffer UInt32 (imageWords n),
      content slot = some (storageFlashNextSequence flash,data) →
      (journal (flash.write (if storageFlashNewest flash = some .slotA then .slotB else .slotA)
        slot)).current = some ((journal flash).nextNumber,data) := by
    intro slot hs
    rw [write_refines,target_refines,hs,sequence_refines,Journal.current_put_next]
  have hempty : ∀ slot : Buffer UInt32 (imageWords n), content slot = none →
      (journal (flash.write (if storageFlashNewest flash = some .slotA then .slotB else .slotA)
        slot)).current = (journal flash).current := by
    intro slot hs
    rw [write_refines,target_refines,hs,Journal.current_put_none]
  cases cut with
  | none =>
    obtain ⟨slot,hr,hs⟩ := image_written (storageFlashNextSequence flash) hd (Nat.le_refl _)
    rw [imageBody] at hr
    simp only [hr]
    exact ⟨fun _ => hfill slot hs,fun h => absurd ⟨hd,Or.inl rfl⟩ h,by simp [hd]⟩
  | unlock => exact ⟨fun h => by simp [AllWritten] at h,fun _ => rfl,by simp⟩
  | beforeErase => exact ⟨fun h => by simp [AllWritten] at h,fun _ => rfl,by simp⟩
  | erase erased =>
    refine ⟨fun h => by simp [AllWritten] at h,fun _ => ?_,by simp⟩
    cases erased with
    | false => rfl
    | true => exact hempty _ (torn_content erased_front)
  | programmed words =>
    by_cases hw : imageWords n ≤ words
    · obtain ⟨slot,hr,hs⟩ := image_written (storageFlashNextSequence flash) hd hw
      rw [imageBody] at hr
      simp only [hr]
      exact ⟨fun _ => hfill slot hs,fun h => absurd ⟨hd,Or.inr ⟨words,rfl,hw⟩⟩ h,by simp⟩
    · obtain ⟨slot,hr,hs⟩ :=
        image_torn (storageFlashNextSequence flash) hd (Nat.lt_of_not_le hw)
      rw [imageBody] at hr
      simp only [hr]
      refine ⟨fun h => ?_,fun _ => hempty slot hs,by simp⟩
      rcases h.2 with h | ⟨k,hk,hle⟩
      · cases h
      · cases hk
        exact absurd hle hw

structure StoreRecord where
  data : List UInt32
  cut : Interruption
  ok : Bool
  deriving DecidableEq

def storeStep (flash : Flash n) (attempt : List UInt32 × Interruption) :
    Flash n × List StoreRecord :=
  let r := storageFlashStore flash attempt.1 attempt.2
  (r.1,[⟨attempt.1,attempt.2,r.2⟩])

def newestPayload (flash : Flash n) : Option (List UInt32) :=
  (newestImage flash).map fun image => image.payload

theorem newest_payload_current (flash : Flash n) :
    newestPayload flash = (journal flash).current.map Prod.snd := by
  rw [current_refines,Option.map_map]
  rfl

/-- The payload is that of the last store of the history whose words were all
written; without such a store there is none. -/
def LastWritten (n : ℕ) (history : List StoreRecord) : Option (List UInt32) → Prop
  | none => ∀ r ∈ history, ¬AllWritten n r.data r.cut
  | some payload => ∃ before r after, history = before++r::after ∧ r.data = payload ∧
      AllWritten n r.data r.cut ∧ ∀ q ∈ after, ¬AllWritten n q.data q.cut

theorem last_written_skip {history : List StoreRecord} {payload : Option (List UInt32)}
    {r : StoreRecord} (h : LastWritten n history payload) (hr : ¬AllWritten n r.data r.cut) :
    LastWritten n (history++[r]) payload := by
  cases payload with
  | none =>
    intro q hq
    rcases List.mem_append.mp hq with hq | hq
    · exact h q hq
    · rw [List.mem_singleton.mp hq]
      exact hr
  | some payload =>
    obtain ⟨before,q,after,rfl,hd,hw,ha⟩ := h
    refine ⟨before,q,after++[r],by simp,hd,hw,fun x hx => ?_⟩
    rcases List.mem_append.mp hx with hx | hx
    · exact ha x hx
    · rw [List.mem_singleton.mp hx]
      exact hr

theorem step_last_written (flash : Flash n) (history : List StoreRecord)
    (attempt : List UInt32 × Interruption) (h : LastWritten n history (newestPayload flash)) :
    LastWritten n (history++(storeStep flash attempt).2)
      (newestPayload (storeStep flash attempt).1) := by
  obtain ⟨hnew,hold,_⟩ := store_effect flash attempt.1 attempt.2
  rw [newest_payload_current]
  by_cases hw : AllWritten n attempt.1 attempt.2
  · rw [storeStep,hnew hw]
    exact ⟨history,_,[],rfl,rfl,hw,by simp⟩
  · rw [storeStep,hold hw,← newest_payload_current]
    exact last_written_skip h hw

theorem run_last_written (flash : Flash n) (attempts : List (List UInt32 × Interruption))
    (h : LastWritten n [] (newestPayload flash)) :
    LastWritten n (run storeStep flash attempts).2
      (newestPayload (run storeStep flash attempts).1) := by
  have hr := along_history storeStep (fun _ _ => True)
    (fun flash history => LastWritten n history (newestPayload flash))
    (fun flash history attempt hl _ => step_last_written flash history attempt hl)
    flash [] attempts h (along_true _ _ _)
  simpa using hr

theorem run_completed (flash : Flash n) (attempts : List (List UInt32 × Interruption)) :
    ∀ r ∈ (run storeStep flash attempts).2, (r.ok = true ↔ r.data.length = n ∧ r.cut = .none) ∧
      (r.ok = true → AllWritten n r.data r.cut) := by
  refine along_events storeStep (fun _ _ => True) (fun _ => True) _ (fun _ _ _ _ => trivial)
    (fun flash attempt _ _ r hr => ?_) flash attempts trivial (along_true _ _ _)
  obtain ⟨_,_,hok⟩ := store_effect flash attempt.1 attempt.2
  rw [List.mem_singleton.mp hr]
  exact ⟨hok,fun h => ⟨(hok.mp h).1,Or.inl (hok.mp h).2⟩⟩

theorem erased_payload : newestPayload (erasedFlash n) = none := by
  have hc : content (erasedSlot n) = none := torn_content erased_front
  have hj : (journal (erasedFlash n)).current = none := by
    rw [journal,erasedFlash,hc]
    rfl
  rw [current_refines] at hj
  simpa [newestPayload] using hj

end Backend

/-- After any stores and interruptions the selected payload is the last one
whose words were all written, and every completed store is among those. -/
theorem storage_power_fail_atomic (n : ℕ) (attempts : List (List UInt32 × Interruption)) :
    LastWritten n (run storeStep (erasedFlash n) attempts).2
      (newestPayload (run storeStep (erasedFlash n) attempts).1) ∧
    storageFlashRestore (run storeStep (erasedFlash n) attempts).1 (4*n) =
      newestPayload (run storeStep (erasedFlash n) attempts).1 ∧
    ∀ r ∈ (run storeStep (erasedFlash n) attempts).2,
      (r.ok = true ↔ r.data.length = n ∧ r.cut = .none) ∧
        (r.ok = true → AllWritten n r.data r.cut) := by
  have h0 : LastWritten n [] (newestPayload (erasedFlash n)) := by
    rw [erased_payload]
    exact fun r hr => absurd hr (by simp)
  refine ⟨run_last_written (erasedFlash n) attempts h0,?_,run_completed (erasedFlash n) attempts⟩
  rw [storageFlashRestore,if_neg (not_not.mpr rfl),newestPayload]

end CanopenReference.Storage
