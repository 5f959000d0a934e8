import Mathlib.Data.List.Induction
import CanopenReference.StorageRestore

/-!
# Interrupted erases

An erase that is cut short has raised some bits of the slot to be overwritten.
The checksum covers the payload alone, so that a slot of which only the sequence
number was raised passes for an image with that number.
-/

set_option autoImplicit false

namespace CanopenReference.PartialErase
open Library Library.Runs Storage StorageRestore

def otherSlot : Slot → Slot
  | .slotA => .slotB
  | .slotB => .slotA

def raiseBits {k : ℕ} (slot mask : Buffer UInt32 k) : Buffer UInt32 k :=
  ⟨List.zipWith (· ||| ·) slot.cells mask.cells,by simp [slot.size,mask.size]⟩

section Erase
variable {n : ℕ}

def targetSlot (flash : Flash n) : Slot :=
  if storageFlashNewest flash = some .slotA then .slotB else .slotA

def targetImage (flash : Flash n) : StorageImage :=
  storageFlashImage (flash.read (targetSlot flash))

/-- The flash after an erase that raised the bits of the mask only. -/
def interrupted (flash : Flash n) (mask : Buffer UInt32 (imageWords n)) : Flash n :=
  flash.write (targetSlot flash) (raiseBits (flash.read (targetSlot flash)) mask)

def raisedImage (flash : Flash n) (mask : Buffer UInt32 (imageWords n)) : StorageImage :=
  storageFlashImage (raiseBits (flash.read (targetSlot flash)) mask)

/-- The flash after completed stores, from the erased one on. -/
def storedFlash (n : ℕ) (stores : List (Buffer UInt32 n)) : Flash n :=
  (run storeStep (erasedFlash n) (stores.map fun data => (data.cells,Interruption.none))).1

/-- A payload with raised bits does not match the checksum. -/
def ChecksumDetects (flash : Flash n) (mask : Buffer UInt32 (imageWords n)) : Prop :=
  (raisedImage flash mask).payload ≠ (targetImage flash).payload →
    (raisedImage flash mask).crc32 ≠
      storageCrc32 ((raisedImage flash mask).payload.flatMap wordBytes)

/-- After a reboot the other slot is selected, and it holds the last store. -/
def Kept (flash : Flash n) (mask : Buffer UInt32 (imageWords n)) (last : List UInt32) : Prop :=
  storageFlashNewest (interrupted flash mask) = some (otherSlot (targetSlot flash)) ∧
    newestPayload (interrupted flash mask) = some last

/-- The interrupted slot passes for an image with another sequence number. -/
def Altered (flash : Flash n) (mask : Buffer UInt32 (imageWords n)) : Prop :=
  storageFlashValid n (raisedImage flash mask) = true ∧
    (raisedImage flash mask).sequence ≠ (targetImage flash).sequence

/-- The slot held an image, of which at most the sequence number was raised. -/
def OnlySequence (flash : Flash n) (mask : Buffer UInt32 (imageWords n)) : Prop :=
  storageFlashValid n (targetImage flash) = true ∧
    raisedImage flash mask =
      { targetImage flash with sequence := (raisedImage flash mask).sequence }

def rise (flash : Flash n) (mask : Buffer UInt32 (imageWords n)) : ℕ :=
  (raisedImage flash mask).sequence.toNat-(targetImage flash).sequence.toNat

theorem other_side (slot : Slot) : (otherSlot slot).side = slot.side.other := by
  cases slot <;> rfl

theorem other_other (slot : Slot) : otherSlot (otherSlot slot) = slot := by
  cases slot <;> rfl

theorem get_content (flash : Flash n) (slot : Slot) :
    (journal flash).get slot.side = content (flash.read slot) := by
  cases slot <;> rfl

theorem side_injective : Function.Injective Slot.side := by
  intro a b h
  cases a <;> cases b <;> first | rfl | cases h

theorem newest_side (flash : Flash n) (slot : Slot) :
    storageFlashNewest flash = some slot ↔ (journal flash).newest = some slot.side := by
  rw [newest_refines,← Option.map_some,(Option.map_injective side_injective).eq_iff]

theorem target_side (flash : Flash n) : (targetSlot flash).side = (journal flash).target :=
  target_refines flash

/-- What completed stores leave: consecutive images, and in place of a missing one
an erased slot. -/
structure Completed (flash : Flash n) (slot : Slot) (s : UInt32) (last : List UInt32) :
    Prop where
  images : Journal.Consecutive (journal flash) slot.side s last
  tidy : content (flash.read (otherSlot slot)) = none →
    flash.read (otherSlot slot) = erasedSlot n

theorem erased_content : content (erasedSlot n) = none := torn_content erased_front

variable {flash : Flash n} {slot : Slot} {s : UInt32} {last : List UInt32}

theorem completed_target (h : Completed flash slot s last) : targetSlot flash = otherSlot slot := by
  apply side_injective
  rw [target_side,other_side,Journal.consecutive_target h.images]

theorem completed_first (data : Buffer UInt32 n) :
    Completed (storageFlashStore (erasedFlash n) data.cells .none).1 .slotA 0 data.cells := by
  obtain ⟨image,hstore,himage⟩ := complete_image (erasedFlash n) data.size
  have hjournal : journal (erasedFlash n) = ⟨none,none⟩ := by
    simp [journal,erasedFlash,erased_content]
  have hnewest : storageFlashNewest (erasedFlash n) = none := by
    have h := newest_refines (erasedFlash n)
    rw [hjournal] at h
    exact Option.map_eq_none_iff.mp h.symm
  have hnumber : storageFlashNextSequence (erasedFlash n) = 1 := by
    rw [sequence_refines,hjournal]
    rfl
  rw [hstore,hnewest,if_neg (by simp)]
  refine ⟨?_,fun _ => rfl⟩
  rw [write_refines,hjournal,himage,hnumber]
  exact Journal.consecutive_first data.cells

theorem completed_previous (h : Completed flash slot s last) (data : Buffer UInt32 n) :
    content ((storageFlashStore flash data.cells .none).1.read slot) = some (s+1,last) := by
  obtain ⟨image,hstore,-⟩ := complete_image flash data.size
  have htarget := completed_target h
  rw [targetSlot] at htarget
  have hread : (flash.write (otherSlot slot) image).read slot = flash.read slot := by
    cases slot <;> rfl
  rw [hstore,htarget,hread,← get_content]
  exact h.images.current

theorem completed_next (h : Completed flash slot s last) (data : Buffer UInt32 n) :
    Completed (storageFlashStore flash data.cells .none).1 (otherSlot slot) (s+1) data.cells := by
  refine ⟨?_,fun hnone => ?_⟩
  · obtain ⟨image,hstore,himage⟩ := complete_image flash data.size
    rw [hstore,write_refines,target_refines,himage,sequence_refines,other_side]
    exact Journal.consecutive_put h.images data.cells
  · rw [other_other,completed_previous h data] at hnone
    cases hnone

theorem stored_concat (stores : List (Buffer UInt32 n)) (data : Buffer UInt32 n) :
    storedFlash n (stores++[data]) = (storageFlashStore (storedFlash n stores) data.cells .none).1 := by
  rw [storedFlash,List.map_append,List.map_singleton,run_concat]
  rfl

theorem stored_completed (earlier : List (Buffer UInt32 n)) (last : Buffer UInt32 n) :
    ∃ slot s, Completed (storedFlash n (earlier++[last])) slot s last.cells := by
  induction earlier using List.reverseRecOn generalizing last with
  | nil => exact ⟨.slotA,0,completed_first last⟩
  | append_singleton earlier data ih =>
    obtain ⟨slot,s,h⟩ := ih data
    rw [stored_concat]
    exact ⟨otherSlot slot,s+1,completed_next h last⟩

theorem raise_cell {k : ℕ} (slot mask : Buffer UInt32 k) {i : ℕ} (hi : i < k) :
    (raiseBits slot mask).cell i 0 = slot.cell i 0 ||| mask.cell i 0 := by
  have hs : i < slot.cells.length := slot.size.symm ▸ hi
  have hm : i < mask.cells.length := mask.size.symm ▸ hi
  simp only [raiseBits,Buffer.cell,List.getD,List.getElem?_zipWith,List.getElem?_eq_getElem hs,
    List.getElem?_eq_getElem hm,Option.getD_some]

theorem raise_erased (mask : Buffer UInt32 (imageWords n)) :
    raiseBits (erasedSlot n) mask = erasedSlot n := by
  have hcells : (raiseBits (erasedSlot n) mask).cells = (erasedSlot n).cells := by
    refine List.ext_getElem ?_ fun i hi hi' => ?_
    · rw [(raiseBits (erasedSlot n) mask).size,(erasedSlot n).size]
    · simp only [raiseBits,erasedSlot,Buffer.blank,List.getElem_zipWith,List.getElem_replicate]
      exact UInt32.neg_one_or
  cases h : raiseBits (erasedSlot n) mask with
  | mk cells size =>
    rw [h] at hcells
    cases hcells
    rfl

theorem content_some {x : Buffer UInt32 (imageWords n)} {number : UInt32} {payload : List UInt32}
    (h : content x = some (number,payload)) :
    storageFlashValid n (storageFlashImage x) = true ∧ (storageFlashImage x).sequence = number ∧
      (storageFlashImage x).payload = payload := by
  unfold content at h
  simp only at h
  split at h
  · rename_i hvalid
    cases h
    exact ⟨hvalid,rfl,rfl⟩
  · cases h

theorem valid_content {x : Buffer UInt32 (imageWords n)}
    (h : storageFlashValid n (storageFlashImage x) = true) :
    content x = some ((storageFlashImage x).sequence,(storageFlashImage x).payload) :=
  if_pos h

theorem valid_fields {image : StorageImage} (h : storageFlashValid n image = true) :
    image.magic = storageMagic ∧ image.version = storageVersion ∧
      image.length = payloadSize n ∧
      image.crc32 = storageCrc32 (image.payload.flatMap wordBytes) :=
  of_decide_eq_true h

theorem same_but_sequence {a b : StorageImage} (hmagic : a.magic = b.magic)
    (hversion : a.version = b.version) (hlength : a.length = b.length)
    (hcrc : a.crc32 = b.crc32) (hpayload : a.payload = b.payload) :
    a = { b with sequence := a.sequence } := by
  obtain ⟨magic,version,sequence,length,crc32,payload⟩ := a
  simp only at hmagic hversion hlength hcrc hpayload
  rw [hmagic,hversion,hlength,hcrc,hpayload]

theorem raised_valid_iff (h : Completed flash slot s last) {mask : Buffer UInt32 (imageWords n)}
    (hcrc : ChecksumDetects flash mask) :
    storageFlashValid n (raisedImage flash mask) = true ↔ OnlySequence flash mask := by
  constructor
  · intro hafter
    cases hbefore : content (flash.read (targetSlot flash)) with
    | none =>
      have herased : flash.read (targetSlot flash) = erasedSlot n := by
        rw [completed_target h] at hbefore ⊢
        exact h.tidy hbefore
      have hnone : content (erasedSlot n) ≠ none := by
        rw [raisedImage,herased,raise_erased] at hafter
        simp [content,hafter]
      exact absurd erased_content hnone
    | some x =>
      obtain ⟨hvalid,-,-⟩ := content_some hbefore
      obtain ⟨hmagic,hversion,hlength,hsum⟩ := valid_fields hvalid
      obtain ⟨hmagic',hversion',hlength',hsum'⟩ := valid_fields hafter
      have hpayload : (raisedImage flash mask).payload = (targetImage flash).payload := by
        by_contra hne
        exact hcrc hne hsum'
      refine ⟨hvalid,?_⟩
      refine same_but_sequence (hmagic'.trans hmagic.symm) (hversion'.trans hversion.symm)
        (hlength'.trans hlength.symm) ?_ hpayload
      rw [hsum',hpayload]
      exact hsum.symm
  · rintro ⟨hvalid,hsame⟩
    rw [hsame]
    exact hvalid

theorem raised_sequence (flash : Flash n) (mask : Buffer UInt32 (imageWords n)) :
    (raisedImage flash mask).sequence = (targetImage flash).sequence ||| mask.cell 2 0 :=
  raise_cell _ mask (by simp [imageWords]; omega)

theorem sequence_rises (flash : Flash n) (mask : Buffer UInt32 (imageWords n)) :
    (targetImage flash).sequence.toNat ≤ (raisedImage flash mask).sequence.toNat ∧
      ((targetImage flash).sequence.toNat%2 = 1 →
        (raisedImage flash mask).sequence.toNat%2 = 1) := by
  rw [raised_sequence,UInt32.toNat_or]
  refine ⟨Nat.left_le_or,fun hodd => ?_⟩
  have hbit : ∀ x : ℕ, x%2 = 1 ↔ x.testBit 0 = true := fun x => by simp [Nat.testBit_zero]
  rw [hbit,Nat.testBit_or,(hbit _).mp hodd,Bool.true_or]

theorem interrupted_journal (h : Completed flash slot s last)
    (mask : Buffer UInt32 (imageWords n)) :
    journal (interrupted flash mask) = (journal flash).put slot.side.other
      (content (raiseBits (flash.read (targetSlot flash)) mask)) := by
  rw [interrupted,write_refines,target_side,Journal.consecutive_target h.images]

theorem kept_newest (h : Completed flash slot s last) (mask : Buffer UInt32 (imageWords n)) :
    Kept flash mask last ↔
      ((journal flash).put slot.side.other
        (content (raiseBits (flash.read (targetSlot flash)) mask))).newest = some slot.side := by
  have hjournal := interrupted_journal h mask
  have hother : otherSlot (targetSlot flash) = slot := by rw [completed_target h,other_other]
  rw [Kept,hother,newest_side,hjournal]
  refine ⟨fun hkept => hkept.1,fun hnewest => ⟨hnewest,?_⟩⟩
  rw [newest_payload_current,hjournal,Journal.current,hnewest,Option.bind_some,
    Journal.get_put_other,h.images.current]
  rfl

/-- The other slot is selected unless the sequence number alone was raised, by at
least two and by half a turn at most. -/
theorem kept_iff (h : Completed flash slot s last) {mask : Buffer UInt32 (imageWords n)}
    (hcrc : ChecksumDetects flash mask) :
    Kept flash mask last ↔
      ¬(OnlySequence flash mask ∧ 2 ≤ rise flash mask ∧ rise flash mask ≤ 2^31+1) := by
  rw [kept_newest h]
  by_cases honly : OnlySequence flash mask
  · have hvalid := (raised_valid_iff h hcrc).mpr honly
    have hbefore : content (flash.read (otherSlot slot)) =
        some ((targetImage flash).sequence,(targetImage flash).payload) := by
      rw [← completed_target h]
      exact valid_content honly.1
    have hnumber : (targetImage flash).sequence = s := by
      have hprevious := h.images.previous
      rw [← other_side] at hprevious
      simp only [get_content] at hprevious
      exact hprevious _ hbefore
    have hraised : content (raiseBits (flash.read (targetSlot flash)) mask) =
        some ((raisedImage flash mask).sequence,(raisedImage flash mask).payload) :=
      valid_content hvalid
    obtain ⟨hle,hodd⟩ := sequence_rises flash mask
    rw [hnumber] at hle hodd
    rw [hraised,Journal.consecutive_raised h.images _ hle hodd,rise,hnumber]
    simp only [honly,true_and]
  · have hnone : content (raiseBits (flash.read (targetSlot flash)) mask) = none :=
      if_neg fun hvalid => honly ((raised_valid_iff h hcrc).mp hvalid)
    have hkept : ((journal flash).put slot.side.other none).newest = some slot.side := by
      refine (Journal.newest_iff _ _).mpr ⟨_,(Journal.get_put_other _ _ _).trans h.images.current,
        fun y hy => ?_⟩
      rw [Journal.get_put] at hy
      cases hy
    rw [hnone]
    simp only [honly,false_and,not_false_eq_true,hkept]

theorem mask_size (n : ℕ) (bits : UInt32) :
    ([0,0,bits,0,0]++List.replicate n 0).length = imageWords n := by
  rw [List.length_append,List.length_replicate]
  rfl

/-- A mask of bits in the sequence number. -/
def sequenceMask (n : ℕ) (bits : UInt32) : Buffer UInt32 (imageWords n) :=
  ⟨[0,0,bits,0,0]++List.replicate n 0,mask_size n bits⟩

theorem raise_none {xs : List UInt32} {k : ℕ} (h : xs.length = k) :
    List.zipWith (· ||| ·) xs (List.replicate k 0) = xs := by
  subst h
  induction xs with
  | nil => rfl
  | cons x xs ih =>
    rw [List.length_cons,List.replicate_succ,List.zipWith_cons_cons,ih,UInt32.or_zero]

theorem raised_image_sequence (flash : Flash n) (bits : UInt32) :
    raisedImage flash (sequenceMask n bits) =
      { targetImage flash with sequence := (targetImage flash).sequence ||| bits } := by
  have hcell : ∀ i < 5, (raiseBits (flash.read (targetSlot flash)) (sequenceMask n bits)).cell i 0 =
      (flash.read (targetSlot flash)).cell i 0 ||| (sequenceMask n bits).cell i 0 :=
    fun i hi => raise_cell _ _ (by simp [imageWords]; omega)
  have hpayload : (raiseBits (flash.read (targetSlot flash)) (sequenceMask n bits)).slice 5 n =
      (flash.read (targetSlot flash)).slice 5 n := by
    have hsize := (flash.read (targetSlot flash)).size
    have hlen : ((flash.read (targetSlot flash)).cells.drop 5).length = n := by
      rw [List.length_drop,hsize,imageWords]
      omega
    have hmask : (sequenceMask n bits).cells.drop 5 = List.replicate n 0 := rfl
    rw [Buffer.slice,Buffer.slice,raiseBits,List.drop_zipWith,hmask,raise_none hlen]
  simp only [raisedImage,targetImage,storageFlashImage,hpayload,hcell 0 (by decide),
    hcell 1 (by decide),hcell 2 (by decide),hcell 3 (by decide),hcell 4 (by decide)]
  simp [sequenceMask,Buffer.cell]

theorem sequence_checksum (flash : Flash n) (bits : UInt32) :
    ChecksumDetects flash (sequenceMask n bits) := by
  intro hne
  rw [raised_image_sequence] at hne
  exact absurd rfl hne

/-- After completed stores an erase may be cut short without harm unless the
slot held an image and its sequence number alone was raised. The other slot is
selected all the same where the number rises by one or by more than half a turn. -/
theorem interrupted_erase_iff (earlier : List (Buffer UInt32 n)) (last : Buffer UInt32 n)
    (mask : Buffer UInt32 (imageWords n)) :
    let flash := storedFlash n (earlier++[last])
    ChecksumDetects flash mask →
      (Kept flash mask last.cells ∧ ¬Altered flash mask ↔
        ¬(OnlySequence flash mask ∧ 0 < rise flash mask)) ∧
      (Kept flash mask last.cells ↔
        ¬(OnlySequence flash mask ∧ 2 ≤ rise flash mask ∧ rise flash mask ≤ 2^31+1)) := by
  intro flash hcrc
  obtain ⟨slot,s,h⟩ := stored_completed earlier last
  have hkept := kept_iff h hcrc
  refine ⟨?_,hkept⟩
  have haltered : Altered flash mask ↔ OnlySequence flash mask ∧ 0 < rise flash mask := by
    have hle := (sequence_rises flash mask).1
    rw [Altered,raised_valid_iff h hcrc,rise,ne_eq,← UInt32.toNat_inj]
    refine and_congr_right fun _ => ?_
    omega
  rw [hkept,haltered]
  constructor
  · rintro ⟨-,hnone⟩
    exact hnone
  · intro hnone
    refine ⟨?_,hnone⟩
    rintro ⟨honly,hrise,-⟩
    exact hnone ⟨honly,Nat.lt_of_lt_of_le (by decide) hrise⟩

end Erase

def twoStores : Flash 126 := storedFlash 126 ([communicationDefaults]++[heartbeatSet])

theorem interrupted_erase_two :
    (Kept twoStores (sequenceMask 126 8) heartbeatSet.cells ∧
        ¬Altered twoStores (sequenceMask 126 8) ↔
      ¬(OnlySequence twoStores (sequenceMask 126 8) ∧ 0 < rise twoStores (sequenceMask 126 8))) ∧
    (Kept twoStores (sequenceMask 126 8) heartbeatSet.cells ↔
      ¬(OnlySequence twoStores (sequenceMask 126 8) ∧ 2 ≤ rise twoStores (sequenceMask 126 8) ∧
        rise twoStores (sequenceMask 126 8) ≤ 2^31+1)) :=
  interrupted_erase_iff [communicationDefaults] heartbeatSet (sequenceMask 126 8)
    (sequence_checksum _ _)

/-- The third store is cut short when its erase has raised one bit of the sequence
number 1, to 3: the defaults of the first store come back in place of the
heartbeat of the second. -/
theorem first_store_selected :
    newestPayload (interrupted twoStores (sequenceMask 126 2)) =
        some communicationDefaults.cells ∧
      Altered twoStores (sequenceMask 126 2) ∧
      ¬Kept twoStores (sequenceMask 126 2) heartbeatSet.cells := by
  have hfirst := completed_first communicationDefaults
  have hsecond := completed_next hfirst heartbeatSet
  have hprevious := completed_previous hfirst heartbeatSet
  have hstores : twoStores = (storageFlashStore (storageFlashStore (erasedFlash 126)
      communicationDefaults.cells .none).1 heartbeatSet.cells .none).1 := by
    rw [twoStores,stored_concat,← List.nil_append [communicationDefaults],stored_concat]
    rfl
  rw [← hstores] at hsecond hprevious
  have htarget : targetSlot twoStores = .slotA := completed_target hsecond
  obtain ⟨hvalid,hnumber,hpayload⟩ := content_some hprevious
  have honly : OnlySequence twoStores (sequenceMask 126 2) := by
    rw [OnlySequence,raised_image_sequence,targetImage,htarget]
    exact ⟨hvalid,rfl⟩
  have hraised : (raisedImage twoStores (sequenceMask 126 2)).sequence = 3 := by
    rw [raised_image_sequence,targetImage,htarget]
    show (storageFlashImage (twoStores.read .slotA)).sequence ||| 2 = 3
    rw [hnumber]
    rfl
  have hbefore : (targetImage twoStores).sequence = 1 := by
    rw [targetImage,htarget]
    exact hnumber
  have hafter := (raised_valid_iff hsecond (sequence_checksum _ 2)).mpr honly
  have hcontent : content (raiseBits (twoStores.read (targetSlot twoStores))
      (sequenceMask 126 2)) = some (3,communicationDefaults.cells) := by
    have hp : (raisedImage twoStores (sequenceMask 126 2)).payload =
        communicationDefaults.cells := by
      rw [raised_image_sequence]
      simp only [targetImage,htarget,hpayload]
    have hsome := valid_content hafter
    rw [← raisedImage,hraised,hp] at hsome
    exact hsome
  have hrise : rise twoStores (sequenceMask 126 2) = 2 := by
    rw [rise,hraised,hbefore]
    rfl
  refine ⟨?_,⟨hafter,?_⟩,fun hkept => ?_⟩
  · rw [newest_payload_current,interrupted_journal hsecond,hcontent,
      Journal.consecutive_overtaken hsecond.images _ (by decide)]
    rfl
  · rw [hraised,hbefore]
    decide
  · have hlate := (kept_iff hsecond (sequence_checksum twoStores 2)).mp hkept
    rw [hrise] at hlate
    exact hlate ⟨honly,by omega⟩

end CanopenReference.PartialErase
