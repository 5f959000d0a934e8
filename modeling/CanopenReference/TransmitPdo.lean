import Mathlib.Algebra.GroupWithZero.Nat
import CanopenReference.SdoTraffic

/-!
# Transmit PDOs of the mock node

A transmit PDO gathers the mapped objects into one frame, under the identifier
that the client has written last.
-/

set_option autoImplicit false

namespace CanopenReference.TransmitPdo
open Library Library.Runs Library.History MockCanopen SdoUpload SdoTraffic

def pdoMappings : ℕ → List UInt32
  | 1 => [0x48500008,0x48510008,0x48520010,0x48530010,0x48540010]
  | 2 => [0x48550010,0x48560010,0x48570010,0x48580008,0x48590008]
  | 3 => [0x485A0010,0x485B0010,0x485C0010,0x485D0010]
  | 4 => [0x485E0008,0x485F0008,0x48600008,0x48610008,0x48620010,0x48630010]
  | 5 => [0x48640010,0x48650010,0x48660010,0x48670010]
  | 6 => [0x48680010,0x48690008,0x486A0010,0x486B0010,0x486C0008]
  | _ => []

inductive PdoError where
  | number
  | noObject (index : UInt16) (subIndex : UInt8)
  | cobIdWidth
  | mappingWidth (index : UInt16) (subIndex : UInt8)
  | capacity
  deriving DecidableEq

def entryIndex (entry : UInt32) : UInt16 := ((entry >>> 16) &&& 0xFFFF).toUInt16
def entrySubIndex (entry : UInt32) : UInt8 := ((entry >>> 8) &&& 0xFF).toUInt8
def entryBits (entry : UInt32) : ℕ := (entry &&& 0xFF).toNat

def read (od : ObjectDictionary) (index : UInt16) (subIndex : UInt8) :
    Except PdoError (List UInt8) :=
  match od index subIndex with
  | none => .error (.noObject index subIndex)
  | some o => .ok o.value

def gather (od : ObjectDictionary) : List UInt32 → List UInt8 → Except PdoError (List UInt8)
  | [], payload => .ok payload
  | entry::entries, payload =>
    match read od (entryIndex entry) (entrySubIndex entry) with
    | .error e => .error e
    | .ok value =>
      if entryBits entry%8 ≠ 0 ∨ entryBits entry/8 ≠ value.length then
        .error (.mappingWidth (entryIndex entry) (entrySubIndex entry))
      else gather od entries (payload++value)

theorem masked_standard (cobId : ℕ) : cobId &&& 0x7FF ≤ 0x7FF := Nat.and_le_right

def commIndex (pdoNumber : ℕ) : UInt16 := UInt16.ofNat (0x1800+pdoNumber-1)

def emitTpdo (node : MockNode) (pdoNumber : ℕ) : Except PdoError (Option Frame) :=
  if ¬(1 ≤ pdoNumber ∧ pdoNumber ≤ 6) then .error .number
  else
    match read node.od (commIndex pdoNumber) 1 with
    | .error e => .error e
    | .ok bytes =>
      if bytes.length ≠ 4 then .error .cobIdWidth
      else
        let cobId := littleValue bytes
        if cobId &&& 0x80000000 ≠ 0 then .ok none
        else
          match gather node.od (pdoMappings pdoNumber) [] with
          | .error e => .error e
          | .ok payload =>
            if h : payload.length ≤ 8 then
              .ok (some ⟨cobId &&& 0x7FF,payload,masked_standard cobId,h⟩)
            else .error .capacity

/-- The dictionary has the PDO's identifier and the objects that are mapped, each
with the width of its entry. -/
structure Mapped (od : ObjectDictionary) (pdoNumber : ℕ) : Prop where
  cobId : ∃ o, od (commIndex pdoNumber) 1 = some o ∧ o.width = 4
  objects : ∀ entry ∈ pdoMappings pdoNumber,
    ∃ o, od (entryIndex entry) (entrySubIndex entry) = some o ∧ entryBits entry = 8*o.width

/-- The bytes of an object after the frames. -/
def bytesAfter (id : NodeId) (od : ObjectDictionary) (frames : List Frame) (index : UInt16)
    (subIndex : UInt8) : List UInt8 :=
  ((od index subIndex).map fun o => storedValue id o index subIndex frames).getD []

section Traffic
variable (id : NodeId) (od : ObjectDictionary) (frames : List Frame)

theorem read_after {i : UInt16} {s : UInt8} {o : ObjectValue} (ho : od i s = some o) :
    read (run trafficStep (mockNode id od) frames).1.od i s = .ok (bytesAfter id od frames i s) ∧
      (bytesAfter id od frames i s).length = o.width := by
  obtain ⟨o',ho',hkept⟩ := traffic_object id od ho frames
  have hbytes : bytesAfter id od frames i s = storedValue id o i s frames := by
    unfold bytesAfter
    rw [ho]
    rfl
  unfold read
  rw [ho',hbytes]
  exact ⟨congrArg Except.ok hkept.value,stored_length id frames⟩

theorem gather_after (entries : List UInt32) (payload : List UInt8)
    (h : ∀ entry ∈ entries,
      ∃ o, od (entryIndex entry) (entrySubIndex entry) = some o ∧ entryBits entry = 8*o.width) :
    gather (run trafficStep (mockNode id od) frames).1.od entries payload =
        .ok (payload++entries.flatMap fun entry =>
          bytesAfter id od frames (entryIndex entry) (entrySubIndex entry)) ∧
      8*(entries.flatMap fun entry =>
          bytesAfter id od frames (entryIndex entry) (entrySubIndex entry)).length =
        (entries.map entryBits).sum := by
  induction entries generalizing payload with
  | nil => exact ⟨by simp [gather],rfl⟩
  | cons entry entries ih =>
    obtain ⟨o,ho,hbits⟩ := h entry (by simp)
    obtain ⟨hread,hlength⟩ := read_after id od frames ho
    obtain ⟨hrest,hsum⟩ := ih
      (payload++bytesAfter id od frames (entryIndex entry) (entrySubIndex entry))
      fun e he => h e (by simp [he])
    unfold gather
    simp only [hread]
    rw [if_neg (by omega),hrest,List.flatMap_cons,List.append_assoc]
    refine ⟨rfl,?_⟩
    rw [List.length_append,List.map_cons,List.sum_cons]
    omega

end Traffic

theorem mappings_fit {pdoNumber : ℕ} (h : 1 ≤ pdoNumber ∧ pdoNumber ≤ 6) :
    ((pdoMappings pdoNumber).map entryBits).sum ≤ 64 := by
  have hall : ∀ n : Fin 6, ((pdoMappings (n.1+1)).map entryBits).sum ≤ 64 := by decide
  have hn := hall ⟨pdoNumber-1,by omega⟩
  rwa [show pdoNumber-1+1 = pdoNumber by omega] at hn

/-- After any traffic a transmit PDO is emitted without error: not at all while
the identifier that was written last has its invalid bit set, and otherwise
under its low eleven bits with what the mapped objects then hold. -/
theorem tpdo_follows_traffic (id : NodeId) (od : ObjectDictionary) (frames : List Frame)
    (pdoNumber : ℕ) (hnumber : 1 ≤ pdoNumber ∧ pdoNumber ≤ 6) (hmapped : Mapped od pdoNumber) :
    ∃ result, emitTpdo (carried ⟨mockNode id od,[]⟩ frames).node pdoNumber = .ok result ∧
      (result = none ↔
        littleValue (bytesAfter id od frames (commIndex pdoNumber) 1) &&& 0x80000000 ≠ 0) ∧
      ∀ frame, result = some frame →
        frame.cobId = littleValue (bytesAfter id od frames (commIndex pdoNumber) 1) &&& 0x7FF ∧
          frame.data = (pdoMappings pdoNumber).flatMap fun entry =>
            bytesAfter id od frames (entryIndex entry) (entrySubIndex entry) := by
  obtain ⟨o,ho,hwidth⟩ := hmapped.cobId
  obtain ⟨hread,hlength⟩ := read_after id od frames ho
  obtain ⟨hgather,hsum⟩ := gather_after id od frames (pdoMappings pdoNumber) [] hmapped.objects
  have hfit := mappings_fit hnumber
  rw [carried_node]
  unfold emitTpdo
  rw [if_neg (not_not.mpr hnumber)]
  simp only [hread]
  rw [if_neg (by omega)]
  by_cases hoff : littleValue (bytesAfter id od frames (commIndex pdoNumber) 1) &&& 0x80000000 ≠ 0
  · rw [if_pos hoff]
    exact ⟨none,rfl,⟨fun _ => hoff,fun _ => rfl⟩,fun _ h => nomatch h⟩
  · rw [if_neg hoff]
    simp only [hgather,List.nil_append]
    rw [dif_pos (by omega)]
    refine ⟨_,rfl,⟨fun h => (nomatch h),fun h => absurd h hoff⟩,?_⟩
    intro frame hframe
    cases hframe
    exact ⟨rfl,rfl⟩

def mappedObjects : ObjectDictionary := fun index subIndex =>
  if 0x1800 ≤ index ∧ index ≤ 0x1805 ∧ subIndex = 1 then
    some ⟨4,.rw,[0,0,0,0xC0],rfl,by decide⟩
  else
    ((((List.range 6).flatMap fun n => pdoMappings (n+1)).find?
      fun entry => entryIndex entry = index ∧ entrySubIndex entry = subIndex).bind fun entry =>
        if entryBits entry = 8 then some ⟨1,.ro,[0],rfl,by decide⟩
        else some { sleepCommand with access := .ro })

theorem objects_mapped : Mapped mappedObjects 1 := by
  refine ⟨⟨_,rfl,rfl⟩,?_⟩
  intro entry hentry
  have hcases : entry = 0x48500008 ∨ entry = 0x48510008 ∨ entry = 0x48520010 ∨
      entry = 0x48530010 ∨ entry = 0x48540010 := by
    simpa [pdoMappings] using hentry
  rcases hcases with rfl | rfl | rfl | rfl | rfl <;> exact ⟨_,rfl,by decide⟩

theorem tpdo_follows_traffic_enabled :
    ∃ result, emitTpdo (carried ⟨mockNode namedNode mappedObjects,[]⟩
        [requestFrame namedNode 0x23 0x1800 1 [0xA3,0x01,0,0] (by decide)]).node 1 =
      .ok result ∧ ∀ frame, result = some frame → frame.cobId = 0x1A3 :=
  let ⟨result,hok,_,hframe⟩ := tpdo_follows_traffic namedNode mappedObjects
    [requestFrame namedNode 0x23 0x1800 1 [0xA3,0x01,0,0] (by decide)] 1
    (by decide) objects_mapped
  ⟨result,hok,fun frame h => (hframe frame h).1.trans (by decide)⟩

end CanopenReference.TransmitPdo
