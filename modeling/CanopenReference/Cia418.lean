import CanopenReference.Library.Fields

/-!
# Object access of the battery personality

`Cia418Reference_WriteObject` and `Cia418Reference_ReadObject` over an object
dictionary, whose entries and io functions belong to the stack. The access goes
through a 32-bit value, of which an entry has one to four bytes.
-/

set_option autoImplicit false

namespace CanopenReference.Cia418
open Library

inductive OdReturn where
  | ok
  | failed
  deriving DecidableEq

/-- What the stack hands out for an object: its length, whether it may be
written, and the io functions with the bytes and the count they return. -/
structure OdIo (σ : Type) where
  dataLength : ℕ
  sdoWritable : Bool
  read : Option (σ → ℕ → OdReturn × List UInt8 × ℕ)
  write : Option (σ → List UInt8 → σ × OdReturn × ℕ)

/-- The entries that are found, by index and sub-index. -/
abbrev ObjectDictionary (σ : Type) := UInt16 → UInt8 → Option (OdIo σ)

section Access
variable {σ : Type} (od : Option (ObjectDictionary σ)) (s : σ) (index : UInt16) (subIndex : UInt8)

def odEntry : Option (OdIo σ) := od.bind fun entries => entries index subIndex

def badLength (io : OdIo σ) : Bool := io.dataLength = 0 ∨ 4 < io.dataLength

def cia418ReadIo : Option UInt32 :=
  match odEntry od index subIndex with
  | none => none
  | some io =>
    if badLength io then none
    else
      match io.read with
      | none => none
      | some read =>
        let (result,bytes,countRead) := read s io.dataLength
        if result ≠ .ok ∨ countRead ≠ io.dataLength then none
        else some (UInt32.ofNat (littleValue (bytes++List.replicate (4-bytes.length) 0)))

def cia418WriteIo (value : UInt32) : σ × Bool :=
  match odEntry od index subIndex with
  | none => (s,false)
  | some io =>
    if badLength io then (s,false)
    else
      match io.write with
      | none => (s,false)
      | some write =>
        if !io.sdoWritable then (s,false)
        else
          let (s',result,countWritten) :=
            write s ((littleEndian 4 value.toNat).take io.dataLength)
          (s',result = .ok ∧ countWritten = io.dataLength)

/-- The state of the adapter is only asked for, `present`. -/
def cia418ReferenceWriteObject (present : Bool) (value : UInt32) : σ × Bool :=
  if !present then (s,false)
  else if index = 0x6080 ∧ 100 < value then (s,false)
  else cia418WriteIo od s index subIndex value

def cia418ReferenceReadObject (present : Bool) : Option UInt32 :=
  if !present then none else cia418ReadIo od s index subIndex

end Access

section Agreement
variable {σ : Type}

/-- The io functions copy the bytes of the object. -/
structure Copies (entries : ObjectDictionary σ) (memory : σ → UInt16 → UInt8 → List UInt8) :
    Prop where
  read : ∀ index subIndex io, entries index subIndex = some io → ∃ read, io.read = some read ∧
    ∀ s, read s io.dataLength = (.ok,memory s index subIndex,io.dataLength)
  write : ∀ index subIndex io write, entries index subIndex = some io → io.write = some write →
    ∀ s bytes, bytes.length = io.dataLength →
      (write s bytes).2 = (.ok,io.dataLength) ∧ memory (write s bytes).1 index subIndex = bytes

/-- The code finds nothing to refuse in the object. -/
def Accepted (entries : ObjectDictionary σ) (index : UInt16) (subIndex : UInt8) (value : UInt32)
    (io : OdIo σ) : Prop :=
  entries index subIndex = some io ∧ badLength io = false ∧ io.write ≠ none ∧
    io.sdoWritable = true ∧ ¬(index = 0x6080 ∧ 100 < value)

def Fits (io : OdIo σ) (value : UInt32) : Prop := value.toNat < 256^io.dataLength

/-- A write that returns true is read back, and a value that does not fit the
object is refused and changes nothing. -/
def Agrees (entries : ObjectDictionary σ) (s : σ) (index : UInt16) (subIndex : UInt8)
    (value : UInt32) : Prop :=
  let r := cia418ReferenceWriteObject (some entries) s index subIndex true value
  (r.2 = true →
    cia418ReferenceReadObject (some entries) r.1 index subIndex true = some value) ∧
  ∀ io, entries index subIndex = some io → ¬Fits io value → r = (s,false)

variable {entries : ObjectDictionary σ} {index : UInt16} {subIndex : UInt8} {value : UInt32}

theorem write_refused (s : σ) (h : ∀ io, ¬Accepted entries index subIndex value io) :
    cia418ReferenceWriteObject (some entries) s index subIndex true value = (s,false) := by
  unfold cia418ReferenceWriteObject cia418WriteIo
  rw [Bool.not_true,if_neg Bool.false_ne_true]
  split
  · rfl
  rename_i hvalue
  simp only [odEntry,Option.bind_some]
  cases hio : entries index subIndex with
  | none => rfl
  | some io =>
    simp only
    split
    · rfl
    rename_i hlength
    cases hwrite : io.write with
    | none => rfl
    | some write =>
      simp only
      split
      · rfl
      · rename_i hwritable
        refine absurd ⟨hio,by simpa using hlength,?_,by simpa using hwritable,hvalue⟩ (h io)
        rw [hwrite]
        simp

theorem write_accepted {memory : σ → UInt16 → UInt8 → List UInt8} (hcopies : Copies entries memory)
    (s : σ) {io : OdIo σ} (h : Accepted entries index subIndex value io) :
    let r := cia418ReferenceWriteObject (some entries) s index subIndex true value
    r.2 = true ∧ memory r.1 index subIndex = littleEndian io.dataLength value.toNat := by
  obtain ⟨hio,hlength,hwrite,hwritable,hvalue⟩ := h
  obtain ⟨write,hwrite⟩ := Option.ne_none_iff_exists'.mp hwrite
  have hle : io.dataLength ≤ 4 := by
    simp only [badLength,decide_eq_false_iff_not] at hlength
    omega
  have hbytes := little_take hle value.toNat
  obtain ⟨hresult,hmemory⟩ := hcopies.write index subIndex io write hio hwrite s
    (littleEndian io.dataLength value.toNat) (little_length _ _)
  intro r
  have hr : r = ((write s (littleEndian io.dataLength value.toNat)).1,true) := by
    simp only [r,cia418ReferenceWriteObject,cia418WriteIo,odEntry,Option.bind_some,hio,hlength,
      hwrite,hwritable,hbytes,Bool.not_true,Bool.false_eq_true,if_false,if_neg hvalue]
    rw [Prod.ext_iff]
    refine ⟨rfl,?_⟩
    simp [hresult]
  rw [hr]
  exact ⟨rfl,hmemory⟩

theorem read_stored {memory : σ → UInt16 → UInt8 → List UInt8} (hcopies : Copies entries memory)
    {s : σ} {io : OdIo σ} (hio : entries index subIndex = some io) (hlength : badLength io = false)
    {v : ℕ} (hmemory : memory s index subIndex = littleEndian io.dataLength v) :
    cia418ReferenceReadObject (some entries) s index subIndex true =
      some (UInt32.ofNat (v%256^io.dataLength)) := by
  obtain ⟨read,hread,hbytes⟩ := hcopies.read index subIndex io hio
  simp only [cia418ReferenceReadObject,cia418ReadIo,odEntry,Option.bind_some,hio,hlength,hread,
    hbytes,hmemory,Bool.not_true,Bool.false_eq_true,if_false,ne_eq,not_true_eq_false,or_self]
  rw [value_zeros,little_value]

/-- Writing and reading agree exactly when the value fits the object or the
object or the value is refused for another reason. -/
theorem agrees_iff {memory : σ → UInt16 → UInt8 → List UInt8} (hcopies : Copies entries memory)
    (s : σ) (index : UInt16) (subIndex : UInt8) (value : UInt32) :
    Agrees entries s index subIndex value ↔
      ∀ io, Accepted entries index subIndex value io → Fits io value := by
  constructor
  · intro hagrees io haccepted
    by_contra hfits
    have hrefused := hagrees.2 io haccepted.1 hfits
    have hwritten := (write_accepted hcopies s haccepted).1
    rw [hrefused] at hwritten
    cases hwritten
  · intro hfits
    by_cases haccepted : ∃ io, Accepted entries index subIndex value io
    · obtain ⟨io,haccepted⟩ := haccepted
      obtain ⟨-,hmemory⟩ := write_accepted hcopies s haccepted
      refine ⟨fun _ => ?_,fun io' hio' hwide => ?_⟩
      · rw [read_stored hcopies haccepted.1 haccepted.2.1 hmemory,
          Nat.mod_eq_of_lt (hfits io haccepted),UInt32.ofNat_toNat]
      · have hsame : io' = io := Option.some.inj (hio'.symm.trans haccepted.1)
        exact absurd (hfits io haccepted) (hsame ▸ hwide)
    · have hrefused := write_refused s (not_exists.mp haccepted)
      refine ⟨fun hwritten => ?_,fun _ _ _ => hrefused⟩
      rw [hrefused] at hwritten
      cases hwritten

end Agreement

/-- A dictionary with one object of one byte that may be written. -/
def chargerStatus : ObjectDictionary (List UInt8) := fun index subIndex =>
  if index = 0x6001 ∧ subIndex = 0 then
    some ⟨1,true,some fun s count => (.ok,s.take count,count),
      some fun _ bytes => (bytes,.ok,bytes.length)⟩
  else none

theorem charger_status_copies : Copies chargerStatus fun s _ _ => s.take 1 := by
  constructor
  · intro index subIndex io hio
    unfold chargerStatus at hio
    split at hio
    · cases hio
      exact ⟨_,rfl,fun s => rfl⟩
    · cases hio
  · intro index subIndex io write hio hwrite s bytes hbytes
    unfold chargerStatus at hio
    split at hio
    · cases hio
      cases hwrite
      exact ⟨Prod.ext rfl hbytes,List.take_of_length_le (Nat.le_of_eq hbytes)⟩
    · cases hio

theorem agrees_iff_status :
    Agrees chargerStatus [0] 0x6001 0 2 ↔
      ∀ io, Accepted chargerStatus 0x6001 0 2 io → Fits io 2 :=
  agrees_iff charger_status_copies [0] 0x6001 0 2

/-- A value of nine bits is accepted for an object of one byte and read back
without its top bit. -/
theorem wide_value_truncated :
    let r := cia418ReferenceWriteObject (some chargerStatus) [0] 0x6001 0 true 0x102
    r.2 = true ∧ cia418ReferenceReadObject (some chargerStatus) r.1 0x6001 0 true = some 2 ∧
      ¬Agrees chargerStatus [0] 0x6001 0 0x102 := by
  have hwritten : (cia418ReferenceWriteObject (some chargerStatus) [0] 0x6001 0 true 0x102).2 =
      true := by decide
  have hread : cia418ReferenceReadObject (some chargerStatus)
      (cia418ReferenceWriteObject (some chargerStatus) [0] 0x6001 0 true 0x102).1 0x6001 0 true =
        some 2 := by decide
  refine ⟨hwritten,hread,fun hagrees => ?_⟩
  have hback := hagrees.1 hwritten
  rw [hread] at hback
  cases hback

end CanopenReference.Cia418
