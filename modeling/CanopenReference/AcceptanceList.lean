import CanopenReference.CanFilter
import CanopenReference.Library.Firsts
import CanopenReference.Library.Runs

/-!
# The acceptance list over a sequence of calls

`CANopenAcceptanceFilter_Add` again and again on one list. Whatever the calls,
the list is the front of the identifiers asked for, without their repetitions.
-/

set_option autoImplicit false

namespace CanopenReference.AcceptanceList
open Library Library.Runs CanFilter

/-- One call, which leaves the list alone where it refuses. The event is what it
returns. -/
def addStep (capacity : ℕ) (ids : List UInt16) (id : UInt32) : List UInt16 × List Bool :=
  match canopenAcceptanceFilterAdd ids capacity id with
  | some next => (next,[true])
  | none => (ids,[false])

def masked (id : UInt32) : UInt16 := (id &&& 0x07FF).toUInt16

def wanted (calls : List UInt32) : List UInt16 := (calls.map masked).filter (· ≠ 0x7FF)

theorem wanted_concat (calls : List UInt32) (id : UInt32) :
    wanted (calls++[id]) = if masked id = 0x7FF then wanted calls else wanted calls++[masked id] := by
  by_cases h : masked id = 0x7FF <;> simp [wanted,h]

theorem masked_word (id : UInt32) : (masked id).toUInt32 = id &&& 0x07FF := by
  have hle : id.toNat &&& 0x7FF ≤ 0x7FF := Nat.and_le_right
  apply UInt32.toNat_inj.mp
  rw [masked,UInt16.toNat_toUInt32,UInt32.toNat_toUInt16,UInt32.toNat_and]
  exact Nat.mod_eq_of_lt (Nat.lt_of_le_of_lt hle (by decide))

theorem word_eq (known : UInt16) (id : UInt32) :
    known.toUInt32 = id &&& 0x07FF ↔ known = masked id := by
  rw [← masked_word,← UInt32.toNat_inj,UInt16.toNat_toUInt32,UInt16.toNat_toUInt32,UInt16.toNat_inj]

theorem reserved_word (id : UInt32) : id &&& 0x07FF = 0x7FF ↔ masked id = 0x7FF := by
  have h := word_eq 0x7FF id
  constructor
  · intro hid
    exact (h.mp hid.symm).symm
  · intro hid
    exact (h.mpr hid.symm).symm

theorem add_step (capacity : ℕ) (ids : List UInt16) (id : UInt32) :
    addStep capacity ids id =
      if masked id = 0x7FF then (ids,[false])
      else if masked id ∈ ids then (ids,[true])
      else if capacity ≤ ids.length then (ids,[false])
      else (ids++[masked id],[true]) := by
  have hany : (ids.any fun known => decide (known.toUInt32 = id &&& 0x07FF)) = true ↔
      masked id ∈ ids := by
    simp only [List.any_eq_true,decide_eq_true_eq,word_eq]
    exact exists_eq_right
  unfold addStep canopenAcceptanceFilterAdd
  simp only [reserved_word,hany]
  by_cases hr : masked id = 0x7FF
  · simp only [hr,if_true]
  by_cases hm : masked id ∈ ids
  · simp only [hr,hm,if_false,if_true]
  by_cases hf : capacity ≤ ids.length
  · simp only [hr,hm,hf,if_false,if_true]
  · simp only [hr,hm,hf,if_false]
    rfl

def listed (capacity : ℕ) (calls : List UInt32) : List UInt16 :=
  (run (addStep capacity) [] calls).1

theorem listed_concat (capacity : ℕ) (calls : List UInt32) (id : UInt32) :
    listed capacity (calls++[id]) = (addStep capacity (listed capacity calls) id).1 := by
  rw [listed,run_concat]
  rfl

theorem list_firsts (capacity : ℕ) (calls : List UInt32) :
    listed capacity calls = firsts capacity (wanted calls) := by
  induction calls using List.reverseRecOn with
  | nil => simp [listed,firsts,wanted]
  | append_singleton calls id ih =>
    rw [listed_concat,wanted_concat,ih,add_step]
    by_cases hr : masked id = 0x7FF
    · rw [if_pos hr,if_pos hr]
    rw [if_neg hr,if_neg hr,firsts_concat]
    by_cases hm : masked id ∈ firsts capacity (wanted calls)
    · rw [if_pos hm,if_pos (Or.inl hm)]
    by_cases hf : capacity ≤ (firsts capacity (wanted calls)).length
    · rw [if_neg hm,if_pos hf,if_pos (Or.inr hf)]
    · rw [if_neg hm,if_neg hf,if_neg (not_or.mpr ⟨hm,hf⟩)]

theorem listed_standard {capacity : ℕ} {calls : List UInt32} {id : UInt16}
    (h : id ∈ listed capacity calls) : id < 0x800 ∧ id ≠ 0x7FF := by
  rw [list_firsts] at h
  obtain ⟨hmem,hne⟩ := List.mem_filter.mp (firsts_mem h)
  obtain ⟨call,_,rfl⟩ := List.mem_map.mp hmem
  exact ⟨masked_standard call,of_decide_eq_true hne⟩

theorem listed_front (capacity : ℕ) (calls later : List UInt32) :
    listed capacity calls <+: listed capacity (calls++later) := by
  have h := firsts_front capacity (wanted calls) (wanted later)
  rw [list_firsts,list_firsts]
  simpa [wanted] using h

theorem add_result {capacity : ℕ} {ids : List UInt16} (h : ∀ known ∈ ids, known ≠ 0x7FF)
    (id : UInt32) :
    (addStep capacity ids id).2 = [decide (masked id ∈ (addStep capacity ids id).1)] := by
  rw [add_step]
  by_cases hr : masked id = 0x7FF
  · have hm : masked id ∉ ids := fun hmem => h _ hmem hr
    simp [hr,hr ▸ hm]
  by_cases hm : masked id ∈ ids
  · simp [hr,hm]
  by_cases hf : capacity ≤ ids.length
  · simp [hr,hm,hf]
  · simp [hr,hm,hf]

/-- No repetition, standard identifiers other than the reserved one, and no more
than there is room for. -/
structure WellFormed (capacity : ℕ) (ids : List UInt16) : Prop where
  distinct : ids.Nodup
  standard : ∀ known ∈ ids, known < 0x800 ∧ known ≠ 0x7FF
  bounded : ids.length ≤ capacity

theorem listed_well_formed (capacity : ℕ) (calls : List UInt32) :
    WellFormed capacity (listed capacity calls) where
  distinct := by
    rw [list_firsts]
    exact firsts_nodup capacity _
  standard := fun _ hknown => listed_standard hknown
  bounded := by
    rw [list_firsts]
    exact firsts_length capacity _

/-- After any calls the list is well formed. Later calls leave it as the front of
theirs, and the next one returns whether its identifier is in the list then. -/
theorem acceptance_list_kept (capacity : ℕ) (calls later : List UInt32) (id : UInt32) :
    WellFormed capacity (listed capacity calls) ∧
      listed capacity calls <+: listed capacity (calls++later) ∧
      (addStep capacity (listed capacity calls) id).2 =
        [decide (masked id ∈ listed capacity (calls++[id]))] := by
  refine ⟨listed_well_formed capacity calls,listed_front capacity calls later,?_⟩
  rw [listed_concat]
  exact add_result (fun known hknown => (listed_standard hknown).2) id

/-- A listed identifier is found in the full list. -/
example : addStep 2 [0x080,0x100] 0x880 = ([0x080,0x100],[true]) := by decide

end CanopenReference.AcceptanceList
