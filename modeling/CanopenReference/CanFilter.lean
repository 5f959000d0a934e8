import Mathlib.Data.List.Basic
import CanopenReference.Library.Pieces

/-!
# The acceptance filters

The acceptance list and the filter banks that `CANopenReference_ConfigureCanFilter`
writes. The slots left over in the last bank and in the diagnostic bank hold the
identifier 0, which is that of the network management commands.
-/

set_option autoImplicit false

namespace CanopenReference.CanFilter
open Library

def canFilterMaxIds : ℕ := 20

/-- The build configuration, whose diagnostic identifiers the build checks. -/
structure FilterBuild where
  udsRxCanId : UInt16
  udsTxCanId : UInt16
  cia302PeerNodeId : Option UInt8
  standard : udsRxCanId < 0x800 ∧ udsTxCanId < 0x800
  distinct : udsRxCanId ≠ udsTxCanId

def referenceBuild : FilterBuild := ⟨0x7E0,0x7E8,none,by decide,by decide⟩

/-- The COB-IDs of the object dictionary that the filters depend on. -/
structure CobIds where
  rpdo1400 : UInt32
  rpdo1401 : UInt32
  rpdo1402 : UInt32
  rpdo1403 : UInt32
  sdoClientToServerRx : UInt32
  sdoServerToClientRx : UInt32
  deriving DecidableEq

/-- The values of the generated object dictionary. -/
def generatedCobIds : CobIds :=
  ⟨0x80000200,0x80000300,0x80000400,0x80000500,0x00000600,0x80000000⟩

inductive FilterFifo where
  | canRxFifo0
  | canRxFifo1
  deriving DecidableEq

inductive FilterMode where
  | idMask
  | idList
  deriving DecidableEq

inductive FilterScale where
  | bits16
  | bits32
  deriving DecidableEq

structure BankFilter where
  filterBank : ℕ
  filterMode : FilterMode
  filterScale : FilterScale
  filterIdHigh : UInt16
  filterIdLow : UInt16
  filterMaskIdHigh : UInt16
  filterMaskIdLow : UInt16
  filterFifoAssignment : FilterFifo
  filterActivation : Bool
  slaveStartFilterBank : ℕ
  deriving DecidableEq

def canopenAcceptanceFilterAdd (ids : List UInt16) (capacity : ℕ) (id : UInt32) :
    Option (List UInt16) :=
  let id := id &&& 0x07FF
  if id = 0x7FF then none
  else if ids.any fun known => known.toUInt32 = id then some ids
  else if capacity ≤ ids.length then none
  else some (ids++[id.toUInt16])

def filterAdd (ids : List UInt16) (id : UInt16) : Option (List UInt16) :=
  canopenAcceptanceFilterAdd ids canFilterMaxIds id.toUInt32

def usedCobId (cobId : UInt32) : List UInt16 :=
  if cobId &&& 0x80000000 = 0 then [cobId.toUInt16] else []

def requestedIds (build : FilterBuild) (nodeId : UInt8) (od : CobIds) : List UInt16 :=
  [0x000,0x080,0x100,0x080+nodeId.toUInt16]++
    usedCobId od.rpdo1400++usedCobId od.rpdo1401++usedCobId od.rpdo1402++usedCobId od.rpdo1403++
    usedCobId od.sdoClientToServerRx++usedCobId od.sdoServerToClientRx++
    [0x700+nodeId.toUInt16]++
    (build.cia302PeerNodeId.map fun peer => 0x700+peer.toUInt16).toList++[0x7E4,0x7E5]

def acceptanceList (build : FilterBuild) (nodeId : UInt8) (od : CobIds) : Option (List UInt16) :=
  (requestedIds build nodeId od).foldlM filterAdd []

def listBank (bank : ℕ) (fifo : FilterFifo) (slot0 slot1 slot2 slot3 : UInt16) : BankFilter where
  filterBank := bank
  filterMode := .idList
  filterScale := .bits16
  filterIdHigh := slot0 <<< 5
  filterIdLow := slot1 <<< 5
  filterMaskIdHigh := slot2 <<< 5
  filterMaskIdLow := slot3 <<< 5
  filterFifoAssignment := fifo
  filterActivation := true
  slaveStartFilterBank := 14

def canopenBank (ids : List UInt16) (bank : ℕ) : BankFilter :=
  let base := bank*4
  listBank bank .canRxFifo0 (ids.getD base 0) (ids.getD (base+1) 0) (ids.getD (base+2) 0)
    (ids.getD (base+3) 0)

def udsBank (build : FilterBuild) (count : ℕ) : BankFilter :=
  listBank ((count+3)/4) .canRxFifo1 build.udsRxCanId build.udsTxCanId 0 0

def writeBanks (halCanConfigFilter : BankFilter → Bool) : List BankFilter → Bool × List BankFilter
  | [] => (true,[])
  | filter::filters =>
    if halCanConfigFilter filter then
      let rest := writeBanks halCanConfigFilter filters
      (rest.1,filter::rest.2)
    else (false,[])

/-- What the call returns, and the banks that it has written. -/
def configureCanFilter (build : FilterBuild) (halCanConfigFilter : BankFilter → Bool)
    (canHandle : Bool) (nodeId : UInt8) (od : CobIds) : Bool × List BankFilter :=
  if !canHandle ∨ nodeId = 0 ∨ 127 < nodeId then (false,[])
  else
    match acceptanceList build nodeId od with
    | none => (false,[])
    | some ids =>
      let count := ids.length
      let written := writeBanks halCanConfigFilter
        ((List.range ((count+3)/4)).map (canopenBank ids)++[udsBank build count])
      (written.1 && count ≠ 0,written.2)

def Matches (filter : BankFilter) (id : UInt16) : Prop :=
  filter.filterActivation = true ∧ filter.filterMode = .idList ∧ filter.filterScale = .bits16 ∧
    id <<< 5 ∈ [filter.filterIdHigh,filter.filterIdLow,filter.filterMaskIdHigh,
      filter.filterMaskIdLow]

instance matchesDecidable (filter : BankFilter) (id : UInt16) : Decidable (Matches filter id) :=
  inferInstanceAs (Decidable (_ ∧ _))

/-- Some bank that leads to the queue lets the identifier through. -/
def Reaches (fifo : FilterFifo) (written : List BankFilter) (id : UInt16) : Prop :=
  ∃ filter ∈ written, filter.filterFifoAssignment = fifo ∧ Matches filter id

instance reachesDecidable (fifo : FilterFifo) (written : List BankFilter) (id : UInt16) :
    Decidable (Reaches fifo written id) := inferInstanceAs (Decidable (∃ _ ∈ _, _))

/-- The acceptance list goes to the first queue, the diagnostic identifiers to
the second one, and no identifier to both. -/
structure Exact (build : FilterBuild) (ids : List UInt16) (written : List BankFilter) : Prop where
  fifo0 : ∀ id, id < 0x800 → (Reaches .canRxFifo0 written id ↔ id ∈ ids)
  fifo1 : ∀ id, id < 0x800 →
    (Reaches .canRxFifo1 written id ↔ id = build.udsRxCanId ∨ id = build.udsTxCanId)
  disjoint : build.udsRxCanId ∉ ids → build.udsTxCanId ∉ ids → ∀ id, id < 0x800 →
    ¬(Reaches .canRxFifo0 written id ∧ Reaches .canRxFifo1 written id)

section List
variable {ids next : List UInt16}

theorem masked_standard (id : UInt32) : (id &&& 0x07FF).toUInt16 < 0x800 := by
  rw [UInt16.lt_iff_toNat_lt,UInt32.toNat_toUInt16,UInt32.toNat_and]
  have hle : id.toNat &&& 0x7FF ≤ 0x7FF := Nat.and_le_right
  exact Nat.lt_of_le_of_lt (Nat.mod_le _ _) (Nat.lt_succ_of_le hle)

theorem add_cases {id : UInt16} (h : filterAdd ids id = some next) :
    next = ids ∨ ∃ added, added < 0x800 ∧ next = ids++[added] := by
  unfold filterAdd canopenAcceptanceFilterAdd at h
  simp only at h
  split at h
  · cases h
  split at h
  · cases h
    exact Or.inl rfl
  split at h
  · cases h
  · cases h
    exact Or.inr ⟨_,masked_standard _,rfl⟩

def Standard (ids : List UInt16) : Prop := (∀ id ∈ ids, id < 0x800) ∧ 0 ∈ ids

theorem add_standard {id : UInt16} (h : filterAdd ids id = some next) (hids : Standard ids) :
    Standard next := by
  rcases add_cases h with rfl | ⟨added,hadded,rfl⟩
  · exact hids
  · refine ⟨fun x hx => ?_,List.mem_append_left _ hids.2⟩
    rcases List.mem_append.mp hx with hx | hx
    · exact hids.1 x hx
    · rw [List.mem_singleton.mp hx]
      exact hadded

theorem adds_standard (requested : List UInt16) (h : requested.foldlM filterAdd ids = some next)
    (hids : Standard ids) : Standard next := by
  induction requested generalizing ids with
  | nil =>
    cases h
    exact hids
  | cons id requested ih =>
    rw [List.foldlM_cons] at h
    obtain ⟨middle,hadd,hrest⟩ := Option.bind_eq_some_iff.mp h
    exact ih hrest (add_standard hadd hids)

theorem accepted_standard {build : FilterBuild} {nodeId : UInt8} {od : CobIds}
    (h : acceptanceList build nodeId od = some ids) : Standard ids := by
  have hfirst : filterAdd [] 0x000 = some [0x000] := by decide
  have hsplit : ∃ rest, requestedIds build nodeId od = 0x000::rest := ⟨_,rfl⟩
  obtain ⟨rest,hrest⟩ := hsplit
  rw [acceptanceList,hrest,List.foldlM_cons,hfirst] at h
  refine adds_standard rest h ⟨fun x hx => ?_,List.mem_singleton.mpr rfl⟩
  rw [List.mem_singleton.mp hx]
  decide

end List

section Banks
variable {ids : List UInt16} {id : UInt16}

theorem encoded_injective {a b : UInt16} (ha : a < 0x800) (hb : b < 0x800) :
    a <<< 5 = b <<< 5 ↔ a = b := by
  refine ⟨fun h => ?_,fun h => by rw [h]⟩
  have hnat := congrArg UInt16.toNat h
  rw [UInt16.toNat_shiftLeft,UInt16.toNat_shiftLeft] at hnat
  rw [UInt16.lt_iff_toNat_lt] at ha hb
  change a.toNat < 2048 at ha
  change b.toNat < 2048 at hb
  rw [Nat.shiftLeft_eq,Nat.shiftLeft_eq] at hnat
  change a.toNat*2^5%2^16 = b.toNat*2^5%2^16 at hnat
  exact UInt16.toNat_inj.mp (by omega)

theorem bank_matches {slot0 slot1 slot2 slot3 : UInt16} (bank : ℕ) (fifo : FilterFifo)
    (hid : id < 0x800) (h0 : slot0 < 0x800) (h1 : slot1 < 0x800) (h2 : slot2 < 0x800)
    (h3 : slot3 < 0x800) :
    Matches (listBank bank fifo slot0 slot1 slot2 slot3) id ↔
      id = slot0 ∨ id = slot1 ∨ id = slot2 ∨ id = slot3 := by
  simp [Matches,listBank,encoded_injective hid h0,encoded_injective hid h1,
    encoded_injective hid h2,encoded_injective hid h3]

theorem slot_standard (hids : ∀ id ∈ ids, id < 0x800) (n : ℕ) : ids.getD n 0 < 0x800 := by
  by_cases hn : n < ids.length
  · rw [List.getD_eq_getElem _ _ hn]
    exact hids _ (List.getElem_mem hn)
  · rw [List.getD_eq_default _ _ (Nat.not_lt.mp hn)]
    decide

theorem canopen_bank_matches (hids : ∀ id ∈ ids, id < 0x800) (hid : id < 0x800) (bank : ℕ) :
    Matches (canopenBank ids bank) id ↔ ∃ slot < 4, ids.getD (bank*4+slot) 0 = id := by
  have hslot := slot_standard hids
  rw [canopenBank,bank_matches bank _ hid (hslot _) (hslot _) (hslot _) (hslot _)]
  constructor
  · rintro (h | h | h | h)
    · exact ⟨0,by decide,h.symm⟩
    · exact ⟨1,by decide,h.symm⟩
    · exact ⟨2,by decide,h.symm⟩
    · exact ⟨3,by decide,h.symm⟩
  · rintro ⟨slot,hlt,rfl⟩
    have hslots : slot = 0 ∨ slot = 1 ∨ slot = 2 ∨ slot = 3 := by omega
    rcases hslots with rfl | rfl | rfl | rfl
    · exact Or.inl rfl
    · exact Or.inr (Or.inl rfl)
    · exact Or.inr (Or.inr (Or.inl rfl))
    · exact Or.inr (Or.inr (Or.inr rfl))

def allBanks (build : FilterBuild) (ids : List UInt16) : List BankFilter :=
  (List.range ((ids.length+3)/4)).map (canopenBank ids)++[udsBank build ids.length]

theorem fifo0_exact (build : FilterBuild) (hids : Standard ids) (hid : id < 0x800) :
    Reaches .canRxFifo0 (allBanks build ids) id ↔ id ∈ ids := by
  have hslots := slot_mem (by decide : 0 < 4) 0 id ids
  have hbank : Reaches .canRxFifo0 (allBanks build ids) id ↔
      ∃ bank < (ids.length+3)/4, ∃ slot < 4, ids.getD (bank*4+slot) 0 = id := by
    constructor
    · rintro ⟨filter,hfilter,hfifo,hmatches⟩
      rcases List.mem_append.mp hfilter with hfilter | hfilter
      · obtain ⟨bank,hbank,rfl⟩ := List.mem_map.mp hfilter
        exact ⟨bank,List.mem_range.mp hbank,(canopen_bank_matches hids.1 hid bank).mp hmatches⟩
      · rw [List.mem_singleton.mp hfilter] at hfifo
        cases hfifo
    · rintro ⟨bank,hbank,hslot⟩
      exact ⟨canopenBank ids bank,
        List.mem_append_left _ (List.mem_map.mpr ⟨bank,List.mem_range.mpr hbank,rfl⟩),rfl,
        (canopen_bank_matches hids.1 hid bank).mpr hslot⟩
  rw [hbank]
  refine hslots.trans ⟨?_,Or.inl⟩
  rintro (h | ⟨hzero,-⟩)
  · exact h
  · -- The filler is an identifier of the list.
    rw [hzero]
    exact hids.2

theorem fifo1_matched (build : FilterBuild) (ids : List UInt16) (hid : id < 0x800) :
    Reaches .canRxFifo1 (allBanks build ids) id ↔
      id = build.udsRxCanId ∨ id = build.udsTxCanId ∨ id = 0 := by
  have hmatches : Matches (udsBank build ids.length) id ↔
      id = build.udsRxCanId ∨ id = build.udsTxCanId ∨ id = 0 ∨ id = 0 :=
    bank_matches _ _ hid build.standard.1 build.standard.2 (by decide) (by decide)
  rw [or_self] at hmatches
  rw [← hmatches]
  constructor
  · rintro ⟨filter,hfilter,hfifo,hm⟩
    rcases List.mem_append.mp hfilter with hfilter | hfilter
    · obtain ⟨bank,-,rfl⟩ := List.mem_map.mp hfilter
      cases hfifo
    · rw [List.mem_singleton.mp hfilter] at hm
      exact hm
  · intro hm
    exact ⟨_,List.mem_append_right _ (List.mem_singleton.mpr rfl),rfl,hm⟩

theorem write_all {hal : BankFilter → Bool} {filters : List BankFilter}
    (h : (writeBanks hal filters).1 = true) : (writeBanks hal filters).2 = filters := by
  induction filters with
  | nil => rfl
  | cons filter filters ih =>
    unfold writeBanks at h ⊢
    split at h
    · rename_i hok
      rw [if_pos hok]
      exact congrArg (filter::·) (ih h)
    · cases h

theorem configure_written {build : FilterBuild} {hal : BankFilter → Bool} {canHandle : Bool}
    {nodeId : UInt8} {od : CobIds}
    (h : (configureCanFilter build hal canHandle nodeId od).1 = true) :
    ∃ ids, acceptanceList build nodeId od = some ids ∧
      (configureCanFilter build hal canHandle nodeId od).2 = allBanks build ids := by
  unfold configureCanFilter at h ⊢
  split at h
  · cases h
  rename_i hcalled
  rw [if_neg hcalled]
  cases hids : acceptanceList build nodeId od with
  | none =>
    rw [hids] at h
    cases h
  | some ids =>
    rw [hids] at h
    simp only [Bool.and_eq_true] at h
    exact ⟨ids,rfl,write_all h.1⟩

end Banks

/-- The filters are exact after a successful call exactly when a diagnostic
identifier is 0, that of the network management commands. -/
theorem exact_filters_iff (build : FilterBuild) (hal : BankFilter → Bool) (canHandle : Bool)
    (nodeId : UInt8) (od : CobIds)
    (h : (configureCanFilter build hal canHandle nodeId od).1 = true) :
    (∃ ids, acceptanceList build nodeId od = some ids ∧
        Exact build ids (configureCanFilter build hal canHandle nodeId od).2) ↔
      build.udsRxCanId = 0 ∨ build.udsTxCanId = 0 := by
  obtain ⟨ids,hids,hwritten⟩ := configure_written h
  have hstandard := accepted_standard hids
  rw [hwritten]
  constructor
  · rintro ⟨ids',hids',hexact⟩
    rw [hids] at hids'
    cases hids'
    have hzero : Reaches .canRxFifo1 (allBanks build ids) 0 :=
      (fifo1_matched build ids (by decide)).mpr (Or.inr (Or.inr rfl))
    exact ((hexact.fifo1 0 (by decide)).mp hzero).imp Eq.symm Eq.symm
  · intro hzero
    refine ⟨ids,hids,⟨fun id hid => fifo0_exact build hstandard hid,fun id hid => ?_,
      fun hrx htx => ?_⟩⟩
    · rw [fifo1_matched build ids hid]
      refine ⟨?_,fun hc => hc.imp (fun hrx => hrx) Or.inl⟩
      rintro (hc | hc | rfl)
      · exact Or.inl hc
      · exact Or.inr hc
      · exact hzero.imp Eq.symm Eq.symm
    · rcases hzero with hzero | hzero
      · rw [hzero] at hrx
        exact absurd hstandard.2 hrx
      · rw [hzero] at htx
        exact absurd hstandard.2 htx

theorem exact_filters_reference :
    (configureCanFilter referenceBuild (fun _ => true) true 10 generatedCobIds).1 = true ∧
      ((∃ ids, acceptanceList referenceBuild 10 generatedCobIds = some ids ∧
        Exact referenceBuild ids
          (configureCanFilter referenceBuild (fun _ => true) true 10 generatedCobIds).2) ↔
        referenceBuild.udsRxCanId = 0 ∨ referenceBuild.udsTxCanId = 0) :=
  ⟨by decide,exact_filters_iff referenceBuild (fun _ => true) true 10 generatedCobIds (by decide)⟩

/-- With the identifiers of the reference, both queues match the commands. -/
theorem commands_in_both :
    (¬∀ hal nodeId od,
        (configureCanFilter referenceBuild hal true nodeId od).1 = true →
          ∃ ids, acceptanceList referenceBuild nodeId od = some ids ∧
            Exact referenceBuild ids (configureCanFilter referenceBuild hal true nodeId od).2) ∧
      let written := (configureCanFilter referenceBuild (fun _ => true) true 10 generatedCobIds).2
      Reaches .canRxFifo0 written 0 ∧ Reaches .canRxFifo1 written 0 := by
  have hboth : Reaches .canRxFifo0
        (configureCanFilter referenceBuild (fun _ => true) true 10 generatedCobIds).2 0 ∧
      Reaches .canRxFifo1
        (configureCanFilter referenceBuild (fun _ => true) true 10 generatedCobIds).2 0 := by
    decide
  refine ⟨fun h => ?_,hboth⟩
  obtain ⟨ids,-,hexact⟩ := h (fun _ => true) 10 generatedCobIds (by decide)
  have hdiagnostic := (hexact.fifo1 0 (by decide)).mp hboth.2
  exact absurd hdiagnostic (by decide)

end CanopenReference.CanFilter
