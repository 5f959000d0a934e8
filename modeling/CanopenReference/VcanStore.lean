import CanopenReference.Library.History
import CanopenReference.VcanReads

/-!
# What the objects of the vcan device hold

Every object holds what the last completed write brought: an expedited download,
all segments of a segmented one since it was opened, or a receive PDO. Which
writes are complete is read from the frames on the bus and the answers to them.
-/

set_option autoImplicit false

namespace CanopenReference.VcanStore
open Library Library.Runs Library.History MockCanopen VcanDevice VcanReads

section Wire
variable (nodeId : NodeId)

/-- The SDO request of an exchange. -/
def requested (x : Exchange) : Option Frame :=
  match x.input with
  | .beat => none
  | .frame f => if f.cobId = 0x600+nodeId.1 ∧ f.data.length = 8 then some f else none

def answerOf (x : Exchange) : UInt8 :=
  match x.answers with
  | [f] => byteOf f 0
  | _ => 0

def addressed (f : Frame) : Key := (indexOf f,byteOf f 3)

def carriedBytes (f : Frame) : List UInt8 :=
  ((f.data.take 8).drop 1).take (7-((byteOf f 0 >>> 1) &&& 0x07).toNat)

def expeditedBytes (f : Frame) : List UInt8 :=
  ((f.data.take 8).drop 4).take (4-((byteOf f 0 >>> 2) &&& 0x03).toNat)

def opened (x : Exchange) : Option Key :=
  match requested nodeId x with
  | none => none
  | some f =>
    if byteOf f 0 &&& 0xE0 = 0x20 ∧ byteOf f 0 &&& 0x02 = 0 ∧ answerOf x = 0x60 then
      some (addressed f)
    else none

def fragment (x : Exchange) : List UInt8 :=
  match requested nodeId x with
  | none => []
  | some f => if byteOf f 0 &&& 0xE0 = 0x00 ∧ answerOf x ≠ 0 then carriedBytes f else []

def gathered (past : List Exchange) : List UInt8 :=
  (since (fun x => (opened nodeId x).isSome) past).flatMap (fragment nodeId)

def completed (past : List Exchange) (x : Exchange) : Option (Key × List UInt8) :=
  match x.input with
  | .beat => none
  | .frame f =>
    if f.cobId = 0x200+nodeId.1 ∧ 2 ≤ f.data.length then some ((0x6200,1),f.data.take 2)
    else
      match requested nodeId x with
      | none => none
      | some f =>
        if byteOf f 0 &&& 0xE0 = 0x20 ∧ byteOf f 0 &&& 0x02 ≠ 0 ∧ answerOf x = 0x60 then
          some (addressed f,expeditedBytes f)
        else if byteOf f 0 &&& 0xE0 = 0x00 ∧ byteOf f 0 &&& 0x01 ≠ 0 ∧
            answerOf x &&& 0xE0 = 0x20 then
          (latest (opened nodeId) past).map fun key =>
            (key,gathered nodeId past++fragment nodeId x)
        else none

def writesFrom (past : List Exchange) : List Exchange → List (Key × List UInt8)
  | [] => []
  | x::xs => (completed nodeId past x).toList++writesFrom (past++[x]) xs

def writes (history : List Exchange) : List (Key × List UInt8) := writesFrom nodeId [] history

theorem writes_from_concat (past xs : List Exchange) (x : Exchange) :
    writesFrom nodeId past (xs++[x]) =
      writesFrom nodeId past xs++(completed nodeId (past++xs) x).toList := by
  induction xs generalizing past with
  | nil => simp [writesFrom]
  | cons y xs ih => simp [writesFrom,ih,List.append_assoc]

theorem writes_concat (history : List Exchange) (x : Exchange) :
    writes nodeId (history++[x]) =
      writes nodeId history++(completed nodeId history x).toList :=
  writes_from_concat nodeId [] history x

end Wire

/-- What a written object is read as: a mapping count in one byte, a mapping entry
in four. -/
def storedBytes (key : Key) (bytes : List UInt8) : Except PyError (Option (List UInt8)) :=
  if key.1 = 0x1600 then
    (toBytes (if key.2 = 0 then 1 else 4) (littleValue bytes)).map some
  else .ok (some bytes)

def writtenTo (key : Key) (w : Key × List UInt8) : Option (List UInt8) :=
  if w.1 = key then some w.2 else none

/-- What an object is read as behind a history. -/
def readAs (d₀ : Device) (key : Key) (history : List Exchange) :
    Except PyError (Option (List UInt8)) :=
  match latest (writtenTo key) (writes d₀.nodeId history) with
  | none => value d₀ key
  | some bytes => storedBytes key bytes

section Tables
variable {d : Device} {key : Key} {bytes : List UInt8}

/-- Only the mapping record is in the mapping table. -/
def Mapped (d : Device) : Prop := ∀ key, d.mapping key ≠ none → key.1 = 0x1600

theorem write_effect (h : Mapped d) :
    ((writeValue d key bytes).2 = false ∧ (writeValue d key bytes).1 = d) ∨
      ((writeValue d key bytes).2 = true ∧ Mapped (writeValue d key bytes).1 ∧
        ∀ k, value (writeValue d key bytes).1 k =
          if k = key then storedBytes key bytes else value d k) := by
  unfold writeValue
  split
  · exact Or.inl ⟨rfl,rfl⟩
  split
  · rename_i hindex
    split
    · exact Or.inl ⟨rfl,rfl⟩
    refine Or.inr ⟨rfl,fun k hk => ?_,fun k => ?_⟩
    · by_cases hself : k = key
      · rw [hself]
        exact hindex
      · exact h k fun hc => hk ((if_neg hself).trans hc)
    · by_cases hself : k = key
      · rw [if_pos hself,storedBytes,if_pos hindex,hself]
        simp only [value,update,if_pos]
      · rw [if_neg hself]
        simp only [value,update,if_neg hself]
  · rename_i hindex
    refine Or.inr ⟨rfl,h,fun k => ?_⟩
    by_cases hself : k = key
    · rw [if_pos hself,storedBytes,if_neg hindex,hself]
      have hnone : d.mapping key = none := by
        by_contra hc
        exact hindex (h key hc)
      simp only [value,hnone,update,if_pos]
    · rw [if_neg hself]
      simp only [value,update,if_neg hself]

theorem write_transfers :
    (writeValue d key bytes).1.nodeId = d.nodeId ∧
      (writeValue d key bytes).1.segmentIndex = d.segmentIndex ∧
        (writeValue d key bytes).1.segmentDownload = d.segmentDownload := by
  unfold writeValue
  split
  · exact ⟨rfl,rfl,rfl⟩
  split
  · split
    · exact ⟨rfl,rfl,rfl⟩
    · exact ⟨rfl,rfl,rfl⟩
  · exact ⟨rfl,rfl,rfl⟩

end Tables

/-- Everything an input can do to the transfer that is open and to the objects,
told from the frames. -/
inductive Effect (nodeId : NodeId) (d : Device) (x : Exchange) (d' : Device) : Prop where
  | quiet (hindex : d'.segmentIndex = d.segmentIndex)
      (hdownload : d'.segmentDownload = d.segmentDownload)
      (hvalue : ∀ k, value d' k = value d k) (hopened : opened nodeId x = none)
      (hfragment : d.segmentIndex = none ∨ fragment nodeId x = [])
      (hcompleted : ∀ past, completed nodeId past x = none)
  | opens (key : Key) (hindex : d'.segmentIndex = some key)
      (hdownload : d'.segmentDownload = []) (hvalue : ∀ k, value d' k = value d k)
      (hopened : opened nodeId x = some key)
      (hcompleted : ∀ past, completed nodeId past x = none)
  | gathers (hindex : d'.segmentIndex = d.segmentIndex)
      (hdownload : d'.segmentDownload = d.segmentDownload++fragment nodeId x)
      (hvalue : ∀ k, value d' k = value d k) (hopened : opened nodeId x = none)
      (hcompleted : ∀ past, completed nodeId past x = none)
  | writes (key : Key) (bytes : List UInt8) (hindex : d'.segmentIndex = d.segmentIndex)
      (hdownload : d'.segmentDownload = d.segmentDownload)
      (hvalue : ∀ k, value d' k = if k = key then storedBytes key bytes else value d k)
      (hopened : opened nodeId x = none) (hfragment : fragment nodeId x = [])
      (hcompleted : ∀ past, completed nodeId past x = some (key,bytes))
  | refuses (hindex : d'.segmentIndex = none)
      (hvalue : ∀ k, value d' k = value d k) (hopened : opened nodeId x = none)
      (hcompleted : ∀ past, completed nodeId past x = none)
  | closes (key : Key) (hold : d.segmentIndex = some key)
      (hindex : d'.segmentIndex = none)
      (hvalue : ∀ k, value d' k =
        if k = key then storedBytes key (d.segmentDownload++fragment nodeId x) else value d k)
      (hopened : opened nodeId x = none)
      (hcompleted : ∀ past, completed nodeId past x = (latest (opened nodeId) past).map
        fun key => (key,gathered nodeId past++fragment nodeId x))

section History
variable {nodeId : NodeId} {d₀ d d' : Device} {past : List Exchange} {x : Exchange}

structure Follows (d₀ d : Device) (past : List Exchange) : Prop where
  nodeId : d.nodeId = d₀.nodeId
  mapped : Mapped d
  transfer : ∀ key, d.segmentIndex = some key →
    latest (opened d₀.nodeId) past = some key ∧ d.segmentDownload = gathered d₀.nodeId past
  objects : ∀ key, value d key = readAs d₀ key past

theorem gathered_concat (h : opened nodeId x = none) :
    gathered nodeId (past++[x]) = gathered nodeId past++fragment nodeId x := by
  have hmark : ¬(opened nodeId x).isSome = true := by
    rw [h]
    exact Bool.false_ne_true
  rw [gathered,gathered,since_concat,if_neg hmark,List.flatMap_append,List.flatMap_singleton]

theorem gathered_opened (h : (opened nodeId x).isSome = true) : gathered nodeId (past++[x]) = [] := by
  rw [gathered,since_concat,if_pos h,List.flatMap_nil]

theorem read_concat (key : Key) :
    readAs d₀ key (past++[x]) =
      match completed d₀.nodeId past x with
      | none => readAs d₀ key past
      | some w => if key = w.1 then storedBytes w.1 w.2 else readAs d₀ key past := by
  unfold readAs
  rw [writes_concat]
  cases completed d₀.nodeId past x with
  | none => rw [Option.toList_none,List.append_nil]
  | some w =>
    rw [Option.toList_some,latest_concat]
    dsimp only
    unfold writtenTo
    by_cases hkey : key = w.1
    · rw [if_pos hkey.symm,if_pos hkey,Option.some_or,hkey]
    · rw [if_neg fun hc => hkey hc.symm,if_neg hkey,Option.none_or]

theorem effect_follows (h : Follows d₀ d past) (hnode : d'.nodeId = d.nodeId) (hmapped : Mapped d')
    (he : Effect d₀.nodeId d x d') : Follows d₀ d' (past++[x]) := by
  obtain ⟨hid,-,htransfer,hobjects⟩ := h
  have hquiet : opened d₀.nodeId x = none → latest (opened d₀.nodeId) (past++[x]) =
      latest (opened d₀.nodeId) past := by
    intro hopened
    rw [latest_concat,hopened,Option.none_or]
  have hsame : (∀ k, value d' k = value d k) → completed d₀.nodeId past x = none →
      ∀ k, value d' k = readAs d₀ k (past++[x]) := by
    intro hvalue hcompleted k
    rw [read_concat,hcompleted,hvalue]
    exact hobjects k
  have hwrite : ∀ key bytes, (∀ k, value d' k = if k = key then storedBytes key bytes else value d k) →
      completed d₀.nodeId past x = some (key,bytes) → ∀ k, value d' k = readAs d₀ k (past++[x]) := by
    intro key bytes hvalue hcompleted k
    rw [read_concat,hcompleted,hvalue,hobjects k]
  refine ⟨hnode.trans hid,hmapped,?_,?_⟩
  · cases he with
    | quiet hindex hdownload _ hopened hfragment _ =>
      intro key hkey
      rw [hindex] at hkey
      obtain ⟨hlatest,hbytes⟩ := htransfer key hkey
      rw [hquiet hopened,hdownload,gathered_concat hopened]
      refine ⟨hlatest,?_⟩
      rcases hfragment with hnone | hnothing
      · rw [hnone] at hkey
        cases hkey
      · rw [hnothing,List.append_nil]
        exact hbytes
    | opens first hindex hdownload _ hopened _ =>
      intro key hkey
      rw [hindex] at hkey
      cases hkey
      rw [latest_concat,hopened,gathered_opened (by rw [hopened]; rfl)]
      exact ⟨rfl,hdownload⟩
    | gathers hindex hdownload _ hopened _ =>
      intro key hkey
      rw [hindex] at hkey
      obtain ⟨hlatest,hbytes⟩ := htransfer key hkey
      rw [hquiet hopened,hdownload,gathered_concat hopened,hbytes]
      exact ⟨hlatest,rfl⟩
    | writes _ _ hindex hdownload _ hopened hfragment _ =>
      intro key hkey
      rw [hindex] at hkey
      obtain ⟨hlatest,hbytes⟩ := htransfer key hkey
      rw [hquiet hopened,hdownload,gathered_concat hopened,hfragment,List.append_nil]
      exact ⟨hlatest,hbytes⟩
    | refuses hindex _ _ _ =>
      intro key hkey
      rw [hindex] at hkey
      cases hkey
    | closes _ _ hindex _ _ _ =>
      intro key hkey
      rw [hindex] at hkey
      cases hkey
  · cases he with
    | quiet _ _ hvalue _ _ hcompleted => exact hsame hvalue (hcompleted past)
    | opens _ _ _ hvalue _ hcompleted => exact hsame hvalue (hcompleted past)
    | gathers _ _ hvalue _ hcompleted => exact hsame hvalue (hcompleted past)
    | refuses _ hvalue _ hcompleted => exact hsame hvalue (hcompleted past)
    | writes key bytes _ _ hvalue _ _ hcompleted => exact hwrite key bytes hvalue (hcompleted past)
    | closes key hold _ hvalue _ hcompleted =>
      obtain ⟨hlatest,hbytes⟩ := htransfer key hold
      refine hwrite key _ hvalue ?_
      rw [hcompleted past,hlatest,hbytes]
      rfl

end History

section Steps
variable {d d' : Device} {frame : Frame} {frames : List Frame} {key : Key}

inductive Sorted (d : Device) (frame : Frame) (d' : Device) (frames : List Frame) : Prop where
  | request (h : frame.cobId = 0x600+d.nodeId.1 ∧ frame.data.length = 8)
      (hsdo : handleSdo d frame = .ok (d',frames))
  | output (h : frame.cobId = 0x200+d.nodeId.1 ∧ 2 ≤ frame.data.length)
      (hnext : d' = { d with values := update d.values (0x6200,1) (frame.data.take 2) })
  | other (hrequest : ¬(frame.cobId = 0x600+d.nodeId.1 ∧ frame.data.length = 8))
      (houtput : ¬(frame.cobId = 0x200+d.nodeId.1 ∧ 2 ≤ frame.data.length))
      (hkept : Undisturbed d d') (hvalues : d'.values = d.values)

theorem publish_values {state : UInt8} {bootup : Bool}
    (h : publishNmtState d state bootup = .ok (d',frames)) : d'.values = d.values := by
  obtain ⟨rfl,-⟩ := sent_frames h
  rfl

theorem nmt_values {command : UInt8} {target : ℕ} (h : handleNmt d command target = .ok (d',frames)) :
    d'.values = d.values := by
  unfold handleNmt at h
  split at h
  · cases h
    rfl
  split at h
  · exact publish_values h
  split at h
  · exact publish_values h
  split at h
  · exact publish_values h
  split at h
  · exact publish_values h
  split at h
  · exact publish_values h
  · cases h
    rfl

theorem handle_sorted (h : handle d frame = .ok (d',frames)) : Sorted d frame d' frames := by
  have hid := node_bound d.nodeId
  have hself : Undisturbed d d := ⟨rfl,rfl,rfl,rfl,rfl,fun _ _ => rfl⟩
  unfold handle at h
  split at h
  · rename_i hnmt
    have hzero := hnmt.1
    exact .other (fun hc => by omega) (fun hc => by omega) (nmt_kept h).1 (nmt_values h)
  split at h
  · rename_i hrequest
    exact .request hrequest h
  rename_i hrequest
  split at h
  · rename_i houtput
    cases h
    exact .output houtput rfl
  rename_i houtput
  split at h
  · split at h
    · cases h
    · obtain ⟨rfl,-⟩ := sent_frames h
      exact .other hrequest houtput hself rfl
  split at h
  · unfold handleLss at h
    split at h
    · obtain ⟨rfl,-⟩ := sent_frames h
      exact .other hrequest houtput hself rfl
    · cases h
      exact .other hrequest houtput hself rfl
  · cases h
    exact .other hrequest houtput hself rfl

theorem answered_answer (input : Input) {command : UInt8} {data : List UInt8}
    (hdata : data.length = 4) (h : answered d command key data = .ok (d',frames)) :
    d' = d ∧ answerOf ⟨input,frames⟩ = command := by
  obtain ⟨f,hsent,-,hcommand,-⟩ := answered_found d command key hdata
  rw [hsent] at h
  cases h
  exact ⟨rfl,hcommand⟩

theorem confirmed_answer (input : Input) {command : UInt8}
    (h : confirmed d command = .ok (d',frames)) :
    d' = d ∧ answerOf ⟨input,frames⟩ = (0x20 : UInt8) ||| (command &&& 0x10) := by
  obtain ⟨f,hsent,hbytes,-⟩ := sent_found d
    (show [(0x20 : UInt8) ||| (command &&& 0x10),0,0,0,0,0,0,0].length ≤ 8 from Nat.le_refl 8)
  unfold confirmed at h
  rw [hsent] at h
  cases h
  refine ⟨rfl,?_⟩
  show byteOf f 0 = _
  rw [byteOf,hbytes]
  rfl

theorem request_views (hf : frame.cobId = 0x600+d.nodeId.1 ∧ frame.data.length = 8)
    (frames : List Frame) (past : List Exchange) :
    let x : Exchange := ⟨.frame frame,frames⟩
    (opened d.nodeId x =
        if byteOf frame 0 &&& 0xE0 = 0x20 ∧ byteOf frame 0 &&& 0x02 = 0 ∧ answerOf x = 0x60 then
          some (addressed frame) else none) ∧
      (fragment d.nodeId x =
        if byteOf frame 0 &&& 0xE0 = 0x00 ∧ answerOf x ≠ 0 then carriedBytes frame else []) ∧
      completed d.nodeId past x =
        if byteOf frame 0 &&& 0xE0 = 0x20 ∧ byteOf frame 0 &&& 0x02 ≠ 0 ∧ answerOf x = 0x60 then
          some (addressed frame,expeditedBytes frame)
        else if byteOf frame 0 &&& 0xE0 = 0x00 ∧ byteOf frame 0 &&& 0x01 ≠ 0 ∧
            answerOf x &&& 0xE0 = 0x20 then
          (latest (opened d.nodeId) past).map fun key =>
            (key,gathered d.nodeId past++fragment d.nodeId x)
        else none := by
  intro x
  have hrequested : requested d.nodeId x = some frame := if_pos hf
  have houtput : ¬(frame.cobId = 0x200+d.nodeId.1 ∧ 2 ≤ frame.data.length) := by
    intro hc
    have := hf.1
    omega
  refine ⟨?_,?_,?_⟩
  · rw [opened,hrequested]
  · rw [fragment,hrequested]
  · show (if _ then _ else _) = _
    rw [if_neg houtput,hrequested]

def Stepped (d : Device) (x : Exchange) (d' : Device) : Prop :=
  d'.nodeId = d.nodeId ∧ Mapped d' ∧ Effect d.nodeId d x d'

theorem request_quiet (hm : Mapped d) (hf : frame.cobId = 0x600+d.nodeId.1 ∧ frame.data.length = 8)
    (hnode : d'.nodeId = d.nodeId) (hindex : d'.segmentIndex = d.segmentIndex)
    (hdownload : d'.segmentDownload = d.segmentDownload) (hmapping : d'.mapping = d.mapping)
    (hvalues : d'.values = d.values)
    (h : byteOf frame 0 &&& 0xE0 ≠ 0x20 ∧ byteOf frame 0 &&& 0xE0 ≠ 0x00 ∨
      byteOf frame 0 &&& 0xE0 = 0x20 ∧ answerOf ⟨.frame frame,frames⟩ = 0x80 ∨
      answerOf ⟨.frame frame,frames⟩ = 0) : Stepped d ⟨.frame frame,frames⟩ d' := by
  have hviews := request_views hf frames
  generalize (⟨.frame frame,frames⟩ : Exchange) = x at h hviews ⊢
  have hclass : ∀ c : UInt8, c = 0x20 → c ≠ 0x00 := by
    rintro c rfl
    decide
  have hnoopen : ¬(byteOf frame 0 &&& 0xE0 = 0x20 ∧ answerOf x = 0x60) := by
    rintro ⟨hc,ha⟩
    rcases h with h | h | h
    · exact h.1 hc
    · rw [h.2] at ha
      exact absurd ha (by decide)
    · rw [h] at ha
      exact absurd ha (by decide)
  have hnosegment : ¬(byteOf frame 0 &&& 0xE0 = 0x00 ∧ answerOf x ≠ 0) := by
    rintro ⟨hc,ha⟩
    rcases h with h | h | h
    · exact h.2 hc
    · exact hclass _ h.1 hc
    · exact ha h
  have hvalue : ∀ k, value d' k = value d k := by
    intro k
    unfold value
    rw [hmapping,hvalues]
  refine ⟨hnode,fun k hk => hm k (by rw [← hmapping]; exact hk),.quiet hindex hdownload hvalue ?_ ?_ ?_⟩
  · rw [(hviews []).1,if_neg fun hc => hnoopen ⟨hc.1,hc.2.2⟩]
  · rw [(hviews []).2.1,if_neg hnosegment]
    exact Or.inr rfl
  · intro past
    rw [(hviews past).2.2,if_neg fun hc => hnoopen ⟨hc.1,hc.2.2⟩,if_neg]
    rintro ⟨hc,-,ha⟩
    refine hnosegment ⟨hc,fun hz => ?_⟩
    rw [hz] at ha
    exact absurd ha (by decide)

theorem upload_step (hm : Mapped d) (hf : frame.cobId = 0x600+d.nodeId.1 ∧ frame.data.length = 8)
    (hcommand : byteOf frame 0 = 0x40) (h : VcanDevice.sdoUpload d key = .ok (d',frames)) :
    Stepped d ⟨.frame frame,frames⟩ d' := by
  have hclass : byteOf frame 0 &&& 0xE0 ≠ 0x20 ∧ byteOf frame 0 &&& 0xE0 ≠ 0x00 := by
    rw [hcommand]
    decide
  have heffect := upload_effect d key
  rw [h] at heffect
  cases heffect with
  | absent _ _ _ _ => exact request_quiet hm hf rfl rfl rfl rfl rfl (Or.inl hclass)
  | short _ _ _ _ _ _ _ => exact request_quiet hm hf rfl rfl rfl rfl rfl (Or.inl hclass)
  | long _ _ _ _ _ _ _ _ => exact request_quiet hm hf rfl rfl rfl rfl rfl (Or.inl hclass)

theorem expedited_step (hm : Mapped d)
    (hf : frame.cobId = 0x600+d.nodeId.1 ∧ frame.data.length = 8)
    (hclass : byteOf frame 0 &&& 0xE0 = 0x20) (hbit : byteOf frame 0 &&& 0x02 ≠ 0)
    (h : sdoDownloadExpedited d (byteOf frame 0) (addressed frame) ((frame.data.take 8).drop 4) =
      .ok (d',frames)) : Stepped d ⟨.frame frame,frames⟩ d' := by
  have habort : ∀ code, abort d (addressed frame) code = .ok (d',frames) →
      Stepped d ⟨.frame frame,frames⟩ d' := by
    intro code hc
    obtain ⟨rfl,hanswer⟩ := answered_answer (.frame frame) (little_length 4 code) hc
    exact request_quiet hm hf rfl rfl rfl rfl rfl (Or.inr (Or.inl ⟨hclass,hanswer⟩))
  unfold sdoDownloadExpedited at h
  split at h
  · exact habort _ h
  dsimp only at h
  obtain ⟨hnode,hindex,hdownload⟩ := @write_transfers d (addressed frame) (expeditedBytes frame)
  rcases @write_effect d (addressed frame) (expeditedBytes frame) hm with
    ⟨hno,-⟩ | ⟨hyes,hmapped,hvalue⟩
  · rw [if_pos (by rw [expeditedBytes] at hno; rw [hno]; rfl)] at h
    exact habort _ h
  · rw [if_neg (by rw [expeditedBytes] at hyes; rw [hyes]; exact Bool.false_ne_true)] at h
    obtain ⟨hnext,hanswer⟩ := answered_answer (.frame frame) rfl h
    change d' = (writeValue d (addressed frame) (expeditedBytes frame)).1 at hnext
    subst hnext
    have hviews := request_views hf frames
    refine ⟨hnode,hmapped,.writes (addressed frame) (expeditedBytes frame) hindex hdownload hvalue
      ?_ ?_ fun past => ?_⟩
    · rw [(hviews []).1,if_neg fun hc => hbit hc.2.1]
    · rw [(hviews []).2.1,if_neg]
      rintro ⟨hc,-⟩
      rw [hclass] at hc
      exact absurd hc (by decide)
    · rw [(hviews past).2.2,if_pos ⟨hclass,hbit,hanswer⟩]

theorem initiate_step (hm : Mapped d)
    (hf : frame.cobId = 0x600+d.nodeId.1 ∧ frame.data.length = 8)
    (hclass : byteOf frame 0 &&& 0xE0 = 0x20) (hbit : byteOf frame 0 &&& 0x02 = 0)
    (h : answered { d with segmentIndex := some (addressed frame), segmentDownload := [] } 0x60
      (addressed frame) [0,0,0,0] = .ok (d',frames)) : Stepped d ⟨.frame frame,frames⟩ d' := by
  obtain ⟨rfl,hanswer⟩ := answered_answer (.frame frame) rfl h
  have hviews := request_views hf frames
  refine ⟨rfl,hm,.opens (addressed frame) rfl rfl (fun _ => rfl) ?_ fun past => ?_⟩
  · rw [(hviews []).1,if_pos ⟨hclass,hbit,hanswer⟩]
  · rw [(hviews past).2.2,if_neg fun hc => hc.2.1 hbit,if_neg]
    rintro ⟨hc,-,-⟩
    rw [hclass] at hc
    exact absurd hc (by decide)

theorem confirmation_bits (command : UInt8) :
    (0x20 : UInt8) ||| (command &&& 0x10) ≠ 0 ∧
      ((0x20 : UInt8) ||| (command &&& 0x10)) &&& 0xE0 = 0x20 := by
  have hall : ∀ c : Fin 256, (0x20 : UInt8) ||| (UInt8.ofNat c.1 &&& 0x10) ≠ 0 ∧
      ((0x20 : UInt8) ||| (UInt8.ofNat c.1 &&& 0x10)) &&& 0xE0 = 0x20 := by
    decide +kernel
  have hcommand := hall ⟨command.toNat,command.toNat_lt⟩
  rw [UInt8.ofNat_toNat] at hcommand
  exact hcommand

theorem segment_step (hm : Mapped d)
    (hf : frame.cobId = 0x600+d.nodeId.1 ∧ frame.data.length = 8)
    (hclass : byteOf frame 0 &&& 0xE0 = 0x00) (hopen : d.segmentIndex = some key)
    (h : downloadSegment d (byteOf frame 0) key ((frame.data.take 8).drop 1) = .ok (d',frames)) :
    Stepped d ⟨.frame frame,frames⟩ d' := by
  obtain ⟨hanswered,hconfirms⟩ := confirmation_bits (byteOf frame 0)
  have hviews := request_views hf frames
  have hnoopen : opened d.nodeId ⟨.frame frame,frames⟩ = none := by
    rw [(hviews []).1,if_neg]
    rintro ⟨hc,-⟩
    rw [hclass] at hc
    exact absurd hc (by decide)
  have hnowrite : ¬(byteOf frame 0 &&& 0xE0 = 0x20 ∧ byteOf frame 0 &&& 0x02 ≠ 0 ∧
      answerOf ⟨.frame frame,frames⟩ = 0x60) := by
    rintro ⟨hc,-⟩
    rw [hclass] at hc
    exact absurd hc (by decide)
  have hfragment : answerOf ⟨.frame frame,frames⟩ ≠ 0 →
      fragment d.nodeId ⟨.frame frame,frames⟩ = carriedBytes frame := by
    intro ha
    rw [(hviews []).2.1,if_pos ⟨hclass,ha⟩]
  unfold downloadSegment at h
  dsimp only at h
  split at h
  · rename_i hlast
    obtain ⟨hnode,-,-⟩ := @write_transfers d key (d.segmentDownload++carriedBytes frame)
    rcases @write_effect d key (d.segmentDownload++carriedBytes frame) hm with
      ⟨hno,hsame⟩ | ⟨hyes,hmapped,hvalue⟩
    · rw [if_pos (by rw [carriedBytes] at hno; rw [hno]; rfl)] at h
      obtain ⟨hnext,hanswer⟩ := answered_answer (.frame frame) (little_length 4 abortUnsupported) h
      change d' = { (writeValue d key (d.segmentDownload++carriedBytes frame)).1 with
        segmentIndex := none, segmentDownload := [] } at hnext
      rw [hsame] at hnext
      subst hnext
      refine ⟨rfl,hm,.refuses rfl (fun _ => rfl) hnoopen fun past => ?_⟩
      rw [(hviews past).2.2,if_neg hnowrite,if_neg]
      rintro ⟨-,-,hc⟩
      rw [hanswer] at hc
      exact absurd hc (by decide)
    · rw [if_neg (by rw [carriedBytes] at hyes; rw [hyes]; exact Bool.false_ne_true)] at h
      obtain ⟨hnext,hanswer⟩ := confirmed_answer (.frame frame) h
      change d' = { (writeValue d key (d.segmentDownload++carriedBytes frame)).1 with
        segmentIndex := none, segmentDownload := [] } at hnext
      subst hnext
      have hbytes := hfragment (by rw [hanswer]; exact hanswered)
      refine ⟨hnode,hmapped,.closes key hopen rfl ?_ hnoopen fun past => ?_⟩
      · rw [hbytes]
        exact hvalue
      · rw [(hviews past).2.2,if_neg hnowrite,if_pos ⟨hclass,hlast,by rw [hanswer]; exact hconfirms⟩]
  · rename_i hmore
    obtain ⟨rfl,hanswer⟩ := confirmed_answer (.frame frame) h
    have hbytes := hfragment (by rw [hanswer]; exact hanswered)
    refine ⟨rfl,hm,.gathers rfl ?_ (fun _ => rfl) hnoopen fun past => ?_⟩
    · rw [hbytes]
      rfl
    · rw [(hviews past).2.2,if_neg hnowrite,if_neg fun hc => hmore hc.2.1]

theorem sdo_step (hm : Mapped d) (hf : frame.cobId = 0x600+d.nodeId.1 ∧ frame.data.length = 8)
    (h : handleSdo d frame = .ok (d',frames)) : Stepped d ⟨.frame frame,frames⟩ d' := by
  unfold handleSdo at h
  dsimp only at h
  split at h
  · rename_i hread
    exact upload_step hm hf hread h
  split at h
  · rename_i hexpedited
    exact expedited_step hm hf hexpedited.1 hexpedited.2 h
  rename_i hexpedited
  split at h
  · rename_i hclass
    have hbit : byteOf frame 0 &&& 0x02 = 0 := by
      by_contra hc
      exact hexpedited ⟨hclass,hc⟩
    split at h
    · obtain ⟨rfl,hanswer⟩ := answered_answer (.frame frame) (little_length 4 abortReadonly) h
      exact request_quiet hm hf rfl rfl rfl rfl rfl (Or.inr (Or.inl ⟨hclass,hanswer⟩))
    · exact initiate_step hm hf hclass hbit h
  rename_i hnodownload
  have hsame : (.ok (d,[]) : Handled) = .ok (d',frames) → Stepped d ⟨.frame frame,frames⟩ d' := by
    rintro ⟨⟩
    exact request_quiet hm hf rfl rfl rfl rfl rfl (Or.inr (Or.inr rfl))
  unfold sdoSegment at h
  split at h
  · rename_i hclass
    have hother : byteOf frame 0 &&& 0xE0 ≠ 0x20 ∧ byteOf frame 0 &&& 0xE0 ≠ 0x00 := by
      rw [hclass]
      decide
    split at h
    · obtain ⟨rfl,-⟩ := sent_frames h
      exact request_quiet hm hf rfl rfl rfl rfl rfl (Or.inl hother)
    · exact hsame h
  split at h
  · rename_i hclass
    split at h
    · rename_i key hopen
      exact segment_step hm hf hclass hopen h
    · exact hsame h
  · exact hsame h

theorem input_step (hm : Mapped d) {input : Input} (h : step d input = .ok (d',frames)) :
    Stepped d ⟨input,frames⟩ d' := by
  cases input with
  | beat =>
    obtain ⟨rfl,-⟩ := sent_frames h
    exact ⟨rfl,hm,.quiet rfl rfl (fun _ => rfl) rfl (Or.inr rfl) fun _ => rfl⟩
  | frame frame =>
    cases handle_sorted h with
    | request hf hsdo => exact sdo_step hm hf hsdo
    | output houtput hnext =>
      have hrequest : requested d.nodeId ⟨.frame frame,frames⟩ = none := by
        refine if_neg fun hc => ?_
        have := hc.1
        have := houtput.1
        omega
      subst hnext
      refine ⟨rfl,hm,.writes (0x6200,1) (frame.data.take 2) rfl rfl (fun k => ?_) ?_ ?_ fun past => ?_⟩
      · by_cases hk : k = (0x6200,1)
        · have hnone : d.mapping k = none := by
            by_contra hc
            have := hm k hc
            rw [hk] at this
            exact absurd this (by decide)
          rw [if_pos hk,storedBytes,if_neg (by decide)]
          simp only [value,hnone,update,if_pos hk]
        · rw [if_neg hk]
          simp only [value,update,if_neg hk]
      · rw [opened,hrequest]
      · rw [fragment,hrequest]
      · exact if_pos houtput
    | other hrequest houtput hkept hvalues =>
      have hnone : requested d.nodeId ⟨.frame frame,frames⟩ = none := if_neg hrequest
      have hvalue : ∀ k, value d' k = value d k := by
        intro k
        unfold value
        rw [hkept.mapping,hvalues]
      refine ⟨hkept.nodeId,fun k hk => hm k (by rw [← hkept.mapping]; exact hk),
        .quiet hkept.index hkept.download hvalue ?_ (Or.inr ?_) fun past => ?_⟩
      · rw [opened,hnone]
      · rw [fragment,hnone]
      · show (if _ then _ else _) = _
        rw [if_neg houtput,hnone]

end Steps

section Run
variable (nodeId : NodeId) (heartbeatMs : ℕ) (heartbeat : List UInt8)

theorem device_mapped : Mapped (device nodeId heartbeatMs heartbeat) := by
  intro key hkey
  by_contra hindex
  refine hkey (if_neg fun hc => hindex ?_)
  rw [hc]

theorem device_follows : Follows (device nodeId heartbeatMs heartbeat)
    (device nodeId heartbeatMs heartbeat) [] where
  nodeId := rfl
  mapped := device_mapped nodeId heartbeatMs heartbeat
  transfer _ h := nomatch h
  objects _ := rfl

theorem run_follows (inputs : List Input) :
    let done := run processStep (.ok (device nodeId heartbeatMs heartbeat)) inputs
    ∀ d, done.1 = .ok d → Follows (device nodeId heartbeatMs heartbeat) d done.2 := by
  induction inputs using List.reverseRecOn with
  | nil =>
    rintro _ d ⟨⟩
    exact device_follows nodeId heartbeatMs heartbeat
  | append_singleton inputs input ih =>
    intro done d hd
    dsimp only [done] at hd ⊢
    rw [run_concat] at hd ⊢
    cases hp : (run processStep (.ok (device nodeId heartbeatMs heartbeat)) inputs).1 with
    | error e =>
      rw [hp] at hd
      cases hd
    | ok before =>
      rw [hp] at hd
      have hbefore := ih before hp
      cases hs : step before input with
      | error e =>
        rw [process_raised hs] at hd
        cases hd
      | ok next =>
        obtain ⟨after,frames⟩ := next
        rw [process_ok hs] at hd ⊢
        cases hd
        obtain ⟨hnode,hmapped,heffect⟩ := input_step hbefore.mapped hs
        rw [hbefore.nodeId] at heffect
        exact effect_follows hbefore hnode hmapped heffect

/-- After any traffic that leaves the device running, every object is read as
what the last completed write to it brought, or as it was at the start. -/
theorem last_write_stored (inputs : List Input) (d : Device) (key : Key)
    (h : (run processStep (.ok (device nodeId heartbeatMs heartbeat)) inputs).1 = .ok d) :
    value d key = readAs (device nodeId heartbeatMs heartbeat) key
      (run processStep (.ok (device nodeId heartbeatMs heartbeat)) inputs).2 :=
  (run_follows nodeId heartbeatMs heartbeat inputs d h).objects key

def sdoFrame (data : List UInt8) (h : data.length ≤ 8) : Frame := ⟨0x60A,data,by decide,h⟩

def downloadTraffic : List Input :=
  [.frame (sdoFrame [0x21,0x00,0x20,0x00,9,0,0,0] (by decide)),.beat,
    .frame (sdoFrame [0x00,1,2,3,4,5,6,7] (by decide)),.frame outputFrame,
    .frame (sdoFrame [0x2B,0x17,0x10,0x00,0xF4,0x01,0,0] (by decide)),.frame syncFrame,
    .frame (sdoFrame [0x1B,8,9,0,0,0,0,0] (by decide))]

theorem last_write_stored_segments :
    ∃ d, (run processStep (.ok startedDevice) downloadTraffic).1 = .ok d ∧
      value d (0x2000,0) = readAs startedDevice (0x2000,0)
        (run processStep (.ok startedDevice) downloadTraffic).2 ∧
      readAs startedDevice (0x2000,0) (run processStep (.ok startedDevice) downloadTraffic).2 =
        .ok (some [1,2,3,4,5,6,7,8,9]) :=
  ⟨_,rfl,last_write_stored tenth 100 [100,0] downloadTraffic _ (0x2000,0) rfl,by decide +kernel⟩

end Run

end CanopenReference.VcanStore
