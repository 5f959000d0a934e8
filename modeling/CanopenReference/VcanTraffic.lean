import CanopenReference.VcanStore

/-!
# What the vcan device sends, and what ends it

Beside the SDO server, every frame that the device sends is due by the frames
before: heartbeats show the state commanded last, a SYNC is answered in the
operational state alone and with the bytes written last. Only a process image
that is too long for a frame and a value that cannot be packed end the device.
-/

set_option autoImplicit false

namespace CanopenReference.VcanTraffic
open Library Library.Runs Library.History MockCanopen VcanDevice VcanReads VcanStore

section Wire
variable (nodeId : NodeId)

def nmtCommand (f : Frame) : Option UInt8 :=
  if f.cobId = 0x000 ∧ f.data.length = 2 ∧
      ((byteOf f 1).toNat = 0 ∨ (byteOf f 1).toNat = nodeId.1) then some (byteOf f 0)
  else none

def entered (command : UInt8) : Option UInt8 :=
  if command = 0x01 then some 0x05
  else if command = 0x02 then some 0x04
  else if command = 0x80 ∨ command = 0x81 ∨ command = 0x82 then some 0x7F
  else none

def commanded (x : Exchange) : Option UInt8 :=
  match x.input with
  | .beat => none
  | .frame f => (nmtCommand nodeId f).bind entered

/-- The state commanded last. -/
def stateOf (past : List Exchange) : UInt8 := (latest (commanded nodeId) past).getD 0x7F

/-- The process image written last. -/
def imageOf (past : List Exchange) : List UInt8 :=
  (latest (writtenTo (0x6200,1)) (writes nodeId past)).getD [0,0]

def nmtAnswer (command : UInt8) : List (ℕ × List UInt8) :=
  match entered command with
  | none => []
  | some state => [(0x700+nodeId.1,[if command = 0x81 then 0x00 else state])]

def due (state : UInt8) (image : List UInt8) : Input → List (ℕ × List UInt8)
  | .beat => [(0x700+nodeId.1,[state])]
  | .frame f =>
    if f.cobId = 0x000 ∧ f.data.length = 2 then
      match nmtCommand nodeId f with
      | none => []
      | some command => nmtAnswer nodeId command
    else if f.cobId = 0x080 ∧ f.data.length = 0 ∧ state = 0x05 then [(0x180+nodeId.1,image)]
    else if f.cobId = 0x7E5 ∧ f.data.length = 8 ∧ byteOf f 0 = 0x51 then
      [(0x7E4,[0x4F,0,0,0,0,0,0,0])]
    else []

def isRequest : Input → Bool
  | .beat => false
  | .frame f => f.cobId = 0x600+nodeId.1 ∧ f.data.length = 8

def overlong (state : UInt8) (image : List UInt8) : Input → Bool
  | .beat => false
  | .frame f => f.cobId = 0x080 ∧ f.data.length = 0 ∧ state = 0x05 ∧ 8 < image.length

def readOf : Input → Option Key
  | .beat => none
  | .frame f =>
    if f.cobId = 0x600+nodeId.1 ∧ f.data.length = 8 ∧ byteOf f 0 = 0x40 then some (addressed f)
    else none

def views (frames : List Frame) : List (ℕ × List UInt8) := frames.map fun f => (f.cobId,f.data)

/-- An SDO request has at most one answer, of eight bytes; of anything else
exactly what is due is sent. -/
def DueIn (state : UInt8) (image : List UInt8) (x : Exchange) : Prop :=
  if isRequest nodeId x.input then
    x.answers = [] ∨ ∃ data, data.length = 8 ∧ views x.answers = [(0x580+nodeId.1,data)]
  else views x.answers = due nodeId state image x.input

def unpackable : Except PyError (Option (List UInt8)) → Bool
  | .error _ => true
  | .ok none => false
  | .ok (some bytes) => 256^4 ≤ bytes.length

end Wire

section Steps
variable {d d' : Device} {frames : List Frame} {image : List UInt8}

theorem sent_views {arbitrationId : ℕ} {data : List UInt8}
    (h : sent d arbitrationId data = .ok (d',frames)) : views frames = [(arbitrationId,data)] := by
  unfold sent send at h
  split at h
  · cases h
  split at h
  · cases h
  · cases h
    rfl

theorem sent_works (d : Device) {base : ℕ} (hbase : base ≤ 0x700) {data : List UInt8}
    (hdata : data.length ≤ 8) : ∃ done, sent d (base+d.nodeId.1) data = .ok done := by
  have hid := node_bound d.nodeId
  obtain ⟨f,hsent,-⟩ := sent_ok d (show base+d.nodeId.1 ≤ 0x7FF by omega) hdata
  exact ⟨_,hsent⟩

theorem publish_due {state : UInt8} {bootup : Bool} :
    ∃ frames, publishNmtState d state bootup = .ok ({ d with state := state },frames) ∧
      views frames = [(0x700+d.nodeId.1,[if bootup then 0x00 else state])] := by
  obtain ⟨⟨d',frames⟩,hsent⟩ := sent_works { d with state := state } (Nat.le_refl 0x700)
    (show [if bootup then 0x00 else state].length ≤ 8 from by simp)
  obtain ⟨rfl,-⟩ := sent_frames hsent
  exact ⟨frames,hsent,sent_views hsent⟩

theorem command_due (d : Device) (command : UInt8) :
    (entered command = none ∧
      handleNmt d command d.nodeId.1 = .ok (d,[]) ∧ nmtAnswer d.nodeId command = []) ∨
    ∃ state, entered command = some state ∧ ∃ frames,
      handleNmt d command d.nodeId.1 = .ok ({ d with state := state },frames) ∧
        views frames = nmtAnswer d.nodeId command := by
  have hself : ¬(d.nodeId.1 ≠ 0 ∧ d.nodeId.1 ≠ d.nodeId.1) := fun hc => hc.2 rfl
  unfold handleNmt nmtAnswer entered
  rw [if_neg hself]
  by_cases hstart : command = 0x01
  · subst hstart
    exact Or.inr ⟨0x05,rfl,publish_due⟩
  rw [if_neg hstart,if_neg hstart]
  by_cases hstop : command = 0x02
  · subst hstop
    exact Or.inr ⟨0x04,rfl,publish_due⟩
  rw [if_neg hstop,if_neg hstop]
  by_cases hpreop : command = 0x80
  · subst hpreop
    exact Or.inr ⟨0x7F,rfl,publish_due⟩
  by_cases hnode : command = 0x81
  · subst hnode
    exact Or.inr ⟨0x7F,rfl,publish_due⟩
  by_cases hcommunication : command = 0x82
  · subst hcommunication
    exact Or.inr ⟨0x7F,rfl,publish_due⟩
  · rw [if_neg hpreop,if_neg hnode,if_neg hcommunication,
      if_neg (not_or.mpr ⟨hpreop,not_or.mpr ⟨hnode,hcommunication⟩⟩)]
    exact Or.inl ⟨rfl,rfl,rfl⟩

theorem nmt_target (d : Device) (command : UInt8) (target : ℕ) :
    handleNmt d command target =
      if target = 0 ∨ target = d.nodeId.1 then handleNmt d command d.nodeId.1 else .ok (d,[]) := by
  have hself : ¬(d.nodeId.1 ≠ 0 ∧ d.nodeId.1 ≠ d.nodeId.1) := fun hc => hc.2 rfl
  unfold handleNmt
  by_cases htarget : target = 0 ∨ target = d.nodeId.1
  · have hours : ¬(target ≠ 0 ∧ target ≠ d.nodeId.1) := fun hc => htarget.elim hc.1 hc.2
    rw [if_pos htarget,if_neg hours,if_neg hself]
  · rw [if_neg htarget,if_pos (not_or.mp htarget)]

theorem write_state (d : Device) (key : Key) (bytes : List UInt8) :
    (writeValue d key bytes).1.state = d.state := by
  unfold writeValue
  split
  · rfl
  split
  · split <;> rfl
  · rfl

/-- An SDO request leaves the NMT state alone and is answered by at most one frame. -/
def Served (d : Device) (h : Handled) : Prop :=
  ∀ d' frames, h = .ok (d',frames) → d'.state = d.state ∧
    (frames = [] ∨ ∃ data, data.length = 8 ∧ views frames = [(0x580+d.nodeId.1,data)])

theorem quiet_served (d : Device) : Served d (.ok (d,[])) := by
  rintro d' frames ⟨⟩
  exact ⟨rfl,Or.inl rfl⟩

theorem sent_served {d₁ : Device} (hstate : d₁.state = d.state) (hnode : d₁.nodeId = d.nodeId)
    {data : List UInt8} (hdata : data.length = 8) :
    Served d (sent d₁ (0x580+d₁.nodeId.1) data) := by
  intro d' frames h
  have hviews := sent_views h
  obtain ⟨rfl,-⟩ := sent_frames h
  rw [hnode] at hviews
  exact ⟨hstate,Or.inr ⟨data,hdata,hviews⟩⟩

theorem answered_served {d₁ : Device} (hstate : d₁.state = d.state) (hnode : d₁.nodeId = d.nodeId)
    (command : UInt8) (key : Key) {data : List UInt8} (hdata : data.length = 4) :
    Served d (answered d₁ command key data) :=
  sent_served hstate hnode (by simp [multiplexer,hdata])

theorem upload_served (d : Device) (key : Key) : Served d (VcanDevice.sdoUpload d key) := by
  unfold VcanDevice.sdoUpload
  cases value d key with
  | error e => rintro d' frames ⟨⟩
  | ok v =>
    cases v with
    | none => exact answered_served rfl rfl 0x80 key (little_length 4 abortNoObject)
    | some bytes =>
      show Served d (if bytes.length ≤ 4 then _ else _)
      by_cases hlength : bytes.length ≤ 4
      · rw [if_pos hlength]
        exact answered_served rfl rfl _ key (ljust_length hlength)
      · rw [if_neg hlength]
        unfold toBytes
        split
        · exact @answered_served d { d with segmentUpload := some bytes } rfl rfl 0x41 key _
            (little_length 4 bytes.length)
        · rintro d' frames ⟨⟩

theorem segment_served (d : Device) (command : UInt8) (data : List UInt8) :
    Served d (sdoSegment d command data) := by
  unfold sdoSegment
  split
  · split
    · rename_i rest _
      exact sent_served rfl rfl (congrArg Nat.succ (ljust_length (List.length_take_le 7 rest)))
    · exact quiet_served d
  split
  · split
    · rename_i key _
      unfold downloadSegment
      dsimp only
      split
      · split
        · refine answered_served ?_ ?_ 0x80 key (little_length 4 abortUnsupported)
          · exact write_state d _ _
          · exact write_transfers.1
        · refine sent_served ?_ ?_ rfl
          · exact write_state d _ _
          · exact write_transfers.1
      · exact sent_served rfl rfl rfl
    · exact quiet_served d
  · exact quiet_served d

theorem sdo_served (d : Device) (frame : Frame) : Served d (handleSdo d frame) := by
  unfold handleSdo
  dsimp only
  split
  · exact upload_served d _
  split
  · unfold sdoDownloadExpedited
    split
    · exact answered_served rfl rfl 0x80 _ (little_length 4 abortReadonly)
    dsimp only
    split
    · exact answered_served rfl rfl 0x80 _ (little_length 4 abortUnsupported)
    · exact answered_served (write_state d _ _) write_transfers.1 0x60 _ rfl
  split
  · split
    · exact answered_served rfl rfl 0x80 _ (little_length 4 abortReadonly)
    · exact answered_served rfl rfl 0x60 _ rfl
  · exact segment_served d _ _

/-- What a step does that does not end the device: the state that it enters, and
the frames that are due. -/
structure Due (d : Device) (input : Input) (d' : Device) (frames : List Frame) : Prop where
  state : d'.state = (commanded d.nodeId ⟨input,frames⟩).getD d.state
  frames : DueIn d.nodeId d.state ((d.values (0x6200,1)).getD []) ⟨input,frames⟩

theorem due_other {input : Input} (h : isRequest d.nodeId input = false)
    (hstate : d'.state = (commanded d.nodeId ⟨input,frames⟩).getD d.state)
    (hviews : views frames = due d.nodeId d.state ((d.values (0x6200,1)).getD []) input) :
    Due d input d' frames where
  state := hstate
  frames := by
    rw [DueIn,h]
    exact hviews

theorem command_of {frame : Frame} (h : frame.cobId = 0x000 ∧ frame.data.length = 2) :
    nmtCommand d.nodeId frame =
      if (byteOf frame 1).toNat = 0 ∨ (byteOf frame 1).toNat = d.nodeId.1 then some (byteOf frame 0)
      else none :=
  if_congr ⟨fun hc => hc.2.2,fun hc => ⟨h.1,h.2,hc⟩⟩ rfl rfl

theorem no_command {frame : Frame} (h : ¬(frame.cobId = 0x000 ∧ frame.data.length = 2)) :
    nmtCommand d.nodeId frame = none := if_neg fun hc => h ⟨hc.1,hc.2.1⟩

theorem commanded_frame (nodeId : NodeId) (frame : Frame) (frames : List Frame) :
    commanded nodeId ⟨.frame frame,frames⟩ = (nmtCommand nodeId frame).bind entered := rfl

theorem nmt_due {frame : Frame} (hnmt : frame.cobId = 0x000 ∧ frame.data.length = 2)
    (h : handleNmt d (byteOf frame 0) (byteOf frame 1).toNat = .ok (d',frames)) :
    Due d (.frame frame) d' frames := by
  have hid := node_bound d.nodeId
  have hother : isRequest d.nodeId (.frame frame) = false := decide_eq_false fun hc => by omega
  have hcommand := @command_of d frame hnmt
  rw [nmt_target] at h
  split at h
  · rename_i htarget
    rw [if_pos htarget] at hcommand
    have hdue : due d.nodeId d.state ((d.values (0x6200,1)).getD []) (.frame frame) =
        nmtAnswer d.nodeId (byteOf frame 0) := by
      rw [due,if_pos hnmt,hcommand]
    have hcommanded : commanded d.nodeId ⟨.frame frame,frames⟩ = entered (byteOf frame 0) := by
      rw [commanded_frame,hcommand]
      rfl
    rcases command_due d (byteOf frame 0) with ⟨hnone,hquiet,hanswer⟩ | ⟨state,hsome,fs,hsent,hviews⟩
    · rw [hquiet] at h
      cases h
      refine due_other hother ?_ ?_
      · rw [hcommanded,hnone]
        rfl
      · rw [hdue,hanswer]
        rfl
    · rw [hsent] at h
      cases h
      refine due_other hother ?_ ?_
      · rw [hcommanded,hsome]
        rfl
      · rw [hdue]
        exact hviews
  · rename_i htarget
    rw [if_neg htarget] at hcommand
    cases h
    refine due_other hother ?_ ?_
    · rw [commanded_frame,hcommand]
      rfl
    · rw [due,if_pos hnmt,hcommand]
      rfl

theorem step_due {input : Input} (h : step d input = .ok (d',frames)) : Due d input d' frames := by
  have hid := node_bound d.nodeId
  cases input with
  | beat =>
    have hviews := sent_views h
    obtain ⟨rfl,-⟩ := sent_frames h
    exact due_other rfl rfl hviews
  | frame frame =>
    change handle d frame = _ at h
    unfold handle at h
    split at h
    · rename_i hnmt
      exact nmt_due hnmt h
    rename_i hnmt
    have hcommanded : commanded d.nodeId ⟨.frame frame,frames⟩ = none := by
      rw [commanded_frame,no_command hnmt]
      rfl
    split at h
    · rename_i hrequest
      obtain ⟨hstate,hanswers⟩ := sdo_served d frame d' frames h
      have hasked : isRequest d.nodeId (.frame frame) = true := decide_eq_true hrequest
      refine ⟨?_,?_⟩
      · rw [hcommanded]
        exact hstate
      · rw [DueIn,hasked]
        exact hanswers
    rename_i hrequest
    have hother : isRequest d.nodeId (.frame frame) = false := decide_eq_false hrequest
    have hdue : ∀ answers : List (ℕ × List UInt8),
        due d.nodeId d.state ((d.values (0x6200,1)).getD []) (.frame frame) = answers →
          views frames = answers → d'.state = d.state → Due d (.frame frame) d' frames := by
      intro answers hanswers hviews hstate
      refine due_other hother ?_ (hviews.trans hanswers.symm)
      rw [hcommanded]
      exact hstate
    split at h
    · rename_i houtput
      have hcob := houtput.1
      cases h
      refine hdue [] ?_ rfl rfl
      rw [due,if_neg hnmt,if_neg fun hc => by omega,if_neg fun hc => by omega]
    split at h
    · rename_i hsync
      split at h
      · cases h
      · rename_i image himage
        have hviews := sent_views h
        obtain ⟨rfl,-⟩ := sent_frames h
        refine hdue _ ?_ hviews rfl
        rw [due,if_neg hnmt,if_pos hsync,himage]
        rfl
    rename_i hsync
    split at h
    · rename_i hlss
      unfold handleLss at h
      split at h
      · rename_i hscan
        have hviews := sent_views h
        obtain ⟨rfl,-⟩ := sent_frames h
        refine hdue _ ?_ hviews rfl
        rw [due,if_neg hnmt,if_neg hsync,if_pos ⟨hlss,hscan⟩]
      · rename_i hscan
        cases h
        refine hdue [] ?_ rfl rfl
        rw [due,if_neg hnmt,if_neg hsync,if_neg fun hc => hscan hc.2]
    · rename_i hlss
      cases h
      refine hdue [] ?_ rfl rfl
      rw [due,if_neg hnmt,if_neg hsync,if_neg fun hc => hlss hc.1]

end Steps

section Raising
variable {d : Device} {frame : Frame} {key : Key}

def Works (h : Handled) : Prop := ∃ done, h = .ok done

theorem works_iff (h : Handled) : Works h ↔ ¬∃ e, h = .error e := by
  constructor
  · rintro ⟨done,rfl⟩ ⟨e,he⟩
    cases he
  · intro h'
    cases h with
    | error e => exact absurd ⟨e,rfl⟩ h'
    | ok done => exact ⟨done,rfl⟩

theorem error_fails (e : PyError) : ¬Works (.error e) := by
  rintro ⟨done,h⟩
  cases h

theorem answered_works (d : Device) (command : UInt8) (key : Key) {data : List UInt8}
    (h : data.length = 4) : Works (answered d command key data) := by
  obtain ⟨f,hsent,-⟩ := answered_found d command key h
  exact ⟨_,hsent⟩

theorem upload_works (d : Device) (key : Key) :
    Works (VcanDevice.sdoUpload d key) ↔ unpackable (value d key) = false := by
  unfold VcanDevice.sdoUpload
  cases hvalue : value d key with
  | error e => exact iff_of_false (error_fails e) (fun hc => Bool.noConfusion hc)
  | ok v =>
    cases v with
    | none => exact iff_of_true (answered_works d 0x80 key (little_length 4 abortNoObject)) rfl
    | some bytes =>
      show Works (if bytes.length ≤ 4 then _ else _) ↔ _
      unfold unpackable
      by_cases hlength : bytes.length ≤ 4
      · rw [if_pos hlength]
        refine iff_of_true (answered_works d _ key (ljust_length hlength)) ?_
        exact decide_eq_false (by omega)
      · rw [if_neg hlength]
        unfold toBytes
        by_cases hfits : bytes.length < 256^4
        · rw [if_pos hfits]
          exact iff_of_true (answered_works _ 0x41 key (little_length 4 bytes.length))
            (decide_eq_false (Nat.not_le.mpr hfits))
        · rw [if_neg hfits]
          exact iff_of_false (error_fails _)
            (by rw [decide_eq_false_iff_not]; exact fun hc => hc (Nat.le_of_not_lt hfits))

theorem confirmed_works (d : Device) (command : UInt8) : Works (confirmed d command) :=
  sent_works d (by decide) (Nat.le_refl 8)

theorem segment_works (d : Device) (command : UInt8) (data : List UInt8) :
    Works (sdoSegment d command data) := by
  unfold sdoSegment
  split
  · split
    · rename_i rest _
      unfold VcanDevice.uploadSegment
      exact sent_works _ (by decide) (Nat.succ_le_succ
        (Nat.le_of_eq (ljust_length (List.length_take_le 7 rest))))
    · exact ⟨_,rfl⟩
  split
  · split
    · unfold downloadSegment
      dsimp only
      split
      · split
        · exact answered_works _ 0x80 _ (little_length 4 abortUnsupported)
        · exact confirmed_works _ _
      · exact confirmed_works _ _
    · exact ⟨_,rfl⟩
  · exact ⟨_,rfl⟩

theorem sdo_works (d : Device) (frame : Frame) :
    Works (handleSdo d frame) ↔
      ¬(byteOf frame 0 = 0x40 ∧ unpackable (value d (addressed frame)) = true) := by
  unfold handleSdo
  dsimp only
  by_cases hread : byteOf frame 0 = 0x40
  · rw [if_pos hread,upload_works]
    show _ ↔ ¬(_ ∧ unpackable (value d (indexOf frame,byteOf frame 3)) = true)
    rw [and_iff_right hread,Bool.not_eq_true]
  rw [if_neg hread]
  refine iff_of_true ?_ fun hc => hread hc.1
  split
  · unfold sdoDownloadExpedited
    split
    · exact answered_works d 0x80 _ (little_length 4 abortReadonly)
    dsimp only
    split
    · exact answered_works d 0x80 _ (little_length 4 abortUnsupported)
    · exact answered_works _ 0x60 _ rfl
  split
  · split
    · exact answered_works d 0x80 _ (little_length 4 abortReadonly)
    · exact answered_works _ 0x60 _ rfl
  · exact segment_works d _ _

theorem sent_limit (d : Device) {base : ℕ} (hbase : base ≤ 0x700) (data : List UInt8) :
    Works (sent d (base+d.nodeId.1) data) ↔ data.length ≤ 8 := by
  by_cases hdata : data.length ≤ 8
  · exact iff_of_true (sent_works d hbase hdata) hdata
  · refine iff_of_false ?_ hdata
    rintro ⟨done,h⟩
    have hid := node_bound d.nodeId
    unfold sent send at h
    rw [dif_neg (by omega),dif_pos (Nat.lt_of_not_le hdata)] at h
    cases h

theorem nmt_works (d : Device) (command : UInt8) (target : ℕ) :
    Works (handleNmt d command target) := by
  rw [nmt_target]
  split
  · rcases command_due d command with ⟨-,h,-⟩ | ⟨state,-,frames,h,-⟩
    · exact ⟨_,h⟩
    · exact ⟨_,h⟩
  · exact ⟨_,rfl⟩

def Raises (nodeId : NodeId) (state : UInt8) (image : List UInt8)
    (read : Key → Except PyError (Option (List UInt8))) (input : Input) : Prop :=
  overlong state image input = true ∨
    ∃ key, readOf nodeId input = some key ∧ unpackable (read key) = true

theorem raises_frame {nodeId : NodeId} {state : UInt8} {image : List UInt8}
    {read : Key → Except PyError (Option (List UInt8))} :
    Raises nodeId state image read (.frame frame) ↔
      (frame.cobId = 0x080 ∧ frame.data.length = 0 ∧ state = 0x05 ∧ 8 < image.length) ∨
        ((frame.cobId = 0x600+nodeId.1 ∧ frame.data.length = 8) ∧ byteOf frame 0 = 0x40 ∧
          unpackable (read (addressed frame)) = true) := by
  refine or_congr decide_eq_true_iff ⟨?_,?_⟩
  · rintro ⟨key,hkey,hread⟩
    change (if _ then some (addressed frame) else none) = some key at hkey
    split at hkey
    · rename_i h
      cases hkey
      exact ⟨⟨h.1,h.2.1⟩,h.2.2,hread⟩
    · cases hkey
  · rintro ⟨hf,hcommand,hread⟩
    exact ⟨addressed frame,if_pos ⟨hf.1,hf.2,hcommand⟩,hread⟩

theorem step_works {image : List UInt8} (himage : d.values (0x6200,1) = some image) (input : Input) :
    Works (step d input) ↔ ¬Raises d.nodeId d.state image (value d) input := by
  have hid := node_bound d.nodeId
  cases input with
  | beat =>
    refine iff_of_true (sent_works d (Nat.le_refl 0x700) (by simp)) ?_
    rintro (hc | ⟨key,hc,-⟩)
    · cases hc
    · cases hc
  | frame frame =>
    rw [raises_frame]
    show Works (handle d frame) ↔ _
    unfold handle
    by_cases hnmt : frame.cobId = 0x000 ∧ frame.data.length = 2
    · rw [if_pos hnmt]
      refine iff_of_true (nmt_works d _ _) ?_
      rintro (hc | hc)
      · omega
      · omega
    rw [if_neg hnmt]
    by_cases hrequest : frame.cobId = 0x600+d.nodeId.1 ∧ frame.data.length = 8
    · rw [if_pos hrequest,sdo_works,and_iff_right hrequest,or_iff_right]
      rintro ⟨hc,-⟩
      omega
    rw [if_neg hrequest]
    have hquiet : ¬(frame.cobId = 0x080 ∧ frame.data.length = 0 ∧ d.state = 0x05) →
        ¬((frame.cobId = 0x080 ∧ frame.data.length = 0 ∧ d.state = 0x05 ∧ 8 < image.length) ∨
          ((frame.cobId = 0x600+d.nodeId.1 ∧ frame.data.length = 8) ∧ byteOf frame 0 = 0x40 ∧
            unpackable (value d (addressed frame)) = true)) := by
      rintro hsync (hc | hc)
      · exact hsync ⟨hc.1,hc.2.1,hc.2.2.1⟩
      · exact hrequest hc.1
    by_cases houtput : frame.cobId = 0x200+d.nodeId.1 ∧ 2 ≤ frame.data.length
    · rw [if_pos houtput]
      exact iff_of_true ⟨_,rfl⟩ (hquiet fun hc => by omega)
    rw [if_neg houtput]
    by_cases hsync : frame.cobId = 0x080 ∧ frame.data.length = 0 ∧ d.state = 0x05
    · rw [if_pos hsync,himage]
      dsimp only
      rw [sent_limit d (by decide),← Nat.not_lt,not_iff_not]
      constructor
      · intro hc
        exact Or.inl ⟨hsync.1,hsync.2.1,hsync.2.2,hc⟩
      · rintro (hc | hc)
        · exact hc.2.2.2
        · exact absurd hc.1 hrequest
    rw [if_neg hsync]
    refine iff_of_true ?_ (hquiet hsync)
    split
    · unfold handleLss
      split
      · obtain ⟨f,hsent,-⟩ := sent_ok d (show 0x7E4 ≤ 0x7FF by decide)
          (show [(0x4F : UInt8),0,0,0,0,0,0,0].length ≤ 8 from Nat.le_refl 8)
        exact ⟨_,hsent⟩
      · exact ⟨_,rfl⟩
    · exact ⟨_,rfl⟩

end Raising

section Run
variable (nodeId : NodeId) (heartbeatMs : ℕ) (heartbeat : List UInt8)

structure Accounted (d₀ : Device) (p : Except PyError Device) (past : List Exchange) : Prop where
  due : Always (fun before x =>
    DueIn d₀.nodeId (stateOf d₀.nodeId before) (imageOf d₀.nodeId before) x) past
  running : ∀ d, p = .ok d → Follows d₀ d past ∧ d.state = stateOf d₀.nodeId past

theorem image_told {d : Device} {past : List Exchange}
    (h : Follows (device nodeId heartbeatMs heartbeat) d past) :
    d.values (0x6200,1) = some (imageOf nodeId past) := by
  have hunmapped : d.mapping (0x6200,1) = none := by
    by_contra hc
    exact absurd (h.mapped _ hc) (by decide)
  have hvalue : value d (0x6200,1) = .ok (d.values (0x6200,1)) := by rw [value,hunmapped]
  have hread : readAs (device nodeId heartbeatMs heartbeat) (0x6200,1) past =
      .ok (some (imageOf nodeId past)) := by
    have hnode : (device nodeId heartbeatMs heartbeat).nodeId = nodeId := rfl
    unfold readAs imageOf
    rw [hnode]
    cases latest (writtenTo (0x6200,1)) (writes nodeId past) with
    | none => rfl
    | some bytes => rfl
  exact Except.ok.inj (hvalue.symm.trans ((h.objects (0x6200,1)).trans hread))

theorem accounted_step {p : Except PyError Device} {past : List Exchange} (input : Input)
    (h : Accounted (device nodeId heartbeatMs heartbeat) p past) :
    Accounted (device nodeId heartbeatMs heartbeat) (processStep p input).1
      (past++(processStep p input).2) := by
  cases p with
  | error e =>
    refine ⟨?_,?_⟩
    · rw [processStep,List.append_nil]
      exact h.due
    · rintro d ⟨⟩
  | ok d =>
    obtain ⟨hfollows,hstate⟩ := h.running d rfl
    have hid : d.nodeId = nodeId := hfollows.nodeId
    cases hs : step d input with
    | error e =>
      rw [process_raised hs,List.append_nil]
      refine ⟨h.due,?_⟩
      rintro d ⟨⟩
    | ok next =>
      obtain ⟨after,frames⟩ := next
      obtain ⟨hnext,hframes⟩ := step_due hs
      obtain ⟨hnode,hmapped,heffect⟩ := input_step hfollows.mapped hs
      rw [hid] at hnext hframes heffect
      rw [process_ok hs]
      refine ⟨always_concat h.due ?_,?_⟩
      · rw [hstate,image_told nodeId heartbeatMs heartbeat hfollows] at hframes
        exact hframes
      · rintro _ ⟨⟩
        refine ⟨effect_follows hfollows hnode hmapped heffect,?_⟩
        rw [hnext,hstate]
        unfold stateOf
        rw [latest_concat]
        exact (Option.getD_or ..).symm

theorem run_accounted (inputs : List Input) :
    let done := run processStep (.ok (device nodeId heartbeatMs heartbeat)) inputs
    Accounted (device nodeId heartbeatMs heartbeat) done.1 done.2 := by
  have hstart : Accounted (device nodeId heartbeatMs heartbeat)
      (.ok (device nodeId heartbeatMs heartbeat)) [] := by
    refine ⟨always_nil,?_⟩
    rintro _ ⟨⟩
    exact ⟨device_follows nodeId heartbeatMs heartbeat,rfl⟩
  exact along_history processStep (fun _ _ => True) (Accounted _)
    (fun _ _ input h _ => accounted_step nodeId heartbeatMs heartbeat input h) _ [] inputs hstart
    (along_true ..)

/-- Of everything but SDO requests, the device sends exactly what is due by the
frames before: the state commanded last, and the image written last. -/
theorem answers_due (inputs : List Input) :
    Always (fun before x => DueIn nodeId (stateOf nodeId before) (imageOf nodeId before) x)
      (run processStep (.ok (device nodeId heartbeatMs heartbeat)) inputs).2 :=
  (run_accounted nodeId heartbeatMs heartbeat inputs).due

/-- An input that ends the device, told from the frames before it. -/
def EndedBy (d₀ : Device) (past : List Exchange) : Input → Prop :=
  Raises d₀.nodeId (stateOf d₀.nodeId past) (imageOf d₀.nodeId past) fun key => readAs d₀ key past

theorem step_ended {before : List Input} {d : Device} (input : Input)
    (h : (run processStep (.ok (device nodeId heartbeatMs heartbeat)) before).1 = .ok d) :
    (∃ e, step d input = .error e) ↔ EndedBy (device nodeId heartbeatMs heartbeat)
      (run processStep (.ok (device nodeId heartbeatMs heartbeat)) before).2 input := by
  obtain ⟨hfollows,hstate⟩ := (run_accounted nodeId heartbeatMs heartbeat before).running d h
  have hworks := step_works (image_told nodeId heartbeatMs heartbeat hfollows) input
  have hid : d.nodeId = nodeId := hfollows.nodeId
  rw [funext hfollows.objects,hid,hstate] at hworks
  rw [← not_iff_not,← works_iff]
  exact hworks

/-- The device is ended by a SYNC that the image written last does not fit, or
by a read of what was written last and cannot be packed, and by nothing else. -/
theorem ended_iff (inputs : List Input) :
    (∃ e, (run processStep (.ok (device nodeId heartbeatMs heartbeat)) inputs).1 = .error e) ↔
      ∃ before input after, inputs = before++input::after ∧
        EndedBy (device nodeId heartbeatMs heartbeat)
          (run processStep (.ok (device nodeId heartbeatMs heartbeat)) before).2 input := by
  constructor
  · induction inputs using List.reverseRecOn with
    | nil =>
      rintro ⟨e,he⟩
      cases he
    | append_singleton inputs input ih =>
      rintro ⟨e,he⟩
      cases hp : (run processStep (.ok (device nodeId heartbeatMs heartbeat)) inputs).1 with
      | error e' =>
        obtain ⟨before,raising,after,hsplit,hraises⟩ := ih ⟨e',hp⟩
        exact ⟨before,raising,after++[input],by rw [hsplit]; simp,hraises⟩
      | ok d =>
        refine ⟨inputs,input,[],rfl,(step_ended nodeId heartbeatMs heartbeat input hp).mp ?_⟩
        rw [run_concat,hp] at he
        cases hs : step d input with
        | error e' => exact ⟨e',rfl⟩
        | ok next =>
          rw [process_ok hs] at he
          cases he
  · rintro ⟨before,input,after,rfl,hraises⟩
    rw [run_append,run_cons]
    cases hp : (run processStep (.ok (device nodeId heartbeatMs heartbeat)) before).1 with
    | error e => exact ⟨e,by rw [processStep,run_raised]⟩
    | ok d =>
      obtain ⟨e,he⟩ := (step_ended nodeId heartbeatMs heartbeat input hp).mpr hraises
      exact ⟨e,by rw [process_raised he,run_raised]⟩

-- nine bytes written into the image end the device at the next SYNC once it is operational
example : (run processStep (.ok startedDevice)
    [.frame (sdoFrame [0x21,0x00,0x62,0x01,9,0,0,0] (by decide)),
      .frame (sdoFrame [0x00,1,2,3,4,5,6,7] (by decide)),
      .frame (sdoFrame [0x1B,8,9,0,0,0,0,0] (by decide)),
      .frame startFrame,.frame syncFrame]).1 = .error .valueError := rfl

end Run

end CanopenReference.VcanTraffic
