import Mathlib.Data.List.Basic
import CanopenReference.Library.Runs

/-!
# Rings with one producer and one consumer

The producer fills a slot by single accesses and then publishes its index; the
consumer copies a slot by single accesses and then releases its index. One slot
stays free. Any interleaving of the accesses hands over what was accepted, in
order and whole.
-/

set_option autoImplicit false

namespace Library.Ring
open Runs

inductive Screening where
  | taken
  | passed
  | invalid
  deriving DecidableEq

structure Access (F S C : Type*) where
  capacity : ℕ
  next : ℕ → ℕ
  screen : F → Screening
  writes : F → List (S → S)
  reads : List (S → C → C)
  blank : C
  countsAccepted : Bool

inductive Producer (F S : Type*) where
  | idle
  | entered (item : F)
  | loadedHead (item : F) (head : ℕ)
  | full
  | filling (item : F) (head : ℕ) (todo : List (S → S))
  | published

inductive Consumer (S C : Type*) where
  | idle
  | loadedTail (tail : ℕ)
  | fetching (tail : ℕ) (copy : C) (todo : List (S → C → C))

structure State (F S C : Type*) where
  slots : ℕ → S
  head : ℕ
  tail : ℕ
  accepted : UInt32
  overflow : UInt32
  invalid : UInt32
  producer : Producer F S
  consumer : Consumer S C

/-- Who makes the next access. An interrupt brings the producer an item. -/
inductive Move (F : Type*) where
  | interrupt (item : F)
  | produce
  | consume

inductive Event (F C : Type*) where
  | offered (item : F)
  | refused (item : F)
  | accepted (item : F)
  | popped (copy : C)

section Steps
variable {F S C : Type*} (access : Access F S C) (s : State F S C)

def setSlot (slots : ℕ → S) (index : ℕ) (value : S) : ℕ → S :=
  fun other => if other = index then value else slots other

def interrupt (item : F) : State F S C × List (Event F C) :=
  match s.producer with
  | .idle =>
    match access.screen item with
    | .taken => ({ s with producer := .entered item },[.offered item])
    | .passed => (s,[])
    | .invalid => ({ s with invalid := s.invalid+1 },[])
  | _ => (s,[])

def produce : State F S C × List (Event F C) :=
  match s.producer with
  | .idle => (s,[])
  | .entered item => ({ s with producer := .loadedHead item s.head },[])
  | .loadedHead item head =>
    if access.next head = s.tail then ({ s with producer := .full },[.refused item])
    else ({ s with producer := .filling item head (access.writes item) },[])
  | .full => ({ s with producer := .idle, overflow := s.overflow+1 },[])
  | .filling item head (write::todo) =>
    ({ s with
        slots := setSlot s.slots head (write (s.slots head))
        producer := .filling item head todo },[])
  | .filling item head [] =>
    ({ s with
        head := access.next head
        producer := if access.countsAccepted then .published else .idle },[.accepted item])
  | .published => ({ s with producer := .idle, accepted := s.accepted+1 },[])

def consume : State F S C × List (Event F C) :=
  match s.consumer with
  | .idle => ({ s with consumer := .loadedTail s.tail },[])
  | .loadedTail tail =>
    if tail = s.head then ({ s with consumer := .idle },[])
    else ({ s with consumer := .fetching tail access.blank access.reads },[])
  | .fetching tail copy (read::todo) =>
    ({ s with consumer := .fetching tail (read (s.slots tail) copy) todo },[])
  | .fetching tail copy [] =>
    ({ s with tail := access.next tail, consumer := .idle },[.popped copy])

def step (s : State F S C) : Move F → State F S C × List (Event F C)
  | .interrupt item => interrupt access s item
  | .produce => produce access s
  | .consume => consume access s

/-- An empty ring; its slots hold anything. -/
def start (slots : ℕ → S) : State F S C := ⟨slots,0,0,0,0,0,.idle,.idle⟩

end Steps

section Histories
variable {F C : Type*}

def accepted (history : List (Event F C)) : List F :=
  history.filterMap fun e => match e with
    | .accepted item => some item
    | _ => none

def popped (history : List (Event F C)) : List C :=
  history.filterMap fun e => match e with
    | .popped copy => some copy
    | _ => none

def refused (history : List (Event F C)) : List F :=
  history.filterMap fun e => match e with
    | .refused item => some item
    | _ => none

def offered (history : List (Event F C)) : List F :=
  history.filterMap fun e => match e with
    | .offered item => some item
    | _ => none

def settled (history : List (Event F C)) : List F :=
  history.filterMap fun e => match e with
    | .accepted item => some item
    | .refused item => some item
    | _ => none

def RefusedFull (capacity : ℕ) (before : List (Event F C)) (e : Event F C) : Prop :=
  ∀ item, e = .refused item → (accepted before).length+1 = (popped before).length+capacity

end Histories

def pending {F S : Type*} : Producer F S → List F
  | .entered item => [item]
  | .loadedHead item _ => [item]
  | .filling item _ _ => [item]
  | _ => []

/-- A slot can be filled with any item and copied back: `Holds` says which item
a slot holds, `content` and `result` what is to be handed over. -/
structure Lawful {F S C V : Type*} (access : Access F S C) (Holds : S → F → Prop) (content : F → V)
    (result : C → V) : Prop where
  room : 0 < access.capacity
  next : ∀ k, access.next (k%access.capacity) = (k+1)%access.capacity
  fill : ∀ item slot, Holds ((access.writes item).foldl (fun s write => write s) slot) item
  fetch : ∀ item slot, Holds slot item →
    result (access.reads.foldl (fun copy read => read slot copy) access.blank) = content item

/-- The slots from the tail on hold the unread items. Neither side works on a
slot that the other one may touch, and each finishes what it has begun. -/
structure Synced {F S C V : Type*} (access : Access F S C) (Holds : S → F → Prop) (content : F → V)
    (result : C → V) (s : State F S C) (past : List (Event F C)) (unread : List F) : Prop where
  order : (accepted past).map content = (popped past).map result++unread.map content
  bounded : unread.length < access.capacity
  head : s.head = ((popped past).length+unread.length)%access.capacity
  tail : s.tail = (popped past).length%access.capacity
  held : ∀ i item, unread[i]? = some item →
    Holds (s.slots (((popped past).length+i)%access.capacity)) item
  looking : ∀ item head, s.producer = .loadedHead item head → head = s.head
  filling : ∀ item head todo, s.producer = .filling item head todo →
    head = s.head ∧ unread.length+1 < access.capacity ∧
      Holds (todo.foldl (fun slot write => write slot) (s.slots head)) item
  draining : ∀ tail, s.consumer = .loadedTail tail → tail = s.tail
  fetching : ∀ tail copy todo, s.consumer = .fetching tail copy todo →
    tail = s.tail ∧ ∃ item rest, unread = item::rest ∧
      result (todo.foldl (fun copy read => read (s.slots tail) copy) copy) = content item

structure Accounted {F S C : Type*} (access : Access F S C) (s : State F S C)
    (past : List (Event F C)) : Prop where
  full : Always (RefusedFull access.capacity) past
  counted : (match s.producer with | .full => s.overflow+1 | _ => s.overflow) =
    UInt32.ofNat (refused past).length
  handled : offered past = settled past++pending s.producer

theorem turn_apart {n a b : ℕ} (h : a < b) (hb : b < a+n) : a%n ≠ b%n := by
  intro hc
  have hzero := Nat.sub_mod_eq_zero_of_mod_eq hc.symm
  rw [Nat.mod_eq_of_lt (by omega)] at hzero
  omega

section Synced
variable {F S C V : Type*} {access : Access F S C} {Holds : S → F → Prop} {content : F → V}
  {result : C → V} {s : State F S C} {past : List (Event F C)} {unread : List F}

theorem setSlot_self (slots : ℕ → S) (index : ℕ) (value : S) :
    setSlot slots index value index = value := if_pos rfl

theorem setSlot_other (slots : ℕ → S) {index other : ℕ} (value : S) (h : other ≠ index) :
    setSlot slots index value other = slots other := if_neg h

theorem accepted_length (h : Synced access Holds content result s past unread) :
    (accepted past).length = (popped past).length+unread.length := by
  have hl := congrArg List.length h.order
  simpa only [List.length_map,List.length_append] using hl

theorem full_iff (law : Lawful access Holds content result)
    (h : Synced access Holds content result s past unread) :
    access.next s.head = s.tail ↔ unread.length+1 = access.capacity := by
  have hbounded := h.bounded
  rw [h.head,h.tail,law.next]
  constructor
  · intro he
    by_contra hne
    exact turn_apart (a := (popped past).length) (by omega) (by omega) he.symm
  · intro he
    rw [Nat.add_assoc,he,Nat.add_mod_right]

theorem empty_iff (h : Synced access Holds content result s past unread) :
    s.tail = s.head ↔ unread = [] := by
  have hbounded := h.bounded
  rw [h.head,h.tail]
  constructor
  · intro he
    by_contra hne
    have hpos := List.length_pos_of_ne_nil hne
    exact turn_apart (by omega) (by omega) he
  · rintro rfl
    rfl

theorem head_apart (h : Synced access Holds content result s past unread) {i : ℕ}
    (hi : i < unread.length) : ((popped past).length+i)%access.capacity ≠ s.head := by
  have hbounded := h.bounded
  rw [h.head]
  exact turn_apart (by omega) (by omega)

theorem synced_moved (h : Synced access Holds content result s past unread)
    {next : State F S C} {events : List (Event F C)} (haccepted : accepted events = [])
    (hpopped : popped events = []) (hslots : next.slots = s.slots) (hhead : next.head = s.head)
    (htail : next.tail = s.tail)
    (hlooking : ∀ item head, next.producer = .loadedHead item head → head = s.head)
    (hfilling : ∀ item head todo, next.producer = .filling item head todo →
      head = s.head ∧ unread.length+1 < access.capacity ∧
        Holds (todo.foldl (fun slot write => write slot) (s.slots head)) item)
    (hdraining : ∀ tail, next.consumer = .loadedTail tail → tail = s.tail)
    (hfetching : ∀ tail copy todo, next.consumer = .fetching tail copy todo →
      tail = s.tail ∧ ∃ item rest, unread = item::rest ∧
        result (todo.foldl (fun copy read => read (s.slots tail) copy) copy) = content item) :
    Synced access Holds content result next (past++events) unread := by
  have ha : accepted (past++events) = accepted past := by
    unfold accepted at haccepted ⊢
    rw [List.filterMap_append,haccepted,List.append_nil]
  have hp : popped (past++events) = popped past := by
    unfold popped at hpopped ⊢
    rw [List.filterMap_append,hpopped,List.append_nil]
  constructor
  · rw [ha,hp]
    exact h.order
  · exact h.bounded
  · rw [hp,hhead]
    exact h.head
  · rw [hp,htail]
    exact h.tail
  · rw [hp,hslots]
    exact h.held
  · rw [hhead]
    exact hlooking
  · rw [hslots,hhead]
    exact hfilling
  · rw [htail]
    exact hdraining
  · rw [hslots,htail]
    exact hfetching

theorem interrupt_synced (h : Synced access Holds content result s past unread) (item : F) :
    Synced access Holds content result (interrupt access s item).1
      (past++(interrupt access s item).2) unread := by
  have hsame : Synced access Holds content result s (past++[]) unread := by
    rw [List.append_nil]
    exact h
  unfold interrupt
  split
  · split
    · exact synced_moved h rfl rfl rfl rfl rfl (fun _ _ hc => by cases hc)
        (fun _ _ _ hc => by cases hc) h.draining h.fetching
    · exact hsame
    · exact synced_moved h rfl rfl rfl rfl rfl h.looking h.filling h.draining h.fetching
  · exact hsame

theorem filled_synced (h : Synced access Holds content result s past unread) {item : F} {head : ℕ}
    {write : S → S} {todo : List (S → S)}
    (hp : s.producer = .filling item head (write::todo)) :
    Synced access Holds content result
      { s with
        slots := setSlot s.slots head (write (s.slots head))
        producer := .filling item head todo } past unread := by
  obtain ⟨rfl,hroom,hfinish⟩ := h.filling _ _ _ hp
  have hother : ∀ {i}, i < unread.length →
      setSlot s.slots s.head (write (s.slots s.head)) (((popped past).length+i)%access.capacity) =
        s.slots (((popped past).length+i)%access.capacity) :=
    fun hi => setSlot_other _ _ (head_apart h hi)
  constructor
  · exact h.order
  · exact h.bounded
  · exact h.head
  · exact h.tail
  · intro i x hx
    obtain ⟨hi,-⟩ := List.getElem?_eq_some_iff.mp hx
    show Holds (setSlot _ _ _ _) x
    rw [hother hi]
    exact h.held i x hx
  · exact fun _ _ hc => by cases hc
  · intro item' head' todo' hc
    cases hc
    refine ⟨rfl,hroom,?_⟩
    show Holds (todo.foldl _ (setSlot _ _ _ _)) item
    rw [setSlot_self]
    exact hfinish
  · exact h.draining
  · intro tail copy reads hc
    obtain ⟨ht,first,rest,hunread,hresult⟩ := h.fetching tail copy reads hc
    refine ⟨ht,first,rest,hunread,?_⟩
    have hzero := hother (i := 0) (by rw [hunread]; exact Nat.succ_pos _)
    rw [Nat.add_zero,← h.tail,← ht] at hzero
    show result (reads.foldl (fun copy read => read
      (setSlot s.slots s.head (write (s.slots s.head)) tail) copy) copy) = _
    rw [hzero]
    exact hresult

theorem published_synced (law : Lawful access Holds content result)
    (h : Synced access Holds content result s past unread) {item : F} {head : ℕ}
    (hp : s.producer = .filling item head []) {producer : Producer F S}
    (hproducer : producer = .published ∨ producer = .idle) :
    Synced access Holds content result
      { s with head := access.next head, producer := producer }
      (past++[.accepted item]) (unread++[item]) := by
  obtain ⟨rfl,hroom,hfinish⟩ := h.filling _ _ _ hp
  have ha : accepted (past++[Event.accepted item]) = accepted past++[item] := by
    unfold accepted
    rw [List.filterMap_append]
    rfl
  have hpop : popped (past++[Event.accepted item]) = popped past := by
    unfold popped
    rw [List.filterMap_append]
    exact List.append_nil _
  constructor
  · rw [ha,hpop,List.map_append,h.order,List.map_append,List.append_assoc]
  · rw [List.length_append]
    exact hroom
  · show access.next s.head = _
    rw [hpop,List.length_append,h.head,law.next]
    rfl
  · rw [hpop]
    exact h.tail
  · intro i x hx
    rw [hpop]
    by_cases hi : i < unread.length
    · rw [List.getElem?_append_left hi] at hx
      exact h.held i x hx
    · rw [List.getElem?_append_right (by omega)] at hx
      have hlast : i-unread.length = 0 ∧ x = item := by
        cases hk : i-unread.length with
        | zero =>
          rw [hk] at hx
          cases hx
          exact ⟨rfl,rfl⟩
        | succ k =>
          rw [hk] at hx
          cases hx
      obtain ⟨hi',rfl⟩ := hlast
      rw [show i = unread.length by omega,← h.head]
      exact hfinish
  · rcases hproducer with rfl | rfl <;> exact fun _ _ hc => by cases hc
  · rcases hproducer with rfl | rfl <;> exact fun _ _ _ hc => by cases hc
  · exact h.draining
  · intro tail copy reads hc
    obtain ⟨ht,first,rest,hunread,hresult⟩ := h.fetching tail copy reads hc
    exact ⟨ht,first,rest++[item],by rw [hunread]; rfl,hresult⟩

theorem produce_synced (law : Lawful access Holds content result)
    (h : Synced access Holds content result s past unread) :
    ∃ unread', Synced access Holds content result (produce access s).1
      (past++(produce access s).2) unread' := by
  unfold produce
  split
  · exact ⟨unread,by rwa [List.append_nil]⟩
  · refine ⟨unread,synced_moved h rfl rfl rfl rfl rfl (fun _ _ hc => ?_)
      (fun _ _ _ hc => by cases hc) h.draining h.fetching⟩
    cases hc
    rfl
  · rename_i item head hp
    have hhead := h.looking item head hp
    split
    · exact ⟨unread,synced_moved h rfl rfl rfl rfl rfl (fun _ _ hc => by cases hc)
        (fun _ _ _ hc => by cases hc) h.draining h.fetching⟩
    · rename_i hfull
      rw [hhead,full_iff law h] at hfull
      have hbounded := h.bounded
      refine ⟨unread,synced_moved h rfl rfl rfl rfl rfl (fun _ _ hc => by cases hc)
        (fun _ _ _ hc => ?_) h.draining h.fetching⟩
      cases hc
      exact ⟨hhead,by omega,law.fill item _⟩
  · exact ⟨unread,synced_moved h rfl rfl rfl rfl rfl (fun _ _ hc => by cases hc)
      (fun _ _ _ hc => by cases hc) h.draining h.fetching⟩
  · rename_i item head write todo hp
    refine ⟨unread,?_⟩
    rw [List.append_nil]
    exact filled_synced h hp
  · rename_i item head hp
    refine ⟨unread++[item],published_synced law h hp ?_⟩
    split
    · exact Or.inl rfl
    · exact Or.inr rfl
  · exact ⟨unread,synced_moved h rfl rfl rfl rfl rfl (fun _ _ hc => by cases hc)
      (fun _ _ _ hc => by cases hc) h.draining h.fetching⟩

theorem released_synced (law : Lawful access Holds content result)
    (h : Synced access Holds content result s past unread) {tail : ℕ} {copy : C}
    (hc : s.consumer = .fetching tail copy []) :
    ∃ unread', Synced access Holds content result
      { s with tail := access.next tail, consumer := .idle } (past++[.popped copy]) unread' := by
  obtain ⟨rfl,item,rest,rfl,hresult⟩ := h.fetching _ _ _ hc
  have hresult : result copy = content item := hresult
  have ha : accepted (past++[Event.popped copy]) = accepted past := by
    unfold accepted
    rw [List.filterMap_append]
    exact List.append_nil _
  have hpop : popped (past++[Event.popped copy]) = popped past++[copy] := by
    unfold popped
    rw [List.filterMap_append]
    rfl
  have hlength : (popped (past++[Event.popped copy])).length = (popped past).length+1 := by
    rw [hpop,List.length_append]
    rfl
  have hbounded := h.bounded
  rw [List.length_cons] at hbounded
  refine ⟨rest,?_⟩
  constructor
  · rw [ha,hpop,h.order,List.map_append,List.append_assoc]
    show _ = _++([result copy]++_)
    rw [hresult]
    rfl
  · omega
  · show s.head = _
    rw [hlength,h.head,List.length_cons,Nat.add_assoc,Nat.add_comm 1]
  · show access.next s.tail = _
    rw [hlength,h.tail,law.next]
  · intro i x hx
    rw [hlength,Nat.add_assoc,Nat.add_comm 1]
    exact h.held (i+1) x hx
  · exact h.looking
  · intro item' head todo hp
    obtain ⟨hhead,hroom,hfinish⟩ := h.filling item' head todo hp
    rw [List.length_cons] at hroom
    exact ⟨hhead,by omega,hfinish⟩
  · exact fun _ hc => by cases hc
  · exact fun _ _ _ hc => by cases hc

theorem consume_synced (law : Lawful access Holds content result)
    (h : Synced access Holds content result s past unread) :
    ∃ unread', Synced access Holds content result (consume access s).1
      (past++(consume access s).2) unread' := by
  unfold consume
  split
  · refine ⟨unread,synced_moved h rfl rfl rfl rfl rfl h.looking h.filling (fun _ hc => ?_)
      (fun _ _ _ hc => by cases hc)⟩
    cases hc
    rfl
  · rename_i tail hc
    have htail := h.draining tail hc
    split
    · exact ⟨unread,synced_moved h rfl rfl rfl rfl rfl h.looking h.filling
        (fun _ hc => by cases hc) (fun _ _ _ hc => by cases hc)⟩
    · rename_i hempty
      rw [htail,empty_iff h] at hempty
      refine ⟨unread,synced_moved h rfl rfl rfl rfl rfl h.looking h.filling
        (fun _ hc => by cases hc) (fun _ _ _ hc => ?_)⟩
      cases hc
      obtain ⟨item,rest,hunread⟩ := List.exists_cons_of_ne_nil hempty
      refine ⟨htail,item,rest,hunread,law.fetch item _ ?_⟩
      have hheld := h.held 0 item (by rw [hunread]; rfl)
      rwa [Nat.add_zero,← h.tail,← htail] at hheld
  · rename_i tail copy read todo hc
    obtain ⟨htail,item,rest,hunread,hresult⟩ := h.fetching _ _ _ hc
    refine ⟨unread,synced_moved h rfl rfl rfl rfl rfl h.looking h.filling
      (fun _ hc => by cases hc) (fun _ _ _ hc => ?_)⟩
    cases hc
    exact ⟨htail,item,rest,hunread,hresult⟩
  · rename_i tail copy hc
    exact released_synced law h hc

end Synced

section Accounted
variable {F S C V : Type*} {access : Access F S C} {Holds : S → F → Prop} {content : F → V}
  {result : C → V} {s : State F S C} {past : List (Event F C)} {unread : List F}

theorem full_concat (h : Always (RefusedFull access.capacity) past) {e : Event F C}
    (he : ∀ item, e ≠ .refused item) : Always (RefusedFull access.capacity) (past++[e]) :=
  always_concat h fun item hc => absurd hc (he item)

theorem interrupt_accounted (h : Accounted access s past) (item : F) :
    Accounted access (interrupt access s item).1 (past++(interrupt access s item).2) := by
  have hsame : Accounted access s (past++[]) := by
    rw [List.append_nil]
    exact h
  unfold interrupt
  split
  · rename_i hidle
    have hcounted := h.counted
    have hhandled := h.handled
    rw [hidle] at hcounted hhandled
    split
    · refine ⟨full_concat h.full (fun _ hc => by cases hc),?_,?_⟩
      · simpa [refused] using hcounted
      · simpa [offered,settled,pending] using hhandled
    · exact hsame
    · refine ⟨?_,?_,?_⟩
      · rw [List.append_nil]
        exact h.full
      · rw [List.append_nil]
        exact h.counted
      · rw [List.append_nil]
        exact h.handled
  · exact hsame

theorem produce_accounted (law : Lawful access Holds content result)
    (hs : Synced access Holds content result s past unread) (h : Accounted access s past) :
    Accounted access (produce access s).1 (past++(produce access s).2) := by
  obtain ⟨hfull,hcounted,hhandled⟩ := h
  unfold produce
  split
  · rename_i hp
    rw [List.append_nil]
    exact ⟨hfull,hcounted,hhandled⟩
  · rename_i item hp
    rw [hp] at hcounted hhandled
    rw [List.append_nil]
    exact ⟨hfull,hcounted,hhandled⟩
  · rename_i item head hp
    rw [hp] at hcounted hhandled
    split
    · rename_i hmeets
      rw [hs.looking item head hp,full_iff law hs] at hmeets
      refine ⟨always_concat hfull fun _ _ => ?_,?_,?_⟩
      · rw [accepted_length hs]
        omega
      · show s.overflow+1 = UInt32.ofNat (refused (past++[.refused item])).length
        have hcounted : s.overflow = UInt32.ofNat (refused past).length := hcounted
        rw [hcounted]
        simp [refused,UInt32.ofNat_add]
      · simpa [offered,settled,pending] using hhandled
    · rw [List.append_nil]
      exact ⟨hfull,hcounted,hhandled⟩
  · rename_i hp
    rw [hp] at hcounted hhandled
    rw [List.append_nil]
    exact ⟨hfull,hcounted,hhandled⟩
  · rename_i item head write todo hp
    rw [hp] at hcounted hhandled
    rw [List.append_nil]
    exact ⟨hfull,hcounted,hhandled⟩
  · rename_i item head hp
    rw [hp] at hcounted hhandled
    refine ⟨full_concat hfull (fun _ hc => by cases hc),?_,?_⟩
    · have hcounted : s.overflow = UInt32.ofNat (refused past).length := hcounted
      by_cases hcounts : access.countsAccepted = true <;> simpa [hcounts,refused] using hcounted
    · by_cases hcounts : access.countsAccepted = true <;>
        simpa [hcounts,offered,settled,pending] using hhandled
  · rename_i hp
    rw [hp] at hcounted hhandled
    rw [List.append_nil]
    exact ⟨hfull,hcounted,hhandled⟩

theorem consume_accounted (h : Accounted access s past) :
    Accounted access (consume access s).1 (past++(consume access s).2) := by
  obtain ⟨hfull,hcounted,hhandled⟩ := h
  unfold consume
  split
  · rw [List.append_nil]
    exact ⟨hfull,hcounted,hhandled⟩
  · split <;> rw [List.append_nil] <;> exact ⟨hfull,hcounted,hhandled⟩
  · rw [List.append_nil]
    exact ⟨hfull,hcounted,hhandled⟩
  · refine ⟨full_concat hfull (fun _ hc => by cases hc),?_,?_⟩
    · simpa [refused] using hcounted
    · simpa [offered,settled] using hhandled

theorem ring_step (law : Lawful access Holds content result) (move : Move F)
    (h : (∃ unread, Synced access Holds content result s past unread) ∧ Accounted access s past) :
    (∃ unread, Synced access Holds content result (step access s move).1
        (past++(step access s move).2) unread) ∧
      Accounted access (step access s move).1 (past++(step access s move).2) := by
  obtain ⟨⟨unread,hs⟩,ha⟩ := h
  cases move with
  | interrupt item => exact ⟨⟨unread,interrupt_synced hs item⟩,interrupt_accounted ha item⟩
  | produce => exact ⟨produce_synced law hs,produce_accounted law hs ha⟩
  | consume => exact ⟨consume_synced law hs,consume_accounted ha⟩

end Accounted

/-- A ring that hands over what it accepted, in order and whole. It refuses
an item only while all slots but one are unread, and counts this; everything
else that was offered it takes. -/
structure HandsOver {F S C V : Type*} (access : Access F S C) (content : F → V) (result : C → V)
    (s : State F S C) (history : List (Event F C)) : Prop where
  order : (popped history).map result <+: (accepted history).map content
  full : Always (RefusedFull access.capacity) history
  counted : (match s.producer with | .full => s.overflow+1 | _ => s.overflow) =
    UInt32.ofNat (refused history).length
  handled : offered history = settled history++pending s.producer

theorem ring_run {F S C V : Type*} {access : Access F S C} {Holds : S → F → Prop} {content : F → V}
    {result : C → V} (law : Lawful access Holds content result) (slots : ℕ → S)
    (moves : List (Move F)) :
    HandsOver access content result (run (step access) (start slots) moves).1
      (run (step access) (start slots) moves).2 := by
  have h := along_history (step access) (fun _ _ => True)
    (fun s past => (∃ unread, Synced access Holds content result s past unread) ∧
      Accounted access s past) (fun s past move h _ => ring_step law move h)
    (start slots) [] moves ?_ (along_true _ _ _)
  · rw [List.nil_append] at h
    obtain ⟨⟨unread,hs⟩,ha⟩ := h
    exact ⟨⟨unread.map content,hs.order.symm⟩,ha.full,ha.counted,ha.handled⟩
  · refine ⟨⟨[],?_⟩,always_nil,rfl,rfl⟩
    constructor
    · rfl
    · exact law.room
    · exact (Nat.zero_mod _).symm
    · exact (Nat.zero_mod _).symm
    · exact fun _ _ hc => by cases hc
    · exact fun _ _ hc => by cases hc
    · exact fun _ _ _ hc => by cases hc
    · exact fun _ hc => by cases hc
    · exact fun _ _ _ hc => by cases hc

section Alone
variable {F S C : Type*} {access : Access F S C} {s : State F S C}

theorem run_idle (h : s.producer = .idle) (n : ℕ) :
    run (step access) s (List.replicate n .produce) = (s,[]) := by
  induction n with
  | zero => rfl
  | succ n ih =>
    have hstep : step access s .produce = (s,[]) := by
      show produce access s = _
      unfold produce
      rw [h]
    rw [List.replicate_succ,run_cons,hstep,ih]
    rfl

theorem run_filling {item : F} {head : ℕ} {todo : List (S → S)}
    (h : s.producer = .filling item head todo) :
    run (step access) s (List.replicate todo.length .produce) =
      ({ s with
          slots := setSlot s.slots head
            (todo.foldl (fun slot write => write slot) (s.slots head))
          producer := .filling item head [] },[]) := by
  induction todo generalizing s with
  | nil =>
    have hslots : setSlot s.slots head (s.slots head) = s.slots := by
      funext other
      by_cases ho : other = head
      · rw [ho,setSlot_self]
      · rw [setSlot_other _ _ ho]
    show (s,[]) = _
    rw [List.foldl_nil,hslots,← h]
  | cons write todo ih =>
    have hstep : step access s .produce =
        ({ s with
            slots := setSlot s.slots head (write (s.slots head))
            producer := .filling item head todo },[]) := by
      show produce access s = _
      unfold produce
      rw [h]
    rw [List.length_cons,List.replicate_succ,run_cons,hstep,ih rfl]
    have hslots : ∀ value, setSlot (setSlot s.slots head (write (s.slots head))) head value =
        setSlot s.slots head value := by
      intro value
      funext other
      by_cases ho : other = head
      · rw [ho,setSlot_self,setSlot_self]
      · rw [setSlot_other _ _ ho,setSlot_other _ _ ho,setSlot_other _ _ ho]
    simp only [hslots,setSlot_self,List.foldl_cons,List.append_nil]

theorem run_fetching {tail : ℕ} {copy : C} {todo : List (S → C → C)}
    (h : s.consumer = .fetching tail copy todo) :
    run (step access) s (List.replicate todo.length .consume) =
      ({ s with
          consumer := .fetching tail
            (todo.foldl (fun copy read => read (s.slots tail) copy) copy) [] },[]) := by
  induction todo generalizing s copy with
  | nil =>
    show (s,[]) = _
    rw [List.foldl_nil,← h]
  | cons read todo ih =>
    have hstep : step access s .consume =
        ({ s with consumer := .fetching tail (read (s.slots tail) copy) todo },[]) := by
      show consume access s = _
      unfold consume
      rw [h]
    rw [List.length_cons,List.replicate_succ,run_cons,hstep,ih rfl]
    rfl

/-- An interrupt that brings an item to an idle producer offers it, and the next
step loads the head. -/
theorem run_loaded (hidle : s.producer = .idle) {item : F} (htaken : access.screen item = .taken)
    (moves : List (Move F)) :
    run (step access) s (.interrupt item::.produce::moves) =
      ((run (step access) { s with producer := .loadedHead item s.head } moves).1,
        .offered item::(run (step access) { s with producer := .loadedHead item s.head } moves).2) := by
  have hentered : step access s (.interrupt item) =
      ({ s with producer := .entered item },[.offered item]) := by
    show interrupt access s item = _
    unfold interrupt
    rw [hidle,htaken]
  have hloaded : step access { s with producer := .entered item } .produce =
      ({ s with producer := .loadedHead item s.head },[]) := rfl
  rw [run_cons,hentered,run_cons,hloaded]
  rfl

/-- An interrupt that brings an item to an idle producer of a ring with room,
and runs to its end, adds the item. -/
theorem run_push (hidle : s.producer = .idle) {item : F} (htaken : access.screen item = .taken)
    (hroom : access.next s.head ≠ s.tail) (hcounts : access.countsAccepted = true) :
    run (step access) s
        (.interrupt item::List.replicate ((access.writes item).length+4) .produce) =
      ({ s with
          slots := setSlot s.slots s.head
            ((access.writes item).foldl (fun slot write => write slot) (s.slots s.head))
          head := access.next s.head
          accepted := s.accepted+1
          producer := .idle },[.offered item,.accepted item]) := by
  have hchecked : step access { s with producer := .loadedHead item s.head } .produce =
      ({ s with producer := .filling item s.head (access.writes item) },[]) := if_neg hroom
  have hfront : run (step access) s [.interrupt item,.produce,.produce] =
      ({ s with producer := .filling item s.head (access.writes item) },[.offered item]) := by
    rw [run_loaded hidle htaken,run_cons,hchecked]
    rfl
  have hsplit : ∀ n, Move.interrupt item::List.replicate (n+4) .produce =
      [.interrupt item,.produce,.produce]++(List.replicate n .produce++[.produce,.produce]) := by
    intro n
    rw [show [Move.produce,.produce] = List.replicate 2 (Move.produce : Move F) from rfl,
      List.replicate_append_replicate]
    rfl
  rw [hsplit,run_append,hfront,run_append,run_filling rfl]
  simp only [run_cons,run_nil,step,produce,hcounts,if_true,List.append_nil,List.nil_append,
    List.cons_append]

theorem run_refused (hidle : s.producer = .idle) {item : F} (htaken : access.screen item = .taken)
    (hfull : access.next s.head = s.tail) (n : ℕ) :
    run (step access) s (.interrupt item::List.replicate (n+3) .produce) =
      ({ s with producer := .idle, overflow := s.overflow+1 },[.offered item,.refused item]) := by
  have hchecked : step access { s with producer := .loadedHead item s.head } .produce =
      ({ s with producer := .full },[.refused item]) := if_pos hfull
  have hcounted : step access { s with producer := .full } .produce =
      ({ s with producer := .idle, overflow := s.overflow+1 },[]) := rfl
  rw [List.replicate_succ,List.replicate_succ,List.replicate_succ,run_loaded hidle htaken,run_cons,
    hchecked,run_cons,hcounted,run_idle rfl]
  rfl

/-- A call that brings an idle consumer to the end of a ring that holds
something hands over the copy of a slot. -/
theorem run_pop (hidle : s.consumer = .idle) (hsome : s.tail ≠ s.head) :
    run (step access) s (List.replicate (access.reads.length+3) .consume) =
      ({ s with tail := access.next s.tail, consumer := .idle },
        [.popped (access.reads.foldl (fun copy read => read (s.slots s.tail) copy)
          access.blank)]) := by
  have hloaded : step access s .consume = ({ s with consumer := .loadedTail s.tail },[]) := by
    show consume access s = _
    unfold consume
    rw [hidle]
  have hchecked : step access { s with consumer := .loadedTail s.tail } .consume =
      ({ s with consumer := .fetching s.tail access.blank access.reads },[]) := if_neg hsome
  have hfront : run (step access) s [.consume,.consume] =
      ({ s with consumer := .fetching s.tail access.blank access.reads },[]) := by
    rw [run_cons,hloaded,run_cons,hchecked]
    rfl
  have hsplit : ∀ n, List.replicate (n+3) (Move.consume : Move F) =
      [.consume,.consume]++(List.replicate n .consume++[.consume]) := by
    intro n
    rw [show [Move.consume] = List.replicate 1 (Move.consume : Move F) from rfl,
      List.replicate_append_replicate]
    rfl
  rw [hsplit,run_append,hfront,run_append,run_fetching rfl]
  rfl

end Alone

end Library.Ring
