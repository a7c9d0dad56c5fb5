import ManagedHeap.Proofs.Relocation

/-!
# Array operations as changes of a body

Each operation on a living array of a sound heap has exactly one outcome, and it
can be told from the body of the array and the options of the agent.  The functions
of this file give the change and the answer; the theorems say that performing the
operation carries that change out.
-/

namespace ManagedHeap

namespace Body

def put (options : Options) (array : ArrayHandle) (index : Nat) (value : Value)
    (body : Body) : Change :=
  if index < body.capacity then
    .settle { body with elements := putAt body.elements index value }
  else
    match options.growth.grownCapacity body.capacity (index + 1) with
    | .error error => .refuse [] error
    | .ok grown =>
        .moving options [.growing array body.capacity grown] grown
          ⟨0, grown, putAt body.elements index value⟩

def pop (body : Body) : Change :=
  .settle { body with elements := body.elements.dropLast }

def shift (body : Body) : Change :=
  if body.elements = [] then .settle body
  else .settle ⟨body.offset + 1, body.capacity - 1, body.elements.tail⟩

def unshift (options : Options) (array : ArrayHandle) (value : Value)
    (body : Body) : Change :=
  if body.offset = 0 then
    let headroom := options.growth.headroom body.elements.length
    .moving options [.reservingHeadroom array body.capacity headroom] (headroom + body.capacity)
      ⟨headroom - 1, body.capacity + 1, value :: body.elements⟩
  else .settle ⟨body.offset - 1, body.capacity + 1, value :: body.elements⟩

def reverse (body : Body) : Change :=
  .settle { body with elements := body.elements.reverse }

/-- Whether a length can be had within the capacity. -/
def Admits (body : Body) (length : Int) : Prop :=
  0 ≤ length ∧ length ≤ body.capacity

instance (body : Body) (length : Int) : Decidable (body.Admits length) :=
  inferInstanceAs (Decidable (_ ∧ _))

def setLength (length : Int) (body : Body) : Change :=
  if body.Admits length then
    .settle { body with elements := resize body.elements length.toNat }
  else .settle body

end Body

namespace ArrayMethod

def change (method : ArrayMethod) (options : Options) (array : ArrayHandle)
    (argument : Value) (body : Body) : Change :=
  match method with
  | .pop => body.pop
  | .push => body.put options array body.elements.length argument
  | .shift => body.shift
  | .unshift => body.unshift options array argument
  | .reverse => body.reverse

def answer (method : ArrayMethod) (array : ArrayHandle) (argument : Value)
    (elements : List Value) : Value :=
  match method with
  | .pop => elements.getLastD .undefined
  | .push => argument
  | .shift => elements.headD .undefined
  | .unshift => .undefined
  | .reverse => .array array

end ArrayMethod

/-! ## Changes that can be carried out -/

namespace Body

variable {body : Body} {options : Options} {array : ArrayHandle}

theorem Fits.suits_put (hfits : body.Fits) (index : Nat) (value : Value) :
    (body.put options array index value).Suits body := by
  have hlength := hfits.length_le
  have hsize := hfits.size_le
  have hput := length_putAt body.elements index value
  unfold put
  split
  · refine ⟨⟨?_, hsize⟩, rfl⟩
    change (putAt body.elements index value).length ≤ body.capacity
    omega
  · split
    · exact True.intro
    · rename_i grown hgrown
      obtain ⟨hrequired, hmax⟩ := GrowthPolicy.grownCapacity_bounds hgrown
      apply Change.suits_moving
      · intro _
        constructor
        · change (putAt body.elements index value).length ≤ grown
          omega
        · change 0 + grown ≤ maxCapacity
          omega
      · change 0 < 0 + grown
        omega

theorem Fits.suits_pop (hfits : body.Fits) : body.pop.Suits body := by
  refine ⟨⟨?_, hfits.size_le⟩, rfl⟩
  have hlength := hfits.length_le
  have hdrop : body.elements.dropLast.length = body.elements.length - 1 :=
    List.length_dropLast
  change body.elements.dropLast.length ≤ body.capacity
  omega

theorem Fits.suits_shift (hfits : body.Fits) : body.shift.Suits body := by
  have hlength := hfits.length_le
  have hsize := hfits.size_le
  unfold shift
  split
  · exact ⟨hfits, rfl⟩
  · rename_i hne
    have hpos := List.length_pos_iff.2 hne
    have htail : body.elements.tail.length = body.elements.length - 1 := List.length_tail
    refine ⟨⟨?_, ?_⟩, ?_⟩
    · change body.elements.tail.length ≤ body.capacity - 1
      omega
    · change body.offset + 1 + (body.capacity - 1) ≤ maxCapacity
      omega
    · change body.offset + 1 + (body.capacity - 1) = body.offset + body.capacity
      omega

theorem Fits.suits_unshift (hfits : body.Fits) (value : Value) :
    (body.unshift options array value).Suits body := by
  have hlength := hfits.length_le
  have hsize := hfits.size_le
  have hpos := options.growth.headroom_pos body.elements.length
  unfold unshift
  split
  · apply Change.suits_moving
    · intro hroom
      refine ⟨Nat.succ_le_succ hlength, ?_⟩
      change options.growth.headroom body.elements.length - 1 + (body.capacity + 1) ≤ maxCapacity
      omega
    · exact Nat.add_pos_right _ (Nat.succ_pos _)
  · refine ⟨⟨Nat.succ_le_succ hlength, ?_⟩, ?_⟩
    · change body.offset - 1 + (body.capacity + 1) ≤ maxCapacity
      omega
    · change body.offset - 1 + (body.capacity + 1) = body.offset + body.capacity
      omega

theorem Fits.suits_reverse (hfits : body.Fits) : body.reverse.Suits body := by
  refine ⟨⟨?_, hfits.size_le⟩, rfl⟩
  change body.elements.reverse.length ≤ body.capacity
  rw [List.length_reverse]
  exact hfits.length_le

theorem Fits.suits_setLength (hfits : body.Fits) (length : Int) :
    (body.setLength length).Suits body := by
  unfold setLength
  split
  · rename_i hadmits
    have hbounds : 0 ≤ length ∧ length ≤ body.capacity := hadmits
    refine ⟨⟨?_, hfits.size_le⟩, rfl⟩
    change (resize body.elements length.toNat).length ≤ body.capacity
    rw [length_resize]
    omega
  · exact ⟨hfits, rfl⟩

theorem Fits.suits_method (hfits : body.Fits) (method : ArrayMethod) (argument : Value) :
    (method.change options array argument body).Suits body := by
  cases method with
  | pop => exact hfits.suits_pop
  | push => exact hfits.suits_put body.elements.length argument
  | shift => exact hfits.suits_shift
  | unshift => exact hfits.suits_unshift argument
  | reverse => exact hfits.suits_reverse

/-! ## What changes announce

Growth and headroom are announced as such; the stores that come of them report
themselves. -/

theorem discreet_put (index : Nat) (value : Value) :
    (body.put options array index value).Discreet := by
  unfold put
  split
  · simp [Change.Discreet, Change.notices]
  · split
    · simp [Change.Discreet, Change.notices]
    · simp [Change.Discreet, Event.isOfStore]

theorem discreet_shift : body.shift.Discreet := by
  unfold shift
  split <;> simp [Change.Discreet, Change.notices]

theorem discreet_unshift (value : Value) : (body.unshift options array value).Discreet := by
  unfold unshift
  split
  · simp [Change.Discreet, Event.isOfStore]
  · simp [Change.Discreet, Change.notices]

theorem discreet_setLength (length : Int) : (body.setLength length).Discreet := by
  unfold setLength
  split <;> simp [Change.Discreet, Change.notices]

theorem discreet_method (method : ArrayMethod) (argument : Value) :
    (method.change options array argument body).Discreet := by
  cases method with
  | pop | reverse => simp [ArrayMethod.change, pop, reverse, Change.Discreet, Change.notices]
  | push => exact discreet_put body.elements.length argument
  | shift => exact discreet_shift
  | unshift => exact discreet_unshift argument

end Body

/-! ## Performing operations -/

namespace Action

variable {agent : Agent} {array : ArrayHandle} {record : ArrayRecord} {body next : Body}
  {slots : Array Value}

theorem perform_write (agent : Agent) (hslots : agent.heap.storeOf record = .ok slots)
    {position : Nat} (hposition : position < slots.size) (value : Value) :
    (write record position value).perform agent =
      (.ok (),
        { agent with
          heap := agent.heap.fill record (slots.setIfInBounds position value) }) := by
  have hmap : (agent.heap.storeOf record).map Array.size = .ok slots.size := by
    rw [hslots]
    rfl
  unfold write
  rw [perform_bind, perform_read, hmap, andThen_ok, perform_ite,
    if_neg (Nat.not_le.2 hposition)]
  cases hstore : record.store with
  | none =>
      simp [Heap.fill, hstore]
  | some store =>
      unfold Heap.storeOf at hslots
      rw [hstore] at hslots
      have hmodify :
          (agent.heap.stores.modify store fun slots => slots.setIfInBounds position value) =
            agent.heap.stores.modify store fun _ => slots.setIfInBounds position value :=
        Arena.modify_congr (Arena.deref_eq_ok_iff.1 hslots) rfl
      simp only [perform_changeStore, Heap.fill, hstore, hmodify]

theorem perform_take (agent : Agent) (hslots : agent.heap.storeOf record = .ok slots)
    {position : Nat} {value : Value} (hvalue : slots[position]? = some value) :
    (take record position).perform agent =
      (.ok value,
        { agent with
          heap := agent.heap.fill record (slots.setIfInBounds position .undefined) }) := by
  obtain ⟨hposition, _⟩ := Array.getElem?_eq_some_iff.1 hvalue
  unfold take
  rw [perform_bind, perform_read, hslots]
  simp only [bind, Except.bind, hvalue, andThen_ok]
  change ((write record position .undefined >>= fun _ => pure value).perform agent) = _
  rw [perform_bind, perform_write agent hslots hposition, andThen_ok, perform_pure]

theorem perform_replaceRange (agent : Agent) (hslots : agent.heap.storeOf record = .ok slots)
    {first last : Nat} (hlast : last ≤ slots.size) (change : Array Value → Array Value) :
    (replaceRange record first last change).perform agent =
      (.ok (),
        { agent with
          heap := agent.heap.fill record
            (overwrite slots first (change (slots.extract first last))) }) := by
  have hmap : (agent.heap.storeOf record).map Array.size = .ok slots.size := by
    rw [hslots]
    rfl
  unfold replaceRange
  rw [perform_bind, perform_read, hmap, andThen_ok, perform_ite,
    if_neg (Nat.not_lt.2 hlast)]
  cases hstore : record.store with
  | none =>
      simp [Heap.fill, hstore]
  | some store =>
      unfold Heap.storeOf at hslots
      rw [hstore] at hslots
      have hmodify :
          (agent.heap.stores.modify store fun slots =>
            overwrite slots first (change (slots.extract first last))) =
          agent.heap.stores.modify store fun _ =>
            overwrite slots first (change (slots.extract first last)) :=
        Arena.modify_congr (Arena.deref_eq_ok_iff.1 hslots) rfl
      simp only [perform_changeStore, Heap.fill, hstore, hmodify]

/-- A body whose numbers fit their words gives a window that does. -/
theorem ofInts_window (hfits : body.Fits) {length capacity offset : Int}
    (hlength : length = body.elements.length) (hcapacity : capacity = body.capacity)
    (hoffset : offset = body.offset) :
    Window.ofInts length capacity offset = .ok body.window := by
  have hbound := hfits.size_le
  have hle := hfits.length_le
  rw [Window.ofInts_eq_ok_iff]
  refine ⟨⟨hlength, hcapacity, hoffset⟩, ?_⟩
  simp only [Body.window, wordCount, maxCapacity] at hbound hle ⊢
  omega

end Action

/-- What is written right after a move is written with the move. -/
theorem Change.moving_andThen {α : Type} {agent : Agent} {array : ArrayHandle}
    {record : ArrayRecord} {body moved next : Body} {options : Options} {notices : List Event}
    {slots : Nat} {answer : α} {write : Agent → Outcome α} (hsound : agent.heap.Sound)
    (hholds : agent.heap.Holds array record body) (hfits : slots ≤ maxCapacity → moved.Fits)
    (hpos : 0 < moved.offset + moved.capacity) (hsize : next.slots.size = moved.slots.size)
    (hwrite : ∀ after movedRecord, after.heap.Holds array movedRecord moved →
      write after = (Change.settle next).carryOut array movedRecord answer after) :
    ((moving options notices slots moved).carryOut array record () agent).andThen
        (fun _ after => write after) =
      (moving options notices slots next).carryOut array record answer agent := by
  cases hdenial : options.denial? slots with
  | some error =>
      rw [moving_of_some hdenial, moving_of_some hdenial]
      rfl
  | none =>
      have hroom := (Options.denial?_eq_none_iff.1 hdenial).1
      have hmoved := Heap.holds_relocate_self hsound hholds (hfits hroom) hpos
      rw [moving_of_none hdenial, moving_of_none hdenial]
      simp only [carryOut, Action.andThen_ok]
      rw [hwrite _ _ hmoved]
      exact congrArg (Prod.mk _) (Agent.reshape_relocate (agent.note _) hsound hholds rfl hsize)

namespace ArrayHandle

open ManagedHeap.Action

variable {agent : Agent} {array : ArrayHandle} {record : ArrayRecord} {body : Body}

theorem perform_place (hholds : agent.heap.Holds array record body) {index : Nat}
    (hindex : index < body.capacity) (value : Value) :
    (array.place index value).perform agent =
      (Change.settle { body with elements := putAt body.elements index value }).carryOut
        array record () agent := by
  let next : Body := { body with elements := putAt body.elements index value }
  have hlength := hholds.fits.length_le
  have hmax := length_putAt body.elements index value
  have hfits : next.Fits := by
    refine ⟨?_, hholds.fits.size_le⟩
    change (putAt body.elements index value).length ≤ body.capacity
    omega
  have hwindow : Window.ofInts (max record.window.length (index + 1) : Int)
      record.window.capacity record.window.offset = .ok next.window := by
    rw [hholds.window_eq]
    apply ofInts_window hfits _ rfl rfl
    simp only [next, hmax, Body.window]
    omega
  have hposition : record.window.position index = body.offset + index := by
    rw [hholds.window_eq]
    rfl
  have hinside : body.offset + index < body.slots.size := by
    rw [Body.size_slots hlength]
    omega
  have hwrite := perform_write { agent with heap := agent.heap.withWindow array next.window }
    hholds.storeOf_eq hinside value
  unfold place
  rw [perform_bind, perform_read, hholds.arrayRecord_eq, andThen_ok]
  simp only [hwindow, hposition]
  rw [perform_bind, perform_liftExcept, andThen_ok, perform_bind, perform_setWindow,
    andThen_ok, hwrite, Body.setIfInBounds_slots hlength hindex value]
  rfl

theorem perform_requireCapacity_of_le (hholds : agent.heap.Holds array record body)
    {required : Nat} (hrequired : required ≤ body.capacity) :
    (requireCapacity array required).perform agent = (.ok (), agent) := by
  have hcapacity : record.window.capacity = body.capacity := by
    rw [hholds.window_eq]
    rfl
  unfold requireCapacity
  rw [perform_bind, perform_read, hholds.deref_eq, andThen_ok, perform_ite,
    if_neg (by omega), perform_pure]

/-- Growing moves the elements to the beginning of a larger store. -/
theorem perform_requireCapacity_of_lt (hsound : agent.heap.Sound)
    (hholds : agent.heap.Holds array record body) {required : Nat}
    (hrequired : body.capacity < required) :
    (requireCapacity array required).perform agent =
      match agent.options.growth.grownCapacity body.capacity required with
      | .error error => (Change.refuse [] error).carryOut array record () agent
      | .ok grown =>
          (Change.moving agent.options [.growing array body.capacity grown] grown
            ⟨0, grown, body.elements⟩).carryOut array record () agent := by
  have hcapacity : record.window.capacity = body.capacity := by
    rw [hholds.window_eq]
    rfl
  have hlength := hholds.fits.length_le
  unfold requireCapacity
  rw [perform_bind, perform_read, hholds.deref_eq, andThen_ok, perform_ite,
    if_pos (by omega)]
  unfold grow
  rw [perform_bind, perform_read, hholds.deref_eq, andThen_ok, hcapacity, perform_bind,
    perform_options, andThen_ok]
  cases hgrown : agent.options.growth.grownCapacity body.capacity required with
  | error error => exact perform_failAllocation_note error agent
  | ok grown =>
      have hroom := (GrowthPolicy.grownCapacity_bounds hgrown).1
      have hreallocate := @perform_reallocate array record body
        (agent.note [.growing array body.capacity grown]) hsound hholds
        ⟨0, grown, body.elements⟩ (by change body.elements.length ≤ grown; omega) rfl
      simp only [Nat.zero_add] at hreallocate
      simp only
      rw [perform_bind, perform_emit_note, andThen_ok, hreallocate]
      exact Change.carryOut_moving array record () agent

/-- Writing an element within the capacity or beyond it. -/
theorem perform_put (hsound : agent.heap.Sound) (hholds : agent.heap.Holds array record body)
    {index : Int} (hindex : 0 ≤ index) (value : Value) :
    (array.put index value).perform agent =
      (body.put agent.options array index.toNat value).carryOut array record value
        agent := by
  unfold put Body.put
  rw [perform_bind, perform_read, hholds.arrayRecord_eq, andThen_ok, perform_ite,
    if_neg (by omega), perform_bind]
  by_cases hroom : index.toNat < body.capacity
  · rw [perform_requireCapacity_of_le hholds hroom, andThen_ok, perform_bind,
      perform_place hholds hroom, if_pos hroom]
    simp only [Change.carryOut, andThen_ok, perform_pure]
  · rw [perform_requireCapacity_of_lt hsound hholds (by omega), if_neg hroom]
    cases hgrown : agent.options.growth.grownCapacity body.capacity (index.toNat + 1) with
    | error error => rfl
    | ok grown =>
        obtain ⟨hrequired, hmax⟩ := GrowthPolicy.grownCapacity_bounds hgrown
        have hlength := hholds.fits.length_le
        have hput := length_putAt body.elements index.toNat value
        have hmovedLength : body.elements.length ≤ grown := by omega
        have hnextLength : (putAt body.elements index.toNat value).length ≤ grown := by omega
        apply Change.moving_andThen hsound hholds
        · intro _
          refine ⟨hmovedLength, ?_⟩
          change 0 + grown ≤ maxCapacity
          omega
        · change 0 < 0 + grown
          omega
        · rw [Body.size_slots hnextLength, Body.size_slots hmovedLength]
        · intro after movedRecord hmoved
          rw [perform_bind, perform_place hmoved hrequired]
          simp only [Change.carryOut, andThen_ok, perform_pure]

theorem perform_push (hsound : agent.heap.Sound) (hholds : agent.heap.Holds array record body)
    (value : Value) :
    (array.push value).perform agent =
      (body.put agent.options array body.elements.length value).carryOut array record
        value agent := by
  have hlength : record.window.length = body.elements.length := by
    rw [hholds.window_eq]
    rfl
  unfold push
  rw [perform_bind, perform_read, hholds.deref_eq, andThen_ok, hlength,
    perform_put hsound hholds (by omega), Int.toNat_natCast]

/-- An operation that leaves the body alone leaves the agent alone. -/
theorem carryOut_settle_self {α : Type} (hholds : agent.heap.Holds array record body)
    (answer : α) :
    (Change.settle body).carryOut array record answer agent = (.ok answer, agent) := by
  simp only [Change.carryOut, Agent.reshape, Heap.reshape_eq_self hholds]

theorem perform_pop (hholds : agent.heap.Holds array record body) :
    (array.pop).perform agent =
      body.pop.carryOut array record (body.elements.getLastD .undefined) agent := by
  have hlength : record.window.length = body.elements.length := by
    rw [hholds.window_eq]
    rfl
  unfold pop Body.pop
  rw [perform_bind, perform_read, hholds.arrayRecord_eq, andThen_ok, perform_ite, hlength]
  by_cases hnil : body.elements = []
  · have hsame : { body with elements := body.elements.dropLast } = body := by
      obtain ⟨offset, capacity, elements⟩ := body
      simp only at hnil
      rw [hnil]
      rfl
    rw [if_pos (by rw [hnil]; rfl), hsame, carryOut_settle_self hholds, hnil]
    rfl
  · have hpos := List.length_pos_iff.2 hnil
    have hfitsLength := hholds.fits.length_le
    have hdrop : body.elements.dropLast.length = body.elements.length - 1 :=
      List.length_dropLast
    let next : Body := { body with elements := body.elements.dropLast }
    have hfits : next.Fits := by
      refine ⟨?_, hholds.fits.size_le⟩
      change body.elements.dropLast.length ≤ body.capacity
      omega
    have hwindow : Window.ofInts (body.elements.length - 1 : Int) record.window.capacity
        record.window.offset = .ok next.window := by
      rw [hholds.window_eq]
      apply ofInts_window hfits _ rfl rfl
      simp only [next, hdrop]
      omega
    have hlast : body.elements[body.elements.length - 1]? =
        some (body.elements.getLastD .undefined) := by
      rw [← List.getLast?_eq_getElem?, List.getLastD_eq_getLast?,
        List.getLast?_eq_some_getLast hnil]
      rfl
    have hposition : record.window.position next.window.length =
        body.offset + (body.elements.length - 1) := by
      rw [hholds.window_eq]
      simp only [Window.position, Body.window, next, hdrop]
    have hvalue : body.slots[body.offset + (body.elements.length - 1)]? =
        some (body.elements.getLastD .undefined) := by
      rw [Body.getElem?_slots_inside body (by omega), hlast]
    have htake := perform_take { agent with heap := agent.heap.withWindow array next.window }
      hholds.storeOf_eq hvalue
    rw [if_neg (by omega)]
    simp only [hwindow]
    rw [perform_bind, perform_liftExcept, andThen_ok, perform_bind, perform_setWindow,
      andThen_ok, hposition, htake, Body.setIfInBounds_slots_last hfitsLength hnil]
    rfl

theorem perform_shift (hholds : agent.heap.Holds array record body) :
    (array.shift).perform agent =
      body.shift.carryOut array record (body.elements.headD .undefined) agent := by
  have hlength : record.window.length = body.elements.length := by
    rw [hholds.window_eq]
    rfl
  unfold shift Body.shift
  rw [perform_bind, perform_read, hholds.arrayRecord_eq, andThen_ok, perform_ite, hlength]
  by_cases hnil : body.elements = []
  · rw [if_pos (by rw [hnil]; rfl), if_pos hnil, carryOut_settle_self hholds, hnil]
    rfl
  · have hpos := List.length_pos_iff.2 hnil
    have hfitsLength := hholds.fits.length_le
    have htail : body.elements.tail.length = body.elements.length - 1 := List.length_tail
    let next : Body := ⟨body.offset + 1, body.capacity - 1, body.elements.tail⟩
    have hfits : next.Fits := by
      have hmax := hholds.fits.size_le
      constructor
      · change body.elements.tail.length ≤ body.capacity - 1
        omega
      · change body.offset + 1 + (body.capacity - 1) ≤ maxCapacity
        omega
    have hwindow : Window.ofInts (body.elements.length - 1 : Int)
        (record.window.capacity - 1 : Int) (record.window.offset + 1 : Int) =
          .ok next.window := by
      rw [hholds.window_eq]
      apply ofInts_window hfits
      · simp only [next, htail]
        omega
      · simp only [next, Body.window]
        omega
      · rfl
    have hvalue : body.slots[body.offset + 0]? = some (body.elements.headD .undefined) := by
      rw [Body.getElem?_slots_inside body hpos, List.headD_eq_head?_getD,
        ← List.head?_eq_getElem?, List.head?_eq_some_head hnil]
      rfl
    have hposition : record.window.position 0 = body.offset + 0 := by
      rw [hholds.window_eq]
      rfl
    rw [if_neg (by omega), if_neg hnil, hposition, perform_bind,
      perform_take agent hholds.storeOf_eq hvalue, andThen_ok]
    simp only [hwindow]
    rw [perform_bind, perform_liftExcept, andThen_ok, perform_bind, perform_setWindow,
      andThen_ok, perform_pure, Nat.add_zero, Body.setIfInBounds_slots_first hfitsLength hnil]
    rfl

theorem perform_placeInFront (hholds : agent.heap.Holds array record body)
    (hoffset : 0 < body.offset) (value : Value) :
    (array.placeInFront value).perform agent =
      (Change.settle ⟨body.offset - 1, body.capacity + 1, value :: body.elements⟩).carryOut
        array record () agent := by
  let next : Body := ⟨body.offset - 1, body.capacity + 1, value :: body.elements⟩
  have hfitsLength := hholds.fits.length_le
  have hfits : next.Fits := by
    have hmax := hholds.fits.size_le
    constructor
    · change body.elements.length + 1 ≤ body.capacity + 1
      omega
    · change body.offset - 1 + (body.capacity + 1) ≤ maxCapacity
      omega
  have hwindow : Window.ofInts (record.window.length + 1 : Int)
      (record.window.capacity + 1 : Int) (record.window.offset - 1 : Int) =
        .ok next.window := by
    rw [hholds.window_eq]
    apply ofInts_window hfits rfl rfl
    simp only [next, Body.window]
    omega
  have hposition : next.window.position 0 = body.offset - 1 := rfl
  have hinside : body.offset - 1 < body.slots.size := by
    rw [Body.size_slots hfitsLength]
    omega
  have hwrite := perform_write { agent with heap := agent.heap.withWindow array next.window }
    hholds.storeOf_eq hinside value
  unfold placeInFront
  rw [perform_bind, perform_read, hholds.arrayRecord_eq, andThen_ok]
  simp only [hwindow]
  rw [perform_bind, perform_liftExcept, andThen_ok, perform_bind, perform_setWindow,
    andThen_ok, hposition, hwrite, Body.setIfInBounds_slots_before hfitsLength hoffset value]
  rfl

theorem perform_requireHeadroom_of_pos (hholds : agent.heap.Holds array record body)
    (hoffset : 0 < body.offset) :
    (requireHeadroom array).perform agent = (.ok (), agent) := by
  have hwindow : record.window.offset = body.offset := by
    rw [hholds.window_eq]
    rfl
  unfold requireHeadroom
  rw [perform_bind, perform_read, hholds.deref_eq, andThen_ok, perform_ite,
    if_neg (by omega), perform_pure]

/-- Reserving headroom moves an array to where there is room in front of it. -/
theorem perform_requireHeadroom_of_zero (hsound : agent.heap.Sound)
    (hholds : agent.heap.Holds array record body) (hoffset : body.offset = 0)
    {headroom : Nat}
    (hheadroom : headroom = agent.options.growth.headroom body.elements.length) :
    (requireHeadroom array).perform agent =
      (Change.moving agent.options [.reservingHeadroom array body.capacity headroom]
        (headroom + body.capacity) ⟨headroom, body.capacity, body.elements⟩).carryOut array
          record () agent := by
  obtain ⟨hwindowOffset, hwindowCapacity, hwindowLength⟩ :
      record.window.offset = body.offset ∧ record.window.capacity = body.capacity ∧
        record.window.length = body.elements.length := by
    rw [hholds.window_eq]
    exact ⟨rfl, rfl, rfl⟩
  have hlength := hholds.fits.length_le
  unfold requireHeadroom
  rw [perform_bind, perform_read, hholds.deref_eq, andThen_ok, perform_ite,
    if_pos (by omega)]
  unfold reserveHeadroom
  rw [perform_bind, perform_read, hholds.deref_eq, andThen_ok, perform_bind,
    perform_options, andThen_ok, hwindowCapacity, hwindowLength, ← hheadroom,
    perform_bind, perform_emit_note, andThen_ok]
  rw [← Change.carryOut_moving]
  exact @perform_reallocate array record body (agent.note _) hsound hholds
    ⟨headroom, body.capacity, body.elements⟩ hlength rfl

theorem perform_unshift (hsound : agent.heap.Sound)
    (hholds : agent.heap.Holds array record body) (value : Value) :
    (array.unshift value).perform agent =
      (body.unshift agent.options array value).carryOut array record () agent := by
  unfold unshift Body.unshift
  rw [perform_bind]
  by_cases hoffset : body.offset = 0
  · have hpos := agent.options.growth.headroom_pos body.elements.length
    obtain ⟨headroom, hheadroom⟩ :
        ∃ headroom, headroom = agent.options.growth.headroom body.elements.length := ⟨_, rfl⟩
    rw [perform_requireHeadroom_of_zero hsound hholds hoffset hheadroom, if_pos hoffset,
      ← hheadroom]
    have hlength := hholds.fits.length_le
    have hnextLength : (value :: body.elements).length ≤ body.capacity + 1 := by
      rw [List.length_cons]
      omega
    apply Change.moving_andThen hsound hholds
    · intro hroom
      exact ⟨hlength, hroom⟩
    · change 0 < headroom + body.capacity
      omega
    · rw [Body.size_slots hnextLength,
        @Body.size_slots ⟨headroom, body.capacity, body.elements⟩ hlength]
      simp only
      omega
    · intro after movedRecord hmoved
      have hmovedOffset : 0 < headroom := by omega
      exact perform_placeInFront hmoved hmovedOffset value
  · have hpos : 0 < body.offset := Nat.pos_of_ne_zero hoffset
    rw [perform_requireHeadroom_of_pos hholds hpos, andThen_ok,
      perform_placeInFront hholds hpos, if_neg hoffset]

theorem perform_reverse (hholds : agent.heap.Holds array record body) :
    (array.reverse).perform agent = body.reverse.carryOut array record () agent := by
  have hlength := hholds.fits.length_le
  have hfirst : record.window.position 0 = body.offset := by
    rw [hholds.window_eq]
    rfl
  have hlast : record.window.position record.window.length =
      body.offset + body.elements.length := by
    rw [hholds.window_eq]
    rfl
  have hinside : body.offset + body.elements.length ≤ body.slots.size := by
    rw [Body.size_slots hlength]
    omega
  have hsize : body.elements.toArray.reverse.size = body.elements.length := by
    simp
  have hwindow : Body.window { body with elements := body.elements.reverse } = body.window := by
    simp [Body.window]
  unfold reverse
  rw [perform_bind, perform_read, hholds.arrayRecord_eq, andThen_ok]
  simp only [hfirst, hlast]
  rw [perform_replaceRange agent hholds.storeOf_eq hinside, Body.extract_slots,
    Body.overwrite_slots hlength hsize, List.reverse_toArray]
  simp only [Body.reverse, Change.carryOut, Agent.reshape, Heap.reshape, hwindow,
    Heap.withWindow_eq_self hholds]

theorem perform_clearFrom (hholds : agent.heap.Holds array record body) {length : Nat}
    (hroom : length ≤ body.capacity) :
    (clearFrom record length).perform agent =
      (.ok (),
        { agent with
          heap := agent.heap.fill record
            { body with elements := resize body.elements length }.slots }) := by
  have hfitsLength := hholds.fits.length_le
  have hfirst : record.window.position length = body.offset + length := by
    rw [hholds.window_eq]
    rfl
  have hlast : record.window.position record.window.length =
      body.offset + body.elements.length := by
    rw [hholds.window_eq]
    rfl
  have hwindowLength : record.window.length = body.elements.length := by
    rw [hholds.window_eq]
    rfl
  unfold clearFrom
  simp only [hfirst, hlast]
  rw [perform_ite, hwindowLength]
  split
  · rename_i hshorter
    have hslots := Body.size_slots hfitsLength
    have hinside : body.offset + body.elements.length ≤ body.slots.size := by omega
    have hsize : (body.slots.extract (body.offset + length)
        (body.offset + body.elements.length)).size = body.elements.length - length := by
      rw [Array.size_extract]
      omega
    rw [perform_replaceRange agent hholds.storeOf_eq hinside, hsize,
      Body.overwrite_slots_take hfitsLength (by omega), resize_of_le (by omega)]
  · rename_i hlonger
    rw [Body.slots_resize hfitsLength (by omega) hroom, Heap.fill_eq_self hholds, perform_pure]

/-- A length within the capacity is taken, any other is refused. -/
theorem perform_setLength (hholds : agent.heap.Holds array record body) (length : Int) :
    (array.setLength length).perform agent =
      (body.setLength length).carryOut array record (decide (body.Admits length)) agent := by
  have hcapacity : record.window.capacity = body.capacity := by
    rw [hholds.window_eq]
    rfl
  unfold setLength Body.setLength
  rw [perform_bind, perform_read, hholds.arrayRecord_eq, andThen_ok]
  simp only [hcapacity]
  rw [perform_ite]
  by_cases hadmits : body.Admits length
  · have hbounds : 0 ≤ length ∧ length ≤ body.capacity := hadmits
    let next : Body := { body with elements := resize body.elements length.toNat }
    have hresize := length_resize body.elements length.toNat
    have hfits : next.Fits := by
      refine ⟨?_, hholds.fits.size_le⟩
      change (resize body.elements length.toNat).length ≤ body.capacity
      omega
    have hwindow : Window.ofInts length body.capacity record.window.offset =
        .ok next.window := by
      rw [hholds.window_eq]
      apply ofInts_window hfits _ rfl rfl
      simp only [next, hresize]
      omega
    rw [if_neg (by omega), if_pos hadmits, perform_bind,
      perform_clearFrom hholds (by omega), andThen_ok, hwindow, perform_bind,
      perform_liftExcept, andThen_ok, perform_bind, perform_setWindow, andThen_ok,
      perform_pure, decide_eq_true hadmits]
    rfl
  · have hbounds : ¬(0 ≤ length ∧ length ≤ body.capacity) := hadmits
    rw [if_pos (by omega), if_neg hadmits, perform_pure, carryOut_settle_self hholds,
      decide_eq_false hadmits]

theorem carryOut_andThen_pure {α : Type} (change : Change) (answer : α) :
    Outcome.andThen (change.carryOut array record () agent)
        (fun _ after => (.ok answer, after)) =
      change.carryOut array record answer agent := by
  cases change <;> rfl

/-- A method is its change and its answer. -/
theorem perform_call (hsound : agent.heap.Sound) (hholds : agent.heap.Holds array record body)
    (method : ArrayMethod) (argument : Value) :
    (array.call method argument).perform agent =
      (method.change agent.options array argument body).carryOut array record
        (method.answer array argument body.elements) agent := by
  cases method with
  | pop => exact perform_pop hholds
  | push => exact perform_push hsound hholds argument
  | shift => exact perform_shift hholds
  | unshift =>
      change (array.unshift argument >>= fun _ => pure Value.undefined).perform agent = _
      rw [perform_bind, perform_unshift hsound hholds]
      exact carryOut_andThen_pure _ _
  | reverse =>
      change (array.reverse >>= fun _ => pure (Value.array array)).perform agent = _
      rw [perform_bind, perform_reverse hholds]
      exact carryOut_andThen_pure _ _

/-! ## Arrays that are gone

Every operation reads its array first, so it faults before it changes anything. -/

section Gone

variable {cause : Fault} (hgone : agent.heap.arrays.deref array = .error cause)

include hgone

theorem arrayRecord_of_gone : agent.heap.arrayRecord array = .error cause := by
  unfold Heap.arrayRecord
  rw [hgone]
  rfl

theorem perform_put_of_gone (index : Int) (value : Value) :
    (array.put index value).perform agent = (.error cause, agent) := by
  unfold put
  rw [perform_bind, perform_read, arrayRecord_of_gone hgone, andThen_error]

theorem perform_setLength_of_gone (length : Int) :
    (array.setLength length).perform agent = (.error cause, agent) := by
  unfold setLength
  rw [perform_bind, perform_read, arrayRecord_of_gone hgone, andThen_error]

theorem perform_call_of_gone (method : ArrayMethod) (argument : Value) :
    (array.call method argument).perform agent = (.error cause, agent) := by
  have hrecord := arrayRecord_of_gone hgone
  cases method with
  | pop =>
      change array.pop.perform agent = _
      unfold pop
      rw [perform_bind, perform_read, hrecord, andThen_error]
  | push =>
      change (array.push argument).perform agent = _
      unfold push
      rw [perform_bind, perform_read, hgone, andThen_error]
  | shift =>
      change array.shift.perform agent = _
      unfold shift
      rw [perform_bind, perform_read, hrecord, andThen_error]
  | unshift =>
      change (array.unshift argument >>= fun _ => pure Value.undefined).perform agent = _
      unfold unshift requireHeadroom
      rw [perform_bind, perform_bind, perform_bind, perform_read, hgone]
      rfl
  | reverse =>
      change (array.reverse >>= fun _ => pure (Value.array array)).perform agent = _
      unfold reverse
      rw [perform_bind, perform_bind, perform_read, hrecord]
      rfl

end Gone

end ArrayHandle

end ManagedHeap
