import ManagedHeap.Proofs.Soundness

/-!
# Operations on one array

All backing stores are in one arena, and a store that one array gives up may be the next one
to be taken by another.  Even so an operation on an array is no business of any other: what
it writes to is the record of the array and the store that the array owns.  Unless the array
moves to a new store, its elements are where they were, at the same positions of the same
store.  Only the ends of the window move, and that changes their indices.
-/

namespace ManagedHeap

/-! ## One array among others -/

namespace Heap

/-- Nothing has changed but one array and the store of that array. -/
structure ChangesOnly (before after : Heap) (array : ArrayHandle) : Prop where
  objects_eq : after.objects = before.objects
  closures_eq : after.closures = before.closures
  numbers_eq : after.numbers = before.numbers
  strings_eq : after.strings = before.strings
  arrays_eq : ∀ other ≠ array, after.arrays.get? other = before.arrays.get? other
  stores_eq : ∀ other ≠ array, ∀ store, before.Owns other store →
    after.stores.get? store = before.stores.get? store

theorem Rebuilds.changesOnly {before after : Heap} {array : ArrayHandle} {record : ArrayRecord}
    {body : Body} (hrebuilds : before.Rebuilds after array record body) (hsound : before.Sound) :
    before.ChangesOnly after array where
  objects_eq := hrebuilds.objects_eq
  closures_eq := hrebuilds.closures_eq
  numbers_eq := hrebuilds.numbers_eq
  strings_eq := hrebuilds.strings_eq
  arrays_eq := hrebuilds.others_eq
  stores_eq := by
    rintro other hne store ⟨otherRecord, hget, hstore⟩
    obtain ⟨otherBody, hbefore⟩ := hsound.exists_holds hget
    have hafter := hrebuilds.others_hold other hne otherRecord otherBody hbefore
    rw [hbefore.stores_eq store hstore, hafter.stores_eq store hstore]

end Heap

/-! ## What an operation may do to the store -/

def ArrayMethod.indexAfter (method : ArrayMethod) (window : Window) (index : Nat) : Option Nat :=
  match method with
  | .pop => if index + 1 = window.length then none else some index
  | .shift => if index = 0 then none else some (index - 1)
  | .unshift => some (index + 1)
  | .push | .reverse => some index

namespace ArrayOp

def isWrite : ArrayOp → Bool
  | .put _ | .setLength _ | .call _ => true
  | .length | .capacity | .isEmpty | .slice | .get _ | .callRepeatedly _ _ => false

/-- The store has no room for what the operation adds. -/
def Exhausts (op : ArrayOp) (window : Window) : Prop :=
  match op with
  | .put index => window.capacity ≤ index.toInt
  | .call .push => window.capacity ≤ window.length
  | .call .unshift => window.offset = 0
  | _ => False

def writesOneSlot : ArrayOp → Bool
  | .put _ | .call .push | .call .pop | .call .shift | .call .unshift => true
  | _ => false

/-- The index that an element has afterwards, unless it is removed or overwritten. -/
def indexAfter (op : ArrayOp) (window : Window) (index : Nat) : Option Nat :=
  match op with
  | .put written => if written.toInt = index then none else some index
  | .setLength extent =>
      if 0 ≤ extent.toInt ∧ extent.toInt ≤ index then none else some index
  | .call method => method.indexAfter window index
  | .length | .capacity | .isEmpty | .slice | .get _ | .callRepeatedly _ _ => some index

/-- The operation has left the array in its store, and the elements that remain in their
slots. -/
structure StaysPut (op : ArrayOp) (before after : Window) (slots left : Array Value) : Prop where
  size_eq : left.size = slots.size
  one_slot : op.writesOneSlot = true →
    ∃ position : Nat, ∀ other ≠ position, left[other]? = slots[other]?
  outside_window : op.writesOneSlot = false → ∀ position : Nat,
    position < before.position 0 ∨ before.position before.length ≤ position →
      left[position]? = slots[position]?
  elements_stay : op ≠ .call .reverse → ∀ index later, index < before.length →
    op.indexAfter before index = some later →
      later < after.length ∧ after.position later = before.position index ∧
        left[before.position index]? = slots[before.position index]?

/-- A change that an operation may make of a body. -/
def Permits (op : ArrayOp) (body : Body) : Change → Prop
  | .settle next => op.StaysPut body.window next.window body.slots next.slots
  | .move _ _ | .refuse _ _ => op.Exhausts body.window

section Bodies

variable {op : ArrayOp} {body next : Body}

/-- The elements that remain are found where the window has them now. -/
def Tracks (op : ArrayOp) (body next : Body) : Prop :=
  ∀ index later, index < body.elements.length → op.indexAfter body.window index = some later →
    next.offset + later = body.offset + index ∧ next.elements[later]? = body.elements[index]?

theorem Tracks.elements_stay (htracks : op.Tracks body next) {index later : Nat}
    (hindex : index < body.window.length)
    (hafter : op.indexAfter body.window index = some later) :
    later < next.window.length ∧ next.window.position later = body.window.position index ∧
      next.slots[body.window.position index]? = body.slots[body.window.position index]? := by
  have hlength : index < body.elements.length := hindex
  obtain ⟨hposition, helement⟩ := htracks index later hlength hafter
  have hlater : later < next.elements.length := by
    rw [List.getElem?_eq_getElem hlength] at helement
    exact (List.getElem?_eq_some_iff.1 helement).1
  have hsame : next.slots[body.offset + index]? = body.slots[body.offset + index]? := by
    rw [Body.getElem?_slots_inside body hlength, ← helement, ← hposition,
      Body.getElem?_slots_inside next hlater]
  exact ⟨hlater, hposition, hsame⟩

theorem staysPut_of_set (hone : op.writesOneSlot = true) {position : Nat} {value : Value}
    (hslots : body.slots.setIfInBounds position value = next.slots)
    (htracks : op.Tracks body next) :
    op.StaysPut body.window next.window body.slots next.slots where
  size_eq := by
    rw [← hslots, Array.size_setIfInBounds]
  one_slot := by
    refine fun _ => ⟨position, ?_⟩
    intro other hother
    rw [← hslots, Array.getElem?_setIfInBounds_ne hother.symm]
  outside_window := by
    intro hmany
    rw [hone] at hmany
    contradiction
  elements_stay _ _ _ hindex hafter := htracks.elements_stay hindex hafter

theorem staysPut_self (hsame : ∀ index later, index < body.elements.length →
      op.indexAfter body.window index = some later → index = later) :
    op.StaysPut body.window body.window body.slots body.slots where
  size_eq := rfl
  one_slot _ := ⟨0, fun _ _ => rfl⟩
  outside_window _ _ _ := rfl
  elements_stay := by
    intro _ index later hindex hafter
    rw [← hsame index later hindex hafter]
    exact ⟨hindex, rfl, rfl⟩

theorem staysPut_of_nil (hnil : body.elements = []) :
    op.StaysPut body.window body.window body.slots body.slots := by
  apply staysPut_self
  intro index later hindex _
  rw [hnil] at hindex
  exact absurd hindex (Nat.not_lt_zero index)

/-! ## The operations one by one -/

variable {options : Options} {array : ArrayHandle}

theorem permits_moving (hexhausts : op.Exhausts body.window) (notices : List Event)
    (slots : Nat) (next : Body) : op.Permits body (.moving options notices slots next) := by
  unfold Change.moving
  split <;> exact hexhausts

/-- To put an element is the same for an index that is given and for the end of the array. -/
theorem permits_putAt (hfits : body.Fits) {index : Nat} (hone : op.writesOneSlot = true)
    (hexhausts : body.capacity ≤ index → op.Exhausts body.window)
    (hafter : ∀ other later, other < body.elements.length →
      op.indexAfter body.window other = some later → later = other ∧ other ≠ index)
    (value : Value) : op.Permits body (body.put options array index value) := by
  unfold Body.put
  split
  · rename_i hroom
    apply staysPut_of_set hone (Body.setIfInBounds_slots hfits.length_le hroom value)
    intro other later hother hlater
    obtain ⟨rfl, hne⟩ := hafter other later hother hlater
    refine ⟨rfl, ?_⟩
    have hbetween : ¬(body.elements.length ≤ later ∧ later < index) := by omega
    change (putAt body.elements index value)[later]? = _
    rw [getElem?_putAt, if_neg hne, if_neg hbetween]
  · rename_i hfull
    have hexhausted := hexhausts (Nat.le_of_not_lt hfull)
    cases options.growth.grownCapacity body.capacity (index + 1) with
    | error error => exact hexhausted
    | ok grown => exact permits_moving hexhausted _ _ _

theorem permits_put (hfits : body.Fits) {index : Int32} (hindex : 0 ≤ index.toInt)
    (value : Value) :
    (put index).Permits body (body.put options array index.toInt.toNat value) := by
  apply permits_putAt hfits rfl
  · intro hfull
    change (body.capacity : Int) ≤ index.toInt
    omega
  · intro other later _ hlater
    simp only [indexAfter, Option.ite_none_left_eq_some, Option.some.injEq] at hlater
    omega

theorem permits_push (hfits : body.Fits) (value : Value) :
    (call .push).Permits body (body.put options array body.elements.length value) := by
  apply permits_putAt hfits rfl
  · exact fun hfull => hfull
  · intro other later hother hlater
    have hsame : other = later := Option.some.inj hlater
    omega

theorem permits_pop (hfits : body.Fits) : (call .pop).Permits body body.pop := by
  unfold Body.pop
  by_cases hnil : body.elements = []
  · have hsame : { body with elements := body.elements.dropLast } = body := by
      rw [hnil, List.dropLast_nil, ← hnil]
    rw [hsame]
    exact staysPut_of_nil hnil
  · apply staysPut_of_set rfl (Body.setIfInBounds_slots_last hfits.length_le hnil)
    intro index later hindex hlater
    simp only [indexAfter, ArrayMethod.indexAfter, Option.ite_none_left_eq_some,
      Option.some.injEq] at hlater
    obtain ⟨hlast, rfl⟩ := hlater
    have hshort : index < body.elements.length - 1 := by
      change ¬index + 1 = body.elements.length at hlast
      omega
    refine ⟨rfl, ?_⟩
    rw [List.getElem?_dropLast, if_pos hshort]

theorem permits_shift (hfits : body.Fits) : (call .shift).Permits body body.shift := by
  unfold Body.shift
  split
  · rename_i hnil
    exact staysPut_of_nil hnil
  · rename_i hne
    apply staysPut_of_set rfl (Body.setIfInBounds_slots_first hfits.length_le hne)
    intro index later _ hlater
    simp only [indexAfter, ArrayMethod.indexAfter, Option.ite_none_left_eq_some,
      Option.some.injEq] at hlater
    obtain ⟨hpos, rfl⟩ := hlater
    have hindex : index - 1 + 1 = index := by omega
    refine ⟨?_, ?_⟩
    · change body.offset + 1 + (index - 1) = body.offset + index
      omega
    · rw [List.getElem?_tail, hindex]

theorem permits_unshift (hfits : body.Fits) (value : Value) :
    (call .unshift).Permits body (body.unshift options array value) := by
  unfold Body.unshift
  split
  · rename_i hfront
    have hexhausted : (call .unshift).Exhausts body.window := hfront
    exact permits_moving hexhausted _ _ _
  · rename_i hroom
    have hpos : 0 < body.offset := Nat.pos_of_ne_zero hroom
    apply staysPut_of_set rfl (Body.setIfInBounds_slots_before hfits.length_le hpos value)
    intro index later _ hlater
    have hnext : index + 1 = later := Option.some.inj hlater
    subst hnext
    refine ⟨?_, List.getElem?_cons_succ⟩
    change body.offset - 1 + (index + 1) = body.offset + index
    omega

theorem permits_reverse (hfits : body.Fits) : (call .reverse).Permits body body.reverse := by
  have hlength := hfits.length_le
  have hless : body.elements.reverse.length ≤ body.elements.length :=
    Nat.le_of_eq List.length_reverse
  have hshort : body.elements.reverse.length ≤ body.capacity := Nat.le_trans hless hlength
  exact
    { size_eq := (Body.size_slots hshort).trans (Body.size_slots hlength).symm
      one_slot := fun hone => absurd hone Bool.false_ne_true
      outside_window := fun _ _ hedge => Body.getElem?_slots_outside_congr hlength hless hedge
      elements_stay := fun hreverse => absurd rfl hreverse }

theorem permits_setLength (hfits : body.Fits) (extent : Int32) :
    (setLength extent).Permits body (body.setLength extent.toInt) := by
  have hlength := hfits.length_le
  unfold Body.setLength
  split
  · rename_i hadmits
    have hbounds : 0 ≤ extent.toInt ∧ extent.toInt ≤ body.capacity := hadmits
    have hresized := length_resize body.elements extent.toInt.toNat
    have hshort : (resize body.elements extent.toInt.toNat).length ≤ body.capacity := by omega
    have htracks : (setLength extent).Tracks body
        { body with elements := resize body.elements extent.toInt.toNat } := by
      intro index later hindex hlater
      simp only [indexAfter, Option.ite_none_left_eq_some, Option.some.injEq] at hlater
      obtain ⟨hkept, rfl⟩ := hlater
      have hinside : index < extent.toInt.toNat := by omega
      refine ⟨rfl, ?_⟩
      rw [getElem?_resize, if_pos hinside, List.getElem?_eq_getElem hindex, Option.getD_some]
    refine
      { size_eq := (Body.size_slots hshort).trans (Body.size_slots hlength).symm
        one_slot := fun hone => absurd hone Bool.false_ne_true
        outside_window := ?_
        elements_stay := fun _ _ _ hindex hafter => htracks.elements_stay hindex hafter }
    intro _ position hedge
    -- A shorter length clears slots inside the window, and a longer one writes nothing.
    by_cases hless : (resize body.elements extent.toInt.toNat).length ≤ body.elements.length
    · exact Body.getElem?_slots_outside_congr hlength hless hedge
    · rw [Body.slots_resize hlength (by omega) (by omega)]
  · apply staysPut_self
    intro index later _ hlater
    simp only [indexAfter, Option.ite_none_left_eq_some, Option.some.injEq] at hlater
    exact hlater.2

theorem permits_method (hfits : body.Fits) (method : ArrayMethod) (argument : Value) :
    (call method).Permits body (method.change options array argument body) := by
  cases method with
  | pop => exact permits_pop hfits
  | push => exact permits_push hfits argument
  | shift => exact permits_shift hfits
  | unshift => exact permits_unshift hfits argument
  | reverse => exact permits_reverse hfits

end Bodies

end ArrayOp

/-! ## Performing an operation -/

section Performance

open ManagedHeap.Action

variable {agent : Agent} {array : ArrayHandle} {record : ArrayRecord} {body : Body}
  {op : ArrayOp}

theorem ArrayOp.exists_change (hsound : agent.heap.Sound)
    (hholds : agent.heap.Holds array record body) (hwrite : op.isWrite = true)
    (argument : Value) :
    ∃ change answer, (op.perform array argument).perform agent =
        change.carryOut array record answer agent ∧
      change.Suits body ∧ op.Permits body change := by
  cases op with
  | length | capacity | isEmpty | slice | get | callRepeatedly => contradiction
  | put index =>
      by_cases hindex : index.toInt < 0
      · refine ⟨.settle body, .value argument, ?_, ⟨hholds.fits, rfl⟩, ?_⟩
        · rw [perform, perform_map, ArrayHandle.perform_put_of_neg hholds hindex,
            ArrayHandle.carryOut_settle_self hholds]
          rfl
        · apply staysPut_self
          intro other later _ hlater
          simp only [indexAfter, Option.ite_none_left_eq_some, Option.some.injEq] at hlater
          exact hlater.2
      · have hpos : 0 ≤ index.toInt := Int.not_lt.1 hindex
        refine ⟨body.put agent.options array index.toInt.toNat argument, .value argument, ?_,
          hholds.fits.suits_put index.toInt.toNat argument, permits_put hholds.fits hpos argument⟩
        rw [perform, perform_map, ArrayHandle.perform_put hsound hholds hpos, Change.map_carryOut]
  | setLength extent =>
      refine ⟨body.setLength extent.toInt, .flag (decide (body.Admits extent.toInt)), ?_,
        hholds.fits.suits_setLength extent.toInt, permits_setLength hholds.fits extent⟩
      rw [perform, perform_map, ArrayHandle.perform_setLength hholds, Change.map_carryOut]
  | call method =>
      refine ⟨method.change agent.options array argument body,
        .value (method.answer array argument body.elements), ?_,
        hholds.fits.suits_method method argument, permits_method hholds.fits method argument⟩
      rw [perform, perform_map, ArrayHandle.perform_call hsound hholds, Change.map_carryOut]

theorem Change.local_carryOut {α : Type} {change : Change} (hsound : agent.heap.Sound)
    (hholds : agent.heap.Holds array record body) (hsuits : change.Suits body)
    (hpermits : op.Permits body change) (answer : α) :
    let outcome := change.carryOut array record answer agent
    (∀ cause, outcome.1 = .error cause →
      op.Exhausts record.window ∧ outcome.2.heap = agent.heap) ∧
    ∃ after, outcome.2.heap.arrays.get? array = some after ∧ after.header = record.header ∧
      (¬op.Exhausts record.window → after.store = record.store ∧ outcome.2.log = agent.log) ∧
      (after.store = record.store → ∀ result, outcome.1 = .ok result →
        ∃ slots left, agent.heap.storeOf record = .ok slots ∧
          outcome.2.heap.storeOf after = .ok left ∧
          op.StaysPut record.window after.window slots left) := by
  have hbefore := hholds.storeOf_eq
  rw [hholds.window_eq]
  cases change with
  | settle next =>
      have hnext := Heap.holds_reshape_self hholds hsuits.1 hsuits.2
      refine ⟨by simp [carryOut], _, hnext.get?_eq, rfl, fun _ => ⟨rfl, rfl⟩, ?_⟩
      exact fun _ _ _ => ⟨_, _, hbefore, hnext.storeOf_eq, hpermits⟩
  | move notices next =>
      have hnext := Heap.holds_relocate_self hsound hholds hsuits.1 hsuits.2
      refine ⟨by simp [carryOut], _, hnext.get?_eq, rfl, fun hroom => absurd hpermits hroom, ?_⟩
      -- The new store was not in use before, so it is another one.
      intro hstore
      have hslots := hholds.stores_eq (agent.heap.nextStore next) hstore.symm
      exact absurd rfl (Heap.ne_nextStore hsound hslots next)
  | refuse notices error =>
      refine ⟨fun _ _ => ⟨hpermits, rfl⟩, record, hholds.get?_eq, rfl,
        fun hroom => absurd hpermits hroom, ?_⟩
      intro _ _ hresult
      contradiction

namespace Agent

/-- In every state that a run brings about, an operation on a living array changes nothing
else.  The array keeps its store unless there is no room in it, and what is in the store
stays where it is. -/
theorem array_writes_local_run (options : Options) (operations : List (Operation Value))
    (hwrite : op.isWrite = true)
    (hlive : ((start options).run operations).heap.arrays.get? array = some record)
    (argument : Value) :
    let before := (start options).run operations
    let outcome := (op.perform array argument).perform before
    before.heap.ChangesOnly outcome.2.heap array ∧
    (∀ cause, outcome.1 = .error cause →
      op.Exhausts record.window ∧ outcome.2.heap = before.heap) ∧
    ∃ after, outcome.2.heap.arrays.get? array = some after ∧ after.header = record.header ∧
      (¬op.Exhausts record.window → after.store = record.store ∧ outcome.2.log = before.log) ∧
      (after.store = record.store → ∀ answer, outcome.1 = .ok answer →
        ∃ slots left, before.heap.storeOf record = .ok slots ∧
          outcome.2.heap.storeOf after = .ok left ∧
          op.StaysPut record.window after.window slots left) := by
  intro before
  have hsound : before.heap.Sound := (sound_start options).run operations
  obtain ⟨body, hholds⟩ := hsound.exists_holds hlive
  obtain ⟨change, answer, hperform, hsuits, hpermits⟩ :=
    ArrayOp.exists_change hsound hholds hwrite argument
  rw [hperform]
  have hrebuilds := Change.rebuilds_carryOut hsound hholds hsuits answer
  exact ⟨hrebuilds.changesOnly hsound, Change.local_carryOut hsound hholds hsuits hpermits answer⟩

/-- An element is put into the slot that another has left. -/
theorem array_writes_local_run_unshift :
    let before := (start .standard).run
      [.literal [.boolean true, .boolean false] 0, .array (.array ⟨0⟩) (.call .shift) none]
    let outcome := ((ArrayOp.call .unshift).perform ⟨0⟩ .null).perform before
    before.heap.ChangesOnly outcome.2.heap ⟨0⟩ ∧ outcome.2.log = before.log ∧
      (ArrayOp.call .unshift).StaysPut ⟨1, 1, 1⟩ ⟨2, 2, 0⟩ #[.undefined, .boolean false]
        #[.null, .boolean false] := by
  intro before outcome
  obtain ⟨hothers, -, after, hget, -, hroom, hstays⟩ :=
    @array_writes_local_run ⟨0⟩
      { ArrayRecord.ofTag 0 with window := ⟨1, 1, 1⟩, store := some ⟨0⟩ } (.call .unshift) .standard
      [.literal [.boolean true, .boolean false] 0, .array (.array ⟨0⟩) (.call .shift) none]
      rfl rfl .null
  obtain ⟨hstore, hlog⟩ := hroom Nat.one_ne_zero
  obtain ⟨slots, left, hslots, hleft, hput⟩ := hstays hstore _ rfl
  have hafter : after = { ArrayRecord.ofTag 0 with window := ⟨2, 2, 0⟩, store := some ⟨0⟩ } :=
    Option.some.inj (hget.symm.trans rfl)
  subst hafter
  have hbefore : slots = #[.undefined, .boolean false] := Except.ok.inj (hslots.symm.trans rfl)
  have hnow : left = #[.null, .boolean false] := Except.ok.inj (hleft.symm.trans rfl)
  subst hbefore hnow
  exact ⟨hothers, hlog, hput⟩

end Agent

end Performance

end ManagedHeap
