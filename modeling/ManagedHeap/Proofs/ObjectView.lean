import ManagedHeap.Proofs.CachedMethods
import ManagedHeap.Proofs.MachineWords

/-!
# Arrays seen as objects

Code that knows an array only as an object can write to it all the same.  What it writes goes to
the header, except for the length, which it can raise up to the capacity.  The stores are out of
its reach.  Since the spare slots of an array are undefined, an array that has been made longer
in this way shows nothing that was not an element before.
-/

namespace ManagedHeap

/-- The record has another header or a greater length, and lies where it did. -/
structure ArrayRecord.Lengthens (before after : ArrayRecord) : Prop where
  capacity_eq : after.window.capacity = before.window.capacity
  offset_eq : after.window.offset = before.window.offset
  store_eq : after.store = before.store
  length_le : before.window.length ≤ after.window.length

namespace Heap

def withRecord (heap : Heap) (array : ArrayHandle) (record : ArrayRecord) : Heap :=
  { heap with arrays := heap.arrays.modify array fun _ => record }

variable {heap : Heap} {array : ArrayHandle} {record changed : ArrayRecord}

theorem withRecord_eq_self (hget : heap.arrays.get? array = some record) :
    heap.withRecord array record = heap := by
  unfold withRecord
  rw [Arena.modify_eq_self hget rfl]

theorem get?_withRecord_self (hget : heap.arrays.get? array = some record)
    (changed : ArrayRecord) :
    (heap.withRecord array changed).arrays.get? array = some changed := by
  simp only [withRecord, Arena.get?_modify_self, hget, Option.map_some]

theorem changeHeader_withRecord (heap : Heap) (array : ArrayHandle) (record : ArrayRecord)
    (change : Header → Header) :
    (heap.withRecord array record).changeHeader (.array array) change =
      heap.withRecord array { record with header := change record.header } := by
  simp only [withRecord, changeHeader, Arena.modify_modify]
  rfl

theorem withWindow_withRecord (heap : Heap) (array : ArrayHandle) (record : ArrayRecord)
    (window : Window) :
    (heap.withRecord array record).withWindow array window =
      heap.withRecord array { record with window := window } := by
  simp only [withRecord, withWindow, Arena.modify_modify]
  rfl

/-- Where an element is does not depend on how many there are. -/
theorem element_withRecord (hget : heap.arrays.get? array = some record)
    (hlengthens : record.Lengthens changed) (index : Int) :
    (heap.withRecord array changed).element array index = heap.element array index := by
  have hbefore := Arena.deref_eq_ok_iff.2 hget
  have hafter := Arena.deref_eq_ok_iff.2 (get?_withRecord_self hget changed)
  have hslots : (heap.withRecord array changed).storeOf changed = heap.storeOf record := by
    unfold storeOf
    rw [hlengthens.store_eq]
    rfl
  simp only [element, hbefore, hafter, bind, Except.bind, hslots, hlengthens.capacity_eq,
    Window.position, hlengthens.offset_eq]

end Heap

namespace Agent

open ManagedHeap.Action

/-- Nothing has changed but the record of the array, which has at most been lengthened. -/
def LengthensOnly (before : Agent) (array : ArrayHandle) (record : ArrayRecord)
    (after : Agent) : Prop :=
  ∃ changed, record.Lengthens changed ∧
    after = { before with heap := before.heap.withRecord array changed }

/-- The number is written as the length in either of the two ways, and the outcome is the same.
It is that of setting the length, if this is granted and does not make the array shorter. -/
structure WritesLength (before : Agent) (array : ArrayHandle) (length : Nat) (n : Int32)
    (taken : Bool) (after : Agent) : Prop where
  field_eq : ((Object.array array).setField 0 (.integer n)).perform before = (.ok taken, after)
  property_eq :
    ((Object.array array).setProperty "length" (.integer n)).perform before = (.ok taken, after)
  taken_iff : taken = true ↔
    ((array.setLength n.toInt).perform before).1 = .ok true ∧ (length : Int) ≤ n.toInt
  of_taken : taken = true → ((array.setLength n.toInt).perform before).2 = after
  of_refused : taken = false → after = before

variable {before agent : Agent} {array : ArrayHandle} {record : ArrayRecord} {body : Body}

/-! ## One write -/

theorem keeps_changeHeader_lengthens (change : Header → Header) :
    Keeps (before.LengthensOnly array record) ((Object.array array).changeHeader change) := by
  rintro agent ⟨changed, hlengthens, rfl⟩
  refine ⟨{ changed with header := change changed.header }, ?_, ?_⟩
  · exact ⟨hlengthens.capacity_eq, hlengthens.offset_eq, hlengthens.store_eq,
      hlengthens.length_le⟩
  · rw [Object.perform_changeHeader, Heap.changeHeader_withRecord]

theorem keeps_setField_lengthens (hget : before.heap.arrays.get? array = some record)
    (slot : Nat) (value : Value) :
    Keeps (before.LengthensOnly array record) ((Object.array array).setField slot value) := by
  rintro agent ⟨changed, hlengthens, hagent⟩
  have hchanged : agent.heap.arrays.get? array = some changed := by
    rw [hagent]
    exact Heap.get?_withRecord_self hget changed
  rw [Object.perform_setField_of_get? hchanged]
  cases hlength : changed.window.fieldLength? slot value with
  | none => exact ⟨changed, hlengthens, hagent⟩
  | some length =>
      obtain ⟨hmore, -⟩ := Window.fieldLength?_bounds hlength
      refine ⟨{ changed with window := { changed.window with length := length } }, ?_, ?_⟩
      · exact ⟨hlengthens.capacity_eq, hlengthens.offset_eq, hlengthens.store_eq,
          Nat.le_trans hlengthens.length_le hmore⟩
      · simp only [hagent, Heap.withWindow_withRecord]

theorem fst_perform_setLength (hholds : agent.heap.Holds array record body) (length : Int) :
    ((array.setLength length).perform agent).1 = .ok (decide (body.Admits length)) := by
  rw [ArrayHandle.perform_setLength hholds]
  unfold Body.setLength
  split <;> rfl

theorem exists_writesLength (hholds : agent.heap.Holds array record body) (n : Int32) :
    ∃ taken after, agent.WritesLength array record.window.length n taken after := by
  have hproperty : ((Object.array array).setProperty "length" (.integer n)).perform agent =
      ((Object.array array).setField 0 (.integer n)).perform agent :=
    Object.perform_setProperty (Heap.objectMap_array hholds.get?_eq) (.integer n)
  have hgranted := fst_perform_setLength hholds n.toInt
  have hfield := Object.perform_setField_array hholds 0 (.integer n)
  have hcapacity : body.window.capacity = body.capacity := rfl
  rw [hholds.window_eq]
  by_cases hroom : body.window.length ≤ n.toInt ∧ n.toInt ≤ body.window.capacity
  · have hlength : body.window.fieldLength? 0 (.integer n) = some n.toInt.toNat := if_pos hroom
    have hadmits : body.Admits n.toInt := by
      unfold Body.Admits
      omega
    have hsame : body.setField 0 (.integer n) = body.setLength n.toInt := by
      simp only [Body.setField, hlength, Body.setLength, if_pos hadmits]
    have hset := ArrayHandle.perform_setLength hholds n.toInt
    rw [decide_eq_true hadmits] at hset hgranted
    rw [hlength, hsame, Option.isSome_some, ← hset] at hfield
    have houtcome : ((Object.array array).setField 0 (.integer n)).perform agent =
        (.ok true, ((array.setLength n.toInt).perform agent).2) :=
      hfield.trans (Prod.ext hgranted rfl)
    exact ⟨true, _, houtcome, hproperty.trans houtcome, by simp [hgranted, hroom.1],
      fun _ => rfl, by simp⟩
  · have hlength : body.window.fieldLength? 0 (.integer n) = none := if_neg hroom
    have houtcome : ((Object.array array).setField 0 (.integer n)).perform agent =
        (.ok false, agent) := by
      rw [Object.perform_setField_of_get? hholds.get?_eq, hholds.window_eq, hlength]
    refine ⟨false, agent, houtcome, hproperty.trans houtcome, ?_, by simp, fun _ => rfl⟩
    rw [hgranted, Except.ok.injEq, decide_eq_true_eq]
    unfold Body.Admits
    constructor
    · intro hfalse
      contradiction
    · rintro ⟨hadmits, hmore⟩
      exact absurd ⟨hmore, hadmits.2⟩ hroom

/-! ## Any number of writes -/

theorem lengthensOnly_self (hget : before.heap.arrays.get? array = some record) :
    before.LengthensOnly array record before :=
  ⟨record, ⟨rfl, rfl, rfl, Nat.le_refl _⟩, by rw [Heap.withRecord_eq_self hget]⟩

theorem LengthensOnly.run (hget : before.heap.arrays.get? array = some record)
    (hbefore : before.LengthensOnly array record agent) (writes : List (ObjectOp Value)) :
    before.LengthensOnly array record
      (agent.run (writes.map (Operation.object (.array array)))) := by
  induction writes generalizing agent with
  | nil => exact hbefore
  | cons write rest ih =>
      rw [List.map_cons, run_cons]
      apply ih
      rw [step, Operation.perform, pure_bind]
      simp only [Value.asObject?, ObjectOp.evaluate_pure, pure_bind]
      exact write.keeps_perform keeps_changeHeader_lengthens
        (keeps_setField_lengthens hget) agent hbefore

/-- Whatever is done to a living array as an object, only its record changes, and in it only the
header and the length, which grows within the capacity.  At every index the array reads as
before, and undefined behind its old length.  The length that it shows is its length, and an
integer can be written there if and only if it can be set as the length without making the array
shorter, with the same effect. -/
theorem object_view_run (options : Options) (operations : List (Operation Value))
    (hlive : ((start options).run operations).heap.arrays.get? array = some record)
    (writes : List (ObjectOp Value)) :
    let before := (start options).run operations
    let after := before.run (writes.map (Operation.object (.array array)))
    ∃ changed,
      after = { before with heap := before.heap.withRecord array changed } ∧
      after.heap.arrays.get? array = some changed ∧
      record.Lengthens changed ∧ changed.window.length ≤ changed.window.capacity ∧
      (∀ index : Int, ∃ value, before.heap.element array index = .ok value ∧
        after.heap.element array index = .ok value ∧
        (record.window.length ≤ index → value = .undefined)) ∧
      (∃ n : Int32, n.toInt = changed.window.length ∧
        after.heap.field (.array array) 0 = .ok (.integer n) ∧
        after.heap.property (.array array) "length" = .ok (.integer n)) ∧
      ∀ n : Int32, ∃ taken final, after.WritesLength array changed.window.length n taken final := by
  intro before after
  have hbefore : before.Sound := (sound_start options).run operations
  have hafter : after.Sound := hbefore.run _
  have hrecord : before.heap.arrays.get? array = some record := hlive
  obtain ⟨changed, hlengthens, heq⟩ : before.LengthensOnly array record after :=
    (lengthensOnly_self hrecord).run hrecord writes
  -- From here on it does not count how the two came about.
  clear_value after before
  have hheap : after.heap = before.heap.withRecord array changed := congrArg Agent.heap heq
  have hget : after.heap.arrays.get? array = some changed := by
    rw [hheap]
    exact Heap.get?_withRecord_self hrecord changed
  obtain ⟨body, hholds⟩ := hbefore.exists_holds hrecord
  obtain ⟨next, hnext⟩ := hafter.exists_holds hget
  refine ⟨changed, heq, hget, hlengthens, ?_, ?_, ?_, exists_writesLength hnext⟩
  · rw [hnext.window_eq]
    exact hnext.fits.length_le
  · intro index
    refine ⟨_, hholds.element_eq index, ?_, ?_⟩
    · rw [hheap, Heap.element_withRecord hrecord hlengthens, hholds.element_eq index]
    · intro hbeyond
      rw [hholds.window_eq] at hbeyond
      have hlength : body.window.length = body.elements.length := rfl
      have hindex : body.elements.length ≤ index.toNat := by omega
      rw [List.getElem?_eq_none hindex]
      exact ite_self _
  · have hlength : changed.window.length ≤ maxCapacity := by
      have hmore := hnext.fits.length_le
      have hsize := hnext.fits.size_le
      rw [hnext.window_eq]
      exact Nat.le_trans hmore (Nat.le_trans (Nat.le_add_left _ _) hsize)
    have hslot : ObjectMap.array.slotOf? "length" = some 0 := rfl
    exact ⟨changed.window.lengthWord, Window.toInt_lengthWord hlength,
      Heap.field_array hget 0, Heap.property_array hget hslot⟩

/-- An array takes in the slot of an element that it has lost, but not the element. -/
theorem object_view_run_lengthened :
    let before := (start .standard).run
      [.literal [.boolean true, .boolean false] 0, .array (.array ⟨0⟩) (.call .pop) none]
    let after := before.run [.object (.array ⟨0⟩) (.set "length" (.integer 2))]
    after.heap.element ⟨0⟩ 0 = .ok (.boolean true) ∧ after.heap.element ⟨0⟩ 1 = .ok .undefined ∧
      after.heap.field (.array ⟨0⟩) 0 = .ok (.integer 2) := by
  intro before after
  obtain ⟨changed, -, hget, -, -, helements, ⟨n, hn, hfield, -⟩, -⟩ :=
    @object_view_run ⟨0⟩
      { ArrayRecord.ofTag 0 with window := ⟨1, 2, 0⟩, store := some ⟨0⟩ } .standard
      [.literal [.boolean true, .boolean false] 0, .array (.array ⟨0⟩) (.call .pop) none] rfl
      [.set "length" (.integer 2)]
  obtain ⟨first, hfirst, hfirstAfter, -⟩ := helements 0
  obtain ⟨second, -, hsecondAfter, hsecond⟩ := helements 1
  have hchanged : changed = { ArrayRecord.ofTag 0 with window := ⟨2, 2, 0⟩, store := some ⟨0⟩ } :=
    Option.some.inj (hget.symm.trans rfl)
  subst hchanged
  have htrue : first = .boolean true := Except.ok.inj (hfirst.symm.trans rfl)
  have hundefined : second = .undefined := hsecond (Int.le_refl 1)
  have htwo : n = 2 := Int32.toInt_inj.1 hn
  subst htrue hundefined htwo
  exact ⟨hfirstAfter, hsecondAfter, hfield⟩

end Agent

end ManagedHeap
