import ManagedHeap.Proofs.FailedAllocations
import ManagedHeap.Proofs.PropertyWrites

/-!
# Methods without a look-up

Four of the array methods are fields of every array.  A look-up comes to the fields first,
and what they hold is not stored with the array, so neither the bag nor the prototype can
get in the way, and no write can put something else there.  The closures that they hold
outlive every collection.  To call one of them is therefore the same as to call the method.
-/

namespace ManagedHeap

namespace Heap

variable {heap : Heap} {array : ArrayHandle} {record : ArrayRecord}

theorem field_array (hget : heap.arrays.get? array = some record) (slot : Nat) :
    heap.field (.array array) slot = .ok (arrayField record slot) := by
  simp only [field, Arena.deref_eq_ok_iff.2 hget, Except.map]

/-- The look-up of a field of an array stops at the array, whatever its prototype is. -/
theorem property_array (hget : heap.arrays.get? array = some record) {key : String} {slot : Nat}
    (hslot : ObjectMap.array.slotOf? key = some slot) :
    heap.property (.array array) key = .ok (arrayField record slot) := by
  have hmap : heap.objectMap (.array array) = .ok .array := objectMap_array hget
  have hheader : heap.header (.array array) = .ok record.header :=
    header_array_eq_ok_iff.2 ⟨record, hget, rfl⟩
  have hown : heap.own? (.array array) key = some (arrayField record slot) := by
    simp only [own?_eq_of_map hmap hheader, hslot, field_array hget, Except.toOption]
  have hfirst : ∃ rest, (heap.chainFrom (some (.array array))).objects = .array array :: rest := by
    unfold chainFrom follow
    rw [hheader]
    exact ⟨_, rfl⟩
  obtain ⟨rest, hobjects⟩ := hfirst
  simp only [property, hobjects, List.findSome?_cons, hown]

/-- The array has the method in a field and under its name. -/
structure Offers (heap : Heap) (array : ArrayHandle) (method : ArrayMethod) (slot : Nat) :
    Prop where
  field_eq : heap.field (.array array) slot = .ok (.closure method.closure)
  property_eq : heap.property (.array array) method.name = .ok (.closure method.closure)

theorem arrayField_slotOf? (record : ArrayRecord) {method : ArrayMethod} {slot : Nat}
    (hslot : ObjectMap.array.slotOf? method.name = some slot) :
    arrayField record slot = .closure method.closure := by
  cases method with
  | pop | push | shift | unshift =>
      have hfield := Option.some.inj hslot
      subst hfield
      rfl
  | reverse => contradiction

theorem offers_of_slotOf? (hget : heap.arrays.get? array = some record) {method : ArrayMethod}
    {slot : Nat} (hslot : ObjectMap.array.slotOf? method.name = some slot) :
    heap.Offers array method slot where
  field_eq := by
    rw [field_array hget, arrayField_slotOf? record hslot]
  property_eq := by
    rw [property_array hget hslot, arrayField_slotOf? record hslot]

end Heap

namespace Agent

open ManagedHeap.Action

/-- The closures that the agent was made with are there, and whoever calls one of them with an
array might as well have asked the array.  That includes the faults, what has been logged by
then, and arrays that are gone. -/
structure Dispatches (agent : Agent) : Prop where
  closure_eq : ∀ method : ArrayMethod,
    agent.heap.closures.get? method.closure = some ⟨.undefined, .arrayMethod method⟩
  pop_eq : ∀ (array : ArrayHandle) argument,
    (ArrayMethod.pop.closure.call (.array array) argument).perform agent =
      array.pop.perform agent
  push_eq : ∀ (array : ArrayHandle) argument,
    (ArrayMethod.push.closure.call (.array array) argument).perform agent =
      (array.push argument).perform agent
  shift_eq : ∀ (array : ArrayHandle) argument,
    (ArrayMethod.shift.closure.call (.array array) argument).perform agent =
      array.shift.perform agent
  unshift_eq : ∀ (array : ArrayHandle) argument,
    (ArrayMethod.unshift.closure.call (.array array) argument).perform agent =
      perform (do array.unshift argument; pure .undefined) agent
  reverse_eq : ∀ (array : ArrayHandle) argument,
    (ArrayMethod.reverse.closure.call (.array array) argument).perform agent =
      perform (do array.reverse; pure (.array array)) agent
  other_eq : ∀ (method : ArrayMethod) receiver argument, receiver.asArray? = none →
    (method.closure.call receiver argument).perform agent = (.ok .undefined, agent)

variable {agent : Agent}

theorem Equipped.dispatches (hequipped : agent.Equipped) : agent.Dispatches where
  closure_eq := hequipped.heap.methods
  pop_eq := hequipped.perform_call .pop
  push_eq := hequipped.perform_call .push
  shift_eq := hequipped.perform_call .shift
  unshift_eq := hequipped.perform_call .unshift
  reverse_eq := hequipped.perform_call .reverse
  other_eq := by
    intro method receiver argument hreceiver
    rw [ClosureHandle.perform_call (hequipped.heap.methods method), Behaviour.run, hreceiver,
      perform_pure]

/-- In every state that a run brings about, the closures of the array methods do what the
methods do, and they are what every living array has in its fields. -/
theorem cached_methods_run (options : Options) (operations : List (Operation Value)) :
    let agent := (start options).run operations
    agent.Dispatches ∧ ∀ array, agent.heap.arrays.isLive array = true →
      agent.heap.Offers array .pop 1 ∧ agent.heap.Offers array .push 2 ∧
      agent.heap.Offers array .shift 3 ∧ agent.heap.Offers array .unshift 4 := by
  intro agent
  refine ⟨(equipped_run options operations).dispatches, ?_⟩
  intro array hlive
  obtain ⟨record, hget⟩ := Arena.isLive_iff.1 hlive
  exact ⟨Heap.offers_of_slotOf? hget rfl, Heap.offers_of_slotOf? hget rfl,
    Heap.offers_of_slotOf? hget rfl, Heap.offers_of_slotOf? hget rfl⟩

/-- The method cannot be hidden from the array, though the prototype has lost it. -/
theorem cached_methods_run_shadowed :
    let agent := (start .standard).run
      [.newArray 0, .object (.array ⟨0⟩) (.set "pop" .null),
        .object (.object ⟨0⟩) (.set "pop" .null), .object (.array ⟨0⟩) (.setField 1 .null)]
    agent.heap.property (.ordinary ⟨0⟩) "pop" = .ok .null ∧
      agent.heap.property (.array ⟨0⟩) "pop" = .ok (.closure ArrayMethod.pop.closure) ∧
      (ArrayMethod.pop.closure.call (.array ⟨0⟩) .null).perform agent =
        (ArrayHandle.pop ⟨0⟩).perform agent := by
  intro agent
  have hprototype : agent.heap.property (.ordinary ⟨0⟩) "pop" = .ok .null := by
    decide +kernel
  have hlive : agent.heap.arrays.isLive ⟨0⟩ = true := by
    decide +kernel
  obtain ⟨hdispatches, hoffers⟩ := cached_methods_run .standard
    [.newArray 0, .object (.array ⟨0⟩) (.set "pop" .null),
      .object (.object ⟨0⟩) (.set "pop" .null), .object (.array ⟨0⟩) (.setField 1 .null)]
  obtain ⟨hpop, -⟩ := hoffers ⟨0⟩ hlive
  exact ⟨hprototype, hpop.property_eq, hdispatches.pop_eq ⟨0⟩ .null⟩

end Agent

end ManagedHeap
