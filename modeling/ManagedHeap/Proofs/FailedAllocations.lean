import ManagedHeap.Proofs.Equipment
import ManagedHeap.Proofs.Refusals

/-!
# Failed allocations

An operation that asks for more slots than an array can have leaves the heap as it was.
It finds out before anything is allocated, released or moved, be it that the policy
cannot grow so far or that headroom and capacity together are too much.  All it leaves
behind are the events: the error, and before it the headroom that was to be reserved.
-/

namespace ManagedHeap

open ManagedHeap.Action

/-- If too many slots were asked for, nothing has changed but the log, to which the
notices and the error were added. -/
def Outcome.FailsCleanly {α : Type} (outcome : Outcome α) (agent : Agent)
    (notices : List Event) : Prop :=
  ∀ requested, outcome.1 = .error (.allocation (.capacityOverflow requested)) →
    outcome.2 =
      { agent with
        log := agent.log ++
          (notices ++ [Event.allocationFailed (.capacityOverflow requested)]).toArray }

/-- What a method announces before it asks for slots that cannot be had. -/
def ArrayMethod.forewarning (method : ArrayMethod) (policy : GrowthPolicy) (array : ArrayHandle)
    (window : Window) : List Event :=
  match method with
  | .unshift => [.reservingHeadroom array window.capacity (policy.headroom window.length)]
  | .pop | .push | .shift | .reverse => []

/-! ## Refused changes and their notices -/

/-- If too many slots are asked for, the change is refused after these notices. -/
def Change.OverflowsAfter (change : Change) (notices : List Event) : Prop :=
  ∀ requested, change.refusal? = some (.capacityOverflow requested) →
    change = .refuse notices (.capacityOverflow requested)

namespace Change

theorem overflowsAfter_of_refusal?_eq_none {change : Change} {notices : List Event}
    (hgranted : change.refusal? = none) : change.OverflowsAfter notices := by
  intro requested hrefused
  rw [hgranted] at hrefused
  contradiction

theorem overflowsAfter_moving (options : Options) (notices : List Event) (slots : Nat)
    (next : Body) : (moving options notices slots next).OverflowsAfter notices := by
  intro requested hrefused
  rw [refusal?_moving] at hrefused
  exact moving_of_some hrefused

theorem OverflowsAfter.carryOut {α : Type} {change : Change} {notices : List Event}
    (hchange : change.OverflowsAfter notices) (array : ArrayHandle) (record : ArrayRecord)
    (answer : α) (agent : Agent) :
    (change.carryOut array record answer agent).FailsCleanly agent notices := by
  intro requested hfailed
  rw [fst_carryOut] at hfailed
  cases hrefusal : change.refusal? with
  | none =>
      rw [hrefusal] at hfailed
      contradiction
  | some error =>
      rw [hrefusal] at hfailed
      have herror : error = .capacityOverflow requested := by simpa using hfailed
      rw [herror] at hrefusal
      rw [hchange requested hrefusal]
      rfl

end Change

namespace Body

variable {options : Options} {array : ArrayHandle} {body : Body}

/-- The policy never makes a store larger than an array can have, so that it overflows
before growth is announced, if at all. -/
theorem overflowsAfter_put (index : Nat) (value : Value) :
    (body.put options array index value).OverflowsAfter [] := by
  intro requested hrefused
  unfold put at hrefused ⊢
  split at hrefused
  · contradiction
  · rename_i hroom
    rw [if_neg hroom]
    cases hgrown : options.growth.grownCapacity body.capacity (index + 1) with
    | error cause =>
        rw [hgrown] at hrefused
        rw [Option.some.inj hrefused]
    | ok grown =>
        rw [hgrown] at hrefused
        have hsmall := (GrowthPolicy.grownCapacity_bounds hgrown).2
        rcases Options.denial?_eq_some_iff.1 (Change.refusal?_moving ▸ hrefused) with
          ⟨hlarge, -⟩ | ⟨-, -, herror⟩
        · exact absurd hlarge (Nat.not_lt.2 hsmall)
        · contradiction

theorem overflowsAfter_unshift (value : Value) :
    (body.unshift options array value).OverflowsAfter
      [.reservingHeadroom array body.capacity
        (options.growth.headroom body.elements.length)] := by
  unfold unshift
  split
  · exact Change.overflowsAfter_moving options _ _ _
  · exact Change.overflowsAfter_of_refusal?_eq_none rfl

theorem overflowsAfter_reserve (capacity : Nat) :
    (reserve options capacity).OverflowsAfter [] := by
  unfold reserve
  split
  · exact Change.overflowsAfter_of_refusal?_eq_none rfl
  · exact Change.overflowsAfter_moving options _ _ _

theorem overflowsAfter_method (method : ArrayMethod) (argument : Value) :
    (method.change options array argument body).OverflowsAfter
      (method.forewarning options.growth array body.window) := by
  cases method with
  | push => exact overflowsAfter_put body.elements.length argument
  | unshift => exact overflowsAfter_unshift argument
  | pop | shift | reverse =>
      exact Change.overflowsAfter_of_refusal?_eq_none (refusal?_method_eq_none rfl argument)

end Body

/-! ## Operations that may fail -/

namespace ArrayHandle

variable {agent : Agent} {array : ArrayHandle} {record : ArrayRecord}

theorem failsCleanly_put (hsound : agent.Sound)
    (hlive : agent.heap.arrays.get? array = some record) (index : Int) (value : Value) :
    ((array.put index value).perform agent).FailsCleanly agent [] := by
  obtain ⟨body, hholds⟩ := hsound.exists_holds hlive
  by_cases hindex : index < 0
  · intro requested hfailed
    rw [perform_put_of_neg hholds hindex] at hfailed
    contradiction
  · rw [perform_put hsound hholds (Int.not_lt.1 hindex)]
    exact (Body.overflowsAfter_put index.toNat value).carryOut array record value agent

theorem failsCleanly_call (hsound : agent.Sound)
    (hlive : agent.heap.arrays.get? array = some record) (method : ArrayMethod)
    (argument : Value) :
    ((array.call method argument).perform agent).FailsCleanly agent
      (method.forewarning agent.options.growth array record.window) := by
  obtain ⟨body, hholds⟩ := hsound.exists_holds hlive
  rw [perform_call hsound hholds, hholds.window_eq]
  exact (Body.overflowsAfter_method method argument).carryOut array record _ agent

theorem failsCleanly_unshift (hsound : agent.Sound)
    (hlive : agent.heap.arrays.get? array = some record) (value : Value) :
    ((array.unshift value).perform agent).FailsCleanly agent
      [.reservingHeadroom array record.window.capacity
        (agent.options.growth.headroom record.window.length)] := by
  obtain ⟨body, hholds⟩ := hsound.exists_holds hlive
  rw [perform_unshift hsound hholds, hholds.window_eq]
  exact (Body.overflowsAfter_unshift value).carryOut array record () agent

/-- The array was made before its store was asked for, and it stays. -/
theorem failsCleanly_withCapacity (hsound : agent.Sound) (capacity : Nat) (tag : UInt32) :
    ((withCapacity capacity tag).perform agent).FailsCleanly (agent.withArray tag) [] := by
  rw [perform_withCapacity hsound]
  exact (Body.overflowsAfter_reserve capacity).carryOut _ _ _ (agent.withArray tag)

end ArrayHandle

/-- The closure of a method does to an array what the method does. -/
theorem Agent.Equipped.perform_call {agent : Agent} (hequipped : agent.Equipped)
    (method : ArrayMethod) (array : ArrayHandle) (argument : Value) :
    (method.closure.call (.array array) argument).perform agent =
      (array.call method argument).perform agent := by
  rw [ClosureHandle.perform_call (hequipped.heap.methods method)]
  rfl

namespace Agent

/-- In every state that a run brings about, an operation on a living array that fails for
want of slots changes nothing, by whichever way it was called, and a new array whose store
cannot be had stays behind empty. -/
theorem failed_allocations_run (options : Options) (operations : List (Operation Value)) :
    let agent := (start options).run operations
    (∀ (array : ArrayHandle) (record : ArrayRecord),
      agent.heap.arrays.get? array = some record →
      (∀ index value, ((array.put index value).perform agent).FailsCleanly agent []) ∧
      (∀ value, ((array.push value).perform agent).FailsCleanly agent []) ∧
      (∀ value, ((array.unshift value).perform agent).FailsCleanly agent
        [.reservingHeadroom array record.window.capacity
          (options.growth.headroom record.window.length)]) ∧
      ∀ (method : ArrayMethod) value,
        ((method.closure.call (.array array) value).perform agent).FailsCleanly agent
          (method.forewarning options.growth array record.window)) ∧
    ∀ capacity tag, ((ArrayHandle.withCapacity capacity tag).perform agent).FailsCleanly
      (agent.withArray tag) [] := by
  intro agent
  have hequipped : agent.Equipped := equipped_run options operations
  have hsound := hequipped.sound
  have hoptions : agent.options = options := options_run options operations
  rw [← hoptions]
  refine ⟨?_, ArrayHandle.failsCleanly_withCapacity hsound⟩
  intro array record hlive
  refine ⟨ArrayHandle.failsCleanly_put hsound hlive,
    ArrayHandle.failsCleanly_call hsound hlive .push,
    ArrayHandle.failsCleanly_unshift hsound hlive, ?_⟩
  intro method value
  rw [hequipped.perform_call]
  exact ArrayHandle.failsCleanly_call hsound hlive method value

/-- An array of one element, under a policy with more headroom than any store can have. -/
theorem failed_allocations_run_each :
    let agent := (start { Options.standard with growth := ⟨8, 4294967295⟩ }).run
      [.newArray 0, .array (.array ⟨0⟩) (.call .push) (some (.integer 1))]
    (ArrayHandle.put ⟨0⟩ 2147483647 .null).perform agent =
      (.error (.allocation (.capacityOverflow 2147483648)),
        { agent with
          log := agent.log ++ #[.allocationFailed (.capacityOverflow 2147483648)] }) ∧
    (ArrayMethod.unshift.closure.call (.array ⟨0⟩) .null).perform agent =
      (.error (.allocation (.capacityOverflow 4294967303)),
        { agent with
          log := agent.log ++ #[.reservingHeadroom ⟨0⟩ 8 4294967295,
            .allocationFailed (.capacityOverflow 4294967303)] }) ∧
    (ArrayHandle.withCapacity 4294967295 0).perform agent =
      (.error (.allocation (.capacityOverflow 4294967295)),
        { agent.withArray 0 with
          log := agent.log ++ #[.allocationFailed (.capacityOverflow 4294967295)] }) := by
  obtain ⟨hliving, hcreate⟩ :=
    failed_allocations_run { Options.standard with growth := ⟨8, 4294967295⟩ }
      [.newArray 0, .array (.array ⟨0⟩) (.call .push) (some (.integer 1))]
  obtain ⟨hput, -, -, hcall⟩ := hliving ⟨0⟩
    { ArrayRecord.ofTag 0 with window := ⟨1, 8, 0⟩, store := some ⟨0⟩ } rfl
  exact ⟨Prod.ext rfl (hput 2147483647 .null _ rfl),
    Prod.ext rfl (hcall .unshift .null _ rfl), Prod.ext rfl (hcreate 4294967295 0 _ rfl)⟩

end Agent

end ManagedHeap
