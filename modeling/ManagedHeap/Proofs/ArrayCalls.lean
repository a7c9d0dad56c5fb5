import ManagedHeap.Proofs.Requests
import ManagedHeap.Proofs.Soundness

/-!
# Calls on one array

Methods called one after the other on the same array.  The array stays there, and
each call turns its body into the next one, which the method, the argument and the
options of the agent determine.  What a client can see of such a run is how long the array
was before and after each call.
-/

namespace ManagedHeap

/-- A method and the argument that it is called with. -/
structure ArrayCall where
  method : ArrayMethod
  argument : Value

/-- A call as it looks from outside: the lengths of the array around it. -/
structure CallStep where
  method : ArrayMethod
  before : Nat
  after : Nat
deriving DecidableEq

namespace ArrayCall

def operation (call : ArrayCall) (array : ArrayHandle) : Operation Value :=
  .array (.array array) (.call call.method) (some call.argument)

def change (call : ArrayCall) (options : Options) (array : ArrayHandle) (body : Body) :
    Change :=
  call.method.change options array call.argument body

def next (call : ArrayCall) (options : Options) (array : ArrayHandle) (body : Body) : Body :=
  (call.change options array body).next body

end ArrayCall

/-! ## What a call does to a window -/

/-- A call finds nothing to remove or no room, or only turns the elements round. -/
def Window.Stays (options : Options) (window : Window) (method : ArrayMethod) : Prop :=
  match method with
  | .pop | .shift => window.length = 0
  | .push | .unshift =>
      ∃ error, (method.request? options.growth window).bind options.denial? = some error
  | .reverse => True

/-- What a method makes of the window of an array. -/
inductive WindowStep (options : Options) : ArrayMethod → Window → Window → Prop where
  | stay {method : ArrayMethod} {window : Window} (hstays : window.Stays options method) :
      WindowStep options method window window
  | pushInside {length capacity offset : Nat} (hroom : length < capacity) :
      WindowStep options .push ⟨length, capacity, offset⟩ ⟨length + 1, capacity, offset⟩
  | pushGrown {capacity offset grown : Nat}
      (hgrown : options.growth.grownCapacity capacity (capacity + 1) = .ok grown) :
      WindowStep options .push ⟨capacity, capacity, offset⟩ ⟨capacity + 1, grown, 0⟩
  | pop {length capacity offset : Nat} :
      WindowStep options .pop ⟨length + 1, capacity, offset⟩ ⟨length, capacity, offset⟩
  | shift {length capacity offset : Nat} :
      WindowStep options .shift ⟨length + 1, capacity + 1, offset⟩ ⟨length, capacity, offset + 1⟩
  | unshiftInside {length capacity offset : Nat} :
      WindowStep options .unshift ⟨length, capacity, offset + 1⟩
        ⟨length + 1, capacity + 1, offset⟩
  | unshiftMoved {length capacity : Nat}
      (hroom : options.growth.headroom length + capacity ≤ maxCapacity) :
      WindowStep options .unshift ⟨length, capacity, 0⟩
        ⟨length + 1, capacity + 1, options.growth.headroom length - 1⟩

theorem Change.next_of_refusal? {change : Change} {error : AllocationError}
    (hrefused : change.refusal? = some error) (body : Body) : change.next body = body := by
  cases change with
  | settle next | move notices next => contradiction
  | refuse notices error => rfl

namespace Body

variable {options : Options} {array : ArrayHandle} {body : Body}

/-- An insertion that is refused leaves the window as it was. -/
theorem windowStep_of_refusal? {method : ArrayMethod} {argument : Value}
    {error : AllocationError} (hlengthens : method.lengthens = true)
    (hrefused : (method.change options array argument body).refusal? = some error) :
    WindowStep options method body.window
      ((method.change options array argument body).next body).window := by
  rw [Change.next_of_refusal? hrefused]
  rw [refusal?_method] at hrefused
  cases method with
  | push | unshift => exact .stay ⟨error, hrefused⟩
  | pop | shift | reverse => contradiction

theorem Fits.windowStep_push (hfits : body.Fits) (value : Value) :
    WindowStep options .push body.window
      ((ArrayMethod.push.change options array value body).next body).window := by
  cases hrefusal : (ArrayMethod.push.change options array value body).refusal? with
  | some error => exact windowStep_of_refusal? rfl hrefusal
  | none =>
      have hlength := hfits.length_le
      have hput := length_putAt_self body.elements value
      unfold ArrayMethod.change put at hrefusal ⊢
      simp only at hrefusal ⊢
      split at hrefusal
      · rename_i hroom
        simp only [if_pos hroom, Change.next, window, hput]
        exact .pushInside hroom
      · rename_i hroom
        have hfull : body.capacity = body.elements.length := by omega
        rw [if_neg hroom]
        cases hgrown : options.growth.grownCapacity body.capacity (body.elements.length + 1) with
        | error error =>
            rw [hgrown] at hrefusal
            contradiction
        | ok grown =>
            simp only [hgrown, Change.refusal?_moving] at hrefusal
            simp only [Change.moving_of_none hrefusal, Change.next, window, hput, hfull]
            rw [hfull] at hgrown
            exact .pushGrown hgrown

theorem windowStep_pop (body : Body) :
    WindowStep options .pop body.window (body.pop.next body).window := by
  obtain ⟨offset, capacity, elements⟩ := body
  simp only [pop, Change.next, window, List.length_dropLast]
  cases elements with
  | nil => exact .stay rfl
  | cons value rest => exact .pop

theorem Fits.windowStep_shift (hfits : body.Fits) :
    WindowStep options .shift body.window (body.shift.next body).window := by
  have hlength := hfits.length_le
  obtain ⟨offset, capacity, elements⟩ := body
  cases elements with
  | nil => exact .stay rfl
  | cons value rest =>
      simp only [List.length_cons] at hlength
      obtain ⟨less, rfl⟩ : ∃ less, capacity = less + 1 := ⟨capacity - 1, by omega⟩
      exact .shift

theorem windowStep_unshift (body : Body) (value : Value) :
    WindowStep options .unshift body.window
      ((ArrayMethod.unshift.change options array value body).next body).window := by
  cases hrefusal : (ArrayMethod.unshift.change options array value body).refusal? with
  | some error => exact windowStep_of_refusal? rfl hrefusal
  | none =>
      obtain ⟨offset, capacity, elements⟩ := body
      unfold ArrayMethod.change unshift at hrefusal ⊢
      simp only at hrefusal ⊢
      cases offset with
      | zero =>
          rw [if_pos rfl] at hrefusal ⊢
          rw [Change.refusal?_moving] at hrefusal
          rw [Change.moving_of_none hrefusal]
          exact .unshiftMoved (Options.denial?_eq_none_iff.1 hrefusal).1
      | succ offset =>
          rw [if_neg (Nat.succ_ne_zero offset)]
          exact .unshiftInside

theorem Fits.windowStep_next (hfits : body.Fits) (call : ArrayCall) :
    WindowStep options call.method body.window (call.next options array body).window := by
  obtain ⟨method, argument⟩ := call
  cases method with
  | pop => exact body.windowStep_pop
  | push => exact hfits.windowStep_push argument
  | shift => exact hfits.windowStep_shift
  | unshift => exact body.windowStep_unshift argument
  | reverse =>
      have hwindow : (body.reverse.next body).window = body.window := by
        simp only [reverse, Change.next, window, List.length_reverse]
      change WindowStep options .reverse body.window (body.reverse.next body).window
      rw [hwindow]
      exact .stay trivial

end Body

/-! ## Calls as steps of a run -/

namespace Heap

/-- The length of a living array.  No other array has any. -/
def lengthOf (heap : Heap) (array : ArrayHandle) : Nat :=
  (heap.arrays.get? array).elim 0 fun record => record.window.length

/-- The number of slots of the backing store of a living array.  An array that never
held anything has no store, and so no slots. -/
def storeSize? (heap : Heap) (array : ArrayHandle) : Option Nat := do
  let record ← heap.arrays.get? array
  match record.store with
  | none => some 0
  | some store => (heap.stores.get? store).map Array.size

variable {heap : Heap} {array : ArrayHandle} {record : ArrayRecord} {body : Body}

theorem Holds.lengthOf_eq (hholds : heap.Holds array record body) :
    heap.lengthOf array = body.elements.length := by
  unfold lengthOf
  rw [hholds.get?_eq, Option.elim_some, hholds.window_eq]
  rfl

theorem Holds.storeSize?_eq (hholds : heap.Holds array record body) :
    heap.storeSize? array = some (body.offset + body.capacity) := by
  unfold storeSize?
  rw [hholds.get?_eq, Option.bind_eq_bind, Option.bind_some]
  cases hstore : record.store with
  | none =>
      rw [hholds.eq_empty hstore]
      rfl
  | some store =>
      simp only [hholds.stores_eq store hstore, Option.map_some]
      rw [Body.size_slots hholds.fits.length_le]

end Heap

namespace Agent

/-- An array of a sound heap that has a certain body. -/
structure HasBody (agent : Agent) (array : ArrayHandle) (body : Body) : Prop where
  sound : agent.Sound
  holds : ∃ record, agent.heap.Holds array record body

def calls (agent : Agent) (array : ArrayHandle) (calls : List ArrayCall) : Agent :=
  agent.run (calls.map fun call => call.operation array)

def history (array : ArrayHandle) : Agent → List ArrayCall → List CallStep
  | _, [] => []
  | agent, call :: rest =>
      let after := (agent.step (call.operation array)).2
      ⟨call.method, agent.heap.lengthOf array, after.heap.lengthOf array⟩ ::
        history array after rest

variable {agent : Agent} {array : ArrayHandle} {body : Body}

theorem HasBody.fits (hbody : agent.HasBody array body) : body.Fits := by
  obtain ⟨record, hholds⟩ := hbody.holds
  exact hholds.fits

theorem HasBody.lengthOf_eq (hbody : agent.HasBody array body) :
    agent.heap.lengthOf array = body.elements.length := by
  obtain ⟨record, hholds⟩ := hbody.holds
  exact hholds.lengthOf_eq

theorem HasBody.storeSize?_eq (hbody : agent.HasBody array body) :
    agent.heap.storeSize? array = some (body.offset + body.capacity) := by
  obtain ⟨record, hholds⟩ := hbody.holds
  exact hholds.storeSize?_eq

theorem step_call (agent : Agent) (array : ArrayHandle) (call : ArrayCall) :
    agent.step (call.operation array) =
      (((array.call call.method call.argument).perform agent).1.map .value,
        ((array.call call.method call.argument).perform agent).2) := by
  have hargument : ((some call.argument).mapM pure : Action (Option Value)) =
      pure (some call.argument) := rfl
  rw [← Action.perform_map, Agent.step, ArrayCall.operation, Operation.perform, pure_bind]
  simp only [Value.asArray?, hargument, pure_bind, Option.getD_some, ArrayOp.perform]

/-- A call leaves the array with its next body and the options as they are. -/
theorem HasBody.step (hbody : agent.HasBody array body) (call : ArrayCall) :
    (agent.step (call.operation array)).2.HasBody array
        (call.next agent.options array body) ∧
      (agent.step (call.operation array)).2.options = agent.options := by
  obtain ⟨record, hholds⟩ := hbody.holds
  have hsuits : (call.change agent.options array body).Suits body :=
    hholds.fits.suits_method call.method call.argument
  rw [step_call, ArrayHandle.perform_call hbody.sound hholds]
  have hrebuilds := Change.rebuilds_carryOut hbody.sound hholds hsuits
    (call.method.answer array call.argument body.elements)
  obtain ⟨store, hafter⟩ := hrebuilds.holds
  constructor
  · exact ⟨hrebuilds.sound, _, hafter⟩
  · exact Change.options_carryOut _ array record _ agent

theorem history_cons (hbody : agent.HasBody array body) (call : ArrayCall)
    (rest : List ArrayCall) :
    agent.history array (call :: rest) =
      ⟨call.method, body.window.length,
        (call.next agent.options array body).window.length⟩ ::
        (agent.step (call.operation array)).2.history array rest := by
  obtain ⟨hnext, _⟩ := hbody.step call
  rw [history, hbody.lengthOf_eq, hnext.lengthOf_eq]
  rfl

theorem Sound.hasBody_newArray (hsound : agent.Sound) {tag : UInt32} {created : Agent}
    (hcreated : agent.step (.newArray tag) = (.ok (.value (.array array)), created)) :
    created.HasBody array .empty := by
  have hstep : agent.step (.newArray tag) =
      (.ok (.value (.array (agent.heap.nextArray (.ofTag tag)))), agent.withArray tag) := rfl
  rw [hstep] at hcreated
  cases hcreated
  constructor
  · exact hsound.step (.newArray tag)
  · exact ⟨_, Heap.holds_withArray_self hsound tag⟩

end Agent

end ManagedHeap
