import ManagedHeap.Proofs.ListModel

/-!
# Arrays that an operation is not about

An operation is asked of at most one array, be it directly, through the view of the array
as an object, or by the call of a closure.  Every other array that is still there
afterwards lies where it was.
-/

namespace ManagedHeap

namespace Heap

/-- The window of an array and the store that it shows. -/
def placement? (heap : Heap) (array : ArrayHandle) : Option (Window × Option StoreHandle) :=
  (heap.arrays.get? array).map fun record => (record.window, record.store)

/-- The array that an operation is asked of, or that a call comes down to. -/
def subject? (heap : Heap) : Operation Value → Option ArrayHandle
  | .array subject _ _ => subject.asArray?
  | .object subject _ => subject.asArray?
  | .call closure receiver _ => (heap.calledMethod? closure receiver).map Prod.fst
  | _ => none

end Heap

namespace Agent

open ManagedHeap.Action

variable {agent : Agent} {array : ArrayHandle} {place : Window × Option StoreHandle}

/-- A sound heap in which an array lies in a certain place. -/
structure Places (array : ArrayHandle) (place : Window × Option StoreHandle) (agent : Agent) :
    Prop where
  sound : agent.Sound
  placement?_eq : agent.heap.placement? array = some place

theorem Places.exists_record (hplaces : agent.Places array place) :
    ∃ record, agent.heap.arrays.get? array = some record ∧
      (record.window, record.store) = place :=
  Option.map_eq_some_iff.1 hplaces.placement?_eq

theorem Places.of_get?_eq {after : Agent} (hplaces : agent.Places array place)
    (hsound : after.Sound)
    (hget : after.heap.arrays.get? array = agent.heap.arrays.get? array) :
    after.Places array place := by
  refine ⟨hsound, ?_⟩
  unfold Heap.placement?
  rw [hget]
  exact hplaces.placement?_eq

theorem confined_places (array : ArrayHandle) (place : Window × Option StoreHandle) :
    Confined (· ≠ array) (Places array place) where
  sound _ hplaces := hplaces.sound
  robust := by
    intro agent heap hstep hplaces
    exact ⟨hstep.sound hplaces.sound,
      (hstep.samePlacement.arrays_eq array).trans hplaces.placement?_eq⟩
  withArray := by
    intro agent tag hplaces
    have hsound : (agent.withArray tag).Sound := Heap.sound_withArray hplaces.sound tag
    apply hplaces.of_get?_eq hsound
    apply Heap.get?_withArray_of_ne
    rintro rfl
    obtain ⟨record, hget, -⟩ := hplaces.exists_record
    rw [Heap.get?_nextArray hplaces.sound] at hget
    contradiction
  touches_new := by
    rintro agent other hplaces hnone rfl
    obtain ⟨record, hget, -⟩ := hplaces.exists_record
    rw [hnone] at hget
    contradiction
  carryOut := by
    intro agent other record body change hother hplaces hholds hsuits _
    have hrebuilds := Change.rebuilds_carryOut hplaces.sound hholds hsuits ()
    exact hplaces.of_get?_eq hrebuilds.sound (hrebuilds.others_eq array hother.symm)

theorem Places.collect (hplaces : agent.Places array place) (roots : List Value)
    (hlive : ((Action.collect roots).perform agent).2.heap.arrays.isLive array = true) :
    ((Action.collect roots).perform agent).2.Places array place := by
  rcases snd_perform_collect_cases hplaces.sound roots with hsame | ⟨marks, hcollects, hswept⟩
  · rw [hsame]
    exact hplaces
  · rw [hswept] at hlive ⊢
    obtain ⟨record, hget⟩ := Arena.isLive_iff.1 hlive
    exact hplaces.of_get?_eq (hcollects.sound hplaces.sound)
      (hget.trans (hcollects.get?_arrays hget).2.symm)

/-- An array stays in its place in a step that is not about it, unless it is freed. -/
theorem Places.step (hplaces : agent.Places array place) {operation : Operation Value}
    (hsubject : agent.heap.subject? operation ≠ some array)
    (hlive : (agent.step operation).2.heap.arrays.isLive array = true) :
    (agent.step operation).2.Places array place := by
  have hconfined := confined_places array place
  cases operation with
  | value | newString | newNumber | newArray | withCapacity | literal | strings | newObject
  | newClosure | equal | distinctArrays | distinctObjects | slotOf | ask =>
      exact Operation.keeps_undirected hconfined keeps_pure rfl agent hplaces
  | collect roots =>
      rw [Agent.step, Operation.snd_perform_collect] at hlive ⊢
      exact hplaces.collect roots hlive
  | array subject op argument =>
      rw [Agent.step, Operation.perform, pure_bind]
      cases hreceiver : subject.asArray? with
      | none => exact hplaces
      | some receiver =>
          have hother : receiver ≠ array := by
            rintro rfl
            exact hsubject hreceiver
          simp only [optionMapM_pure_self, pure_bind]
          exact ArrayOp.keeps_perform hconfined hother op _ agent hplaces
  | object subject op =>
      rw [Agent.step, Operation.perform, pure_bind]
      cases hreceiver : subject.asObject? with
      | none => exact hplaces
      | some receiver =>
          have hother : ∀ other, receiver = .array other → other ≠ array := by
            rintro other rfl rfl
            cases subject with
            | array subject =>
                rw [Value.asObject?, Option.some.injEq, Object.array.injEq] at hreceiver
                exact hsubject (congrArg some hreceiver)
            | object => simp [Value.asObject?] at hreceiver
            | undefined | null | boolean | integer | number | string | closure => contradiction
          simp only [ObjectOp.evaluate_pure, pure_bind]
          exact op.keeps_perform (Object.keeps_changeHeader hconfined.robust receiver)
            (Object.keeps_setField hconfined hother) agent hplaces
  | call closure receiver argument =>
      rw [Agent.step, Operation.perform, pure_bind]
      cases hclosure : closure.asClosure? with
      | none => exact hplaces
      | some handle =>
          simp only [pure_bind]
          rw [perform_map]
          cases hget : agent.heap.closures.get? handle with
          | none =>
              rw [ClosureHandle.perform_call_of_gone hget]
              exact hplaces
          | some record =>
              rw [ClosureHandle.perform_call hget]
              refine Behaviour.keeps_run hconfined ?_ argument agent hplaces
              rintro target htarget rfl
              rw [Option.mem_def, ← Heap.calledMethod?_eq hclosure hget] at htarget
              exact hsubject (congrArg (Option.map Prod.fst) htarget)

end Agent

end ManagedHeap
