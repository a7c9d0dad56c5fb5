import Mathlib.Data.List.Forall2
import ManagedHeap.Proofs.Requests
import ManagedHeap.Proofs.Soundness

/-!
# Arrays as lists

Seen from outside, the arrays of a heap are a finite map from handles to lists of
values.  This file gives what each operation does to that map and what it
answers, in terms of lists only, and shows that it does so in every state that a
run brings about.  An operation on an array changes the list of no other array.
The one thing that stops it is that it asks for a backing store which is not to be
had.
-/

namespace ManagedHeap

/-- The elements of every living array. -/
abbrev Lists := ArrayHandle → Option (List Value)

namespace Lists

def set (lists : Lists) (array : ArrayHandle) (elements : List Value) : Lists :=
  fun other => if other = array then some elements else lists other

theorem set_self {lists : Lists} {array : ArrayHandle} {elements : List Value}
    (hlists : lists array = some elements) : lists.set array elements = lists := by
  funext other
  by_cases hother : other = array
  · rw [hother, hlists]
    simp [set]
  · simp [set, hother]

theorem set_set (lists : Lists) (array : ArrayHandle) (first second : List Value) :
    (lists.set array first).set array second = lists.set array second := by
  funext other
  by_cases hother : other = array <;> simp [set, hother]

end Lists

/-! ## The operations on lists -/

def ArrayMethod.onList (method : ArrayMethod) (argument : Value) (elements : List Value) :
    List Value :=
  match method with
  | .pop => elements.dropLast
  | .push => elements ++ [argument]
  | .shift => elements.tail
  | .unshift => argument :: elements
  | .reverse => elements.reverse

/-- What repeated calls answer in the end, and what they make of the elements. -/
def ArrayMethod.callsOnList (method : ArrayMethod) (array : ArrayHandle)
    (indices : List Nat) (start : Value × List Value) : Value × List Value :=
  indices.foldl
    (fun state index =>
      (method.answer array (.integer (Int32.ofNat index)) state.2,
        method.onList (.integer (Int32.ofNat index)) state.2))
    start

/-- What an operation on an array answers, and what it makes of the elements. -/
def ArrayOp.onList (op : ArrayOp) (array : ArrayHandle) (capacity : Nat) (argument : Value)
    (elements : List Value) : Answer × List Value :=
  match op with
  | .length => (.count elements.length, elements)
  | .capacity => (.count capacity, elements)
  | .isEmpty => (.flag (decide (elements.length = 0)), elements)
  | .slice => (.elements elements.toArray, elements)
  | .get index =>
      (.value (if 0 ≤ index.toInt then elements[index.toInt.toNat]?.getD .undefined
        else .undefined), elements)
  | .put index =>
      (.value argument,
        if index.toInt < 0 then elements else putAt elements index.toInt.toNat argument)
  | .setLength extent =>
      if 0 ≤ extent.toInt ∧ extent.toInt ≤ capacity then
        (.flag true, resize elements extent.toInt.toNat)
      else (.flag false, elements)
  | .call method => (.value (method.answer array argument elements),
      method.onList argument elements)
  | .callRepeatedly method times =>
      let final := method.callsOnList array (List.range times) (.undefined, elements)
      (.value final.1, final.2)

/-- The operation succeeds as told, or it is refused a store that it asks for. -/
def Outcome.Granted {α : Type} (outcome : Outcome α) (requests : Nat → Prop)
    (shows : α → Heap → Prop) : Prop :=
  match outcome with
  | (.ok answer, after) => shows answer after.heap
  | (.error cause, after) => after.options.Denies requests cause

namespace Heap

/-- There is one more array, with the given elements. -/
def Creates (before : Heap) (elements : List Value) (answer : Answer) (after : Heap) : Prop :=
  ∃ array, answer = .value (.array array) ∧ before.elements? array = none ∧
    after.elements? = Lists.set before.elements? array elements

/-- There is one more array, the elements of which are new strings. -/
def CreatesTexts (before : Heap) (texts : List String) (answer : Answer) (after : Heap) : Prop :=
  ∃ handles : List StringHandle, handles.Nodup ∧
    (∀ handle ∈ handles, before.strings.get? handle = none) ∧
    List.Forall₂ (fun handle text => after.strings.get? handle = some text) handles texts ∧
    before.Creates (handles.map Value.string) answer after

/-- An operation acts on the elements of a living array, and on nothing else. -/
def Applies (before : Heap) (array : ArrayHandle) (op : ArrayOp) (argument : Value)
    (outcome : Outcome Answer) : Prop :=
  match before.arrays.get? array, before.elements? array with
  | some record, some elements =>
      let (expected, next) := op.onList array record.window.capacity argument elements
      outcome.Granted (op.Requests outcome.2.options.growth record.window)
        fun answer after =>
          answer = expected ∧ after.elements? = Lists.set before.elements? array next
  | _, _ => outcome.2.heap = before

/-- The array and the method that a call of a closure comes down to. -/
def calledMethod? (heap : Heap) (closure receiver : Value) :
    Option (ArrayHandle × ArrayMethod) := do
  let handle ← closure.asClosure?
  let record ← heap.closures.get? handle
  match record.behaviour with
  | .arrayMethod method => receiver.asArray?.map fun array => (array, method)
  | .append => record.env.asArray?.map fun array => (array, .push)
  | _ => none

/-- A write through the view as an object can extend a living array; otherwise it
leaves the lists alone. -/
def Extends {α : Type} (before : Heap) (array : ArrayHandle) (written : Option Nat)
    (granted : α) (outcome : Outcome α) : Prop :=
  match before.elements? array, written with
  | some elements, some length => outcome.1 = .ok granted ∧
      outcome.2.heap.elements? =
        Lists.set before.elements? array (resize elements length)
  | _, _ => outcome.2.heap.elements? = before.elements?

/-- The length that a write through the view as an object gives an array. -/
def writtenLength? (heap : Heap) (array : ArrayHandle) (op : ObjectOp Value) : Option Nat := do
  let record ← heap.arrays.get? array
  match op with
  | .setField slot value => record.window.fieldLength? slot value
  | .set key value => do record.window.fieldLength? (← ObjectMap.array.slotOf? key) value
  | _ => none

theorem writtenLength?_of_dead {heap : Heap} {array : ArrayHandle}
    (hget : heap.arrays.get? array = none) (op : ObjectOp Value) :
    heap.writtenLength? array op = none := by
  simp [writtenLength?, hget]

theorem writtenLength?_setField {heap : Heap} {array : ArrayHandle} {record : ArrayRecord}
    (hget : heap.arrays.get? array = some record) (slot : Nat) (value : Value) :
    heap.writtenLength? array (.setField slot value) = record.window.fieldLength? slot value := by
  simp [writtenLength?, hget]

/-- A write to a property that the map names is a write to its field. -/
theorem writtenLength?_set {key : String} {slot : Nat}
    (hslot : ObjectMap.array.slotOf? key = some slot) (heap : Heap) (array : ArrayHandle)
    (value : Value) :
    heap.writtenLength? array (.set key value) =
      heap.writtenLength? array (.setField slot value) := by
  simp [writtenLength?, hslot]

end Heap

/-- What an operation does to the lists, and what it answers about them. -/
def Operation.Refines (before : Heap) (operation : Operation Value)
    (outcome : Outcome Answer) : Prop :=
  match operation with
  | .newArray _ => outcome.Granted (fun _ => False) (before.Creates [])
  | .withCapacity capacity _ => outcome.Granted (· = capacity) (before.Creates [])
  | .literal elements _ => outcome.Granted (· = elements.length) (before.Creates elements)
  | .strings texts _ => outcome.Granted (· = texts.length) (before.CreatesTexts texts)
  | .array (.array subject) op argument =>
      before.Applies subject op (argument.getD .undefined) outcome
  | .call closure receiver argument =>
      match before.calledMethod? closure receiver with
      | some (subject, method) => before.Applies subject (.call method) argument outcome
      | none => outcome.2.heap.elements? = before.elements?
  | .object (.array subject) op =>
      before.Extends subject (before.writtenLength? subject op) (.flag true) outcome
  | .collect roots => ∀ handle,
      outcome.2.heap.elements? handle = before.elements? handle ∨
        (¬before.Reaches roots handle.entity ∧ outcome.2.heap.elements? handle = none)
  | _ => outcome.2.heap.elements? = before.elements?

/-! ## Changes of a body as changes of a list -/

/-- Unless it is refused, the change gives the array these elements. -/
def Change.Makes (change : Change) (elements : List Value) : Prop :=
  match change with
  | .settle next | .move _ next => next.elements = elements
  | .refuse _ _ => True

theorem Change.Makes.elements_next {change : Change} {elements : List Value} {body : Body}
    (hmakes : change.Makes elements) (hgranted : change.refusal? = none) :
    (change.next body).elements = elements := by
  cases change with
  | settle next | move _ next => exact hmakes
  | refuse _ error => contradiction

namespace Body

variable {body : Body} {options : Options} {array : ArrayHandle}

theorem makes_moving {notices : List Event} {slots : Nat} {next : Body} :
    (Change.moving options notices slots next).Makes next.elements := by
  unfold Change.moving
  split
  · rfl
  · exact True.intro

theorem makes_put (index : Nat) (value : Value) :
    (body.put options array index value).Makes (putAt body.elements index value) := by
  unfold put
  split
  · rfl
  · cases options.growth.grownCapacity body.capacity (index + 1) with
    | error error => exact True.intro
    | ok grown => exact makes_moving

theorem makes_method (method : ArrayMethod) (argument : Value) :
    (method.change options array argument body).Makes
      (method.onList argument body.elements) := by
  cases method with
  | pop | reverse => rfl
  | push =>
      have hput := putAt_length_self body.elements argument
      simp only [ArrayMethod.change, ArrayMethod.onList, ← hput]
      exact makes_put body.elements.length argument
  | shift =>
      simp only [ArrayMethod.change, ArrayMethod.onList, shift]
      split
      · rename_i hnil
        change body.elements = body.elements.tail
        rw [hnil]
        rfl
      · rfl
  | unshift =>
      simp only [ArrayMethod.change, ArrayMethod.onList, unshift]
      split
      · exact makes_moving
      · rfl

theorem makes_setLength (length : Int) :
    (body.setLength length).Makes
      (if body.Admits length then resize body.elements length.toNat else body.elements) := by
  unfold setLength
  split <;> rfl

theorem makes_reserve (capacity : Nat) : (reserve options capacity).Makes [] := by
  unfold reserve
  split
  · rfl
  · exact makes_moving

theorem makes_ofElements (elements : List Value) :
    (ofElements options elements).Makes elements := by
  unfold ofElements
  split
  · rename_i hnil
    exact hnil.symm
  · exact makes_moving

end Body

namespace Heap

variable {heap before after : Heap} {array : ArrayHandle} {record : ArrayRecord} {body : Body}

/-- The living arrays are those that have a list. -/
theorem Sound.isSome_elements? (hsound : heap.Sound) (array : ArrayHandle) :
    (heap.elements? array).isSome = heap.arrays.isLive array := by
  unfold Arena.isLive
  cases hget : heap.arrays.get? array with
  | none =>
      unfold elements?
      rw [hget]
      rfl
  | some record =>
      obtain ⟨body, hbody⟩ := hsound.exists_holds hget
      rw [hbody.elements?_eq]
      rfl

theorem elements?_eq_none (hget : heap.arrays.get? array = none) :
    heap.elements? array = none := by
  unfold elements?
  rw [hget]
  rfl

theorem Rebuilds.elements?_eq (hsound : before.Sound)
    (hrebuilds : before.Rebuilds after array record body) :
    after.elements? = Lists.set before.elements? array body.elements := by
  funext other
  by_cases hother : other = array
  · obtain ⟨store, hholds⟩ := hrebuilds.holds
    rw [hother, hholds.elements?_eq]
    simp [Lists.set]
  · simp only [Lists.set, if_neg hother]
    cases hget : before.arrays.get? other with
    | none =>
        have hafter := hrebuilds.others_eq other hother
        rw [hget] at hafter
        rw [elements?_eq_none hget, elements?_eq_none hafter]
    | some otherRecord =>
        obtain ⟨otherBody, hbody⟩ := hsound.exists_holds hget
        have hafter := hrebuilds.others_hold other hother otherRecord otherBody hbody
        rw [hbody.elements?_eq, hafter.elements?_eq]

end Heap

/-! ## Operations on a living array -/

open ManagedHeap.Action

variable {agent : Agent} {array : ArrayHandle} {record : ArrayRecord} {body : Body}

theorem Outcome.Granted.map {α β : Type} {action : Action α} {f : α → β}
    {requests : Nat → Prop} {shows : α → Heap → Prop} {shown : β → Heap → Prop}
    (hgranted : (action.perform agent).Granted requests shows)
    (hshown : ∀ x after, shows x after → shown (f x) after) :
    ((f <$> action).perform agent).Granted requests shown := by
  rw [perform_map]
  rcases houtcome : action.perform agent with ⟨cause | x, after⟩
  · rw [houtcome] at hgranted
    exact hgranted
  · rw [houtcome] at hgranted
    exact hshown x after.heap hgranted

/-- What comes after a change finds the array with the elements that were made. -/
theorem Change.granted_andThen {α β : Type} {change : Change} {elements : List Value}
    {requests : Nat → Prop} (hsound : agent.heap.Sound)
    (hholds : agent.heap.Holds array record body) (hsuits : change.Suits body)
    (hmakes : change.Makes elements) (hasks : change.Asks agent.options requests) {answer : α}
    {next : α → Agent → Outcome β} {shows : β → Heap → Prop}
    (hnext : ∀ after made store, made.elements = elements → after.heap.Sound →
      after.options = agent.options →
      after.heap.Holds array { record with window := made.window, store := store } made →
      after.heap.elements? = Lists.set agent.heap.elements? array elements →
      (next answer after).Granted requests shows) :
    ((change.carryOut array record answer agent).andThen next).Granted requests shows := by
  have hrebuilds := change.rebuilds_carryOut hsound hholds hsuits answer
  have hlists := hrebuilds.elements?_eq hsound
  obtain ⟨store, hmade⟩ := hrebuilds.holds
  cases change with
  | settle made =>
      refine hnext _ made store hmakes hrebuilds.sound rfl hmade ?_
      rw [← hmakes]
      exact hlists
  | move notices made =>
      refine hnext _ made store hmakes hrebuilds.sound rfl hmade ?_
      rw [← hmakes]
      exact hlists
  | refuse notices error =>
      have hfault : ((Change.refuse notices error).carryOut array record answer agent).1 =
          .error (.allocation error) := rfl
      exact hasks.denies hfault

theorem Change.granted_carryOut {α : Type} {change : Change} {elements : List Value}
    {requests : Nat → Prop} (hsound : agent.heap.Sound)
    (hholds : agent.heap.Holds array record body) (hsuits : change.Suits body)
    (hmakes : change.Makes elements) (hasks : change.Asks agent.options requests) (answer : α) :
    (change.carryOut array record answer agent).Granted requests fun result after =>
      result = answer ∧ after.elements? = Lists.set agent.heap.elements? array elements := by
  rw [← ArrayHandle.carryOut_andThen_pure]
  apply Change.granted_andThen hsound hholds hsuits hmakes hasks
  intro after _ _ _ _ _ _ hlists
  exact ⟨rfl, hlists⟩

/-- The calls go on from the list that the calls before them left. -/
theorem ArrayHandle.granted_calls (method : ArrayMethod) (policy : GrowthPolicy)
    (indices : List Nat) (start : Value) (agent : Agent) (hsound : agent.heap.Sound)
    (hpolicy : agent.options.growth = policy) (record : ArrayRecord) (body : Body)
    (hholds : agent.heap.Holds array record body) :
    ((indices.foldlM
      (fun _ index => call array method (.integer (Int32.ofNat index))) start :
        Action Value).perform agent).Granted
      (fun slots => ∃ later : Window, method.request? policy later = some slots)
      fun result after =>
        result = (method.callsOnList array indices (start, body.elements)).1 ∧
          after.elements? = Lists.set agent.heap.elements? array
            (method.callsOnList array indices (start, body.elements)).2 := by
  induction indices generalizing start agent record body with
  | nil => exact ⟨rfl, (Lists.set_self hholds.elements?_eq).symm⟩
  | cons index rest ih =>
      rw [List.foldlM_cons, perform_bind, perform_call hsound hholds]
      apply Change.granted_andThen hsound hholds (hholds.fits.suits_method method _)
        (Body.makes_method method _)
      · apply Change.asks_of_refusal?_eq_bind (Body.refusal?_method method _)
        rw [hpolicy]
        exact fun slots hslots => ⟨body.window, hslots⟩
      · intro after made store helements hafter hoptions hmade hlists
        have hrest := ih (method.answer array (.integer (Int32.ofNat index)) body.elements)
          after hafter (by rw [hoptions, hpolicy]) _ made hmade
        rw [helements, hlists, Lists.set_set] at hrest
        exact hrest

theorem ArrayOp.granted_perform (hsound : agent.heap.Sound)
    (hholds : agent.heap.Holds array record body) (op : ArrayOp) (argument : Value) :
    ((op.perform array argument).perform agent).Granted
      (op.Requests agent.options.growth record.window) fun answer after =>
        answer = (op.onList array record.window.capacity argument body.elements).1 ∧
          after.elements? = Lists.set agent.heap.elements? array
            (op.onList array record.window.capacity argument body.elements).2 := by
  have hsame : agent.heap.elements? =
      Lists.set agent.heap.elements? array body.elements :=
    (Lists.set_self hholds.elements?_eq).symm
  have hlength : record.window.length = body.elements.length := by
    rw [hholds.window_eq]
    rfl
  cases op with
  | length =>
      rw [ArrayOp.perform, perform_bind, perform_read, hholds.deref_eq, andThen_ok, perform_pure]
      exact ⟨congrArg Answer.count hlength, hsame⟩
  | capacity =>
      rw [ArrayOp.perform, perform_bind, perform_read, hholds.deref_eq, andThen_ok, perform_pure]
      exact ⟨rfl, hsame⟩
  | isEmpty =>
      rw [ArrayOp.perform, perform_bind, perform_read, hholds.deref_eq, andThen_ok, perform_pure,
        hlength]
      exact ⟨rfl, hsame⟩
  | slice =>
      rw [ArrayOp.perform, perform_map, perform_read, hholds.slice_eq]
      exact ⟨rfl, hsame⟩
  | get index =>
      rw [ArrayOp.perform, perform_map, perform_read, hholds.element_eq]
      exact ⟨rfl, hsame⟩
  | put index =>
      rw [ArrayOp.perform, perform_map]
      by_cases hindex : index.toInt < 0
      · rw [ArrayHandle.perform_put_of_neg hholds hindex]
        simp only [ArrayOp.onList, if_pos hindex]
        exact ⟨rfl, hsame⟩
      · rw [← perform_map]
        simp only [ArrayOp.onList, if_neg hindex]
        have hput := ArrayHandle.perform_put hsound hholds (Int.not_lt.1 hindex) argument
        apply Outcome.Granted.map
        · rw [hput]
          apply Change.granted_carryOut hsound hholds
            (hholds.fits.suits_put index.toInt.toNat argument)
            (Body.makes_put index.toInt.toNat argument)
          apply Change.asks_of_refusal?_eq_bind (Body.refusal?_put _ argument)
          rw [← hholds.window_eq]
          exact fun slots hslots => ⟨Int.not_lt.1 hindex, hslots⟩
        · rintro result after ⟨rfl, hlists⟩
          exact ⟨rfl, hlists⟩
  | setLength extent =>
      apply Outcome.Granted.map
      · rw [ArrayHandle.perform_setLength hholds]
        exact Change.granted_carryOut hsound hholds (hholds.fits.suits_setLength extent.toInt)
          (Body.makes_setLength extent.toInt)
          (Change.asks_of_refusal?_eq_none (Body.refusal?_setLength extent.toInt)) _
      · rintro result after ⟨rfl, hlists⟩
        have hcapacity : record.window.capacity = body.capacity := by
          rw [hholds.window_eq]
          rfl
        rw [hlists, ArrayOp.onList, hcapacity]
        by_cases hadmits : body.Admits extent.toInt
        · have hbounds : 0 ≤ extent.toInt ∧ extent.toInt ≤ body.capacity := hadmits
          rw [if_pos hadmits, if_pos hbounds, decide_eq_true hadmits]
          exact ⟨rfl, rfl⟩
        · have hbounds : ¬(0 ≤ extent.toInt ∧ extent.toInt ≤ body.capacity) := hadmits
          rw [if_neg hadmits, if_neg hbounds, decide_eq_false hadmits]
          exact ⟨rfl, rfl⟩
  | call method =>
      apply Outcome.Granted.map
      · rw [ArrayHandle.perform_call hsound hholds]
        apply Change.granted_carryOut hsound hholds (hholds.fits.suits_method method argument)
          (Body.makes_method method argument)
        apply Change.asks_of_refusal?_eq_bind (Body.refusal?_method method argument)
        rw [← hholds.window_eq]
        exact fun slots hslots => hslots
      · rintro result after ⟨rfl, hlists⟩
        exact ⟨rfl, hlists⟩
  | callRepeatedly method times =>
      apply Outcome.Granted.map
      · exact ArrayHandle.granted_calls method agent.options.growth (List.range times)
          .undefined agent hsound rfl record body hholds
      · rintro result after ⟨rfl, hlists⟩
        exact ⟨rfl, hlists⟩

theorem ArrayOp.perform_of_gone {cause : Fault}
    (hgone : agent.heap.arrays.deref array = .error cause) (op : ArrayOp) (argument : Value) :
    ((op.perform array argument).perform agent).2 = agent := by
  cases op with
  | length | capacity | isEmpty =>
      rw [ArrayOp.perform, perform_bind, perform_read, hgone, andThen_error]
  | slice | get index =>
      rw [ArrayOp.perform, perform_map, perform_read]
  | put index => rw [ArrayOp.perform, perform_map, ArrayHandle.perform_put_of_gone hgone]
  | setLength extent =>
      rw [ArrayOp.perform, perform_map, ArrayHandle.perform_setLength_of_gone hgone]
  | call method => rw [ArrayOp.perform, perform_map, ArrayHandle.perform_call_of_gone hgone]
  | callRepeatedly method times =>
      rw [ArrayOp.perform, perform_map, ArrayHandle.callRepeatedly]
      cases List.range times with
      | nil => rfl
      | cons index rest =>
          rw [List.foldlM_cons, perform_bind, ArrayHandle.perform_call_of_gone hgone,
            andThen_error]

theorem ArrayOp.options_perform (hsound : agent.heap.Sound) (op : ArrayOp) (array : ArrayHandle)
    (argument : Value) :
    ((op.perform array argument).perform agent).2.options = agent.options :=
  (op.keeps_perform (Agent.invariant_options agent.options).persistent.confined trivial argument
    agent ⟨hsound, rfl⟩).2

theorem ArrayOp.applies_perform (hsound : agent.heap.Sound) (op : ArrayOp)
    (array : ArrayHandle) (argument : Value) :
    agent.heap.Applies array op argument ((op.perform array argument).perform agent) := by
  unfold Heap.Applies
  cases hget : agent.heap.arrays.get? array with
  | some record =>
      obtain ⟨body, hholds⟩ := hsound.exists_holds hget
      rw [hholds.elements?_eq, op.options_perform hsound array argument]
      exact op.granted_perform hsound hholds argument
  | none =>
      obtain ⟨cause, hgone⟩ := Arena.deref_of_get?_eq_none hget
      simp only
      rw [ArrayOp.perform_of_gone hgone]

/-! ## New arrays -/

theorem Heap.elements?_withArray {heap : Heap} (hsound : heap.Sound) (tag : UInt32) :
    (heap.withArray (.ofTag tag)).elements? =
      Lists.set heap.elements? (heap.nextArray (.ofTag tag)) [] := by
  funext other
  by_cases hother : other = heap.nextArray (.ofTag tag)
  · rw [hother, (holds_withArray_self hsound tag).elements?_eq]
    simp [Lists.set, Body.empty]
  · simp only [Lists.set, if_neg hother]
    unfold Heap.elements?
    rw [get?_withArray_of_ne hother]
    rfl

/-- A new array that gets its elements at once. -/
theorem Change.granted_creates {change : Change} {elements : List Value}
    {requests : Nat → Prop} (hsound : agent.heap.Sound) (tag : UInt32)
    (hsuits : change.Suits .empty) (hmakes : change.Makes elements)
    (hasks : change.Asks agent.options requests) :
    (change.carryOut (agent.heap.nextArray (.ofTag tag)) (.ofTag tag)
      (agent.heap.nextArray (.ofTag tag)) (agent.withArray tag)).Granted requests
      fun array after =>
        agent.heap.Creates elements (.value (.array array)) after ∧
          after.strings = agent.heap.strings := by
  have hholds := Heap.holds_withArray_self hsound tag
  have hnew : (agent.withArray tag).heap.Sound := Heap.sound_withArray hsound tag
  have hnone : agent.heap.elements? (agent.heap.nextArray (.ofTag tag)) = none :=
    Heap.elements?_eq_none (Heap.get?_nextArray hsound (.ofTag tag))
  have hgranted := Change.granted_carryOut hnew hholds hsuits hmakes hasks
    (agent.heap.nextArray (.ofTag tag))
  have hrebuilds := Change.rebuilds_carryOut hnew hholds hsuits
    (agent.heap.nextArray (.ofTag tag))
  cases change with
  | settle next | move _ next =>
      refine ⟨⟨_, rfl, hnone, ?_⟩, hrebuilds.strings_eq⟩
      rw [hgranted.2]
      change Lists.set (agent.heap.withArray (.ofTag tag)).elements? _ _ = _
      rw [Heap.elements?_withArray hsound, Lists.set_set]
  | refuse notices error => exact hgranted

theorem Action.perform_newString (text : String) (agent : Agent) :
    (newString text).perform agent =
      (.ok (.string (agent.heap.strings.push text).1),
        { agent with
          heap := { agent.heap with strings := (agent.heap.strings.push text).2 } }) := rfl

/-- New strings are new entities, one for each text. -/
theorem Action.perform_newStrings (texts : List String) (agent : Agent)
    (hstrings : agent.heap.strings.WellFormed) :
    ∃ (handles : List StringHandle) (strings : Arena .string String),
      (texts.mapM newString).perform agent =
        (.ok (handles.map Value.string),
          { agent with heap := { agent.heap with strings := strings } }) ∧
      strings.WellFormed ∧ handles.Nodup ∧
      (∀ handle ∈ handles, agent.heap.strings.get? handle = none) ∧
      (∀ handle, agent.heap.strings.get? handle ≠ none →
        strings.get? handle = agent.heap.strings.get? handle) ∧
      List.Forall₂ (fun handle text => strings.get? handle = some text) handles texts := by
  induction texts generalizing agent with
  | nil =>
      refine ⟨[], agent.heap.strings, ?_, hstrings, List.nodup_nil, ?_, fun _ _ => rfl, .nil⟩
      · rw [List.mapM_nil]
        rfl
      · intro handle hmem
        exact absurd hmem List.not_mem_nil
  | cons text rest ih =>
      obtain ⟨first, hfirst⟩ :
          ∃ first, first = (agent.heap.strings.push text).1 := ⟨_, rfl⟩
      have hfresh : agent.heap.strings.get? first = none := by
        rw [hfirst]
        exact Arena.get?_push_fst hstrings text
      have hpushed : (agent.heap.strings.push text).2.get? first = some text := by
        rw [hfirst]
        exact Arena.get?_push_self hstrings text
      have hothers : ∀ handle, handle ≠ first →
          (agent.heap.strings.push text).2.get? handle = agent.heap.strings.get? handle := by
        intro handle hne
        rw [hfirst] at hne
        exact Arena.get?_push_of_ne hne
      have hlater := ih
        { agent with
          heap := { agent.heap with strings := (agent.heap.strings.push text).2 } }
        (hstrings.push text)
      simp only at hlater
      obtain ⟨handles, strings, houtcome, hwell, hnodup, hnew, hkeeps, hshow⟩ := hlater
      refine ⟨first :: handles, strings, ?_, hwell, ?_, ?_, ?_, ?_⟩
      · rw [List.mapM_cons, perform_bind, perform_newString, andThen_ok, perform_bind, houtcome,
          andThen_ok, perform_pure, ← hfirst]
        rfl
      · refine List.nodup_cons.2 ⟨?_, hnodup⟩
        intro hmem
        have hnone := hnew first hmem
        rw [hpushed] at hnone
        contradiction
      · intro handle hmem
        rcases List.mem_cons.1 hmem with rfl | hrest
        · exact hfresh
        · have hnone := hnew handle hrest
          by_cases hhandle : handle = first
          · rw [hhandle]
            exact hfresh
          · rw [hothers handle hhandle] at hnone
            exact hnone
      · intro handle hlive
        have hne : handle ≠ first := by
          intro heq
          exact hlive (by rw [heq, hfresh])
        have hsame := hothers handle hne
        rw [hkeeps handle (by rw [hsame]; exact hlive), hsame]
      · have hkept := hkeeps first (by simp [hpushed])
        rw [hpushed] at hkept
        exact .cons hkept hshow

theorem ArrayHandle.granted_literal (hsound : agent.heap.Sound) (elements : List Value)
    (tag : UInt32) :
    ((literal elements.toArray tag).perform agent).Granted (· = elements.length)
      fun array after =>
      agent.heap.Creates elements (.value (.array array)) after ∧
        after.strings = agent.heap.strings := by
  rw [perform_literal hsound]
  exact Change.granted_creates hsound tag (Body.suits_ofElements elements)
    (Body.makes_ofElements elements) (Change.asks_ofElements elements)

/-! ## Operations that leave the lists alone -/

def Agent.Shows (lists : Lists) (agent : Agent) : Prop := agent.heap.elements? = lists

theorem Agent.stable_shows (lists : Lists) : Stable (Agent.Shows lists) := by
  intro agent heap hsame _ hshows
  unfold Agent.Shows at hshows ⊢
  rw [← hshows]
  funext array
  exact hsame.elements?_eq

theorem Heap.Extends.of_none {α : Type} {before : Heap} {written : Option Nat} {granted : α}
    {outcome : Outcome α} (hwritten : written = none)
    (hsame : outcome.2.heap.elements? = before.elements?) :
    before.Extends array written granted outcome := by
  rw [hwritten]
  unfold Heap.Extends
  cases before.elements? array <;> exact hsame

theorem Heap.Extends.map {α β : Type} {before : Heap} {written : Option Nat} {granted : α}
    {action : Action α} (hextends : before.Extends array written granted (action.perform agent))
    (f : α → β) : before.Extends array written (f granted) ((f <$> action).perform agent) := by
  rw [perform_map]
  unfold Heap.Extends at hextends ⊢
  generalize before.elements? array = shown at hextends ⊢
  cases shown with
  | none => exact hextends
  | some elements =>
      cases written with
      | none => exact hextends
      | some length =>
          obtain ⟨hanswer, hlists⟩ := hextends
          refine ⟨?_, hlists⟩
          rw [hanswer]
          rfl

namespace Object

theorem extends_setField (hsound : agent.heap.Sound) (array : ArrayHandle) (slot : Nat)
    (value : Value) :
    agent.heap.Extends array (agent.heap.writtenLength? array (.setField slot value)) true
      (((Object.array array).setField slot value).perform agent) := by
  cases hget : agent.heap.arrays.get? array with
  | none =>
      obtain ⟨cause, hgone⟩ := Arena.deref_of_get?_eq_none hget
      apply Heap.Extends.of_none
      · exact Heap.writtenLength?_of_dead hget _
      · unfold setField
        rw [perform_bind, perform_read, hgone, andThen_error]
  | some record =>
      obtain ⟨body, hholds⟩ := hsound.exists_holds hget
      have hsuits := hholds.fits.suits_setField slot value
      rw [perform_setField_array hholds, Heap.writtenLength?_setField hget, hholds.window_eq]
      unfold Body.setField at hsuits ⊢
      cases hlength : body.window.fieldLength? slot value with
      | none =>
          apply Heap.Extends.of_none rfl
          rw [ArrayHandle.carryOut_settle_self hholds]
      | some length =>
          rw [hlength] at hsuits
          obtain ⟨_, hlists⟩ := Change.granted_carryOut hsound hholds hsuits rfl
            (Change.asks_of_refusal?_eq_none rfl : Change.Asks _ _ fun _ => False) true
          unfold Heap.Extends
          rw [hholds.elements?_eq]
          exact ⟨rfl, hlists⟩

theorem extends_setProperty (hsound : agent.heap.Sound) (array : ArrayHandle) (key : String)
    (value : Value) :
    agent.heap.Extends array (agent.heap.writtenLength? array (.set key value)) true
      (((Object.array array).setProperty key value).perform agent) := by
  unfold setProperty
  cases hget : agent.heap.arrays.get? array with
  | none =>
      obtain ⟨cause, hgone⟩ := Arena.deref_of_get?_eq_none hget
      apply Heap.Extends.of_none
      · exact Heap.writtenLength?_of_dead hget _
      · rw [perform_bind, perform_read, Heap.objectMap, hgone]
        rfl
  | some record =>
      rw [perform_bind, perform_read, Heap.objectMap_array hget, andThen_ok]
      cases hslot : ObjectMap.array.slotOf? key with
      | none =>
          apply Heap.Extends.of_none
          · simp [Heap.writtenLength?, hget, hslot]
          · exact ((keeps_changeHeader (Agent.stable_shows agent.heap.elements?).robust _ _).bind
              fun _ => keeps_pure true) agent rfl
      | some slot =>
          rw [Heap.writtenLength?_set hslot]
          exact extends_setField hsound array slot value

end Object

theorem ObjectOp.extends_perform (hsound : agent.heap.Sound) (array : ArrayHandle)
    (op : ObjectOp Value) :
    agent.heap.Extends array (agent.heap.writtenLength? array op) (.flag true)
      ((op.perform (.array array)).perform agent) := by
  cases op with
  | setField slot value => exact (Object.extends_setField hsound array slot value).map Answer.flag
  | set key value => exact (Object.extends_setProperty hsound array key value).map Answer.flag
  | setProto parent =>
      apply Heap.Extends.of_none
      · cases hget : agent.heap.arrays.get? array <;> simp [Heap.writtenLength?, hget]
      · have hheader := Object.keeps_changeHeader (Agent.stable_shows agent.heap.elements?).robust
          (.array array)
        exact ((Object.keeps_setPrototype hheader _).map Answer.flag) agent rfl
  | header =>
      apply Heap.Extends.of_none
      · cases hget : agent.heap.arrays.get? array <;> simp [Heap.writtenLength?, hget]
      · have hkeeps : Keeps (Agent.Shows agent.heap.elements?)
            (ObjectOp.perform .header (.array array)) := by
          rw [ObjectOp.perform]
          refine (keeps_read _).bind ?_
          intro map
          exact (keeps_read _).bind fun _ => keeps_pure _
        exact hkeeps agent rfl
  | tag | proto =>
      apply Heap.Extends.of_none
      · cases hget : agent.heap.arrays.get? array <;> simp [Heap.writtenLength?, hget]
      · exact ((keeps_read _).bind fun _ => keeps_pure _ :
          Keeps (Agent.Shows agent.heap.elements?) _) agent rfl
  | map | getField slot | get key =>
      apply Heap.Extends.of_none
      · cases hget : agent.heap.arrays.get? array <;> simp [Heap.writtenLength?, hget]
      · exact ((keeps_read _).map _ : Keeps (Agent.Shows agent.heap.elements?) _) agent rfl

/-! ## Calls -/

theorem Heap.calledMethod?_eq {heap : Heap} {closure : Value} {handle : ClosureHandle}
    {record : ClosureRecord} (hhandle : closure.asClosure? = some handle)
    (hget : heap.closures.get? handle = some record) (receiver : Value) :
    heap.calledMethod? closure receiver = record.behaviour.target? record.env receiver := by
  simp only [calledMethod?, hhandle, hget, Option.bind_eq_bind, Option.bind_some]
  cases record.behaviour <;> rfl

theorem ClosureHandle.refines_call (hsound : agent.heap.Sound) (closure receiver argument : Value)
    {handle : ClosureHandle} (hhandle : closure.asClosure? = some handle) :
    match agent.heap.calledMethod? closure receiver with
    | some (subject, method) =>
        agent.heap.Applies subject (.call method) argument
          ((Answer.value <$> handle.call receiver argument).perform agent)
    | none =>
        ((Answer.value <$> handle.call receiver argument).perform agent).2.heap.elements? =
          agent.heap.elements? := by
  cases hget : agent.heap.closures.get? handle with
  | none =>
      have hcalled : agent.heap.calledMethod? closure receiver = none := by
        simp [Heap.calledMethod?, hhandle, hget]
      rw [hcalled, perform_map, perform_call_of_gone hget]
  | some record =>
      rw [Heap.calledMethod?_eq hhandle hget, perform_map, perform_call hget]
      cases htarget : record.behaviour.target? record.env receiver with
      | some target =>
          rw [Behaviour.run_of_target? htarget, ← perform_map]
          exact ArrayOp.applies_perform hsound (.call target.2) target.1 argument
      | none =>
          exact Behaviour.keeps_run_of_no_target
            (Agent.stable_shows agent.heap.elements?).robust htarget argument agent rfl

/-! ## Steps and runs -/

theorem Heap.Collects.elements?_eq {before after : Heap} {roots : List Value}
    (hcollects : before.Collects after roots) (array : ArrayHandle) :
    after.elements? array = before.elements? array ∨
      (¬before.Reaches roots array.entity ∧ after.elements? array = none) := by
  by_cases hreaches : before.Reaches roots array.entity
  · left
    have hget := hcollects.arrays.get?_kept array hreaches
    unfold Heap.elements?
    rw [hget]
    cases hrecord : before.arrays.get? array with
    | none => rfl
    | some record =>
        rw [hrecord] at hget
        simp only [Option.bind_eq_bind, Option.bind_some]
        cases hstore : record.store with
        | none => rfl
        | some store =>
            simp only
            rw [hcollects.get?_ownStore hget hstore]
  · right
    exact ⟨hreaches, Heap.elements?_eq_none (hcollects.arrays.get?_dropped array hreaches)⟩

theorem Action.mapM_pure_self (values : List Value) :
    (values.mapM pure : Action (List Value)) = pure values := by
  have hmap : values.mapM (fun value => (pure (id value) : Action Value)) =
      pure (values.map id) := List.mapM_pure
  rw [List.map_id] at hmap
  exact hmap

theorem Action.optionMapM_pure_self (value : Option Value) :
    (value.mapM pure : Action (Option Value)) = pure value := by
  cases value <;> rfl

theorem ObjectOp.evaluate_pure (op : ObjectOp Value) :
    (op.evaluate pure : Action (ObjectOp Value)) = pure op := by
  cases op <;> rfl

theorem Operation.refines_strings (hsound : agent.Sound) (texts : List String) (tag : UInt32) :
    (((strings texts tag).perform pure).perform agent).Granted (· = texts.length)
      (agent.heap.CreatesTexts texts) := by
  obtain ⟨handles, strings, houtcome, hwell, hnodup, hnew, _, hshow⟩ :=
    perform_newStrings texts agent hsound.arenas.strings
  let filled : Agent := { agent with heap := { agent.heap with strings := strings } }
  have hsame : agent.heap.SamePlacement filled.heap := .of_eq rfl rfl
  have hfilled : filled.heap.Sound :=
    hsame.sound hsound { hsound.arenas with strings := hwell }
  have hlists : filled.heap.elements? = agent.heap.elements? := by
    funext array
    exact hsame.elements?_eq
  have hlength : (handles.map Value.string).length = texts.length := by
    rw [List.length_map, hshow.length_eq]
  rw [Operation.perform, perform_bind, houtcome, andThen_ok, bind_pure_comp, ← hlength]
  apply (ArrayHandle.granted_literal hfilled (handles.map Value.string) tag).map
  rintro array after ⟨⟨created, hcreated, hnone, hafter⟩, hstrings⟩
  rw [hlists] at hnone hafter
  rw [← show after.strings = strings from hstrings] at hshow
  exact ⟨handles, hnodup, hnew, hshow, created, hcreated, hnone, hafter⟩

theorem Operation.snd_perform_collect (agent : Agent) (roots : List Value) :
    (((collect roots).perform pure).perform agent).2 =
      ((Action.collect roots).perform agent).2 := by
  rw [Operation.perform, mapM_pure_self, pure_bind, perform_bind]
  rcases (Action.collect roots).perform agent with ⟨_ | _, _⟩ <;> rfl

theorem Operation.refines_collect (hsound : agent.Sound) (roots : List Value) :
    (collect roots).Refines agent.heap (((collect roots).perform pure).perform agent) := by
  intro handle
  rw [snd_perform_collect]
  rcases snd_perform_collect_cases hsound roots with hsame | ⟨marks, hcollects, hswept⟩
  · rw [hsame]
    exact .inl rfl
  · rw [hswept]
    exact hcollects.elements?_eq handle

theorem Operation.refines_step (hsound : agent.Sound) (operation : Operation Value) :
    operation.Refines agent.heap (agent.step operation) := by
  have hquiet : ∀ action : Action Answer, Keeps (Agent.Shows agent.heap.elements?) action →
      (action.perform agent).2.heap.elements? = agent.heap.elements? :=
    fun action hkeeps => hkeeps agent rfl
  have hrobust := (Agent.stable_shows agent.heap.elements?).robust
  unfold Agent.step
  cases operation with
  | newArray tag =>
      rw [Operation.perform, perform_map, ArrayHandle.perform_newArray]
      exact ⟨_, rfl, Heap.elements?_eq_none (Heap.get?_nextArray hsound _),
        Heap.elements?_withArray hsound tag⟩
  | withCapacity capacity tag =>
      apply Outcome.Granted.map
      · rw [ArrayHandle.perform_withCapacity hsound]
        exact Change.granted_creates hsound tag (Body.suits_reserve capacity)
          (Body.makes_reserve capacity) (Change.asks_reserve capacity)
      · exact fun _ _ hcreates => hcreates.1
  | literal elements tag =>
      rw [Operation.perform, mapM_pure_self, pure_bind, bind_pure_comp]
      exact (ArrayHandle.granted_literal hsound elements tag).map fun _ _ hcreates => hcreates.1
  | strings texts tag => exact refines_strings hsound texts tag
  | array subject op argument =>
      rw [Operation.perform, pure_bind]
      cases subject with
      | array subject =>
          simp only [Value.asArray?, optionMapM_pure_self, pure_bind]
          exact op.applies_perform hsound subject _
      | undefined | null | boolean _ | integer _ | number _ | string _ | object _ | closure _ =>
          rfl
  | object subject op =>
      rw [Operation.perform, pure_bind]
      cases subject with
      | array subject =>
          simp only [Value.asObject?, ObjectOp.evaluate_pure, pure_bind]
          exact op.extends_perform hsound subject
      | object subject =>
          simp only [Value.asObject?, ObjectOp.evaluate_pure, pure_bind]
          exact hquiet _
            (op.keeps_perform (Object.keeps_changeHeader hrobust _)
              (Object.keeps_setField_ordinary hrobust subject))
      | undefined | null | boolean _ | integer _ | number _ | string _ | closure _ => rfl
  | call closure receiver argument =>
      rw [Operation.perform, pure_bind]
      cases hclosure : closure.asClosure? with
      | none =>
          have hcalled : agent.heap.calledMethod? closure receiver = none := by
            simp [Heap.calledMethod?, hclosure]
          rw [Operation.Refines, hcalled]
          rfl
      | some handle =>
          simp only [pure_bind]
          exact handle.refines_call hsound closure receiver argument hclosure
  | collect roots => exact refines_collect hsound roots
  | value operand => exact hquiet _ ((keeps_pure _).map _)
  | newString text => exact hquiet _ ((keeps_newString hrobust text).map _)
  | newNumber x => exact hquiet _ ((keeps_newNumber hrobust x).map _)
  | newObject map proto tag =>
      apply hquiet
      rw [Operation.perform]
      refine (keeps_optionMapM keeps_pure proto).bind ?_
      intro parent
      exact (keeps_newObject hrobust map _ tag).bind fun _ => keeps_pure _
  | newClosure env behaviour =>
      apply hquiet
      rw [Operation.perform]
      refine (keeps_pure env).bind ?_
      intro value
      exact (keeps_newClosure hrobust value behaviour).bind fun _ => keeps_pure _
  | equal first second => rfl
  | distinctArrays values | distinctObjects values =>
      apply hquiet
      rw [Operation.perform]
      exact (keeps_mapM keeps_pure values).bind fun _ => keeps_pure _
  | slotOf map key => rfl
  | ask subject query =>
      apply hquiet
      rw [Operation.perform]
      exact (keeps_pure subject).bind fun value => query.keeps_perform value

/-- The heap of arrays refines a map from living arrays to lists: a fresh agent has
no list, and in every state that a run brings about the living arrays are those
with a list, and every operation does to the lists what it should. -/
theorem Agent.run_refines_lists (options : Options) (operations : List (Operation Value))
    (operation : Operation Value) :
    (start options).heap.elements? = (fun _ => none) ∧
    (∀ array, (((start options).run operations).heap.elements? array).isSome =
      ((start options).run operations).heap.arrays.isLive array) ∧
    operation.Refines ((start options).run operations).heap
      (((start options).run operations).step operation) := by
  have hsound := (sound_start options).run operations
  refine ⟨?_, fun array => Heap.Sound.isSome_elements? hsound array,
    operation.refines_step hsound⟩
  funext array
  exact Heap.elements?_eq_none rfl

end ManagedHeap
