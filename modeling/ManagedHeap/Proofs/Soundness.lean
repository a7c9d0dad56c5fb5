import ManagedHeap.Proofs.Collection
import ManagedHeap.Proofs.Creation
import ManagedHeap.Proofs.Keeping
import ManagedHeap.Proofs.ObjectChanges
import ManagedHeap.Run

/-!
# Every heap that comes about is sound

Each operation keeps the heap sound, whatever handles it is given and whether it
answers or faults.  So does every run from a fresh agent.  What an operation does
comes down to a few kinds of change, so the same argument serves for any property
of agents that each of them keeps.
-/

namespace ManagedHeap

def Agent.Sound (agent : Agent) : Prop := agent.heap.Sound

variable {agent : Agent} {array : ArrayHandle}

theorem Agent.Sound.carryOut {α : Type} {change : Change} {record : ArrayRecord} {body : Body}
    (hsound : agent.Sound) (hholds : agent.heap.Holds array record body)
    (hsuits : change.Suits body) (answer : α) :
    (change.carryOut array record answer agent).2.Sound :=
  (Change.rebuilds_carryOut hsound hholds hsuits answer).sound

/-- An array is gone, and using it faults, or it has a body. -/
theorem Agent.Sound.gone_or_holds (hsound : agent.Sound) (array : ArrayHandle) :
    (∃ cause, agent.heap.arrays.deref array = .error cause) ∨
      ∃ record body, agent.heap.Holds array record body := by
  cases hderef : agent.heap.arrays.deref array with
  | error cause => exact .inl ⟨cause, rfl⟩
  | ok record =>
      obtain ⟨body, hbody⟩ := hsound.exists_holds (Arena.deref_eq_ok_iff.1 hderef)
      exact .inr ⟨record, body, hbody⟩

/-! ## Actions that leave the arrays in place -/

/-- A property that does not depend on more than where the arrays are and on the
order of the arenas. -/
def Action.Stable (kept : Agent → Prop) : Prop :=
  ∀ (agent : Agent) (heap : Heap), agent.heap.SamePlacement heap →
    (agent.heap.ArenasWellFormed → heap.ArenasWellFormed) → kept agent →
    kept { agent with heap := heap }

/-- The array and the method that a behaviour comes down to, if it is about an array. -/
def Behaviour.target? (behaviour : Behaviour) (env receiver : Value) :
    Option (ArrayHandle × ArrayMethod) :=
  match behaviour with
  | .arrayMethod method => receiver.asArray?.map fun array => (array, method)
  | .append => env.asArray?.map fun array => (array, .push)
  | .environment | .receiver | .argument | .sum => none

/-- A property that quiet steps keep. -/
def Action.Robust (kept : Agent → Prop) : Prop :=
  ∀ (agent : Agent) (heap : Heap), agent.heap.QuietStep heap → kept agent →
    kept { agent with heap := heap }

theorem Action.Stable.robust {kept : Agent → Prop} (hstable : Stable kept) : Robust kept := by
  intro agent heap hstep hkept
  exact hstable agent heap hstep.samePlacement hstep.arenasWellFormed hkept

theorem Agent.stable_sound : Action.Stable Agent.Sound := by
  intro agent heap hsame harenas hsound
  exact hsame.sound hsound (harenas hsound.arenas)

section Quiet

open ManagedHeap.Action

variable {kept : Agent → Prop} (hrobust : Robust kept)

include hrobust

theorem Action.keeps_transform {α : Type} {change : Heap → α × Heap}
    (hstep : ∀ heap : Heap, heap.QuietStep (change heap).2) : Keeps kept (transform change) := by
  intro agent hkept
  exact hrobust agent _ (hstep agent.heap) hkept

theorem Action.keeps_newString (text : String) : Keeps kept (newString text) :=
  keeps_transform hrobust fun _ => .newString text

theorem Action.keeps_newNumber (x : Binary64) : Keeps kept (newNumber x) := by
  unfold newNumber
  split
  · exact keeps_pure _
  · rename_i hboxed
    exact keeps_transform hrobust fun _ => .newNumber hboxed

theorem Action.keeps_newObject (map : ObjectMap) (proto : Option Object) (tag : UInt32) :
    Keeps kept (newObject map proto tag) :=
  keeps_transform hrobust fun _ => .newObject map proto tag

theorem Action.keeps_newClosure (env : Value) (behaviour : Behaviour) :
    Keeps kept (newClosure env behaviour) :=
  keeps_transform hrobust fun _ => .newClosure env behaviour

theorem keeps_addValues (first second : Value) : Keeps kept (addValues first second) := by
  unfold addValues
  refine (keeps_read _).bind ?_
  intro x
  refine (keeps_read _).bind ?_
  intro y
  split
  · exact keeps_newNumber hrobust _
  · exact keeps_pure _

theorem Behaviour.keeps_run_of_no_target {behaviour : Behaviour} {env receiver : Value}
    (htarget : behaviour.target? env receiver = none) (argument : Value) :
    Keeps kept (behaviour.run env receiver argument) := by
  cases behaviour with
  | environment | receiver | argument => exact keeps_pure _
  | sum => exact keeps_addValues hrobust env argument
  | arrayMethod method =>
      rw [Behaviour.run, Option.map_eq_none_iff.1 htarget]
      exact keeps_pure _
  | append =>
      rw [Behaviour.run, Option.map_eq_none_iff.1 htarget]
      exact keeps_pure _

namespace Object

theorem keeps_changeHeader (object : Object) (change : Header → Header) :
    Keeps kept (object.changeHeader change) := by
  intro agent hkept
  rw [perform_changeHeader]
  exact hrobust agent _ (.changeHeader object change) hkept

theorem keeps_setField_ordinary (handle : ObjectHandle) (slot : Nat) (value : Value) :
    Keeps kept ((Object.ordinary handle).setField slot value) := by
  unfold setField
  simp only
  refine (keeps_read _).bind ?_
  intro record
  split
  · refine Keeps.bind ?_ fun _ => keeps_pure true
    exact keeps_transform hrobust fun _ => .writeField handle slot value
  · exact keeps_pure false

end Object

end Quiet

/-! ## Writes to an object -/

section Header

open ManagedHeap.Action

variable {kept : Agent → Prop} {object : Object}
  (hheader : ∀ change, Keeps kept (object.changeHeader change))

include hheader

theorem Object.keeps_setPrototype (proto : Option Object) :
    Keeps kept (object.setPrototype proto) := by
  unfold setPrototype
  refine (keeps_read _).bind ?_
  intro chain
  split
  · exact keeps_pure false
  · split
    · exact keeps_throw _
    · refine (keeps_read _).bind ?_
      intro _
      exact (hheader _).bind fun _ => keeps_pure true

theorem Object.keeps_setProperty {key : String} {value : Value}
    (hfield : ∀ slot, Keeps kept (object.setField slot value)) :
    Keeps kept (object.setProperty key value) := by
  unfold setProperty
  refine (keeps_read _).bind ?_
  intro map
  split
  · exact hfield _
  · exact (hheader _).bind fun _ => keeps_pure true

theorem ObjectOp.keeps_perform (hfield : ∀ slot value, Keeps kept (object.setField slot value))
    (op : ObjectOp Value) : Keeps kept (op.perform object) := by
  cases op with
  | header =>
      rw [ObjectOp.perform]
      refine (keeps_read _).bind ?_
      intro map
      exact (keeps_read _).bind fun _ => keeps_pure _
  | tag | proto => exact (keeps_read _).bind fun _ => keeps_pure _
  | map | getField slot | get key => exact (keeps_read _).map _
  | setProto parent => exact (Object.keeps_setPrototype hheader _).map _
  | setField slot value => exact (hfield slot value).map _
  | set key value => exact (Object.keeps_setProperty hheader fun slot => hfield slot value).map _

end Header

theorem ValueQuery.keeps_perform {kept : Agent → Prop} (query : ValueQuery) (value : Value) :
    Action.Keeps kept (query.perform value) := by
  cases query with
  | self | isUndefined | isArray | isObject | snapshot => exact Action.keeps_pure _
  | number => exact (Action.keeps_read _).map _
  | boxedNumber | text =>
      unfold ValueQuery.perform
      simp only
      split
      · exact (Action.keeps_read _).map _
      · exact Action.keeps_pure _

/-! ## Actions on arrays -/

/-- A property that says no less than that the heap is sound, and that every kind of
change keeps that an operation can come down to. -/
structure Action.Invariant (kept : Agent → Prop) : Prop where
  sound : ∀ agent, kept agent → agent.Sound
  stable : Action.Stable kept
  withArray : ∀ agent tag, kept agent → kept (agent.withArray tag)
  carryOut : ∀ (agent : Agent) (array : ArrayHandle) (record : ArrayRecord) (body : Body)
    (change : Change), kept agent → agent.heap.Holds array record body → change.Suits body →
    change.Discreet → kept (change.carryOut array record () agent).2
  afterSweep : ∀ agent marks roots, kept agent →
    agent.heap.Collects (agent.heap.swept marks) roots → kept (agent.afterSweep marks)

theorem Change.carryOut_snd {α β : Type} (change : Change) (array : ArrayHandle)
    (record : ArrayRecord) (answer : α) (other : β) (agent : Agent) :
    (change.carryOut array record answer agent).2 =
      (change.carryOut array record other agent).2 := by
  cases change <;> rfl

theorem Agent.invariant_sound : Action.Invariant Agent.Sound where
  sound _ hsound := hsound
  stable := Agent.stable_sound
  withArray _ tag hsound := Heap.sound_withArray hsound tag
  carryOut _ _ _ _ _ hsound hholds hsuits _ := hsound.carryOut hholds hsuits ()
  afterSweep _ _ _ hsound hcollects := hcollects.sound hsound

/-- A property that new arrays keep, quiet steps, and changes of those arrays that may be
touched.  It may speak of objects, closures, numbers and strings as well, and of arrays
that are not touched. -/
structure Action.Confined (touched : ArrayHandle → Prop) (kept : Agent → Prop) : Prop where
  sound : ∀ agent, kept agent → agent.Sound
  robust : Action.Robust kept
  withArray : ∀ agent tag, kept agent → kept (agent.withArray tag)
  touches_new : ∀ agent array, kept agent → agent.heap.arrays.get? array = none → touched array
  carryOut : ∀ (agent : Agent) (array : ArrayHandle) (record : ArrayRecord) (body : Body)
    (change : Change), touched array → kept agent → agent.heap.Holds array record body →
    change.Suits body → change.Discreet → kept (change.carryOut array record () agent).2

/-- Such a property that all arrays may be touched without losing, and that collections
keep. -/
structure Action.Persistent (kept : Agent → Prop) : Prop where
  confined : Action.Confined (fun _ => True) kept
  afterSweep : ∀ agent marks roots, kept agent →
    agent.heap.Collects (agent.heap.swept marks) roots → kept (agent.afterSweep marks)

theorem Action.Invariant.persistent {kept : Agent → Prop} (hinvariant : Invariant kept) :
    Persistent kept where
  confined :=
    { sound := hinvariant.sound
      robust := hinvariant.stable.robust
      withArray := hinvariant.withArray
      touches_new := fun _ _ _ _ => trivial
      carryOut := fun agent array record body change _ => hinvariant.carryOut agent array record
        body change }
  afterSweep := hinvariant.afterSweep

/-- A property of heaps that quiet steps and collections keep and that does not speak of
arrays and stores. -/
structure Heap.Lasting (kept : Heap → Prop) : Prop where
  quietStep : ∀ before after : Heap, before.QuietStep after → before.ArenasWellFormed →
    kept before → kept after
  of_eq : ∀ before after : Heap, after.objects = before.objects →
    after.closures = before.closures → after.numbers = before.numbers →
    after.strings = before.strings → kept before → kept after
  collects : ∀ (before after : Heap) (roots : List Value), before.Collects after roots →
    kept before → kept after

theorem Heap.Lasting.persistent {kept : Heap → Prop} (hlasting : Heap.Lasting kept) :
    Action.Persistent fun agent => agent.Sound ∧ kept agent.heap where
  confined :=
    { sound := fun _ hkept => hkept.1
      robust := fun _ _ hstep hkept =>
        ⟨hstep.sound hkept.1, hlasting.quietStep _ _ hstep hkept.1.arenas hkept.2⟩
      withArray := fun agent tag hkept =>
        ⟨sound_withArray hkept.1 tag, hlasting.of_eq agent.heap _ rfl rfl rfl rfl hkept.2⟩
      touches_new := fun _ _ _ _ => trivial
      carryOut := by
        intro agent array record body change _ hkept hholds hsuits _
        have hrebuilds := Change.rebuilds_carryOut hkept.1 hholds hsuits ()
        exact ⟨hrebuilds.sound, hlasting.of_eq _ _ hrebuilds.objects_eq hrebuilds.closures_eq
          hrebuilds.numbers_eq hrebuilds.strings_eq hkept.2⟩ }
  afterSweep _ _ roots hkept hcollects :=
    ⟨hcollects.sound hkept.1, hlasting.collects _ _ roots hcollects hkept.2⟩

namespace ClosureHandle

open ManagedHeap.Action

theorem perform_call {handle : ClosureHandle} {record : ClosureRecord}
    (hget : agent.heap.closures.get? handle = some record) (receiver argument : Value) :
    (handle.call receiver argument).perform agent =
      (record.behaviour.run record.env receiver argument).perform agent := by
  rw [call, perform_bind, perform_read, Arena.deref_eq_ok_iff.2 hget, andThen_ok]

theorem perform_call_of_gone {handle : ClosureHandle}
    (hget : agent.heap.closures.get? handle = none) (receiver argument : Value) :
    ((handle.call receiver argument).perform agent).2 = agent := by
  obtain ⟨cause, hgone⟩ := Arena.deref_of_get?_eq_none hget
  rw [call, perform_bind, perform_read, hgone, andThen_error]

end ClosureHandle

section Confined

open ManagedHeap.Action

variable {touched : ArrayHandle → Prop} {kept : Agent → Prop}
  (hconfined : Confined touched kept)

include hconfined

theorem Action.Confined.kept_carryOut {α : Type} {record : ArrayRecord} {body : Body}
    {change : Change} (htouched : touched array) (hkept : kept agent)
    (hholds : agent.heap.Holds array record body) (hsuits : change.Suits body)
    (hdiscreet : change.Discreet) (answer : α) :
    kept (change.carryOut array record answer agent).2 := by
  rw [Change.carryOut_snd change array record answer ()]
  exact hconfined.carryOut agent array record body change htouched hkept hholds hsuits hdiscreet

/-- A new array that a change is carried out on at once. -/
theorem Action.Confined.kept_create {α : Type} {tag : UInt32} {change : Change}
    (hkept : kept agent) (hsuits : change.Suits .empty) (hdiscreet : change.Discreet)
    (answer : α) :
    kept (change.carryOut (agent.heap.nextArray (.ofTag tag)) (.ofTag tag) answer
      (agent.withArray tag)).2 := by
  have hsound := hconfined.sound agent hkept
  exact hconfined.kept_carryOut
    (hconfined.touches_new agent _ hkept (Heap.get?_nextArray hsound _))
    (hconfined.withArray agent tag hkept) (Heap.holds_withArray_self hsound tag) hsuits
    hdiscreet answer

namespace ArrayHandle

omit hconfined in
theorem perform_put_of_neg {record : ArrayRecord} {body : Body}
    (hholds : agent.heap.Holds array record body) {index : Int} (hindex : index < 0)
    (value : Value) : (array.put index value).perform agent = (.ok value, agent) := by
  unfold put
  rw [perform_bind, perform_read, hholds.arrayRecord_eq, andThen_ok, perform_ite,
    if_pos hindex, perform_pure]

theorem keeps_put (htouched : touched array) (index : Int) (value : Value) :
    Keeps kept (array.put index value) := by
  intro agent hkept
  have hsound := hconfined.sound agent hkept
  rcases hsound.gone_or_holds array with ⟨cause, hgone⟩ | ⟨record, body, hholds⟩
  · rw [perform_put_of_gone hgone]
    exact hkept
  · by_cases hindex : index < 0
    · rw [perform_put_of_neg hholds hindex]
      exact hkept
    · rw [perform_put hsound hholds (Int.not_lt.1 hindex)]
      exact hconfined.kept_carryOut htouched hkept hholds
        (hholds.fits.suits_put index.toNat value) (Body.discreet_put index.toNat value) value

theorem keeps_call (htouched : touched array) (method : ArrayMethod) (argument : Value) :
    Keeps kept (array.call method argument) := by
  intro agent hkept
  have hsound := hconfined.sound agent hkept
  rcases hsound.gone_or_holds array with ⟨cause, hgone⟩ | ⟨record, body, hholds⟩
  · rw [perform_call_of_gone hgone]
    exact hkept
  · rw [perform_call hsound hholds]
    exact hconfined.kept_carryOut htouched hkept hholds
      (hholds.fits.suits_method method argument) (Body.discreet_method method argument) _

theorem keeps_callRepeatedly (htouched : touched array) (method : ArrayMethod) (times : Nat) :
    Keeps kept (array.callRepeatedly method times) := by
  unfold callRepeatedly
  apply keeps_foldlM
  intro _ index
  exact keeps_call hconfined htouched method _

theorem keeps_setLength (htouched : touched array) (length : Int) :
    Keeps kept (array.setLength length) := by
  intro agent hkept
  have hsound := hconfined.sound agent hkept
  rcases hsound.gone_or_holds array with ⟨cause, hgone⟩ | ⟨record, body, hholds⟩
  · rw [perform_setLength_of_gone hgone]
    exact hkept
  · rw [perform_setLength hholds]
    exact hconfined.kept_carryOut htouched hkept hholds (hholds.fits.suits_setLength length)
      (Body.discreet_setLength length) _

theorem keeps_withCapacity (capacity : Nat) (tag : UInt32) :
    Keeps kept (withCapacity capacity tag) := by
  intro agent hkept
  rw [perform_withCapacity (hconfined.sound agent hkept)]
  exact hconfined.kept_create hkept (Body.suits_reserve capacity)
    (Body.discreet_reserve capacity) _

theorem keeps_literal (elements : List Value) (tag : UInt32) :
    Keeps kept (literal elements.toArray tag) := by
  intro agent hkept
  rw [perform_literal (hconfined.sound agent hkept)]
  exact hconfined.kept_create hkept (Body.suits_ofElements elements)
    (Body.discreet_ofElements elements) _

end ArrayHandle

theorem Action.keeps_newArray (tag : UInt32) : Keeps kept (newArray tag) := by
  intro agent hkept
  exact hconfined.withArray agent tag hkept

theorem Object.keeps_setField {object : Object}
    (htouched : ∀ array, object = .array array → touched array) (slot : Nat) (value : Value) :
    Keeps kept (object.setField slot value) := by
  cases object with
  | ordinary handle => exact keeps_setField_ordinary hconfined.robust handle slot value
  | array array =>
      intro agent hkept
      have hsound := hconfined.sound agent hkept
      rcases hsound.gone_or_holds array with ⟨cause, hgone⟩ | ⟨record, body, hholds⟩
      · unfold setField
        rw [perform_bind, perform_read, hgone, andThen_error]
        exact hkept
      · rw [perform_setField_array hholds]
        exact hconfined.kept_carryOut (htouched array rfl) hkept hholds
          (hholds.fits.suits_setField slot value) (Body.discreet_setField slot value) _

theorem ArrayOp.keeps_perform (htouched : touched array) (op : ArrayOp) (argument : Value) :
    Keeps kept (op.perform array argument) := by
  cases op with
  | length | capacity | isEmpty => exact (keeps_read _).bind fun _ => keeps_pure _
  | slice | get index => exact (keeps_read _).map _
  | put index => exact (ArrayHandle.keeps_put hconfined htouched _ argument).map _
  | setLength extent => exact (ArrayHandle.keeps_setLength hconfined htouched _).map _
  | call method => exact (ArrayHandle.keeps_call hconfined htouched method argument).map _
  | callRepeatedly method times =>
      exact (ArrayHandle.keeps_callRepeatedly hconfined htouched method times).map _

omit hconfined in
/-- What a behaviour with a target runs is the method on the target. -/
theorem Behaviour.run_of_target? {behaviour : Behaviour} {env receiver : Value}
    {method : ArrayMethod} (htarget : behaviour.target? env receiver = some (array, method))
    (argument : Value) : behaviour.run env receiver argument = array.call method argument := by
  cases behaviour with
  | environment | receiver | argument | sum => contradiction
  | arrayMethod other =>
      obtain ⟨subject, hsubject, heq⟩ := Option.map_eq_some_iff.1 htarget
      cases heq
      rw [Behaviour.run, hsubject]
  | append =>
      obtain ⟨subject, hsubject, heq⟩ := Option.map_eq_some_iff.1 htarget
      cases heq
      rw [Behaviour.run, hsubject]
      rfl

theorem Behaviour.keeps_run {behaviour : Behaviour} {env receiver : Value}
    (htouched : ∀ target ∈ behaviour.target? env receiver, touched target.1)
    (argument : Value) : Keeps kept (behaviour.run env receiver argument) := by
  cases htarget : behaviour.target? env receiver with
  | some target =>
      rw [run_of_target? htarget]
      exact ArrayHandle.keeps_call hconfined (htouched target htarget) target.2 argument
  | none => exact keeps_run_of_no_target hconfined.robust htarget argument

/-- The operation is asked of no array, object or closure, and frees nothing. -/
def Operation.undirected {ν : Type} : Operation ν → Bool
  | .array .. | .object .. | .call .. | .collect .. => false
  | _ => true

theorem Operation.keeps_undirected {ν : Type} {evaluate : ν → Action Value}
    (hevaluate : ∀ operand, Keeps kept (evaluate operand)) {operation : Operation ν}
    (hundirected : operation.undirected = true) : Keeps kept (operation.perform evaluate) := by
  cases operation with
  | array | object | call | collect => contradiction
  | value operand => exact (hevaluate operand).map _
  | newString text => exact (keeps_newString hconfined.robust text).map _
  | newNumber x => exact (keeps_newNumber hconfined.robust x).map _
  | newArray tag => exact (keeps_newArray hconfined tag).map _
  | withCapacity capacity tag =>
      exact (ArrayHandle.keeps_withCapacity hconfined capacity tag).map _
  | literal elements tag =>
      rw [Operation.perform]
      refine (keeps_mapM hevaluate elements).bind ?_
      intro values
      exact (ArrayHandle.keeps_literal hconfined values tag).bind fun _ => keeps_pure _
  | strings texts tag =>
      rw [Operation.perform]
      refine (keeps_mapM (keeps_newString hconfined.robust) texts).bind ?_
      intro values
      exact (ArrayHandle.keeps_literal hconfined values tag).bind fun _ => keeps_pure _
  | newObject map proto tag =>
      rw [Operation.perform]
      refine (keeps_optionMapM hevaluate proto).bind ?_
      intro parent
      exact (keeps_newObject hconfined.robust map _ tag).bind fun _ => keeps_pure _
  | newClosure env behaviour =>
      rw [Operation.perform]
      refine (hevaluate env).bind ?_
      intro value
      exact (keeps_newClosure hconfined.robust value behaviour).bind fun _ => keeps_pure _
  | equal first second =>
      rw [Operation.perform]
      refine (hevaluate first).bind ?_
      intro _
      exact (hevaluate second).bind fun _ => keeps_pure _
  | distinctArrays values =>
      rw [Operation.perform]
      exact (keeps_mapM hevaluate values).bind fun _ => keeps_pure _
  | distinctObjects values =>
      rw [Operation.perform]
      exact (keeps_mapM hevaluate values).bind fun _ => keeps_pure _
  | slotOf map key => exact keeps_pure _
  | ask subject query =>
      rw [Operation.perform]
      exact (hevaluate subject).bind fun value => query.keeps_perform value

end Confined

/-! ## Operations -/

section Kept

open ManagedHeap.Action

variable {kept : Agent → Prop} (hpersistent : Persistent kept)

include hpersistent

theorem Action.keeps_collect (roots : List Value) : Keeps kept (collect roots) := by
  intro agent hkept
  have hsound := hpersistent.confined.sound agent hkept
  rcases snd_perform_collect_cases hsound roots with hsame | ⟨marks, hcollects, hswept⟩
  · rw [hsame]
    exact hkept
  · rw [hswept]
    exact hpersistent.afterSweep agent marks roots hkept hcollects

variable {ν : Type} {evaluate : ν → Action Value}

omit hpersistent in
theorem ObjectOp.keeps_evaluate (hevaluate : ∀ operand, Keeps kept (evaluate operand))
    (op : ObjectOp ν) : Keeps kept (op.evaluate evaluate) := by
  cases op with
  | header | map | tag | proto | getField slot | get key => exact keeps_pure _
  | setProto parent => exact (hevaluate parent).map _
  | setField slot value => exact (hevaluate value).map _
  | set key value => exact (hevaluate value).map _

theorem Action.Persistent.keeps_operation (hevaluate : ∀ operand, Keeps kept (evaluate operand))
    (operation : Operation ν) : Keeps kept (operation.perform evaluate) := by
  cases operation with
  | value | newString | newNumber | newArray | withCapacity | literal | strings | newObject
  | newClosure | equal | distinctArrays | distinctObjects | slotOf | ask =>
      exact Operation.keeps_undirected hpersistent.confined hevaluate rfl
  | collect roots =>
      rw [Operation.perform]
      refine (keeps_mapM hevaluate roots).bind ?_
      intro values
      exact (keeps_collect hpersistent values).bind fun _ => keeps_pure _
  | call closure receiver argument =>
      rw [Operation.perform]
      refine (hevaluate closure).bind ?_
      intro called
      split
      · exact keeps_pure _
      · refine (hevaluate receiver).bind ?_
        intro _
        refine (hevaluate argument).bind ?_
        intro _
        apply Keeps.map
        refine (keeps_read _).bind ?_
        intro record
        exact Behaviour.keeps_run hpersistent.confined (fun _ _ => trivial) _
  | object subject op =>
      rw [Operation.perform]
      refine (hevaluate subject).bind ?_
      intro value
      split
      · exact keeps_pure _
      · refine (op.keeps_evaluate hevaluate).bind ?_
        intro evaluated
        exact evaluated.keeps_perform
          (Object.keeps_changeHeader hpersistent.confined.robust _)
          (Object.keeps_setField hpersistent.confined fun _ _ => trivial)
  | array subject op argument =>
      rw [Operation.perform]
      refine (hevaluate subject).bind ?_
      intro value
      split
      · exact keeps_pure _
      · refine (keeps_optionMapM hevaluate argument).bind ?_
        intro _
        exact ArrayOp.keeps_perform hpersistent.confined trivial op _

/-- What a step keeps, any number of them keeps. -/
theorem Action.Persistent.run (hkept : kept agent) (operations : List (Operation Value)) :
    kept (agent.run operations) := by
  induction operations generalizing agent with
  | nil => exact hkept
  | cons operation rest ih =>
      exact ih (hpersistent.keeps_operation keeps_pure operation agent hkept)

omit hpersistent in
theorem Operation.keeps_perform (hinvariant : Invariant kept)
    (hevaluate : ∀ operand, Keeps kept (evaluate operand)) (operation : Operation ν) :
    Keeps kept (operation.perform evaluate) :=
  hinvariant.persistent.keeps_operation hevaluate operation

omit hpersistent in
theorem Action.Invariant.run (hinvariant : Invariant kept) (hkept : kept agent)
    (operations : List (Operation Value)) : kept (agent.run operations) :=
  hinvariant.persistent.run hkept operations

end Kept

open ManagedHeap.Action

namespace Agent

theorem sound_start (options : Options) : (start options).Sound := Heap.sound_fresh

theorem Sound.step (hsound : agent.Sound) (operation : Operation Value) :
    (agent.step operation).2.Sound :=
  operation.keeps_perform invariant_sound keeps_pure agent hsound

theorem Sound.run (hsound : agent.Sound) (operations : List (Operation Value)) :
    (agent.run operations).Sound :=
  invariant_sound.run hsound operations

theorem lasting_run {kept : Heap → Prop} (hlasting : Heap.Lasting kept) (hfresh : kept .fresh)
    (options : Options) (operations : List (Operation Value)) :
    kept ((start options).run operations).heap :=
  (hlasting.persistent.run ⟨sound_start options, hfresh⟩ operations).2

theorem invariant_options (options : Options) :
    Invariant fun agent => agent.Sound ∧ agent.options = options where
  sound _ hkept := hkept.1
  stable _ _ hsame harenas hkept := ⟨hsame.sound hkept.1 (harenas hkept.1.arenas), hkept.2⟩
  withArray _ tag hkept := ⟨Heap.sound_withArray hkept.1 tag, hkept.2⟩
  carryOut agent array record _ change hkept hholds hsuits _ :=
    ⟨hkept.1.carryOut hholds hsuits (),
      (change.options_carryOut array record () agent).trans hkept.2⟩
  afterSweep _ _ _ hkept hcollects := ⟨hcollects.sound hkept.1, hkept.2⟩

/-- Nothing that an agent does changes its options. -/
theorem options_run (options : Options) (operations : List (Operation Value)) :
    ((start options).run operations).options = options :=
  ((invariant_options options).run ⟨sound_start options, rfl⟩ operations).2

/-- Every living array lies in its backing store as its record says, after any run. -/
theorem represents_run (options : Options) (operations : List (Operation Value))
    {array : ArrayHandle} {record : ArrayRecord}
    (hlive : ((start options).run operations).heap.arrays.get? array = some record) :
    ((start options).run operations).heap.Represents record :=
  ((sound_start options).run operations).represents hlive

theorem represents_run_grown :
    ((start .standard).run
      [.literal [.integer 1, .null] 0, .array (.array ⟨0⟩) (.call .shift) none,
        .array (.array ⟨0⟩) (.call .push) (some (.boolean true))]).heap.Represents
      { ArrayRecord.ofTag 0 with window := ⟨2, 9, 0⟩, store := some ⟨1⟩ } :=
  @represents_run .standard
    [.literal [.integer 1, .null] 0, .array (.array ⟨0⟩) (.call .shift) none,
      .array (.array ⟨0⟩) (.call .push) (some (.boolean true))] ⟨0⟩ _ rfl

/-- A collection in any state that a run brings about keeps of each kind the
reachable entities, with all that they hold, and reports how many it freed. -/
theorem collect_run (options : Options) (operations : List (Operation Value))
    (roots : List Value) :
    let agent := (start options).run operations
    (agent.options.disableCollection = true →
      (Action.collect roots).perform agent = (.ok (), agent)) ∧
    (agent.options.disableCollection = false → ¬agent.heap.MeetsFreed roots →
      ∃ after stores, (Action.collect roots).perform agent = (.ok (), after) ∧
        agent.heap.Collects after.heap roots ∧
        after.log = agent.log ++ (agent.heap.releaseEvents stores).toArray ++
          #[.collectionFinished (agent.heap.removed after.heap)]) := by
  have hsound := (sound_start options).run operations
  intro agent
  constructor
  · intro hdisabled
    exact perform_collect_of_disabled hdisabled roots
  · intro henabled hfreed
    obtain ⟨marks, hcollects, houtcome⟩ := perform_collect hsound henabled hfreed
    exact ⟨_, _, houtcome, hcollects, rfl⟩

theorem collect_run_second_of_two :
    ∃ after,
      (Action.collect [.array ⟨1⟩]).perform
        ((start .standard).run [.newArray 0, .literal [.array ⟨0⟩] 0]) = (.ok (), after) ∧
      ((start .standard).run [.newArray 0, .literal [.array ⟨0⟩] 0]).heap.Collects after.heap
        [.array ⟨1⟩] := by
  have hsound := (sound_start .standard).run [.newArray 0, .literal [.array ⟨0⟩] 0]
  obtain ⟨after, _, houtcome, hcollects, _⟩ :=
    (collect_run .standard [.newArray 0, .literal [.array ⟨0⟩] 0] [.array ⟨1⟩]).2 rfl
      (Heap.not_meetsFreed_of_free_eq_nil hsound.arenas rfl rfl rfl)
  exact ⟨after, houtcome, hcollects⟩

end Agent

end ManagedHeap
