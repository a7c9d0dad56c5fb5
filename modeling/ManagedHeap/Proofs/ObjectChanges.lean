import ManagedHeap.Prototype
import ManagedHeap.Proofs.ArrayChanges

/-!
# Arrays that stay in place

Most operations leave every array where it is: its window, its store and the
contents of the stores.  Such an operation keeps a heap sound and shows the same
elements.  Changes of headers are among them.  The one write through the view of
an array as an object that is not is a write to its length, and that is a change
of its body.
-/

namespace ManagedHeap

namespace Heap

/-- The arrays of two heaps have the same windows into the same stores. -/
structure SamePlacement (before after : Heap) : Prop where
  stores_eq : after.stores = before.stores
  arrays_eq : ∀ array,
    (after.arrays.get? array).map (fun record => (record.window, record.store)) =
      (before.arrays.get? array).map fun record => (record.window, record.store)

variable {heap before after : Heap} {array : ArrayHandle} {record : ArrayRecord} {body : Body}

theorem SamePlacement.of_eq (harrays : after.arrays = before.arrays)
    (hstores : after.stores = before.stores) : before.SamePlacement after where
  stores_eq := hstores
  arrays_eq := by
    intro array
    rw [harrays]

namespace SamePlacement

variable (hsame : before.SamePlacement after)

include hsame

theorem symm : after.SamePlacement before where
  stores_eq := hsame.stores_eq.symm
  arrays_eq := fun array => (hsame.arrays_eq array).symm

theorem get? (hget : before.arrays.get? array = some record) :
    ∃ other, after.arrays.get? array = some other ∧ other.window = record.window ∧
      other.store = record.store := by
  have harray := hsame.arrays_eq array
  rw [hget, Option.map_some, Option.map_eq_some_iff] at harray
  obtain ⟨other, hother, hplace⟩ := harray
  exact ⟨other, hother, congrArg Prod.fst hplace, congrArg Prod.snd hplace⟩

theorem holds (hholds : before.Holds array record body) {other : ArrayRecord}
    (hother : after.arrays.get? array = some other) : after.Holds array other body := by
  obtain ⟨same, hget, hwindow, hstore⟩ := hsame.get? hholds.get?_eq
  rw [hother, Option.some.injEq] at hget
  subst hget
  refine ⟨hother, ?_, hholds.fits, ?_, ?_, ?_⟩
  · rw [hwindow]
    exact hholds.window_eq
  · rw [hstore]
    exact hholds.eq_empty
  · rw [hstore, hsame.stores_eq]
    exact hholds.stores_eq
  · rw [hstore]
    exact hholds.size_pos

theorem owns {store : StoreHandle} (howns : before.Owns array store) :
    after.Owns array store := by
  obtain ⟨record, hget, hstore⟩ := howns
  obtain ⟨other, hother, _, hotherStore⟩ := hsame.get? hget
  exact ⟨other, hother, by rw [hotherStore, hstore]⟩

theorem elements?_eq : after.elements? array = before.elements? array := by
  have harray := hsame.arrays_eq array
  unfold elements?
  rw [hsame.stores_eq]
  cases hbefore : before.arrays.get? array with
  | none =>
      rw [hbefore, Option.map_none, Option.map_eq_none_iff] at harray
      rw [harray]
  | some record =>
      obtain ⟨other, hother, hwindow, hstore⟩ := hsame.get? hbefore
      rw [hother]
      simp only [Option.bind_eq_bind, Option.bind_some, hwindow, hstore]

theorem sound (hsound : before.Sound) (harenas : after.ArenasWellFormed) : after.Sound := by
  apply Sound.of_holds harenas
  · constructor
    · intro first second store hfirst hsecond
      exact hsound.ownership.owner_unique (hsame.symm.owns hfirst) (hsame.symm.owns hsecond)
    · intro array store howns
      rw [hsame.stores_eq]
      exact hsound.ownership.owned_live (hsame.symm.owns howns)
    · intro store hlive
      rw [hsame.stores_eq] at hlive
      obtain ⟨array, howns⟩ := hsound.ownership.live_owned hlive
      exact ⟨array, hsame.owns howns⟩
  · intro array record hget
    obtain ⟨other, hother, _, _⟩ := hsame.symm.get? hget
    obtain ⟨body, hbody⟩ := hsound.exists_holds hother
    exact ⟨body, hsame.holds hbody hget⟩

end SamePlacement

/-! ## Maps and headers -/

theorem objectMap_ordinary {handle : ObjectHandle} {found : ObjectRecord}
    (hget : heap.objects.get? handle = some found) :
    heap.objectMap (.ordinary handle) = .ok found.map := by
  rw [objectMap, Arena.deref_eq_ok_iff.2 hget]
  rfl

theorem objectMap_array (hget : heap.arrays.get? array = some record) :
    heap.objectMap (.array array) = .ok .array := by
  rw [objectMap, Arena.deref_eq_ok_iff.2 hget]
  rfl

def changeHeader (heap : Heap) (object : Object) (change : Header → Header) : Heap :=
  match object with
  | .ordinary handle =>
      { heap with
        objects := heap.objects.modify handle fun record =>
          { record with header := change record.header } }
  | .array handle =>
      { heap with
        arrays := heap.arrays.modify handle fun record =>
          { record with header := change record.header } }

theorem samePlacement_changeHeader (heap : Heap) (object : Object)
    (change : Header → Header) : heap.SamePlacement (heap.changeHeader object change) := by
  cases object with
  | ordinary handle => exact .of_eq rfl rfl
  | array handle =>
      refine ⟨rfl, ?_⟩
      intro other
      simp only [changeHeader]
      by_cases hother : other = handle
      · subst hother
        rw [Arena.get?_modify_self, Option.map_map]
        rfl
      · rw [Arena.get?_modify_of_ne _ _ hother]

theorem ArenasWellFormed.changeHeader (harenas : heap.ArenasWellFormed) (object : Object)
    (change : Header → Header) : (heap.changeHeader object change).ArenasWellFormed := by
  cases object with
  | ordinary handle =>
      exact ⟨harenas.arrays, harenas.objects.modify handle _, harenas.closures,
        harenas.numbers, harenas.strings, harenas.stores⟩
  | array handle =>
      exact ⟨harenas.arrays.modify handle _, harenas.objects, harenas.closures,
        harenas.numbers, harenas.strings, harenas.stores⟩

theorem Sound.changeHeader (hsound : heap.Sound) (object : Object)
    (change : Header → Header) : (heap.changeHeader object change).Sound :=
  (samePlacement_changeHeader heap object change).sound hsound
    (hsound.arenas.changeHeader object change)

/-! ## Quiet steps -/

def writeField (heap : Heap) (handle : ObjectHandle) (slot : Nat) (value : Value) : Heap :=
  { heap with
    objects := heap.objects.modify handle fun record =>
      { record with fields := record.fields.setIfInBounds slot value } }

/-- What operations do to a heap when they do nothing to the body of an array.  A number
takes a slot only if it is no integer. -/
inductive QuietStep (heap : Heap) : Heap → Prop where
  | newString (text : String) :
      QuietStep heap { heap with strings := (heap.strings.push text).2 }
  | newNumber {x : Binary64} (hboxed : x.toInt32? = none) :
      QuietStep heap { heap with numbers := (heap.numbers.push x).2 }
  | newObject (map : ObjectMap) (proto : Option Object) (tag : UInt32) :
      QuietStep heap { heap with objects := (heap.objects.push (.new map proto tag)).2 }
  | newClosure (env : Value) (behaviour : Behaviour) :
      QuietStep heap { heap with closures := (heap.closures.push ⟨env, behaviour⟩).2 }
  | changeHeader (object : Object) (change : Header → Header) :
      QuietStep heap (heap.changeHeader object change)
  | writeField (handle : ObjectHandle) (slot : Nat) (value : Value) :
      QuietStep heap (heap.writeField handle slot value)

namespace QuietStep

theorem samePlacement (hstep : before.QuietStep after) : before.SamePlacement after := by
  cases hstep with
  | changeHeader object change => exact samePlacement_changeHeader before object change
  | newString | newNumber | newObject | newClosure | writeField => exact .of_eq rfl rfl

theorem arenasWellFormed (hstep : before.QuietStep after)
    (harenas : before.ArenasWellFormed) : after.ArenasWellFormed := by
  cases hstep with
  | newString text => exact { harenas with strings := harenas.strings.push text }
  | newNumber => exact { harenas with numbers := harenas.numbers.push _ }
  | newObject map proto tag => exact { harenas with objects := harenas.objects.push _ }
  | newClosure env behaviour => exact { harenas with closures := harenas.closures.push _ }
  | changeHeader object change => exact harenas.changeHeader object change
  | writeField handle slot value =>
      exact { harenas with objects := harenas.objects.modify handle _ }

theorem sound (hstep : before.QuietStep after) (hsound : before.Sound) : after.Sound :=
  hstep.samePlacement.sound hsound (hstep.arenasWellFormed hsound.arenas)

end QuietStep

end Heap

/-! ## The length as a field -/

/-- The length that a write to a field of an array gives it, if it takes the write. -/
def Window.fieldLength? (slot : Nat) (value : Value) (window : Window) : Option Nat :=
  match slot, value with
  | 0, .integer length =>
      if window.length ≤ length.toInt ∧ length.toInt ≤ window.capacity then
        some length.toInt.toNat
      else none
  | _, _ => none

theorem Window.fieldLength?_eq_some_iff {slot : Nat} {value : Value} {window : Window}
    {length : Nat} :
    window.fieldLength? slot value = some length ↔
      slot = 0 ∧ ∃ n : Int32, value = .integer n ∧ n.toInt = length ∧
        window.length ≤ length ∧ length ≤ window.capacity := by
  unfold fieldLength?
  split
  · rename_i n
    simp only [Value.integer.injEq, exists_eq_left', true_and, Option.ite_none_right_eq_some,
      Option.some.injEq]
    omega
  · rename_i hother
    simp only [reduceCtorEq, false_iff]
    rintro ⟨rfl, n, rfl, _⟩
    exact hother n rfl rfl

theorem Window.fieldLength?_bounds {slot : Nat} {value : Value} {window : Window}
    {length : Nat} (hlength : window.fieldLength? slot value = some length) :
    window.length ≤ length ∧ length ≤ window.capacity := by
  obtain ⟨-, n, -, -, hbounds⟩ := fieldLength?_eq_some_iff.1 hlength
  exact hbounds

def Body.setField (slot : Nat) (value : Value) (body : Body) : Change :=
  match body.window.fieldLength? slot value with
  | some length => .settle { body with elements := resize body.elements length }
  | none => .settle body

theorem Body.Fits.suits_setField {body : Body} (hfits : body.Fits) (slot : Nat)
    (value : Value) : (body.setField slot value).Suits body := by
  unfold Body.setField
  split
  · rename_i length hlength
    obtain ⟨_, hroom⟩ := Window.fieldLength?_bounds hlength
    refine ⟨⟨?_, hfits.size_le⟩, rfl⟩
    change (resize body.elements length).length ≤ body.capacity
    rw [length_resize]
    exact hroom
  · exact ⟨hfits, rfl⟩

theorem Body.discreet_setField {body : Body} (slot : Nat) (value : Value) :
    (body.setField slot value).Discreet := by
  unfold Body.setField
  split <;> simp [Change.Discreet, Change.notices]

namespace Object

open ManagedHeap.Action

variable {agent : Agent} {array : ArrayHandle} {record : ArrayRecord} {body : Body}

theorem perform_changeHeader (object : Object) (change : Header → Header) (agent : Agent) :
    (object.changeHeader change).perform agent =
      (.ok (), { agent with heap := agent.heap.changeHeader object change }) := by
  cases object <;> rfl

theorem perform_setField_of_get? (hget : agent.heap.arrays.get? array = some record)
    (slot : Nat) (value : Value) :
    ((Object.array array).setField slot value).perform agent =
      match record.window.fieldLength? slot value with
      | none => (.ok false, agent)
      | some length =>
          (.ok true,
            { agent with
              heap := agent.heap.withWindow array { record.window with length := length } }) := by
  unfold Object.setField
  simp only
  rw [perform_bind, perform_read, Arena.deref_eq_ok_iff.2 hget, andThen_ok]
  cases hlength : record.window.fieldLength? slot value with
  | some length =>
      obtain ⟨rfl, n, rfl, hn, hbounds⟩ := Window.fieldLength?_eq_some_iff.1 hlength
      have hcount : n.toInt.toNat = length := by omega
      simp only [hcount]
      rw [perform_ite, if_pos (by omega), perform_bind, perform_setWindow, andThen_ok,
        perform_pure]
  | none =>
      split
      · rename_i n
        have hbounds : ¬(record.window.length ≤ n.toInt ∧ n.toInt ≤ record.window.capacity) := by
          intro hbounds
          have hsome : record.window.fieldLength? 0 (.integer n) = some n.toInt.toNat :=
            if_pos hbounds
          rw [hlength] at hsome
          contradiction
        rw [perform_ite, if_neg hbounds, perform_pure]
      · exact perform_pure false agent

/-- The slots behind the length are undefined, so a longer array needs no writing. -/
theorem perform_setField_array (hholds : agent.heap.Holds array record body) (slot : Nat)
    (value : Value) :
    ((Object.array array).setField slot value).perform agent =
      (body.setField slot value).carryOut array record
        (body.window.fieldLength? slot value).isSome agent := by
  rw [perform_setField_of_get? hholds.get?_eq, hholds.window_eq]
  unfold Body.setField
  cases hlength : body.window.fieldLength? slot value with
  | none => exact (ArrayHandle.carryOut_settle_self hholds false).symm
  | some length =>
      obtain ⟨hmore, hroom⟩ := Window.fieldLength?_bounds hlength
      let next : Body := { body with elements := resize body.elements length }
      have hwindow : { body.window with length := length } = next.window := by
        simp only [next, Body.window, length_resize]
      have hslots : next.slots = body.slots :=
        Body.slots_resize hholds.fits.length_le hmore hroom
      simp only [hwindow, Option.isSome_some, Change.carryOut, Agent.reshape, Heap.reshape]
      change _ = (Except.ok true, { agent with
        heap := (agent.heap.fill record next.slots).withWindow array next.window })
      rw [hslots, Heap.fill_eq_self hholds]

end Object

end ManagedHeap
