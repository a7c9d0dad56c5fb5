import ManagedHeap.Proofs.Soundness
import ManagedHeap.Session

/-!
# The numbers of slots

A handle fits a word, so there are only so many handles of each kind.  Freed slots are used
again, and nothing that an agent does makes an arena smaller.  If there is a handle for every
slot in the end, there was one for each slot that was taken on the way.
-/

namespace ManagedHeap

/-- Every slot has a number that a handle can have. -/
def Arena.Addressable {kind : Kind} {α : Type} (arena : Arena kind α) : Prop :=
  ∀ slot < arena.size, (Handle.ofNumber slot : Except Fault (Handle kind)) = .ok ⟨slot⟩

namespace Arena

variable {kind : Kind} {α : Type} {arena other : Arena kind α}

theorem Addressable.mono (haddressable : other.Addressable) (hsize : arena.size ≤ other.size) :
    arena.Addressable := by
  intro slot hslot
  exact haddressable slot (Nat.lt_of_lt_of_le hslot hsize)

end Arena

namespace Heap

/-- There is a handle for every slot of the heap. -/
structure Addressable (heap : Heap) : Prop where
  arrays : heap.arrays.Addressable
  objects : heap.objects.Addressable
  closures : heap.closures.Addressable
  numbers : heap.numbers.Addressable
  strings : heap.strings.Addressable
  stores : heap.stores.Addressable

/-- No arena has become smaller. -/
structure Expands (before after : Heap) : Prop where
  arrays : before.arrays.size ≤ after.arrays.size
  objects : before.objects.size ≤ after.objects.size
  closures : before.closures.size ≤ after.closures.size
  numbers : before.numbers.size ≤ after.numbers.size
  strings : before.strings.size ≤ after.strings.size
  stores : before.stores.size ≤ after.stores.size

variable {before middle after : Heap}

theorem Expands.addressable (hexpands : before.Expands after) (hafter : after.Addressable) :
    before.Addressable where
  arrays := hafter.arrays.mono hexpands.arrays
  objects := hafter.objects.mono hexpands.objects
  closures := hafter.closures.mono hexpands.closures
  numbers := hafter.numbers.mono hexpands.numbers
  strings := hafter.strings.mono hexpands.strings
  stores := hafter.stores.mono hexpands.stores

theorem expands_refl (heap : Heap) : heap.Expands heap where
  arrays := Nat.le_refl _
  objects := Nat.le_refl _
  closures := Nat.le_refl _
  numbers := Nat.le_refl _
  strings := Nat.le_refl _
  stores := Nat.le_refl _

theorem Expands.trans (hfirst : before.Expands middle) (hsecond : middle.Expands after) :
    before.Expands after where
  arrays := Nat.le_trans hfirst.arrays hsecond.arrays
  objects := Nat.le_trans hfirst.objects hsecond.objects
  closures := Nat.le_trans hfirst.closures hsecond.closures
  numbers := Nat.le_trans hfirst.numbers hsecond.numbers
  strings := Nat.le_trans hfirst.strings hsecond.strings
  stores := Nat.le_trans hfirst.stores hsecond.stores

/-! ## What a step does to the arenas -/

theorem QuietStep.expands (hstep : before.QuietStep after) : before.Expands after := by
  have hself := expands_refl before
  cases hstep with
  | newString text => exact { hself with strings := Arena.size_le_size_push _ _ }
  | newNumber => exact { hself with numbers := Arena.size_le_size_push _ _ }
  | newObject => exact { hself with objects := Arena.size_le_size_push _ _ }
  | newClosure => exact { hself with closures := Arena.size_le_size_push _ _ }
  | writeField => exact { hself with objects := Nat.le_of_eq (Arena.size_modify _ _ _).symm }
  | changeHeader object =>
      cases object with
      | ordinary =>
          exact { hself with objects := Nat.le_of_eq (Arena.size_modify _ _ _).symm }
      | array => exact { hself with arrays := Nat.le_of_eq (Arena.size_modify _ _ _).symm }

theorem expands_withArray (heap : Heap) (record : ArrayRecord) :
    heap.Expands (heap.withArray record) :=
  { expands_refl heap with arrays := Arena.size_le_size_push _ _ }

theorem expands_reshape (heap : Heap) (array : ArrayHandle) (record : ArrayRecord)
    (body : Body) : heap.Expands (heap.reshape array record body) where
  arrays := Nat.le_of_eq (Arena.size_modify _ _ _).symm
  objects := Nat.le_refl _
  closures := Nat.le_refl _
  numbers := Nat.le_refl _
  strings := Nat.le_refl _
  stores := by
    unfold reshape fill
    cases record.store with
    | none => exact Nat.le_refl _
    | some store => exact Nat.le_of_eq (Arena.size_modify _ _ _).symm

/-- The store that is released leaves its slot behind. -/
theorem expands_relocate (heap : Heap) (array : ArrayHandle) (record : ArrayRecord)
    (body : Body) : heap.Expands (heap.relocate array record body) where
  arrays := Nat.le_of_eq (Arena.size_modify _ _ _).symm
  objects := Nat.le_refl _
  closures := Nat.le_refl _
  numbers := Nat.le_refl _
  strings := Nat.le_refl _
  stores := by
    have hpush := Arena.size_le_size_push heap.stores body.slots
    unfold relocate
    cases record.store with
    | none => exact hpush
    | some old =>
        change _ ≤ ((heap.stores.push body.slots).2.release old).2.size
        rw [Arena.size_release]
        exact hpush

theorem Collects.expands {roots : List Value} (hcollects : before.Collects after roots) :
    before.Expands after where
  arrays := Nat.le_of_eq hcollects.arrays.size_eq.symm
  objects := Nat.le_of_eq hcollects.objects.size_eq.symm
  closures := Nat.le_of_eq hcollects.closures.size_eq.symm
  numbers := Nat.le_of_eq hcollects.numbers.size_eq.symm
  strings := Nat.le_of_eq hcollects.strings.size_eq.symm
  stores := Nat.le_of_eq hcollects.stores.size_eq.symm

end Heap

theorem Change.expands_carryOut {α : Type} (change : Change) (array : ArrayHandle)
    (record : ArrayRecord) (answer : α) (agent : Agent) :
    agent.heap.Expands (change.carryOut array record answer agent).2.heap := by
  cases change with
  | settle next => exact agent.heap.expands_reshape array record next
  | move notices next => exact agent.heap.expands_relocate array record next
  | refuse notices error => exact agent.heap.expands_refl

/-! ## Runs -/

open ManagedHeap.Action

theorem Agent.persistent_expands (base : Heap) :
    Persistent fun agent => agent.Sound ∧ base.Expands agent.heap where
  confined :=
    { sound := fun _ hkept => hkept.1
      robust := fun _ _ hstep hkept => ⟨hstep.sound hkept.1, hkept.2.trans hstep.expands⟩
      withArray := fun agent tag hkept =>
        ⟨Heap.sound_withArray hkept.1 tag, hkept.2.trans (agent.heap.expands_withArray _)⟩
      touches_new := fun _ _ _ _ => trivial
      carryOut := fun agent array record _ change _ hkept hholds hsuits _ =>
        ⟨hkept.1.carryOut hholds hsuits (),
          hkept.2.trans (change.expands_carryOut array record () agent)⟩ }
  afterSweep _ _ _ hkept hcollects :=
    ⟨hcollects.sound hkept.1, hkept.2.trans hcollects.expands⟩

/-- A run that ends with a handle for every slot had one for every slot on the way. -/
theorem Agent.addressable_run (options : Options) {done rest : List (Operation Value)}
    (hlast : ((start options).run (done ++ rest)).heap.Addressable) :
    ((start options).run done).heap.Addressable := by
  rw [run_append] at hlast
  have hmiddle := (sound_start options).run done
  have hkept := (persistent_expands _).run ⟨hmiddle, Heap.expands_refl _⟩ rest
  exact hkept.2.addressable hlast

theorem Operand.keeps_evaluate {kept : Agent → Prop} (hrobust : Robust kept)
    (registers : Bindings) (operand : Operand) :
    Keeps kept (operand.evaluate registers) := by
  cases operand with
  | text content => exact keeps_newString hrobust content
  | number x => exact keeps_newNumber hrobust x
  | undefined | null | boolean | integer | register | method | arrayPrototype =>
      exact keeps_pure _

end ManagedHeap
