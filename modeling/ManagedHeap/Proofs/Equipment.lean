import ManagedHeap.Proofs.Soundness

/-!
# What every heap keeps

The closures of the array methods are in every heap, each with the behaviour that it
had in the fresh one.  An ordinary object has one field for every name in its map.
Collections free none of those closures, and nothing changes the number of fields.
-/

namespace ManagedHeap

def ObjectRecord.Shaped (record : ObjectRecord) : Prop :=
  record.fields.size = record.map.fields.length

namespace Heap

structure Equipped (heap : Heap) : Prop where
  methods : ∀ method : ArrayMethod,
    heap.closures.get? method.closure = some ⟨.undefined, .arrayMethod method⟩
  shapes : ∀ object record, heap.objects.get? object = some record → record.Shaped

variable {heap before after : Heap}

theorem equipped_fresh : fresh.Equipped where
  methods := by
    intro method
    cases method <;> rfl
  shapes := by
    intro object record hget
    obtain ⟨slot⟩ := object
    cases slot with
    | zero =>
        have hrecord : some prototypeRecord = some record := hget
        rw [← Option.some.inj hrecord]
        rfl
    | succ slot => simp [fresh, Arena.ofList, Arena.get?] at hget

theorem Equipped.of_eq (hequipped : before.Equipped) (hobjects : after.objects = before.objects)
    (hclosures : after.closures = before.closures) : after.Equipped where
  methods := by
    intro method
    rw [hclosures]
    exact hequipped.methods method
  shapes := by
    intro object record hget
    rw [hobjects] at hget
    exact hequipped.shapes object record hget

theorem Equipped.modifyObject (hequipped : heap.Equipped) (handle : ObjectHandle)
    {change : ObjectRecord → ObjectRecord}
    (hchange : ∀ record : ObjectRecord, record.Shaped → (change record).Shaped) :
    Equipped { heap with objects := heap.objects.modify handle change } where
  methods := hequipped.methods
  shapes := by
    intro object record hget
    by_cases hobject : object = handle
    · rw [hobject, Arena.get?_modify_self, Option.map_eq_some_iff] at hget
      obtain ⟨old, hold, hrecord⟩ := hget
      rw [← hrecord]
      exact hchange old (hequipped.shapes handle old hold)
    · rw [Arena.get?_modify_of_ne _ _ hobject] at hget
      exact hequipped.shapes object record hget

theorem Equipped.pushObject (hequipped : heap.Equipped) (hobjects : heap.objects.WellFormed)
    (map : ObjectMap) (proto : Option Object) (tag : UInt32) :
    Equipped { heap with objects := (heap.objects.push (.new map proto tag)).2 } where
  methods := hequipped.methods
  shapes := by
    intro object record hget
    by_cases hobject : object = (heap.objects.push (.new map proto tag)).1
    · rw [hobject, Arena.get?_push_self hobjects, Option.some.injEq] at hget
      rw [← hget]
      exact Array.size_replicate
    · rw [Arena.get?_push_of_ne hobject] at hget
      exact hequipped.shapes object record hget

/-- A new closure takes no slot that is in use. -/
theorem Equipped.pushClosure (hequipped : heap.Equipped) (hclosures : heap.closures.WellFormed)
    (record : ClosureRecord) :
    Equipped { heap with closures := (heap.closures.push record).2 } where
  methods := by
    intro method
    rw [Arena.get?_push_of_ne]
    · exact hequipped.methods method
    · intro heq
      have hget := hequipped.methods method
      rw [heq, Arena.get?_push_fst hclosures] at hget
      contradiction
  shapes := hequipped.shapes

theorem QuietStep.equipped (hstep : before.QuietStep after) (harenas : before.ArenasWellFormed)
    (hequipped : before.Equipped) : after.Equipped := by
  cases hstep with
  | newString | newNumber => exact hequipped.of_eq rfl rfl
  | newObject map proto tag => exact hequipped.pushObject harenas.objects map proto tag
  | newClosure env behaviour => exact hequipped.pushClosure harenas.closures _
  | changeHeader object change =>
      cases object with
      | ordinary handle => exact hequipped.modifyObject handle fun _ hshaped => hshaped
      | array handle => exact hequipped.of_eq rfl rfl
  | writeField handle slot value =>
      apply hequipped.modifyObject handle
      intro record hshaped
      unfold ObjectRecord.Shaped
      rw [Array.size_setIfInBounds]
      exact hshaped

theorem Reaches.method (heap : Heap) (roots : List Value) (method : ArrayMethod) :
    heap.Reaches roots method.closure.entity := by
  have hpermanent : Value.closure method.closure ∈ permanent :=
    List.mem_cons_of_mem _ (List.mem_map_of_mem method.mem_all)
  exact .root (List.mem_append_right _ hpermanent) rfl

theorem Collects.equipped {roots : List Value} (hcollects : before.Collects after roots)
    (hequipped : before.Equipped) : after.Equipped where
  methods := by
    intro method
    rw [hcollects.closures.get?_kept _ (Reaches.method before roots method)]
    exact hequipped.methods method
  shapes := by
    intro object record hget
    exact hequipped.shapes object record (hcollects.objects.get?_eq_some_iff.1 hget).2

theorem lasting_equipped : Lasting Equipped where
  quietStep _ _ hstep harenas hequipped := hstep.equipped harenas hequipped
  of_eq _ _ hobjects hclosures _ _ hequipped := hequipped.of_eq hobjects hclosures
  collects _ _ _ hcollects hequipped := hcollects.equipped hequipped

end Heap

namespace Agent

/-- A sound heap that has what every heap keeps. -/
structure Equipped (agent : Agent) : Prop where
  sound : agent.Sound
  heap : agent.heap.Equipped

theorem equipped_run (options : Options) (operations : List (Operation Value)) :
    ((start options).run operations).Equipped where
  sound := (sound_start options).run operations
  heap := lasting_run Heap.lasting_equipped Heap.equipped_fresh options operations

end Agent

end ManagedHeap
