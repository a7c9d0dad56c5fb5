import ManagedHeap.Proofs.ListModel
import ManagedHeap.Proofs.PrototypeChain
import ManagedHeap.Proofs.RenamedBodies

/-!
# Heaps that correspond

A heap corresponds to another under a renaming if its living entities are paired,
one to one, with living entities of the other that hold the same up to that
renaming.  The other heap may hold more.  Whatever is read of paired entities then
corresponds too, and a change made to both leaves them corresponding.
-/

namespace ManagedHeap

namespace Renaming

/-- Backing stores are not paired.  They count only for the elements they hold. -/
structure Corresponds (ρ : Renaming) (first second : Heap) : Prop where
  sound : first.Sound
  sound_other : second.Sound
  grounded : first.Grounded
  arrays : Arena.Matches (ρ.pairs .array) ρ.ArrayRecords first.arrays second.arrays
  elements : ∀ {left right : ArrayHandle}, ρ.pairs .array left.slot right.slot →
    Option.Rel (List.Forall₂ ρ.Values) (first.elements? left) (second.elements? right)
  objects : Arena.Matches (ρ.pairs .object) ρ.ObjectRecords first.objects second.objects
  closures : Arena.Matches (ρ.pairs .closure) ρ.ClosureRecords first.closures second.closures
  numbers : Arena.Matches (ρ.pairs .number) Eq first.numbers second.numbers
  strings : Arena.Matches (ρ.pairs .string) Eq first.strings second.strings
  stores : ∀ left right, ¬ρ.pairs .store left right
  permanent : ∀ value ∈ Heap.permanent, ρ.Values value value

namespace Corresponds

variable {ρ : Renaming} {first second : Heap} (hcorr : ρ.Corresponds first second)

include hcorr

theorem oneToOne : ρ.OneToOne := by
  constructor
  · intro kind left right other hleft hright
    cases kind with
    | array => exact hcorr.arrays.left_unique hleft hright
    | object => exact hcorr.objects.left_unique hleft hright
    | closure => exact hcorr.closures.left_unique hleft hright
    | number => exact hcorr.numbers.left_unique hleft hright
    | string => exact hcorr.strings.left_unique hleft hright
    | store => exact absurd hleft (hcorr.stores _ _)
  · intro kind left right other hleft hright
    cases kind with
    | array => exact hcorr.arrays.right_unique hleft hright
    | object => exact hcorr.objects.right_unique hleft hright
    | closure => exact hcorr.closures.right_unique hleft hright
    | number => exact hcorr.numbers.right_unique hleft hright
    | string => exact hcorr.strings.right_unique hleft hright
    | store => exact absurd hleft (hcorr.stores _ _)

theorem pairs_method (method : ArrayMethod) :
    ρ.Values (.closure method.closure) (.closure method.closure) := by
  apply hcorr.permanent
  exact List.mem_cons_of_mem _ (List.mem_map_of_mem method.mem_all)

theorem pairs_arrayPrototype :
    ρ.Values (.object arrayPrototype) (.object arrayPrototype) :=
  hcorr.permanent _ List.mem_cons_self

/-! ## Reading -/

/-- Paired arrays have bodies that correspond. -/
theorem holds {left right : ArrayHandle} (hpair : ρ.pairs .array left.slot right.slot) :
    ∃ record body other otherBody, first.Holds left record body ∧
      second.Holds right other otherBody ∧ ρ.ArrayRecords record other ∧
        ρ.Bodies body otherBody := by
  obtain ⟨record, other, hleft, hright, hrecords⟩ := hcorr.arrays.paired hpair
  obtain ⟨body, hbody⟩ := hcorr.sound.exists_holds hleft
  obtain ⟨otherBody, hother⟩ := hcorr.sound_other.exists_holds hright
  have helements := hcorr.elements hpair
  rw [hbody.elements?_eq, hother.elements?_eq] at helements
  have hwindow : body.window = otherBody.window := by
    rw [← hbody.window_eq, ← hother.window_eq]
    exact hrecords.window_eq
  refine ⟨record, body, other, otherBody, hbody, hother, hrecords, ?_, ?_, ?_⟩
  · exact congrArg Window.offset hwindow
  · exact congrArg Window.capacity hwindow
  · cases helements with
    | some hforall => exact hforall

theorem element {left right : ArrayHandle} (hpair : ρ.pairs .array left.slot right.slot)
    (index : Int) :
    ∃ value other, first.element left index = .ok value ∧
      second.element right index = .ok other ∧ ρ.Values value other := by
  obtain ⟨_, body, _, otherBody, hholds, hother, _, hbodies⟩ := hcorr.holds hpair
  refine ⟨_, _, hholds.element_eq index, hother.element_eq index, ?_⟩
  split
  · exact Values.getD (Values.getElem? hbodies.elements _)
  · exact .undefined

theorem header {left right : Object} (hobjects : ρ.Objects left right) :
    ∃ header other, first.header left = .ok header ∧ second.header right = .ok other ∧
      ρ.Headers header other := by
  cases hobjects with
  | ordinary hpair =>
      obtain ⟨record, other, hleft, hright, hrecords⟩ := hcorr.objects.paired hpair
      exact ⟨record.header, other.header, Heap.header_ordinary_eq_ok_iff.2 ⟨record, hleft, rfl⟩,
        Heap.header_ordinary_eq_ok_iff.2 ⟨other, hright, rfl⟩, hrecords.header⟩
  | array hpair =>
      obtain ⟨record, other, hleft, hright, hrecords⟩ := hcorr.arrays.paired hpair
      exact ⟨record.header, other.header, Heap.header_array_eq_ok_iff.2 ⟨record, hleft, rfl⟩,
        Heap.header_array_eq_ok_iff.2 ⟨other, hright, rfl⟩, hrecords.header⟩

theorem objectMap {left right : Object} (hobjects : ρ.Objects left right) :
    ∃ map, first.objectMap left = .ok map ∧ second.objectMap right = .ok map := by
  cases hobjects with
  | ordinary hpair =>
      obtain ⟨record, other, hleft, hright, hrecords⟩ := hcorr.objects.paired hpair
      refine ⟨record.map, Heap.objectMap_ordinary hleft, ?_⟩
      rw [Heap.objectMap_ordinary hright, hrecords.map_eq]
  | array hpair =>
      obtain ⟨_, _, hleft, hright, _⟩ := hcorr.arrays.paired hpair
      exact ⟨.array, Heap.objectMap_array hleft, Heap.objectMap_array hright⟩

theorem arrayField {record other : ArrayRecord} (hrecords : ρ.ArrayRecords record other)
    (slot : Nat) : ρ.Values (Heap.arrayField record slot) (Heap.arrayField other slot) := by
  unfold Heap.arrayField
  rw [hrecords.window_eq]
  split
  · exact .integer _
  · exact hcorr.pairs_method .pop
  · exact hcorr.pairs_method .push
  · exact hcorr.pairs_method .shift
  · exact hcorr.pairs_method .unshift
  · exact .undefined

theorem field {left right : Object} (hobjects : ρ.Objects left right) (slot : Nat) :
    ∃ value other, first.field left slot = .ok value ∧ second.field right slot = .ok other ∧
      ρ.Values value other := by
  cases hobjects with
  | ordinary hpair =>
      obtain ⟨record, other, hleft, hright, hrecords⟩ := hcorr.objects.deref hpair
      refine ⟨record.fields[slot]?.getD .undefined, other.fields[slot]?.getD .undefined, ?_, ?_,
        ?_⟩
      · rw [Heap.field, hleft]
        rfl
      · rw [Heap.field, hright]
        rfl
      · rw [← Array.getElem?_toList, ← Array.getElem?_toList]
        exact Values.getD (Values.getElem? hrecords.fields slot)
  | array hpair =>
      obtain ⟨record, other, hleft, hright, hrecords⟩ := hcorr.arrays.deref hpair
      refine ⟨Heap.arrayField record slot, Heap.arrayField other slot, ?_, ?_,
        hcorr.arrayField hrecords slot⟩
      · rw [Heap.field, hleft]
        rfl
      · rw [Heap.field, hright]
        rfl

theorem own? {left right : Object} (hobjects : ρ.Objects left right) (key : String) :
    Option.Rel ρ.Values (first.own? left key) (second.own? right key) := by
  obtain ⟨map, hleftMap, hrightMap⟩ := hcorr.objectMap hobjects
  obtain ⟨header, other, hleft, hright, hheaders⟩ := hcorr.header hobjects
  unfold Heap.own?
  rw [hleftMap, hrightMap, hleft, hright]
  simp only
  cases map.slotOf? key with
  | none => exact Entries.lookup hheaders.bag key
  | some slot =>
      obtain ⟨value, otherValue, hvalue, hother, hvalues⟩ := hcorr.field hobjects slot
      simp only [hvalue, hother]
      exact .some hvalues

theorem toBinary64? {value other : Value} (hvalues : ρ.Values value other) :
    ∃ x, first.toBinary64? value = .ok x ∧ second.toBinary64? other = .ok x := by
  cases hvalues with
  | integer n => exact ⟨_, rfl, rfl⟩
  | number hpair =>
      obtain ⟨x, y, hleft, hright, rfl⟩ := hcorr.numbers.deref hpair
      refine ⟨some x, ?_, ?_⟩
      · rw [Heap.toBinary64?, hleft]
        rfl
      · rw [Heap.toBinary64?, hright]
        rfl
  | undefined | null | boolean _ | string _ | object _ | array _ | closure _ =>
      exact ⟨none, rfl, rfl⟩

/-! ## Chains -/

theorem descends {start other : Option Object} (hstart : Option.Rel ρ.Objects start other)
    {objects : List Object} (hdescends : first.Descends start objects) :
    ∃ others, second.Descends other others ∧ List.Forall₂ ρ.Objects objects others := by
  induction hdescends generalizing other with
  | nil =>
      cases hstart
      exact ⟨[], .nil, .nil⟩
  | cons hheader _ ih =>
      cases hstart with
      | some hobjects =>
          obtain ⟨header, otherHeader, hleft, hright, hheaders⟩ := hcorr.header hobjects
          rw [hheader, Except.ok.injEq] at hleft
          subst hleft
          obtain ⟨others, hrest, hforall⟩ := ih hheaders.proto
          exact ⟨_, .cons hright hrest, .cons hobjects hforall⟩

/-- Chains that start at paired objects end, and their objects are paired in order. -/
theorem chains {start other : Option Object} (hstart : Option.Rel ρ.Objects start other) :
    ∃ objects others, first.Descends start objects ∧ second.Descends other others ∧
      List.Forall₂ ρ.Objects objects others := by
  have hends : ∃ objects, first.Descends start objects := by
    cases hstart with
    | none => exact ⟨[], .nil⟩
    | some hobjects =>
        obtain ⟨header, _, hleft, _, _⟩ := hcorr.header hobjects
        exact hcorr.grounded _ header hleft
  obtain ⟨objects, hdescends⟩ := hends
  obtain ⟨others, hother, hforall⟩ := hcorr.descends hstart hdescends
  exact ⟨objects, others, hdescends, hother, hforall⟩

theorem findSome?_own? {objects others : List Object}
    (hforall : List.Forall₂ ρ.Objects objects others) (key : String) :
    Option.Rel ρ.Values (objects.findSome? fun owner => first.own? owner key)
      (others.findSome? fun owner => second.own? owner key) := by
  induction hforall with
  | nil => exact .none
  | @cons object other _ _ hobjects _ ih =>
      have hown := hcorr.own? hobjects key
      rw [List.findSome?_cons, List.findSome?_cons]
      generalize first.own? object key = value, second.own? other key = otherValue at hown
      cases hown with
      | none => exact ih
      | some hvalues => exact .some hvalues

theorem property {left right : Object} (hobjects : ρ.Objects left right) (key : String) :
    ∃ value other, first.property left key = .ok value ∧
      second.property right key = .ok other ∧ ρ.Values value other := by
  obtain ⟨objects, others, hdescends, hother, hforall⟩ := hcorr.chains (.some hobjects)
  exact ⟨_, _, hdescends.property_eq key, hother.property_eq key,
    Values.getD (hcorr.findSome?_own? hforall key)⟩

theorem mem_iff {object other : Object} {objects others : List Object}
    (hobject : ρ.Objects object other) (hforall : List.Forall₂ ρ.Objects objects others) :
    object ∈ objects ↔ other ∈ others := by
  induction hforall with
  | nil => simp
  | cons hobjects _ ih =>
      rw [List.mem_cons, List.mem_cons, ih, hcorr.oneToOne.object_eq_iff hobject hobjects]

end Corresponds

end Renaming

end ManagedHeap
