import ManagedHeap.Proofs.Creation
import ManagedHeap.Proofs.ObjectChanges
import ManagedHeap.Proofs.Renaming

/-!
# Bodies under a renaming

Bodies that agree in their numbers and correspond in their elements change alike.
What an operation works out for one of them it works out for the other, and
refuses it for the same reason.
-/

namespace ManagedHeap

/-- Stores are sized and granted in the same way. -/
structure Options.SizesAlike (first second : Options) : Prop where
  growth_eq : second.growth = first.growth
  grants_eq : second.grants = first.grants

theorem Options.SizesAlike.denial?_eq {first second : Options}
    (halike : first.SizesAlike second) (slots : Nat) :
    second.denial? slots = first.denial? slots := by
  unfold denial?
  rw [halike.grants_eq]

/-! ## Lists that correspond -/

theorem forall₂_iff_getElem? {α β : Type} {related : α → β → Prop} {first : List α}
    {second : List β} :
    List.Forall₂ related first second ↔
      ∀ index : Nat, Option.Rel related first[index]? second[index]? := by
  constructor
  · intro hforall
    induction hforall with
    | nil =>
        intro index
        exact .none
    | cons hrelated _ ih =>
        intro index
        cases index with
        | zero => exact .some hrelated
        | succ index => exact ih index
  · intro hrel
    induction first generalizing second with
    | nil =>
        cases second with
        | nil => exact .nil
        | cons y rest => nomatch hrel 0
    | cons x others ih =>
        cases second with
        | nil => nomatch hrel 0
        | cons y rest =>
            refine .cons ?_ (ih fun index => hrel (index + 1))
            cases hrel 0 with
            | some hrelated => exact hrelated

namespace Renaming

variable {ρ σ : Renaming} {elements others : List Value} {value other : Value}

theorem Values.getD {first second : Option Value} (hvalues : Option.Rel ρ.Values first second) :
    ρ.Values (first.getD .undefined) (second.getD .undefined) :=
  rel_getD hvalues .undefined

theorem Values.getElem? (helements : List.Forall₂ ρ.Values elements others) (index : Nat) :
    Option.Rel ρ.Values elements[index]? others[index]? :=
  forall₂_iff_getElem?.1 helements index

theorem Values.putAt (helements : List.Forall₂ ρ.Values elements others) (index : Nat)
    (hvalue : ρ.Values value other) :
    List.Forall₂ ρ.Values (putAt elements index value) (putAt others index other) := by
  rw [forall₂_iff_getElem?]
  intro position
  rw [getElem?_putAt, getElem?_putAt, helements.length_eq]
  split
  · exact .some hvalue
  · split
    · exact .some .undefined
    · exact Values.getElem? helements position

theorem Values.set (helements : List.Forall₂ ρ.Values elements others) (index : Nat)
    (hvalue : ρ.Values value other) :
    List.Forall₂ ρ.Values (elements.set index value) (others.set index other) := by
  rw [forall₂_iff_getElem?]
  intro position
  rw [List.getElem?_set, List.getElem?_set, helements.length_eq]
  split
  · split
    · exact .some hvalue
    · exact .none
  · exact Values.getElem? helements position

theorem Values.resize (helements : List.Forall₂ ρ.Values elements others) (length : Nat) :
    List.Forall₂ ρ.Values (resize elements length) (resize others length) := by
  rw [forall₂_iff_getElem?]
  intro position
  rw [getElem?_resize, getElem?_resize]
  split
  · exact .some (Values.getD (Values.getElem? helements position))
  · exact .none

theorem Values.dropLast (helements : List.Forall₂ ρ.Values elements others) :
    List.Forall₂ ρ.Values elements.dropLast others.dropLast := by
  rw [List.dropLast_eq_take, List.dropLast_eq_take, helements.length_eq]
  exact List.forall₂_take _ helements

theorem Values.tail (helements : List.Forall₂ ρ.Values elements others) :
    List.Forall₂ ρ.Values elements.tail others.tail := by
  rw [← List.drop_one, ← List.drop_one]
  exact List.forall₂_drop 1 helements

theorem Values.reverse (helements : List.Forall₂ ρ.Values elements others) :
    List.Forall₂ ρ.Values elements.reverse others.reverse :=
  List.forall₂_reverse_iff.2 helements

theorem Values.headD (helements : List.Forall₂ ρ.Values elements others) :
    ρ.Values (elements.headD .undefined) (others.headD .undefined) := by
  rw [List.headD_eq_head?_getD, List.headD_eq_head?_getD, List.head?_eq_getElem?,
    List.head?_eq_getElem?]
  exact Values.getD (Values.getElem? helements 0)

theorem Values.getLastD (helements : List.Forall₂ ρ.Values elements others) :
    ρ.Values (elements.getLastD .undefined) (others.getLastD .undefined) := by
  rw [List.getLastD_eq_getLast?, List.getLastD_eq_getLast?, List.getLast?_eq_getElem?,
    List.getLast?_eq_getElem?, helements.length_eq]
  exact Values.getD (Values.getElem? helements _)

/-! ## Bodies and changes -/

structure Bodies (ρ : Renaming) (first second : Body) : Prop where
  offset_eq : first.offset = second.offset
  capacity_eq : first.capacity = second.capacity
  elements : List.Forall₂ ρ.Values first.elements second.elements

/-- Changes that correspond.  They may announce themselves in different ways. -/
inductive Changes (ρ : Renaming) : Change → Change → Prop where
  | settle {first second : Body} (hbodies : ρ.Bodies first second) :
      Changes ρ (.settle first) (.settle second)
  | move (notices others : List Event) {first second : Body} (hbodies : ρ.Bodies first second) :
      Changes ρ (.move notices first) (.move others second)
  | refuse (notices others : List Event) (error : AllocationError) :
      Changes ρ (.refuse notices error) (.refuse others error)

variable {body otherBody : Body} {options otherOptions : Options} {array otherArray : ArrayHandle}

theorem Bodies.empty (ρ : Renaming) : ρ.Bodies .empty .empty := ⟨rfl, rfl, .nil⟩

theorem Bodies.mono (hle : ρ ≤ σ) (hbodies : ρ.Bodies body otherBody) :
    σ.Bodies body otherBody where
  offset_eq := hbodies.offset_eq
  capacity_eq := hbodies.capacity_eq
  elements := hbodies.elements.imp fun _ _ => Values.mono hle

theorem Changes.mono (hle : ρ ≤ σ) {change otherChange : Change}
    (hchanges : ρ.Changes change otherChange) : σ.Changes change otherChange := by
  cases hchanges with
  | settle hbodies => exact .settle (hbodies.mono hle)
  | move notices others hbodies => exact .move notices others (hbodies.mono hle)
  | refuse notices others error => exact .refuse notices others error

theorem Bodies.window_eq (hbodies : ρ.Bodies body otherBody) :
    body.window = otherBody.window := by
  unfold Body.window
  rw [hbodies.offset_eq, hbodies.capacity_eq, hbodies.elements.length_eq]

theorem Changes.next {change otherChange : Change} (hchanges : ρ.Changes change otherChange)
    (hbodies : ρ.Bodies body otherBody) :
    ρ.Bodies (change.next body) (otherChange.next otherBody) := by
  cases hchanges with
  | settle hnext => exact hnext
  | move _ _ hnext => exact hnext
  | refuse _ _ _ => exact hbodies

/-- Moves into stores of the same size are refused for the same reason. -/
theorem changes_moving (halike : options.SizesAlike otherOptions) (notices announced : List Event)
    (slots : Nat) (hbodies : ρ.Bodies body otherBody) :
    ρ.Changes (.moving options notices slots body)
      (.moving otherOptions announced slots otherBody) := by
  unfold Change.moving
  rw [halike.denial?_eq]
  split
  · exact .move _ _ hbodies
  · exact .refuse _ _ _

namespace Bodies

variable (hbodies : ρ.Bodies body otherBody)

include hbodies

theorem put (halike : options.SizesAlike otherOptions) (index : Nat)
    (hvalue : ρ.Values value other) :
    ρ.Changes (body.put options array index value)
      (otherBody.put otherOptions otherArray index other) := by
  have hput := Values.putAt hbodies.elements index hvalue
  unfold Body.put
  rw [hbodies.capacity_eq, halike.growth_eq]
  split
  · exact .settle ⟨hbodies.offset_eq, rfl, hput⟩
  · cases options.growth.grownCapacity otherBody.capacity (index + 1) with
    | error error => exact .refuse _ _ error
    | ok grown => exact changes_moving halike _ _ _ ⟨rfl, rfl, hput⟩

theorem unshift (halike : options.SizesAlike otherOptions) (hvalue : ρ.Values value other) :
    ρ.Changes (body.unshift options array value)
      (otherBody.unshift otherOptions otherArray other) := by
  have hcons := List.Forall₂.cons hvalue hbodies.elements
  unfold Body.unshift
  rw [hbodies.offset_eq, hbodies.capacity_eq, hbodies.elements.length_eq, halike.growth_eq]
  split
  · exact changes_moving halike _ _ _ ⟨rfl, rfl, hcons⟩
  · exact .settle ⟨rfl, rfl, hcons⟩

theorem shift : ρ.Changes body.shift otherBody.shift := by
  have hnil : body.elements = [] ↔ otherBody.elements = [] := by
    rw [← List.length_eq_zero_iff, hbodies.elements.length_eq, List.length_eq_zero_iff]
  unfold Body.shift
  by_cases hempty : otherBody.elements = []
  · rw [if_pos (hnil.2 hempty), if_pos hempty]
    exact .settle hbodies
  · rw [if_neg (fun hself => hempty (hnil.1 hself)), if_neg hempty]
    refine .settle ⟨?_, ?_, Values.tail hbodies.elements⟩
    · rw [hbodies.offset_eq]
    · rw [hbodies.capacity_eq]

theorem admits_iff (length : Int) : body.Admits length ↔ otherBody.Admits length := by
  unfold Body.Admits
  rw [hbodies.capacity_eq]

theorem setLength (length : Int) :
    ρ.Changes (body.setLength length) (otherBody.setLength length) := by
  unfold Body.setLength
  by_cases hadmits : otherBody.Admits length
  · rw [if_pos ((hbodies.admits_iff length).2 hadmits), if_pos hadmits]
    exact .settle ⟨hbodies.offset_eq, hbodies.capacity_eq, Values.resize hbodies.elements _⟩
  · rw [if_neg (fun hself => hadmits ((hbodies.admits_iff length).1 hself)), if_neg hadmits]
    exact .settle hbodies

theorem method (halike : options.SizesAlike otherOptions) (method : ArrayMethod)
    (hvalue : ρ.Values value other) :
    ρ.Changes (method.change options array value body)
      (method.change otherOptions otherArray other otherBody) := by
  cases method with
  | pop =>
      exact .settle ⟨hbodies.offset_eq, hbodies.capacity_eq, Values.dropLast hbodies.elements⟩
  | push =>
      unfold ArrayMethod.change
      rw [hbodies.elements.length_eq]
      exact hbodies.put halike _ hvalue
  | shift => exact hbodies.shift
  | unshift => exact hbodies.unshift halike hvalue
  | reverse =>
      exact .settle ⟨hbodies.offset_eq, hbodies.capacity_eq, Values.reverse hbodies.elements⟩

theorem answer (method : ArrayMethod) (hpair : ρ.pairs .array array.slot otherArray.slot)
    (hvalue : ρ.Values value other) :
    ρ.Values (method.answer array value body.elements)
      (method.answer otherArray other otherBody.elements) := by
  cases method with
  | pop => exact Values.getLastD hbodies.elements
  | push => exact hvalue
  | shift => exact Values.headD hbodies.elements
  | unshift => exact .undefined
  | reverse => exact .array hpair

end Bodies

/-! ## The length as a field -/

/-- No value but an integer is a length. -/
theorem Values.fieldLength?_eq (hvalue : ρ.Values value other) (slot : Nat) (window : Window) :
    window.fieldLength? slot value = window.fieldLength? slot other := by
  cases hvalue with
  | undefined | null | boolean _ | integer _ => rfl
  | number _ | string _ | object _ | array _ | closure _ => cases slot <;> rfl

theorem Bodies.setField (hbodies : ρ.Bodies body otherBody) (slot : Nat)
    (hvalue : ρ.Values value other) :
    ρ.Changes (body.setField slot value) (otherBody.setField slot other) := by
  unfold Body.setField
  rw [hbodies.window_eq, hvalue.fieldLength?_eq]
  cases otherBody.window.fieldLength? slot other with
  | none => exact .settle hbodies
  | some length =>
      exact .settle
        ⟨hbodies.offset_eq, hbodies.capacity_eq, Values.resize hbodies.elements length⟩

/-! ## The first store -/

theorem changes_reserve (ρ : Renaming) (halike : options.SizesAlike otherOptions) (capacity : Nat) :
    ρ.Changes (Body.reserve options capacity) (Body.reserve otherOptions capacity) := by
  unfold Body.reserve
  split
  · exact .settle (.empty ρ)
  · exact changes_moving halike _ _ _ ⟨rfl, rfl, .nil⟩

theorem changes_ofElements (halike : options.SizesAlike otherOptions)
    (helements : List.Forall₂ ρ.Values elements others) :
    ρ.Changes (Body.ofElements options elements) (Body.ofElements otherOptions others) := by
  have hnil : elements = [] ↔ others = [] := by
    rw [← List.length_eq_zero_iff, helements.length_eq, List.length_eq_zero_iff]
  unfold Body.ofElements
  by_cases hempty : others = []
  · rw [if_pos (hnil.2 hempty), if_pos hempty]
    exact .settle (.empty ρ)
  · rw [if_neg (fun hself => hempty (hnil.1 hself)), if_neg hempty, helements.length_eq]
    exact changes_moving halike _ _ _ ⟨rfl, rfl, helements⟩

end Renaming

end ManagedHeap
