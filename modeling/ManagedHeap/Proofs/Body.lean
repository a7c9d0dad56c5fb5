import ManagedHeap.Elements
import ManagedHeap.Invariant

/-!
# Bodies of arrays

The slots of a backing store that lie outside the window of its array are
undefined.  An array is therefore known completely by its elements, the room in
front of them and the number of slots from the first of them on.  This file
reads a body off an array, and says of every way in which an operation writes
into a store which body comes out.
-/

namespace ManagedHeap

/-! ## Lists of elements -/

/-- Writes the element at an index, behind undefined ones if the index lies
beyond the end. -/
def putAt (elements : List Value) (index : Nat) (value : Value) : List Value :=
  if index < elements.length then elements.set index value
  else elements ++ List.replicate (index - elements.length) .undefined ++ [value]

/-- Cuts off elements at the end, or adds undefined ones there. -/
def resize (elements : List Value) (length : Nat) : List Value :=
  elements.take length ++ List.replicate (length - elements.length) .undefined

theorem length_putAt (elements : List Value) (index : Nat) (value : Value) :
    (putAt elements index value).length = max elements.length (index + 1) := by
  unfold putAt
  split
  · rw [List.length_set]
    omega
  · simp only [List.length_append, List.length_replicate, List.length_singleton]
    omega

theorem getElem?_putAt (elements : List Value) (index : Nat) (value : Value) (other : Nat) :
    (putAt elements index value)[other]? =
      if other = index then some value
      else if elements.length ≤ other ∧ other < index then some .undefined
      else elements[other]? := by
  unfold putAt
  split
  · rename_i hindex
    rw [List.getElem?_set]
    by_cases hother : index = other
    · subst hother
      simp [hindex]
    · have hbetween : ¬(elements.length ≤ other ∧ other < index) := by omega
      rw [if_neg hother, if_neg (Ne.symm hother), if_neg hbetween]
  · rename_i hindex
    simp only [List.append_assoc, List.getElem?_append, List.getElem?_replicate,
      List.length_replicate]
    by_cases hother : other = index
    · subst hother
      simp [hindex]
    · rw [if_neg hother]
      by_cases hshort : other < elements.length
      · have hbetween : ¬(elements.length ≤ other ∧ other < index) := by omega
        rw [if_pos hshort, if_neg hbetween]
      · rw [if_neg hshort]
        by_cases hbefore : other < index
        · have hgap : other - elements.length < index - elements.length := by omega
          have hbetween : elements.length ≤ other ∧ other < index := by omega
          rw [if_pos hgap, if_pos hgap, if_pos hbetween]
        · have hgap : ¬other - elements.length < index - elements.length := by omega
          have hbetween : ¬(elements.length ≤ other ∧ other < index) := by omega
          have hlast : 1 ≤ other - elements.length - (index - elements.length) := by omega
          rw [if_neg hgap, if_neg hbetween, List.getElem?_eq_none hlast,
            List.getElem?_eq_none (by omega)]

theorem putAt_length_self (elements : List Value) (value : Value) :
    putAt elements elements.length value = elements ++ [value] := by
  simp [putAt]

theorem length_putAt_self (elements : List Value) (value : Value) :
    (putAt elements elements.length value).length = elements.length + 1 := by
  rw [putAt_length_self, List.length_append, List.length_singleton]

theorem length_resize (elements : List Value) (length : Nat) :
    (resize elements length).length = length := by
  simp only [resize, List.length_append, List.length_take, List.length_replicate]
  omega

theorem getElem?_resize (elements : List Value) (length index : Nat) :
    (resize elements length)[index]? =
      if index < length then some (elements[index]?.getD .undefined) else none := by
  unfold resize
  rw [List.getElem?_append, List.length_take, List.getElem?_take, List.getElem?_replicate]
  by_cases hlength : index < length
  · rw [if_pos hlength, if_pos hlength]
    by_cases hindex : index < elements.length
    · have htake : index < min length elements.length := by omega
      rw [if_pos htake, List.getElem?_eq_getElem hindex]
      rfl
    · have htake : ¬index < min length elements.length := by omega
      have hrest : index - min length elements.length < length - elements.length := by omega
      rw [if_neg htake, if_pos hrest, List.getElem?_eq_none (by omega)]
      rfl
  · have htake : ¬index < min length elements.length := by omega
    have hrest : ¬index - min length elements.length < length - elements.length := by omega
    rw [if_neg htake, if_neg hrest, if_neg hlength]

/-! ## Bodies -/

structure Body where
  offset : Nat
  capacity : Nat
  elements : List Value
deriving DecidableEq

namespace Body

def window (body : Body) : Window :=
  ⟨body.elements.length, body.capacity, body.offset⟩

/-- The whole backing store. -/
def slots (body : Body) : Array Value :=
  (List.replicate body.offset Value.undefined ++ body.elements ++
    List.replicate (body.capacity - body.elements.length) Value.undefined).toArray

structure Fits (body : Body) : Prop where
  length_le : body.elements.length ≤ body.capacity
  size_le : body.offset + body.capacity ≤ maxCapacity

def empty : Body := ⟨0, 0, []⟩

theorem fits_empty : empty.Fits where
  length_le := Nat.le_refl 0
  size_le := by
    simp [empty]

theorem size_slots {body : Body} (hlength : body.elements.length ≤ body.capacity) :
    body.slots.size = body.offset + body.capacity := by
  simp only [slots, List.size_toArray, List.length_append, List.length_replicate]
  omega

theorem getElem?_slots_inside (body : Body) {index : Nat}
    (hindex : index < body.elements.length) :
    body.slots[body.offset + index]? = body.elements[index]? := by
  have hfront : (List.replicate body.offset Value.undefined).length ≤ body.offset + index := by
    simp
  have hback : body.offset + index <
      (List.replicate body.offset Value.undefined ++ body.elements).length := by
    simp only [List.length_append, List.length_replicate]
    omega
  rw [slots, List.getElem?_toArray, List.getElem?_append_left hback,
    List.getElem?_append_right hfront]
  simp

theorem getElem?_slots_outside {body : Body}
    (hlength : body.elements.length ≤ body.capacity) {position : Nat}
    (hposition : position < body.offset + body.capacity)
    (houtside : position < body.offset ∨ body.offset + body.elements.length ≤ position) :
    body.slots[position]? = some .undefined := by
  rw [slots, List.getElem?_toArray, List.append_assoc]
  rcases houtside with hfront | hback
  · rw [List.getElem?_append_left (by simpa using hfront), List.getElem?_replicate,
      if_pos hfront]
  · rw [List.getElem?_append_right (by simp; omega),
      List.getElem?_append_right (by simp; omega), List.getElem?_replicate,
      if_pos (by simp; omega)]

/-- What lies outside a window is the same for a window that is no longer. -/
theorem getElem?_slots_outside_congr {body : Body}
    (hlength : body.elements.length ≤ body.capacity) {elements : List Value}
    (hless : elements.length ≤ body.elements.length) {position : Nat}
    (hedge : position < body.offset ∨ body.offset + body.elements.length ≤ position) :
    { body with elements := elements }.slots[position]? = body.slots[position]? := by
  have hshort : elements.length ≤ body.capacity := Nat.le_trans hless hlength
  by_cases hposition : position < body.offset + body.capacity
  · have hedgeAfter : position < body.offset ∨ body.offset + elements.length ≤ position := by
      omega
    rw [getElem?_slots_outside hlength hposition hedge]
    exact getElem?_slots_outside hshort hposition hedgeAfter
  · have hsize := size_slots hlength
    have hsizeAfter : { body with elements := elements }.slots.size =
        body.offset + body.capacity := size_slots hshort
    rw [Array.getElem?_eq_none (by omega), Array.getElem?_eq_none (by omega)]

/-- A store is known by what the window shows and by being undefined elsewhere. -/
theorem eq_slots {offset capacity : Nat} {elements : List Value} {store : Array Value}
    (hlength : elements.length ≤ capacity) (hsize : store.size = offset + capacity)
    (hinside : ∀ index < elements.length, store[offset + index]? = elements[index]?)
    (houtside : ∀ position < offset + capacity,
      position < offset ∨ offset + elements.length ≤ position →
        store[position]? = some .undefined) :
    store = Body.slots ⟨offset, capacity, elements⟩ := by
  let body : Body := ⟨offset, capacity, elements⟩
  change store = body.slots
  apply Array.ext_getElem?
  intro position
  by_cases hposition : position < offset + capacity
  · by_cases hwindow : position < offset ∨ offset + elements.length ≤ position
    · have hslots : body.slots[position]? = some .undefined :=
        getElem?_slots_outside hlength hposition hwindow
      rw [houtside position hposition hwindow, hslots]
    · have hindex : position - offset < elements.length := by omega
      have hsum : offset + (position - offset) = position := by omega
      have hstore := hinside _ hindex
      have hslots : body.slots[offset + (position - offset)]? = elements[position - offset]? :=
        getElem?_slots_inside body hindex
      rw [hsum] at hstore hslots
      rw [hstore, hslots]
  · have hbody : body.slots.size = offset + capacity := size_slots hlength
    rw [Array.getElem?_eq_none (by omega), Array.getElem?_eq_none (by omega)]

theorem slots_of_elements_eq_nil {body : Body} (hnil : body.elements = []) :
    body.slots = Array.replicate (body.offset + body.capacity) Value.undefined := by
  obtain ⟨offset, capacity, elements⟩ := body
  simp only at hnil
  subst hnil
  symm
  apply eq_slots (Nat.zero_le capacity) Array.size_replicate
  · intro index hindex
    exact absurd hindex (Nat.not_lt_zero index)
  · intro position hposition _
    rw [Array.getElem?_replicate, if_pos hposition]

theorem map_window (body : Body) :
    (List.range body.window.length).map
        (fun index => body.slots[body.window.position index]?.getD .undefined) =
      body.elements := by
  apply List.ext_getElem?
  intro index
  rw [List.getElem?_map]
  by_cases hindex : index < body.elements.length
  · have hposition : body.window.position index = body.offset + index := rfl
    have hrange : index < body.window.length := hindex
    rw [List.getElem?_range hrange, Option.map_some, hposition,
      getElem?_slots_inside body hindex, List.getElem?_eq_getElem hindex]
    rfl
  · have hrange : (List.range body.window.length).length ≤ index := by
      rw [List.length_range]
      exact Nat.le_of_not_lt hindex
    rw [List.getElem?_eq_none hrange, List.getElem?_eq_none (by omega)]
    rfl

/-! ## Writing into a store -/

theorem setIfInBounds_slots {body : Body}
    (hlength : body.elements.length ≤ body.capacity) {index : Nat}
    (hindex : index < body.capacity) (value : Value) :
    body.slots.setIfInBounds (body.offset + index) value =
      { body with elements := putAt body.elements index value }.slots := by
  have hsize := size_slots hlength
  have hmax := length_putAt body.elements index value
  apply eq_slots
  · rw [hmax]
    exact Nat.max_le.2 ⟨hlength, hindex⟩
  · rw [Array.size_setIfInBounds, hsize]
  · intro other hother
    rw [hmax] at hother
    rw [Array.getElem?_setIfInBounds, getElem?_putAt]
    by_cases heq : other = index
    · subst heq
      rw [if_pos rfl, if_pos (by omega), if_pos rfl]
    · rw [if_neg (by omega), if_neg heq]
      by_cases hshort : other < body.elements.length
      · rw [if_neg (by omega), getElem?_slots_inside body hshort]
      · rw [if_pos (by omega)]
        exact getElem?_slots_outside hlength (by omega) (by omega)
  · intro position hposition houtside
    rw [hmax] at houtside
    rw [Array.getElem?_setIfInBounds, if_neg (by omega)]
    exact getElem?_slots_outside hlength hposition (by omega)

theorem setIfInBounds_slots_last {body : Body}
    (hlength : body.elements.length ≤ body.capacity) (hne : body.elements ≠ []) :
    body.slots.setIfInBounds (body.offset + (body.elements.length - 1)) .undefined =
      { body with elements := body.elements.dropLast }.slots := by
  have hsize := size_slots hlength
  have hpos := List.length_pos_iff.2 hne
  apply eq_slots
  · rw [List.length_dropLast]
    omega
  · rw [Array.size_setIfInBounds, hsize]
  · intro index hindex
    rw [List.length_dropLast] at hindex
    rw [Array.getElem?_setIfInBounds, if_neg (by omega),
      getElem?_slots_inside body (by omega), List.getElem?_dropLast, if_pos hindex]
  · intro position hposition houtside
    rw [List.length_dropLast] at houtside
    rw [Array.getElem?_setIfInBounds]
    split
    · rw [if_pos (by omega)]
    · exact getElem?_slots_outside hlength hposition (by omega)

theorem setIfInBounds_slots_first {body : Body}
    (hlength : body.elements.length ≤ body.capacity) (hne : body.elements ≠ []) :
    body.slots.setIfInBounds body.offset .undefined =
      Body.slots ⟨body.offset + 1, body.capacity - 1, body.elements.tail⟩ := by
  have hsize := size_slots hlength
  have hpos := List.length_pos_iff.2 hne
  apply eq_slots
  · rw [List.length_tail]
    omega
  · rw [Array.size_setIfInBounds, hsize]
    omega
  · intro index hindex
    rw [List.length_tail] at hindex
    have hnext : body.offset + 1 + index = body.offset + (index + 1) := by omega
    rw [Array.getElem?_setIfInBounds, if_neg (by omega), hnext,
      getElem?_slots_inside body (by omega), List.getElem?_tail]
  · intro position hposition houtside
    rw [List.length_tail] at houtside
    rw [Array.getElem?_setIfInBounds]
    split
    · rw [if_pos (by omega)]
    · exact getElem?_slots_outside hlength (by omega) (by omega)

theorem setIfInBounds_slots_before {body : Body}
    (hlength : body.elements.length ≤ body.capacity) (hoffset : 0 < body.offset)
    (value : Value) :
    body.slots.setIfInBounds (body.offset - 1) value =
      Body.slots ⟨body.offset - 1, body.capacity + 1, value :: body.elements⟩ := by
  have hsize := size_slots hlength
  apply eq_slots
  · rw [List.length_cons]
    omega
  · rw [Array.size_setIfInBounds, hsize]
    omega
  · intro index hindex
    rw [List.length_cons] at hindex
    rw [Array.getElem?_setIfInBounds]
    cases index with
    | zero =>
        rw [if_pos (by omega), if_pos (by omega), List.getElem?_cons_zero]
    | succ index =>
        have hnext : body.offset - 1 + (index + 1) = body.offset + index := by omega
        rw [if_neg (by omega), hnext, getElem?_slots_inside body (by omega),
          List.getElem?_cons_succ]
  · intro position hposition houtside
    rw [List.length_cons] at houtside
    rw [Array.getElem?_setIfInBounds, if_neg (by omega)]
    exact getElem?_slots_outside hlength (by omega) (by omega)

theorem extract_slots (body : Body) :
    body.slots.extract body.offset (body.offset + body.elements.length) =
      body.elements.toArray := by
  have hsum : body.offset + body.elements.length - body.offset = body.elements.length := by
    omega
  apply Array.ext_getElem?
  intro index
  rw [Array.getElem?_extract]
  by_cases hindex : index < body.elements.length
  · have hbound : index <
        min (body.offset + body.elements.length) body.slots.size - body.offset := by
      simp only [slots, List.size_toArray, List.length_append, List.length_replicate]
      omega
    rw [if_pos hbound, getElem?_slots_inside body hindex, List.getElem?_toArray]
  · have hbound : ¬index <
        min (body.offset + body.elements.length) body.slots.size - body.offset := by
      omega
    rw [if_neg hbound, List.getElem?_toArray, List.getElem?_eq_none (by omega)]

/-- Fills the window of a body with as many other elements. -/
theorem overwrite_slots {body : Body}
    (hlength : body.elements.length ≤ body.capacity) {values : Array Value}
    (hsize : values.size = body.elements.length) :
    overwrite body.slots body.offset values =
      { body with elements := values.toList }.slots := by
  have hslots := size_slots hlength
  have hfits : body.offset + values.size ≤ body.slots.size := by omega
  apply eq_slots
  · simpa [hsize] using hlength
  · rw [size_overwrite hfits, hslots]
  · intro index hindex
    rw [Array.length_toList] at hindex
    rw [getElem?_overwrite hfits, if_pos (by omega), Array.getElem?_toList]
    congr 1
    omega
  · intro position hposition houtside
    rw [Array.length_toList] at houtside
    rw [getElem?_overwrite hfits, if_neg (by omega)]
    exact getElem?_slots_outside hlength hposition (by omega)

/-- The elements in a store of their own, which was undefined before. -/
theorem overwrite_replicate (offset capacity : Nat) {elements : List Value}
    (hlength : elements.length ≤ capacity) :
    overwrite (Array.replicate (offset + capacity) .undefined) offset elements.toArray =
      Body.slots ⟨offset, capacity, elements⟩ := by
  have hfits : offset + elements.toArray.size ≤
      (Array.replicate (offset + capacity) Value.undefined).size := by
    simp only [List.size_toArray, Array.size_replicate]
    omega
  apply eq_slots hlength
  · rw [size_overwrite hfits, Array.size_replicate]
  · intro index hindex
    rw [getElem?_overwrite hfits, if_pos (by simp; omega), List.getElem?_toArray]
    congr 1
    omega
  · intro position hposition houtside
    rw [getElem?_overwrite hfits, if_neg (by simp; omega), Array.getElem?_replicate,
      if_pos hposition]

/-- Clears the elements from an index on. -/
theorem overwrite_slots_take {body : Body}
    (hlength : body.elements.length ≤ body.capacity) {index : Nat}
    (hindex : index ≤ body.elements.length) :
    overwrite body.slots (body.offset + index)
        (Array.replicate (body.elements.length - index) .undefined) =
      { body with elements := body.elements.take index }.slots := by
  have hslots := size_slots hlength
  have hfits : body.offset + index +
      (Array.replicate (body.elements.length - index) Value.undefined).size ≤
        body.slots.size := by
    rw [Array.size_replicate]
    omega
  apply eq_slots
  · rw [List.length_take]
    omega
  · rw [size_overwrite hfits, hslots]
  · intro other hother
    rw [List.length_take] at hother
    rw [getElem?_overwrite hfits, if_neg (by omega), getElem?_slots_inside body (by omega),
      List.getElem?_take, if_pos (by omega)]
  · intro position hposition houtside
    rw [List.length_take] at houtside
    rw [getElem?_overwrite hfits]
    split
    · rename_i hwritten
      rw [Array.size_replicate] at hwritten
      rw [Array.getElem?_replicate, if_pos (by omega)]
    · rename_i hwritten
      rw [Array.size_replicate] at hwritten
      exact getElem?_slots_outside hlength hposition (by omega)

/-- Growing within the capacity writes nothing. -/
theorem slots_resize {body : Body} (hlength : body.elements.length ≤ body.capacity)
    {length : Nat} (hmore : body.elements.length ≤ length) (hroom : length ≤ body.capacity) :
    { body with elements := resize body.elements length }.slots = body.slots := by
  symm
  apply eq_slots
  · rw [length_resize]
    exact hroom
  · exact size_slots hlength
  · intro index hindex
    rw [length_resize] at hindex
    rw [getElem?_resize, if_pos hindex]
    by_cases hshort : index < body.elements.length
    · rw [getElem?_slots_inside body hshort, List.getElem?_eq_getElem hshort]
      rfl
    · rw [getElem?_slots_outside hlength (by omega) (by omega),
        List.getElem?_eq_none (by omega)]
      rfl
  · intro position hposition houtside
    rw [length_resize] at houtside
    exact getElem?_slots_outside hlength hposition (by omega)

end Body

theorem resize_of_le {elements : List Value} {length : Nat} (hless : length ≤ elements.length) :
    resize elements length = elements.take length := by
  have hnone : length - elements.length = 0 := by omega
  simp [resize, hnone]

/-! ## The body of an array in the heap -/

theorem ArrayRecord.LiesIn.exists_body {record : ArrayRecord} {slots : Array Value}
    (hlies : record.LiesIn slots) :
    ∃ body : Body, body.Fits ∧ record.window = body.window ∧ slots = body.slots := by
  obtain ⟨hlength, hsize, _, hmax, hundefined⟩ := hlies
  obtain ⟨header, ⟨length, capacity, offset⟩, store⟩ := record
  simp only [Window.position, Nat.add_zero] at hlength hsize hundefined
  let elements := (slots.extract offset (offset + length)).toList
  have helements : elements.length = length := by
    simp only [elements, Array.length_toList, Array.size_extract]
    omega
  have hfits : Body.Fits ⟨offset, capacity, elements⟩ := by
    constructor
    · change elements.length ≤ capacity
      omega
    · change offset + capacity ≤ maxCapacity
      omega
  refine ⟨⟨offset, capacity, elements⟩, hfits, ?_, ?_⟩
  · simp [Body.window, helements]
  · apply Body.eq_slots (by omega) hsize.symm
    · intro index hindex
      have hbound : index < min (offset + length) slots.size - offset := by omega
      simp only [elements, Array.getElem?_toList, Array.getElem?_extract]
      rw [if_pos hbound]
    · intro position hposition houtside
      exact hundefined position (by omega) (by omega)

theorem Body.Fits.liesIn {body : Body} (hfits : body.Fits)
    (hpos : 0 < body.offset + body.capacity) {record : ArrayRecord}
    (hwindow : record.window = body.window) : record.LiesIn body.slots := by
  have hsize := Body.size_slots hfits.length_le
  constructor
  · rw [hwindow]
    exact hfits.length_le
  · rw [hwindow, hsize]
    rfl
  · omega
  · rw [hsize]
    exact hfits.size_le
  · intro position hposition houtside
    rw [hwindow] at houtside
    exact Body.getElem?_slots_outside hfits.length_le (by omega) houtside

namespace Heap

/-- An array of the heap with its body. -/
structure Holds (heap : Heap) (array : ArrayHandle) (record : ArrayRecord) (body : Body) :
    Prop where
  get?_eq : heap.arrays.get? array = some record
  window_eq : record.window = body.window
  fits : body.Fits
  eq_empty : record.store = none → body = .empty
  stores_eq : ∀ store, record.store = some store → heap.stores.get? store = some body.slots
  size_pos : record.store ≠ none → 0 < body.offset + body.capacity

variable {heap : Heap} {array : ArrayHandle} {record : ArrayRecord} {body : Body}

theorem Sound.exists_holds (hsound : heap.Sound)
    (hget : heap.arrays.get? array = some record) :
    ∃ body, heap.Holds array record body := by
  have hrepresents := hsound.represents hget
  unfold Represents at hrepresents
  cases hstore : record.store with
  | none =>
      rw [hstore] at hrepresents
      refine ⟨.empty, hget, hrepresents, Body.fits_empty, fun _ => rfl, ?_, ?_⟩
      · simp [hstore]
      · simp [hstore]
  | some store =>
      rw [hstore] at hrepresents
      obtain ⟨slots, hslots, hlies⟩ := hrepresents
      obtain ⟨body, hfits, hwindow, rfl⟩ := hlies.exists_body
      refine ⟨body, hget, hwindow, hfits, by simp [hstore], ?_, ?_⟩
      · intro other hother
        rw [hstore, Option.some.injEq] at hother
        rw [← hother]
        exact hslots
      · intro _
        have hpos := hlies.size_pos
        rw [Body.size_slots hfits.length_le] at hpos
        exact hpos

namespace Holds

variable (hholds : heap.Holds array record body)

include hholds

theorem represents : heap.Represents record := by
  unfold Represents
  cases hstore : record.store with
  | none =>
      have hbody := hholds.eq_empty hstore
      simp only
      rw [hholds.window_eq, hbody]
      rfl
  | some store =>
      have hpos := hholds.size_pos (by simp [hstore])
      exact ⟨body.slots, hholds.stores_eq store hstore,
        hholds.fits.liesIn hpos hholds.window_eq⟩

theorem storeOf_eq : heap.storeOf record = .ok body.slots := by
  unfold storeOf
  cases hstore : record.store with
  | none =>
      rw [hholds.eq_empty hstore]
      rfl
  | some store => exact Arena.deref_eq_ok_iff.2 (hholds.stores_eq store hstore)

theorem deref_eq : heap.arrays.deref array = .ok record :=
  Arena.deref_eq_ok_iff.2 hholds.get?_eq

theorem arrayRecord_eq : heap.arrayRecord array = .ok record := by
  unfold arrayRecord
  rw [hholds.deref_eq]
  cases hstore : record.store with
  | none =>
      simp only [bind, Except.bind, hstore]
      rfl
  | some store =>
      have hslots := Arena.deref_eq_ok_iff.2 (hholds.stores_eq store hstore)
      simp only [bind, Except.bind, hstore, hslots]
      rfl

theorem elements?_eq : heap.elements? array = some body.elements := by
  unfold elements?
  rw [hholds.get?_eq]
  simp only [Option.bind_eq_bind, Option.bind_some, hholds.window_eq]
  cases hstore : record.store with
  | none =>
      rw [hholds.eq_empty hstore]
      rfl
  | some store =>
      simp only [hholds.stores_eq store hstore, Option.bind_some, Body.map_window]

theorem slice_eq : heap.slice array = .ok body.elements.toArray := by
  have hsize := Body.size_slots hholds.fits.length_le
  have hlength := hholds.fits.length_le
  have hlast : body.window.position body.window.length ≤ body.slots.size := by
    simp only [Body.window, Window.position]
    omega
  have hextract :
      body.slots.extract (body.window.position 0) (body.window.position body.window.length) =
        body.elements.toArray := body.extract_slots
  unfold slice
  rw [hholds.deref_eq]
  simp only [bind, Except.bind, hholds.storeOf_eq, hholds.window_eq, if_pos hlast, hextract]

/-- Reading beyond the length finds undefined, in the spare slots and outside. -/
theorem element_eq (index : Int) :
    heap.element array index =
      .ok (if 0 ≤ index then body.elements[index.toNat]?.getD .undefined else .undefined) := by
  have hsize := Body.size_slots hholds.fits.length_le
  have hlength := hholds.fits.length_le
  unfold element
  rw [hholds.deref_eq]
  simp only [bind, Except.bind, hholds.storeOf_eq, hholds.window_eq]
  by_cases hinside : 0 ≤ index ∧ index < body.window.capacity
  · have hroom : index.toNat < body.capacity := by
      have hcapacity : index < body.capacity := hinside.2
      omega
    rw [if_pos hinside, if_pos hinside.1]
    simp only [Body.window, Window.position]
    by_cases hindex : index.toNat < body.elements.length
    · rw [Body.getElem?_slots_inside body hindex, List.getElem?_eq_getElem hindex]
      rfl
    · rw [Body.getElem?_slots_outside hlength (by omega) (.inr (by omega)),
        List.getElem?_eq_none (by omega)]
      rfl
  · rw [if_neg hinside]
    split
    · have hbeyond : body.elements.length ≤ index.toNat := by
        have hcapacity : ¬(0 ≤ index ∧ index < body.capacity) := hinside
        omega
      rw [List.getElem?_eq_none hbeyond]
      rfl
    · rfl

end Holds

end Heap

end ManagedHeap
