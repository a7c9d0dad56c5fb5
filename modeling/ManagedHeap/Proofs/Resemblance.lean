import ManagedHeap.Proofs.ArrayCalls
import ManagedHeap.Proofs.ListModel
import ManagedHeap.Proofs.StoreOwners

/-!
# Heaps that resemble each other

Two heaps resemble each other if they differ in nothing but where the elements of
their arrays lie: how many slots a window has to spare, how far into its store it
begins, and which store that is.  None of this can be read, and new entities get the
same handles in both.
-/

namespace ManagedHeap

/-! ## Arenas with the same slots -/

namespace Arena

variable {kind : Kind} {α : Type}

/-- The same slots are occupied, and the others will be in the same order. -/
structure SameSlots (first second : Arena kind α) : Prop where
  size_eq : second.size = first.size
  free_eq : second.free = first.free
  live_eq : ∀ handle, second.isLive handle = first.isLive handle

theorem sameSlots_refl (arena : Arena kind α) : arena.SameSlots arena :=
  ⟨rfl, rfl, fun _ => rfl⟩

theorem isLive_modify (arena : Arena kind α) (handle other : Handle kind) (change : α → α) :
    (arena.modify handle change).isLive other = arena.isLive other := by
  unfold isLive
  by_cases hother : other = handle
  · rw [hother, get?_modify_self, Option.isSome_map]
  · rw [get?_modify_of_ne _ _ hother]

theorem sameSlots_modify (arena : Arena kind α) (handle : Handle kind) (change : α → α) :
    arena.SameSlots (arena.modify handle change) where
  size_eq := size_modify arena handle change
  free_eq := rfl
  live_eq other := isLive_modify arena handle other change

namespace SameSlots

variable {first second third : Arena kind α} (hsame : first.SameSlots second)

include hsame

theorem symm : second.SameSlots first :=
  ⟨hsame.size_eq.symm, hsame.free_eq.symm, fun handle => (hsame.live_eq handle).symm⟩

theorem trans (hother : second.SameSlots third) : first.SameSlots third where
  size_eq := hother.size_eq.trans hsame.size_eq
  free_eq := hother.free_eq.trans hsame.free_eq
  live_eq handle := (hother.live_eq handle).trans (hsame.live_eq handle)

theorem get?_eq_none_iff (handle : Handle kind) :
    second.get? handle = none ↔ first.get? handle = none := by
  have hlive := hsame.live_eq handle
  unfold isLive at hlive
  rw [← Option.not_isSome_iff_eq_none, ← Option.not_isSome_iff_eq_none, hlive]

theorem slots_eq_some_none_iff (handle : Handle kind) :
    second.slots[handle.slot]? = some none ↔ first.slots[handle.slot]? = some none := by
  rw [Arena.slots_eq_some_none_iff, Arena.slots_eq_some_none_iff, hsame.size_eq,
    hsame.get?_eq_none_iff]

theorem wellFormed (hfirst : first.WellFormed) : second.WellFormed where
  mem_free_iff slot := by
    rw [hsame.free_eq, hfirst.mem_free_iff]
    exact (hsame.slots_eq_some_none_iff ⟨slot⟩).symm
  nodup_free := hsame.free_eq ▸ hfirst.nodup_free

theorem deref_eq_error {handle : Handle kind} {cause : Fault}
    (hderef : first.deref handle = .error cause) : second.deref handle = .error cause := by
  rw [deref_eq_error_iff] at hderef ⊢
  rwa [hsame.size_eq, hsame.slots_eq_some_none_iff]

theorem push_fst (entity other : α) : (second.push other).1 = (first.push entity).1 := by
  unfold push
  rw [hsame.free_eq]
  cases first.free with
  | nil => exact congrArg Handle.mk hsame.size_eq
  | cons slot rest => rfl

theorem push (hfirst : first.WellFormed) (hsecond : second.WellFormed) (entity other : α) :
    (first.push entity).2.SameSlots (second.push other).2 where
  size_eq := by
    have hsize : second.slots.size = first.slots.size := hsame.size_eq
    unfold Arena.push
    rw [hsame.free_eq]
    cases first.free with
    | nil => simp [size, hsize]
    | cons slot rest => simp [size, hsize]
  free_eq := by
    unfold Arena.push
    rw [hsame.free_eq]
    cases first.free <;> rfl
  live_eq := by
    intro handle
    have hnew := hsame.push_fst entity other
    unfold isLive
    by_cases hhandle : handle = (first.push entity).1
    · have hself : (second.push other).2.get? handle = some other := by
        rw [hhandle, ← hnew]
        exact get?_push_self hsecond other
      rw [hself, hhandle, get?_push_self hfirst entity]
      rfl
    · have hne : handle ≠ (second.push other).1 := fun heq => hhandle (heq.trans hnew)
      rw [get?_push_of_ne hne, get?_push_of_ne hhandle]
      exact hsame.live_eq handle

theorem release (handle : Handle kind) :
    (first.release handle).2.SameSlots (second.release handle).2 where
  size_eq := by
    rw [size_release, size_release]
    exact hsame.size_eq
  free_eq := by
    have hnone := hsame.get?_eq_none_iff handle
    unfold Arena.release
    cases hget : first.get? handle with
    | none =>
        rw [hnone.2 hget]
        exact hsame.free_eq
    | some entity =>
        cases hother : second.get? handle with
        | none =>
            rw [hnone.1 hother] at hget
            contradiction
        | some other => exact congrArg (List.cons handle.slot) hsame.free_eq
  live_eq := by
    intro other
    unfold isLive
    by_cases hother : other = handle
    · rw [hother, get?_release_self, get?_release_self]
    · rw [get?_release_of_ne _ hother, get?_release_of_ne _ hother]
      exact hsame.live_eq other

theorem releaseAll (garbage : List (Handle kind)) :
    (first.releaseAll garbage).SameSlots (second.releaseAll garbage) := by
  induction garbage generalizing first second with
  | nil => exact hsame
  | cons handle rest ih => exact ih (hsame.release handle)

theorem handles_eq : second.handles = first.handles := by
  unfold handles
  rw [hsame.size_eq]
  exact List.filter_congr fun handle _ => hsame.live_eq handle

theorem liveCount_eq : second.liveCount = first.liveCount := by
  unfold liveCount
  rw [hsame.size_eq, hsame.free_eq]

/-- If the same entities are kept of both, then those that are not marked are the same. -/
theorem unmarked_eq {marks others : Array Bool} {kept : Handle kind → Prop}
    (hfirst : first.Retains (first.releaseAll (first.unmarked marks)) kept)
    (hsecond : second.Retains (second.releaseAll (second.unmarked others)) kept) :
    second.unmarked others = first.unmarked marks := by
  rw [← filter_releaseAll second, ← filter_releaseAll first, hsame.handles_eq]
  apply List.filter_congr
  intro handle _
  have hlive : (second.releaseAll (second.unmarked others)).isLive handle =
      (first.releaseAll (first.unmarked marks)).isLive handle := by
    rw [Bool.eq_iff_iff, hfirst.isLive_iff, hsecond.isLive_iff, hsame.live_eq]
  rw [hlive]

end SameSlots

/-- Equal arenas of which the same entities are kept are still equal. -/
theorem releaseAll_unmarked_congr {first second : Arena kind α} (heq : second = first)
    {marks others : Array Bool} {kept : Handle kind → Prop}
    (hfirst : first.Retains (first.releaseAll (first.unmarked marks)) kept)
    (hsecond : second.Retains (second.releaseAll (second.unmarked others)) kept) :
    second.releaseAll (second.unmarked others) = first.releaseAll (first.unmarked marks) := by
  subst heq
  rw [(sameSlots_refl second).unmarked_eq hfirst hsecond]

end Arena

/-! ## What an array shows -/

/-- What an array shows, wherever its elements lie. -/
structure ArrayView where
  header : Header
  hasStore : Bool
  elements : List Value

namespace Heap

def view? (heap : Heap) (array : ArrayHandle) : Option ArrayView := do
  let record ← heap.arrays.get? array
  let elements ← heap.elements? array
  some ⟨record.header, record.store.isSome, elements⟩

variable {heap before after : Heap} {array : ArrayHandle} {record : ArrayRecord} {body : Body}

theorem Holds.view?_eq (hholds : heap.Holds array record body) :
    heap.view? array = some ⟨record.header, record.store.isSome, body.elements⟩ := by
  unfold view?
  rw [hholds.get?_eq, hholds.elements?_eq]
  rfl

theorem view?_eq_none (hget : heap.arrays.get? array = none) : heap.view? array = none := by
  unfold view?
  rw [hget]
  rfl

theorem Sound.exists_holds_of_view? (hsound : heap.Sound) {view : ArrayView}
    (hview : heap.view? array = some view) :
    ∃ record body, heap.Holds array record body ∧
      view = ⟨record.header, record.store.isSome, body.elements⟩ := by
  cases hget : heap.arrays.get? array with
  | none =>
      rw [view?_eq_none hget] at hview
      contradiction
  | some record =>
      obtain ⟨body, hholds⟩ := hsound.exists_holds hget
      rw [hholds.view?_eq, Option.some.injEq] at hview
      exact ⟨record, body, hholds, hview.symm⟩

/-- An array has a store just if its window has any slots to either side. -/
theorem Holds.isSome_store (hholds : heap.Holds array record body) :
    record.store.isSome = decide (0 < body.offset + body.capacity) := by
  cases hstore : record.store with
  | none =>
      rw [hholds.eq_empty hstore]
      rfl
  | some store =>
      have hpos := hholds.size_pos (by simp [hstore])
      simp [hpos]

theorem view?_congr (harrays : after.arrays.get? array = before.arrays.get? array)
    (hstores : after.stores = before.stores) : after.view? array = before.view? array := by
  unfold view? elements?
  rw [harrays, hstores]

theorem Rebuilds.view?_eq (hsound : before.Sound)
    (hrebuilds : before.Rebuilds after array record body) (other : ArrayHandle) :
    after.view? other =
      if other = array then
        some ⟨record.header, decide (0 < body.offset + body.capacity), body.elements⟩
      else before.view? other := by
  split
  · rename_i hother
    obtain ⟨store, hholds⟩ := hrebuilds.holds
    rw [hother, hholds.view?_eq, hholds.isSome_store]
  · rename_i hother
    have hget := hrebuilds.others_eq other hother
    cases hbefore : before.arrays.get? other with
    | none =>
        rw [hbefore] at hget
        rw [view?_eq_none hget, view?_eq_none hbefore]
    | some otherRecord =>
        obtain ⟨otherBody, hbody⟩ := hsound.exists_holds hbefore
        have hafter := hrebuilds.others_hold other hother otherRecord otherBody hbody
        rw [hafter.view?_eq, hbody.view?_eq]

theorem view?_withArray (hsound : heap.Sound) (tag : UInt32) (other : ArrayHandle) :
    (heap.withArray (.ofTag tag)).view? other =
      if other = heap.nextArray (.ofTag tag) then
        some ⟨(ArrayRecord.ofTag tag).header, false, []⟩
      else heap.view? other := by
  split
  · rename_i hother
    rw [hother, (holds_withArray_self hsound tag).view?_eq]
    rfl
  · rename_i hother
    exact view?_congr (get?_withArray_of_ne hother) rfl

theorem view?_changeHeader (heap : Heap) (array : ArrayHandle) (change : Header → Header)
    (other : ArrayHandle) :
    (heap.changeHeader (.array array) change).view? other =
      if other = array then
        (heap.view? other).map fun view => { view with header := change view.header }
      else heap.view? other := by
  have helements : (heap.changeHeader (.array array) change).elements? other =
      heap.elements? other := (samePlacement_changeHeader heap (.array array) change).elements?_eq
  unfold view?
  rw [helements]
  by_cases hother : other = array
  · have hget : (heap.changeHeader (.array array) change).arrays.get? other =
        (heap.arrays.get? other).map fun record =>
          { record with header := change record.header } := by
      rw [hother]
      exact Arena.get?_modify_self heap.arrays array _
    rw [if_pos hother, hget]
    cases heap.arrays.get? other with
    | none => rfl
    | some record => cases heap.elements? other <;> rfl
  · have hget : (heap.changeHeader (.array array) change).arrays.get? other =
        heap.arrays.get? other := Arena.get?_modify_of_ne heap.arrays _ hother
    rw [if_neg hother, hget]

/-- A collection keeps the view of an array that it reaches, and of no other. -/
theorem Collects.view?_kept {roots : List Value} (hcollects : before.Collects after roots)
    (hreaches : before.Reaches roots array.entity) : after.view? array = before.view? array := by
  have hget := hcollects.arrays.get?_kept array hreaches
  have helements : after.elements? array = before.elements? array := by
    rcases hcollects.elements?_eq array with hsame | ⟨hlost, _⟩
    · exact hsame
    · exact absurd hreaches hlost
  unfold view?
  rw [hget, helements]

/-! ## Resemblance -/

/-- The heaps are the same but for where the elements of arrays lie. -/
structure Resembles (first second : Heap) : Prop where
  sound : first.Sound
  sound_other : second.Sound
  slots : first.arrays.SameSlots second.arrays
  views : ∀ array, second.view? array = first.view? array
  objects_eq : second.objects = first.objects
  closures_eq : second.closures = first.closures
  numbers_eq : second.numbers = first.numbers
  strings_eq : second.strings = first.strings

theorem Sound.resembles_self (hsound : heap.Sound) : heap.Resembles heap :=
  ⟨hsound, hsound, heap.arrays.sameSlots_refl, fun _ => rfl, rfl, rfl, rfl, rfl⟩

/-- An array of both heaps, with the same header and the same elements. -/
structure Shares (first second : Heap) (array : ArrayHandle) (record other : ArrayRecord)
    (body otherBody : Body) : Prop where
  holds : first.Holds array record body
  holds_other : second.Holds array other otherBody
  header_eq : other.header = record.header
  size_pos_iff : 0 < otherBody.offset + otherBody.capacity ↔ 0 < body.offset + body.capacity
  elements_eq : otherBody.elements = body.elements

theorem Shares.length_eq {first second : Heap} {record other : ArrayRecord}
    {body otherBody : Body} (hshares : first.Shares second array record other body otherBody) :
    other.window.length = record.window.length := by
  rw [hshares.holds.window_eq, hshares.holds_other.window_eq]
  exact congrArg List.length hshares.elements_eq

namespace Resembles

variable {first second : Heap} (hlike : first.Resembles second)

include hlike

theorem symm : second.Resembles first :=
  ⟨hlike.sound_other, hlike.sound, hlike.slots.symm, fun array => (hlike.views array).symm,
    hlike.objects_eq.symm, hlike.closures_eq.symm, hlike.numbers_eq.symm, hlike.strings_eq.symm⟩

theorem shares (hholds : first.Holds array record body) :
    ∃ other otherBody, first.Shares second array record other body otherBody := by
  have hview := hlike.views array
  rw [hholds.view?_eq] at hview
  obtain ⟨other, otherBody, hother, heq⟩ := hlike.sound_other.exists_holds_of_view? hview
  simp only [ArrayView.mk.injEq, hholds.isSome_store, hother.isSome_store,
    decide_eq_decide] at heq
  exact ⟨other, otherBody, hholds, hother, heq.1.symm, heq.2.1.symm, heq.2.2.symm⟩

theorem gone_or_shares (array : ArrayHandle) :
    (∃ cause, first.arrays.deref array = .error cause ∧
      second.arrays.deref array = .error cause) ∨
    ∃ record other body otherBody, first.Shares second array record other body otherBody := by
  cases hderef : first.arrays.deref array with
  | error cause => exact .inl ⟨cause, rfl, hlike.slots.deref_eq_error hderef⟩
  | ok record =>
      obtain ⟨body, hholds⟩ := hlike.sound.exists_holds (Arena.deref_eq_ok_iff.1 hderef)
      obtain ⟨other, otherBody, hshares⟩ := hlike.shares hholds
      exact .inr ⟨record, other, body, otherBody, hshares⟩

/-! ## Reading -/

theorem header_eq (object : Object) : second.header object = first.header object := by
  cases object with
  | ordinary handle =>
      unfold header
      rw [hlike.objects_eq]
  | array array =>
      simp only [header]
      rcases hlike.gone_or_shares array with ⟨cause, hfirst, hsecond⟩ |
        ⟨record, other, body, otherBody, hshares⟩
      · rw [hfirst, hsecond]
      · rw [hshares.holds.deref_eq, hshares.holds_other.deref_eq]
        exact congrArg Except.ok hshares.header_eq

theorem objectMap_eq (object : Object) : second.objectMap object = first.objectMap object := by
  cases object with
  | ordinary handle =>
      unfold objectMap
      rw [hlike.objects_eq]
  | array array =>
      simp only [objectMap]
      rcases hlike.gone_or_shares array with ⟨cause, hfirst, hsecond⟩ |
        ⟨record, other, body, otherBody, hshares⟩
      · rw [hfirst, hsecond]
      · rw [hshares.holds.deref_eq, hshares.holds_other.deref_eq]
        rfl

theorem field_eq (object : Object) (slot : Nat) :
    second.field object slot = first.field object slot := by
  cases object with
  | ordinary handle =>
      unfold field
      rw [hlike.objects_eq]
  | array array =>
      simp only [field]
      rcases hlike.gone_or_shares array with ⟨cause, hfirst, hsecond⟩ |
        ⟨record, other, body, otherBody, hshares⟩
      · rw [hfirst, hsecond]
      · rw [hshares.holds.deref_eq, hshares.holds_other.deref_eq]
        change Except.ok (arrayField other slot) = Except.ok (arrayField record slot)
        unfold arrayField
        rw [hshares.length_eq]

theorem lengthOf_eq (array : ArrayHandle) : second.lengthOf array = first.lengthOf array := by
  unfold lengthOf
  cases hget : first.arrays.get? array with
  | none => rw [(hlike.slots.get?_eq_none_iff array).2 hget]
  | some record =>
      obtain ⟨body, hholds⟩ := hlike.sound.exists_holds hget
      obtain ⟨other, otherBody, hshares⟩ := hlike.shares hholds
      rw [hshares.holds_other.get?_eq]
      exact hshares.length_eq

theorem slice_eq (array : ArrayHandle) : second.slice array = first.slice array := by
  rcases hlike.gone_or_shares array with ⟨cause, hfirst, hsecond⟩ |
    ⟨record, other, body, otherBody, hshares⟩
  · unfold slice
    rw [hfirst, hsecond]
    rfl
  · rw [hshares.holds.slice_eq, hshares.holds_other.slice_eq, hshares.elements_eq]

theorem element_eq (array : ArrayHandle) (index : Int) :
    second.element array index = first.element array index := by
  rcases hlike.gone_or_shares array with ⟨cause, hfirst, hsecond⟩ |
    ⟨record, other, body, otherBody, hshares⟩
  · unfold element
    rw [hfirst, hsecond]
    rfl
  · rw [hshares.holds.element_eq, hshares.holds_other.element_eq, hshares.elements_eq]

theorem follow_eq (steps : Nat) (start : Option Object) :
    second.follow steps start = first.follow steps start := by
  induction steps generalizing start with
  | zero => cases start <;> rfl
  | succ steps ih =>
      cases start with
      | none => rfl
      | some object =>
          unfold follow
          rw [hlike.header_eq object]
          cases first.header object with
          | error cause => rfl
          | ok header => simp only [ih]

theorem chainFrom_eq (start : Option Object) :
    second.chainFrom start = first.chainFrom start := by
  unfold chainFrom
  rw [hlike.objects_eq, hlike.slots.size_eq, hlike.follow_eq]

theorem own?_eq (object : Object) (key : String) :
    second.own? object key = first.own? object key := by
  unfold own?
  rw [hlike.objectMap_eq, hlike.header_eq]
  simp only [hlike.field_eq]

theorem property_eq (object : Object) (key : String) :
    second.property object key = first.property object key := by
  unfold property
  simp only [hlike.chainFrom_eq, hlike.own?_eq]

theorem toBinary64?_eq (value : Value) : second.toBinary64? value = first.toBinary64? value := by
  unfold toBinary64?
  rw [hlike.numbers_eq]

theorem isLive_eq {entity : Entity} (hkind : entity.kind ≠ .store) :
    second.isLive entity = first.isLive entity := by
  obtain ⟨kind, slot⟩ := entity
  unfold isLive
  cases kind with
  | array => exact hlike.slots.live_eq ⟨slot⟩
  | object => simp only [hlike.objects_eq]
  | closure => simp only [hlike.closures_eq]
  | number => simp only [hlike.numbers_eq]
  | string => simp only [hlike.strings_eq]
  | store => exact absurd rfl hkind

/-- The arrays that have stores are the same, and so there are as many stores. -/
theorem owners_eq : second.owners = first.owners := by
  unfold owners
  rw [hlike.slots.handles_eq]
  apply List.filter_congr
  intro array _
  unfold ownStore?
  cases hget : first.arrays.get? array with
  | none =>
      rw [(hlike.slots.get?_eq_none_iff array).2 hget]
  | some record =>
      obtain ⟨body, hholds⟩ := hlike.sound.exists_holds hget
      obtain ⟨other, otherBody, hshares⟩ := hlike.shares hholds
      rw [hshares.holds_other.get?_eq, Option.bind_some, Option.bind_some, hholds.isSome_store,
        hshares.holds_other.isSome_store]
      exact decide_eq_decide.2 hshares.size_pos_iff

theorem liveCounts_eq : second.liveCounts = first.liveCounts := by
  have hstores : second.liveCounts.store = first.liveCounts.store := by
    rw [hlike.sound_other.liveCounts_store, hlike.sound.liveCounts_store, hlike.owners_eq]
  unfold liveCounts at hstores ⊢
  simp only at hstores
  rw [hstores, hlike.slots.liveCount_eq, hlike.objects_eq, hlike.closures_eq,
    hlike.numbers_eq, hlike.strings_eq]

/-! ## Changing both heaps -/

/-- Neither the arrays nor their stores have changed, and the rest is still the same. -/
theorem of_same_arrays {left right : Heap} (hleft : left.ArenasWellFormed)
    (hright : right.ArenasWellFormed) (harrays : left.arrays = first.arrays)
    (hstores : left.stores = first.stores) (harraysOther : right.arrays = second.arrays)
    (hstoresOther : right.stores = second.stores) (hobjects : right.objects = left.objects)
    (hclosures : right.closures = left.closures) (hnumbers : right.numbers = left.numbers)
    (hstrings : right.strings = left.strings) : left.Resembles right where
  sound := (SamePlacement.of_eq harrays hstores).sound hlike.sound hleft
  sound_other := (SamePlacement.of_eq harraysOther hstoresOther).sound hlike.sound_other hright
  slots := by
    rw [harrays, harraysOther]
    exact hlike.slots
  views := by
    intro array
    rw [view?_congr (congrArg (Arena.get? · array) harraysOther) hstoresOther,
      view?_congr (congrArg (Arena.get? · array) harrays) hstores]
    exact hlike.views array
  objects_eq := hobjects
  closures_eq := hclosures
  numbers_eq := hnumbers
  strings_eq := hstrings

theorem changeHeader (object : Object) (change : Header → Header) :
    (first.changeHeader object change).Resembles (second.changeHeader object change) := by
  have hfirst := hlike.sound.arenas.changeHeader object change
  have hsecond := hlike.sound_other.arenas.changeHeader object change
  cases object with
  | ordinary handle =>
      apply hlike.of_same_arrays hfirst hsecond rfl rfl rfl rfl _ hlike.closures_eq
        hlike.numbers_eq hlike.strings_eq
      exact congrArg (Arena.modify · handle _) hlike.objects_eq
  | array array =>
      refine ⟨hlike.sound.changeHeader _ change, hlike.sound_other.changeHeader _ change, ?_, ?_,
        hlike.objects_eq, hlike.closures_eq, hlike.numbers_eq, hlike.strings_eq⟩
      · exact (Arena.sameSlots_modify first.arrays array _).symm.trans
          (hlike.slots.trans (Arena.sameSlots_modify second.arrays array _))
      · intro other
        rw [view?_changeHeader, view?_changeHeader, hlike.views other]

theorem nextArray_eq (record : ArrayRecord) : second.nextArray record = first.nextArray record :=
  hlike.slots.push_fst record record

theorem withArray (tag : UInt32) :
    (first.withArray (.ofTag tag)).Resembles (second.withArray (.ofTag tag)) where
  sound := sound_withArray hlike.sound tag
  sound_other := sound_withArray hlike.sound_other tag
  slots := hlike.slots.push hlike.sound.arenas.arrays hlike.sound_other.arenas.arrays _ _
  views := by
    intro other
    rw [view?_withArray hlike.sound, view?_withArray hlike.sound_other, hlike.views other,
      hlike.nextArray_eq]
  objects_eq := hlike.objects_eq
  closures_eq := hlike.closures_eq
  numbers_eq := hlike.numbers_eq
  strings_eq := hlike.strings_eq

/-- The array gets bodies with the same elements. -/
theorem rebuilds {left right : Heap} {record other : ArrayRecord} {body otherBody : Body}
    (hleft : first.Rebuilds left array record body)
    (hright : second.Rebuilds right array other otherBody)
    (hslots : first.arrays.SameSlots left.arrays)
    (hslotsOther : second.arrays.SameSlots right.arrays) (hheader : other.header = record.header)
    (hsize : 0 < otherBody.offset + otherBody.capacity ↔ 0 < body.offset + body.capacity)
    (helements : otherBody.elements = body.elements) : left.Resembles right where
  sound := hleft.sound
  sound_other := hright.sound
  slots := hslots.symm.trans (hlike.slots.trans hslotsOther)
  views := by
    intro handle
    rw [hleft.view?_eq hlike.sound, hright.view?_eq hlike.sound_other, hlike.views handle,
      hheader, helements, decide_eq_decide.2 hsize]
  objects_eq := by rw [hleft.objects_eq, hright.objects_eq, hlike.objects_eq]
  closures_eq := by rw [hleft.closures_eq, hright.closures_eq, hlike.closures_eq]
  numbers_eq := by rw [hleft.numbers_eq, hright.numbers_eq, hlike.numbers_eq]
  strings_eq := by rw [hleft.strings_eq, hright.strings_eq, hlike.strings_eq]

/-! ## Collecting from both heaps -/

theorem refers {source target : Entity} (hrefers : first.Refers source target)
    (hkind : target.kind ≠ .store) : second.Refers source target := by
  have hshares : ∀ {array record}, first.arrays.get? array = some record →
      ∃ other body otherBody, first.Shares second array record other body otherBody := by
    intro array record hget
    obtain ⟨body, hholds⟩ := hlike.sound.exists_holds hget
    obtain ⟨other, otherBody, hboth⟩ := hlike.shares hholds
    exact ⟨other, body, otherBody, hboth⟩
  cases hrefers with
  | arrayHeader hrecord hvalue htarget =>
      obtain ⟨other, _, _, hboth⟩ := hshares hrecord
      rw [← hboth.header_eq] at hvalue
      exact .arrayHeader hboth.holds_other.get?_eq hvalue htarget
  | arrayStore _ _ => exact absurd rfl hkind
  | arrayElement hrecord hstore hslots hindex hvalue htarget =>
      obtain ⟨_, _, _, hboth⟩ := hshares hrecord
      have hmem := hboth.holds.mem_elements hstore hslots hindex hvalue
      rw [← hboth.elements_eq] at hmem
      exact hboth.holds_other.refers hmem htarget
  | objectHeader hrecord hvalue htarget =>
      rw [← hlike.objects_eq] at hrecord
      exact .objectHeader hrecord hvalue htarget
  | objectField hrecord hvalue htarget =>
      rw [← hlike.objects_eq] at hrecord
      exact .objectField hrecord hvalue htarget
  | closureEnv hrecord htarget =>
      rw [← hlike.closures_eq] at hrecord
      exact .closureEnv hrecord htarget

/-- No path to an entity leads through a store, unless the entity is one. -/
theorem reaches {roots : List Value} {entity : Entity} (hreaches : first.Reaches roots entity)
    (hkind : entity.kind ≠ .store) : second.Reaches roots entity := by
  induction hreaches with
  | root hvalue htarget => exact .root hvalue htarget
  | step _ hrefers ih =>
      -- stores refer to nothing, so the kind of every entity on the way is as required
      exact .step (ih hrefers.kind_ne_store) (hlike.refers hrefers hkind)

theorem reaches_eq {kind : Kind} (hkind : kind ≠ .store) (roots : List Value) :
    (fun handle : Handle kind => second.Reaches roots handle.entity) =
      fun handle => first.Reaches roots handle.entity := by
  funext handle
  exact propext ⟨fun hreaches => hlike.symm.reaches hreaches hkind,
    fun hreaches => hlike.reaches hreaches hkind⟩

theorem sizes_eq {kind : Kind} (hkind : kind ≠ .store) :
    second.sizes.get kind = first.sizes.get kind := by
  cases kind with
  | array => exact hlike.slots.size_eq
  | object => exact congrArg Arena.size hlike.objects_eq
  | closure => exact congrArg Arena.size hlike.closures_eq
  | number => exact congrArg Arena.size hlike.numbers_eq
  | string => exact congrArg Arena.size hlike.strings_eq
  | store => exact absurd rfl hkind

theorem meetsFreed {roots : List Value} (hfreed : first.MeetsFreed roots) :
    second.MeetsFreed roots := by
  obtain ⟨entity, hreaches, hkinds, hinside, hdead⟩ := hfreed
  have hkind : entity.kind ≠ .store := by
    rcases hkinds with heq | heq | heq <;> rw [heq] <;> decide
  refine ⟨entity, hlike.reaches hreaches hkind, hkinds, ?_, ?_⟩
  · rw [hlike.sizes_eq hkind]
    exact hinside
  · rw [hlike.isLive_eq hkind]
    exact hdead

theorem meetsFreed_iff (roots : List Value) :
    second.MeetsFreed roots ↔ first.MeetsFreed roots :=
  ⟨hlike.symm.meetsFreed, hlike.meetsFreed⟩

/-- Collections with the same roots keep the same entities. -/
theorem swept {roots : List Value} {marks others : ByKind (Array Bool)}
    (hfirst : first.Collects (first.swept marks) roots)
    (hsecond : second.Collects (second.swept others) roots) :
    (first.swept marks).Resembles (second.swept others) := by
  have hsame : ∀ {kind : Kind}, kind ≠ .store →
      (fun handle : Handle kind => second.Reaches roots handle.entity) =
        fun handle => first.Reaches roots handle.entity := fun hkind => hlike.reaches_eq hkind roots
  have harrays := hsecond.arrays
  have hobjects := hsecond.objects
  have hclosures := hsecond.closures
  have hnumbers := hsecond.numbers
  have hstrings := hsecond.strings
  rw [hsame (by decide)] at harrays hobjects hclosures hnumbers hstrings
  refine ⟨hfirst.sound hlike.sound, hsecond.sound hlike.sound_other, ?_, ?_,
    Arena.releaseAll_unmarked_congr hlike.objects_eq hfirst.objects hobjects,
    Arena.releaseAll_unmarked_congr hlike.closures_eq hfirst.closures hclosures,
    Arena.releaseAll_unmarked_congr hlike.numbers_eq hfirst.numbers hnumbers,
    Arena.releaseAll_unmarked_congr hlike.strings_eq hfirst.strings hstrings⟩
  · change (first.arrays.releaseAll (first.arrays.unmarked marks.array)).SameSlots
      (second.arrays.releaseAll (second.arrays.unmarked others.array))
    rw [hlike.slots.unmarked_eq hfirst.arrays harrays]
    exact hlike.slots.releaseAll _
  · intro array
    by_cases hreaches : first.Reaches roots array.entity
    · have hother : second.Reaches roots array.entity :=
        hlike.reaches hreaches (show Kind.array ≠ .store by decide)
      rw [hfirst.view?_kept hreaches, hsecond.view?_kept hother, hlike.views array]
    · rw [view?_eq_none (hfirst.arrays.get?_dropped array hreaches),
        view?_eq_none (harrays.get?_dropped array hreaches)]

end Resembles

end Heap

end ManagedHeap
