import ManagedHeap.Proofs.Body

/-!
# Placing the body of an array

An operation on an array gives it another body, either within its store or in a
new one.  Both leave the heap sound and every other entity as it was.  A new
store was not in use before, and the old one belonged to no other array, so
nothing that another array shows can change.
-/

namespace ManagedHeap

namespace Heap

/-- The heap after the window of an array was set. -/
def withWindow (heap : Heap) (array : ArrayHandle) (window : Window) : Heap :=
  { heap with
    arrays := heap.arrays.modify array fun record => { record with window := window } }

/-- The heap after the store of an array was filled anew. -/
def fill (heap : Heap) (record : ArrayRecord) (slots : Array Value) : Heap :=
  { heap with
    stores :=
      match record.store with
      | none => heap.stores
      | some store => heap.stores.modify store fun _ => slots }

/-- The heap after an array got another body within its store. -/
def reshape (heap : Heap) (array : ArrayHandle) (record : ArrayRecord) (body : Body) : Heap :=
  (heap.withWindow array body.window).fill record body.slots

/-- The heap after an array moved into a new store, which is allocated before
the old one is released. -/
def relocate (heap : Heap) (array : ArrayHandle) (record : ArrayRecord) (body : Body) : Heap :=
  { heap with
    arrays := heap.arrays.modify array fun record =>
      { record with
        window := body.window
        store := some (heap.stores.push body.slots).1 }
    stores :=
      match record.store with
      | none => (heap.stores.push body.slots).2
      | some old => ((heap.stores.push body.slots).2.release old).2 }

/-- One array has a body now, under the header that it had before, and all other
entities are as they were. -/
structure Rebuilds (before after : Heap) (array : ArrayHandle) (record : ArrayRecord)
    (body : Body) : Prop where
  sound : after.Sound
  objects_eq : after.objects = before.objects
  closures_eq : after.closures = before.closures
  numbers_eq : after.numbers = before.numbers
  strings_eq : after.strings = before.strings
  holds : ∃ store, after.Holds array { record with window := body.window, store := store } body
  others_eq : ∀ other ≠ array, after.arrays.get? other = before.arrays.get? other
  others_hold : ∀ other ≠ array, ∀ otherRecord otherBody,
    before.Holds other otherRecord otherBody → after.Holds other otherRecord otherBody

variable {heap : Heap} {array : ArrayHandle} {record : ArrayRecord} {body next : Body}

theorem Sound.store_ne (hsound : heap.Sound) {other : ArrayHandle} {otherRecord : ArrayRecord}
    {store otherStore : StoreHandle} (hne : other ≠ array)
    (hget : heap.arrays.get? array = some record) (hstore : record.store = some store)
    (hother : heap.arrays.get? other = some otherRecord)
    (hotherStore : otherRecord.store = some otherStore) : otherStore ≠ store := by
  intro heq
  subst heq
  exact hne (hsound.ownership.owner_unique
    ⟨otherRecord, hother, hotherStore⟩ ⟨record, hget, hstore⟩)

/-- A heap is sound if every array of it has a body and its stores are owned. -/
theorem Sound.of_holds (harenas : heap.ArenasWellFormed) (hownership : heap.Ownership)
    (hholds : ∀ array record, heap.arrays.get? array = some record →
      ∃ body, heap.Holds array record body) : heap.Sound where
  arenas := harenas
  represents := by
    intro array record hget
    obtain ⟨body, hbody⟩ := hholds array record hget
    exact hbody.represents
  ownership := hownership

theorem rebuilds_refl (hsound : heap.Sound) (hholds : heap.Holds array record body) :
    heap.Rebuilds heap array record body := by
  have hsame : { record with window := body.window, store := record.store } = record := by
    rw [← hholds.window_eq]
  refine ⟨hsound, rfl, rfl, rfl, rfl, ⟨record.store, ?_⟩, fun _ _ => rfl,
    fun _ _ _ _ hother => hother⟩
  rw [hsame]
  exact hholds

/-! ## Within the store -/

theorem get?_reshape_self (hholds : heap.Holds array record body) :
    (heap.reshape array record next).arrays.get? array =
      some { record with window := next.window } := by
  change (heap.arrays.modify array _).get? array = _
  rw [Arena.get?_modify_self, hholds.get?_eq]
  rfl

theorem get?_reshape_of_ne {other : ArrayHandle} (hne : other ≠ array) :
    (heap.reshape array record next).arrays.get? other = heap.arrays.get? other :=
  Arena.get?_modify_of_ne heap.arrays _ hne

theorem owns_reshape_iff (hholds : heap.Holds array record body) {other : ArrayHandle}
    {store : StoreHandle} :
    (heap.reshape array record next).Owns other store ↔ heap.Owns other store := by
  unfold Owns
  by_cases hother : other = array
  · subst hother
    rw [get?_reshape_self hholds, hholds.get?_eq]
    simp
  · rw [get?_reshape_of_ne hother]

theorem get?_stores_reshape_of_ne {store : StoreHandle} (hstore : record.store ≠ some store) :
    (heap.reshape array record next).stores.get? store = heap.stores.get? store := by
  simp only [reshape, fill, withWindow]
  split
  · rfl
  · rename_i own hown
    apply Arena.get?_modify_of_ne
    intro heq
    exact hstore (by rw [hown, heq])

theorem get?_stores_reshape_self (hholds : heap.Holds array record body) {store : StoreHandle}
    (hstore : record.store = some store) :
    (heap.reshape array record next).stores.get? store = some next.slots := by
  simp only [reshape, fill, withWindow, hstore]
  rw [Arena.get?_modify_self, hholds.stores_eq store hstore]
  rfl

theorem isLive_reshape_iff (hholds : heap.Holds array record body) {store : StoreHandle} :
    (heap.reshape array record next).stores.isLive store = true ↔
      heap.stores.isLive store = true := by
  by_cases hstore : record.store = some store
  · have hbefore := hholds.stores_eq store hstore
    have hafter : (heap.reshape array record next).stores.get? store = some next.slots :=
      get?_stores_reshape_self hholds hstore
    simp [Arena.isLive, hbefore, hafter]
  · rw [Arena.isLive, Arena.isLive, get?_stores_reshape_of_ne hstore]

theorem arenasWellFormed_reshape (hsound : heap.Sound) :
    (heap.reshape array record next).ArenasWellFormed := by
  have harenas := hsound.arenas
  refine ⟨harenas.arrays.modify array _, harenas.objects, harenas.closures,
    harenas.numbers, harenas.strings, ?_⟩
  simp only [reshape, fill, withWindow]
  split
  · exact harenas.stores
  · rename_i store _
    exact harenas.stores.modify store _

theorem holds_reshape_self (hholds : heap.Holds array record body) (hfits : next.Fits)
    (hsize : next.offset + next.capacity = body.offset + body.capacity) :
    (heap.reshape array record next).Holds array { record with window := next.window } next := by
  refine ⟨get?_reshape_self hholds, rfl, hfits, ?_, ?_, ?_⟩
  · intro hnone
    have hbody := hholds.eq_empty hnone
    have hlength := hfits.length_le
    rw [hbody] at hsize
    obtain ⟨offset, capacity, elements⟩ := next
    simp only [Body.empty] at hsize hlength ⊢
    have helements : elements = [] := List.length_eq_zero_iff.1 (by omega)
    simp only [helements, Body.mk.injEq, and_true]
    omega
  · intro store hstore
    exact get?_stores_reshape_self hholds hstore
  · intro hstore
    rw [hsize]
    exact hholds.size_pos hstore

theorem holds_reshape_of_ne (hsound : heap.Sound) (hholds : heap.Holds array record body)
    {other : ArrayHandle} (hne : other ≠ array) {otherRecord : ArrayRecord} {otherBody : Body}
    (hother : heap.Holds other otherRecord otherBody) :
    (heap.reshape array record next).Holds other otherRecord otherBody := by
  refine ⟨?_, hother.window_eq, hother.fits, hother.eq_empty, ?_, hother.size_pos⟩
  · rw [get?_reshape_of_ne hne]
    exact hother.get?_eq
  · intro store hstore
    rw [get?_stores_reshape_of_ne]
    · exact hother.stores_eq store hstore
    · intro hown
      exact hsound.store_ne hne hholds.get?_eq hown hother.get?_eq hstore rfl

theorem ownership_reshape (hsound : heap.Sound) (hholds : heap.Holds array record body) :
    (heap.reshape array record next).Ownership where
  owner_unique := by
    intro first second store hfirst hsecond
    rw [owns_reshape_iff hholds] at hfirst hsecond
    exact hsound.ownership.owner_unique hfirst hsecond
  owned_live := by
    intro other store howns
    rw [owns_reshape_iff hholds] at howns
    rw [isLive_reshape_iff hholds]
    exact hsound.ownership.owned_live howns
  live_owned := by
    intro store hlive
    rw [isLive_reshape_iff hholds] at hlive
    obtain ⟨owner, howns⟩ := hsound.ownership.live_owned hlive
    exact ⟨owner, (owns_reshape_iff hholds).2 howns⟩

theorem rebuilds_reshape (hsound : heap.Sound) (hholds : heap.Holds array record body)
    (hfits : next.Fits) (hsize : next.offset + next.capacity = body.offset + body.capacity) :
    heap.Rebuilds (heap.reshape array record next) array record next := by
  have hself := holds_reshape_self hholds hfits hsize
  refine ⟨?_, rfl, rfl, rfl, rfl, ⟨record.store, hself⟩,
    fun other hne => get?_reshape_of_ne hne,
    fun other hne otherRecord otherBody hother =>
      holds_reshape_of_ne hsound hholds hne hother⟩
  apply Sound.of_holds (arenasWellFormed_reshape hsound) (ownership_reshape hsound hholds)
  intro other otherRecord hget
  by_cases hother : other = array
  · subst hother
    rw [get?_reshape_self hholds, Option.some.injEq] at hget
    rw [← hget]
    exact ⟨next, hself⟩
  · rw [get?_reshape_of_ne hother] at hget
    obtain ⟨otherBody, hbody⟩ := hsound.exists_holds hget
    exact ⟨otherBody, holds_reshape_of_ne hsound hholds hother hbody⟩

theorem withWindow_eq_self (hholds : heap.Holds array record body) :
    heap.withWindow array body.window = heap := by
  unfold withWindow
  rw [Arena.modify_eq_self hholds.get?_eq (by rw [← hholds.window_eq])]

theorem fill_eq_self (hholds : heap.Holds array record body) :
    heap.fill record body.slots = heap := by
  unfold fill
  cases hstore : record.store with
  | none => rfl
  | some store =>
      simp only
      rw [Arena.modify_eq_self (hholds.stores_eq store hstore) rfl]

/-- An array that keeps its body leaves the heap as it is. -/
theorem reshape_eq_self (hholds : heap.Holds array record body) :
    heap.reshape array record body = heap := by
  rw [reshape, withWindow_eq_self hholds, fill_eq_self hholds]

/-! ## Into a new store -/

/-- The handle of the store that an array moves into. -/
def nextStore (heap : Heap) (body : Body) : StoreHandle :=
  (heap.stores.push body.slots).1

theorem get?_nextStore (hsound : heap.Sound) (body : Body) :
    heap.stores.get? (heap.nextStore body) = none :=
  Arena.get?_push_fst hsound.arenas.stores body.slots

theorem ne_nextStore (hsound : heap.Sound) {store : StoreHandle} {slots : Array Value}
    (hstore : heap.stores.get? store = some slots) (body : Body) :
    store ≠ heap.nextStore body := by
  intro heq
  rw [heq, get?_nextStore hsound body] at hstore
  contradiction

theorem get?_relocate_self (hholds : heap.Holds array record body) :
    (heap.relocate array record next).arrays.get? array =
      some { record with window := next.window, store := some (heap.nextStore next) } := by
  rw [relocate, Arena.get?_modify_self, hholds.get?_eq]
  rfl

theorem get?_relocate_of_ne {other : ArrayHandle} (hne : other ≠ array) :
    (heap.relocate array record next).arrays.get? other = heap.arrays.get? other :=
  Arena.get?_modify_of_ne heap.arrays _ hne

theorem get?_stores_relocate_new (hsound : heap.Sound)
    (hholds : heap.Holds array record body) :
    (heap.relocate array record next).stores.get? (heap.nextStore next) =
      some next.slots := by
  have hpushed := Arena.get?_push_self hsound.arenas.stores next.slots
  cases hstore : record.store with
  | none =>
      simp only [relocate, hstore]
      exact hpushed
  | some old =>
      have hold := hholds.stores_eq old hstore
      simp only [relocate, hstore]
      rw [Arena.get?_release_of_ne _ (ne_nextStore hsound hold next).symm]
      exact hpushed

theorem get?_stores_relocate_of_ne {store : StoreHandle}
    (hnew : store ≠ heap.nextStore next) (hold : record.store ≠ some store) :
    (heap.relocate array record next).stores.get? store = heap.stores.get? store := by
  cases hstore : record.store with
  | none =>
      simp only [relocate, hstore]
      exact Arena.get?_push_of_ne hnew
  | some old =>
      have hne : store ≠ old := by
        intro heq
        exact hold (by rw [hstore, heq])
      simp only [relocate, hstore]
      rw [Arena.get?_release_of_ne _ hne]
      exact Arena.get?_push_of_ne hnew

theorem get?_stores_relocate_old {old : StoreHandle} (hstore : record.store = some old) :
    (heap.relocate array record next).stores.get? old = none := by
  simp only [relocate, hstore]
  exact Arena.get?_release_self _ old

theorem arenasWellFormed_relocate (hsound : heap.Sound) :
    (heap.relocate array record next).ArenasWellFormed := by
  have harenas := hsound.arenas
  have hpushed := harenas.stores.push next.slots
  refine ⟨harenas.arrays.modify array _, harenas.objects, harenas.closures,
    harenas.numbers, harenas.strings, ?_⟩
  simp only [relocate]
  split
  · exact hpushed
  · rename_i old _
    exact hpushed.release old

theorem holds_relocate_self (hsound : heap.Sound) (hholds : heap.Holds array record body)
    (hfits : next.Fits) (hpos : 0 < next.offset + next.capacity) :
    (heap.relocate array record next).Holds array
      { record with window := next.window, store := some (heap.nextStore next) } next := by
  refine ⟨get?_relocate_self hholds, rfl, hfits, by simp, ?_, fun _ => hpos⟩
  intro store hstore
  rw [Option.some.injEq] at hstore
  rw [← hstore]
  exact get?_stores_relocate_new hsound hholds

theorem holds_relocate_of_ne (hsound : heap.Sound) (hholds : heap.Holds array record body)
    {other : ArrayHandle} (hne : other ≠ array) {otherRecord : ArrayRecord} {otherBody : Body}
    (hother : heap.Holds other otherRecord otherBody) :
    (heap.relocate array record next).Holds other otherRecord otherBody := by
  refine ⟨?_, hother.window_eq, hother.fits, hother.eq_empty, ?_, hother.size_pos⟩
  · rw [get?_relocate_of_ne hne]
    exact hother.get?_eq
  · intro store hstore
    have hslots := hother.stores_eq store hstore
    rw [get?_stores_relocate_of_ne (ne_nextStore hsound hslots next)]
    · exact hslots
    · intro hown
      exact hsound.store_ne hne hholds.get?_eq hown hother.get?_eq hstore rfl

/-- After a move the array owns the new store, nobody the old one, and all other
stores are owned as before. -/
theorem owns_relocate_iff (hsound : heap.Sound) (hholds : heap.Holds array record body)
    {other : ArrayHandle} {store : StoreHandle} :
    (heap.relocate array record next).Owns other store ↔
      if store = heap.nextStore next then other = array
      else heap.Owns other store ∧ other ≠ array := by
  unfold Owns
  by_cases hother : other = array
  · subst hother
    rw [get?_relocate_self hholds]
    by_cases hstore : store = heap.nextStore next
    · rw [if_pos hstore]
      simp [hstore]
    · rw [if_neg hstore]
      simp [Ne.symm hstore]
  · rw [get?_relocate_of_ne hother]
    split
    · rename_i hstore
      simp only [hother, iff_false]
      rintro ⟨otherRecord, hget, howned⟩
      have hlive := hsound.ownership.owned_live ⟨otherRecord, hget, howned⟩
      rw [hstore, Arena.isLive, get?_nextStore hsound next] at hlive
      contradiction
    · simp [hother]

theorem isLive_relocate_iff (hsound : heap.Sound) (hholds : heap.Holds array record body)
    {store : StoreHandle} :
    (heap.relocate array record next).stores.isLive store = true ↔
      store = heap.nextStore next ∨
        heap.stores.isLive store = true ∧ record.store ≠ some store := by
  by_cases hnew : store = heap.nextStore next
  · rw [hnew, Arena.isLive, get?_stores_relocate_new hsound hholds]
    simp
  · by_cases hold : record.store = some store
    · rw [Arena.isLive, get?_stores_relocate_old hold]
      simp [hnew, hold]
    · rw [Arena.isLive, get?_stores_relocate_of_ne hnew hold]
      simp [hnew, hold, Arena.isLive]

theorem ownership_relocate (hsound : heap.Sound) (hholds : heap.Holds array record body) :
    (heap.relocate array record next).Ownership where
  owner_unique := by
    intro first second store hfirst hsecond
    rw [owns_relocate_iff hsound hholds] at hfirst hsecond
    split at hfirst
    · rename_i hstore
      rw [if_pos hstore] at hsecond
      rw [hfirst, hsecond]
    · rename_i hstore
      rw [if_neg hstore] at hsecond
      exact hsound.ownership.owner_unique hfirst.1 hsecond.1
  owned_live := by
    intro other store howns
    rw [owns_relocate_iff hsound hholds] at howns
    rw [isLive_relocate_iff hsound hholds]
    split at howns
    · rename_i hstore
      exact Or.inl hstore
    · obtain ⟨howns, hne⟩ := howns
      refine Or.inr ⟨hsound.ownership.owned_live howns, ?_⟩
      intro hown
      exact hne (hsound.ownership.owner_unique howns ⟨record, hholds.get?_eq, hown⟩)
  live_owned := by
    intro store hlive
    by_cases hstore : store = heap.nextStore next
    · refine ⟨array, (owns_relocate_iff hsound hholds).2 ?_⟩
      rw [if_pos hstore]
    · rw [isLive_relocate_iff hsound hholds] at hlive
      obtain ⟨hlive, hold⟩ := hlive.resolve_left hstore
      obtain ⟨owner, howns⟩ := hsound.ownership.live_owned hlive
      refine ⟨owner, (owns_relocate_iff hsound hholds).2 ?_⟩
      rw [if_neg hstore]
      refine ⟨howns, ?_⟩
      intro howner
      obtain ⟨ownerRecord, hget, howned⟩ := howns
      rw [howner, hholds.get?_eq, Option.some.injEq] at hget
      rw [← hget] at howned
      exact hold howned

theorem rebuilds_relocate (hsound : heap.Sound) (hholds : heap.Holds array record body)
    (hfits : next.Fits) (hpos : 0 < next.offset + next.capacity) :
    heap.Rebuilds (heap.relocate array record next) array record next := by
  have hself := holds_relocate_self hsound hholds hfits hpos
  refine ⟨?_, rfl, rfl, rfl, rfl, ⟨some (heap.nextStore next), hself⟩,
    fun other hne => get?_relocate_of_ne hne,
    fun other hne otherRecord otherBody hother =>
      holds_relocate_of_ne hsound hholds hne hother⟩
  apply Sound.of_holds (arenasWellFormed_relocate hsound) (ownership_relocate hsound hholds)
  intro other otherRecord hget
  by_cases hother : other = array
  · subst hother
    rw [get?_relocate_self hholds, Option.some.injEq] at hget
    rw [← hget]
    exact ⟨next, hself⟩
  · rw [get?_relocate_of_ne hother] at hget
    obtain ⟨otherBody, hbody⟩ := hsound.exists_holds hget
    exact ⟨otherBody, holds_relocate_of_ne hsound hholds hother hbody⟩

/-- An array that moves and is written then has moved with what was written. -/
theorem reshape_relocate (hsound : heap.Sound) (hholds : heap.Holds array record body)
    {moved : Body} {movedRecord : ArrayRecord}
    (hmoved : movedRecord.store = some (heap.nextStore moved)) :
    (heap.relocate array record moved).reshape array movedRecord next =
      heap.relocate array record next := by
  have hnext : heap.nextStore next = heap.nextStore moved :=
    Arena.push_fst_congr heap.stores next.slots moved.slots
  have hpushed := Arena.push_modify hsound.arenas.stores moved.slots fun _ => next.slots
  simp only [reshape, fill, withWindow, hmoved, relocate, Arena.modify_modify]
  congr 1
  · congr 1
    funext record
    simp only [Function.comp]
    congr 2
    exact hnext.symm
  · cases hstore : record.store with
    | none => exact hpushed
    | some old =>
        have hold := ne_nextStore hsound (hholds.stores_eq old hstore) moved
        simp only
        rw [Arena.release_modify_of_ne _ _ hold.symm]
        simp only [nextStore] at hpushed ⊢
        rw [hpushed]

end Heap

end ManagedHeap
