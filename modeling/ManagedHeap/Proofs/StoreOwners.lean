import Mathlib.Data.List.Nodup
import Mathlib.Data.Option.Basic
import ManagedHeap.Proofs.Soundness

/-!
# The owners of the backing stores

Arrays and their backing stores live in different arenas, which are swept one
after the other and fill their free slots again in an order of their own.  Even
so every living store belongs to exactly one living array, and counting the
stores is counting the arrays that have one.
-/

namespace ManagedHeap

namespace Heap

/-- The backing store of a living array, if it has one. -/
def ownStore? (heap : Heap) (array : ArrayHandle) : Option StoreHandle :=
  (heap.arrays.get? array).bind ArrayRecord.store

/-- The living arrays that have a backing store. -/
def owners (heap : Heap) : List ArrayHandle :=
  heap.arrays.handles.filter fun array => (heap.ownStore? array).isSome

variable {heap : Heap} {array : ArrayHandle}

theorem owns_iff {store : StoreHandle} :
    heap.Owns array store ↔ heap.ownStore? array = some store := by
  unfold Owns ownStore?
  rw [Option.bind_eq_some_iff]

theorem mem_owners : array ∈ heap.owners ↔ ∃ store, heap.Owns array store := by
  unfold owners
  rw [List.mem_filter, Option.isSome_iff_exists]
  constructor
  · rintro ⟨-, store, hstore⟩
    exact ⟨store, owns_iff.2 hstore⟩
  · rintro ⟨store, howns⟩
    have hlive : heap.arrays.isLive array = true := by
      obtain ⟨record, hget, _⟩ := howns
      exact Arena.isLive_iff.2 ⟨record, hget⟩
    exact ⟨Arena.mem_handles.2 hlive, store, owns_iff.1 howns⟩

namespace Ownership

variable (howner : heap.Ownership)

include howner

theorem nodup_ownStores : (heap.owners.map heap.ownStore?).Nodup := by
  have howners : heap.owners.Nodup := (Arena.nodup_handles heap.arrays).filter _
  apply howners.map_on
  intro first hfirst second _ heq
  obtain ⟨store, howns⟩ := mem_owners.1 hfirst
  have hother : heap.ownStore? second = some store := by
    rw [← heq]
    exact owns_iff.1 howns
  exact howner.owner_unique howns (owns_iff.2 hother)

/-- The stores of the owners are the living stores in some order. -/
theorem ownStores_perm :
    (heap.owners.map heap.ownStore?).Perm (heap.stores.handles.map some) := by
  have hstores : (heap.stores.handles.map some).Nodup :=
    (Arena.nodup_handles heap.stores).map (Option.some_injective _)
  rw [List.perm_ext_iff_of_nodup howner.nodup_ownStores hstores]
  intro store?
  simp only [List.mem_map]
  constructor
  · rintro ⟨array, harray, rfl⟩
    obtain ⟨store, howns⟩ := mem_owners.1 harray
    have hlive := howner.owned_live howns
    exact ⟨store, Arena.mem_handles.2 hlive, (owns_iff.1 howns).symm⟩
  · rintro ⟨store, hstore, rfl⟩
    obtain ⟨array, howns⟩ := howner.live_owned (Arena.mem_handles.1 hstore)
    exact ⟨array, mem_owners.2 ⟨store, howns⟩, owns_iff.1 howns⟩

theorem length_owners : heap.owners.length = heap.stores.handles.length := by
  have hlength := howner.ownStores_perm.length_eq
  rwa [List.length_map, List.length_map] at hlength

theorem existsUnique_owner {store : StoreHandle} (hlive : heap.stores.isLive store = true) :
    ∃! array, heap.Owns array store := by
  obtain ⟨array, howns⟩ := howner.live_owned hlive
  refine ⟨array, howns, ?_⟩
  intro other hother
  exact howner.owner_unique hother howns

end Ownership

theorem Sound.liveCounts_store (hsound : heap.Sound) :
    heap.liveCounts.store = heap.owners.length := by
  have hcount : heap.liveCounts.store = heap.stores.handles.length :=
    hsound.arenas.stores.liveCount_eq
  rw [hcount, hsound.ownership.length_owners]

end Heap

namespace Agent

/-- After any run the living arrays that have a store and the living stores
correspond one to one, and so there are as many of these as of those. -/
theorem store_owners_run (options : Options) (operations : List (Operation Value)) :
    let heap := ((start options).run operations).heap
    (∀ array store, heap.Owns array store → heap.stores.isLive store = true) ∧
      (∀ store, heap.stores.isLive store = true → ∃! array, heap.Owns array store) ∧
      heap.liveCounts.store = heap.owners.length := by
  intro heap
  have hsound : heap.Sound := (sound_start options).run operations
  refine ⟨?_, ?_, hsound.liveCounts_store⟩
  · intro array store howns
    exact hsound.ownership.owned_live howns
  · intro store hlive
    exact hsound.ownership.existsUnique_owner hlive

end Agent

end ManagedHeap
