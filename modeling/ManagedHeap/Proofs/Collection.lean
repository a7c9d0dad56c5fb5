import ManagedHeap.Collector.Sweep
import ManagedHeap.Proofs.Marking
import ManagedHeap.Proofs.Relocation

/-!
# What a collection keeps

Sweeping releases the slots that are not marked and touches no other.  Since the
marked slots are those that the roots lead to, a collection keeps exactly the
reachable entities, with all that they hold.  A store that survives is reached
through its array, so the heap is sound afterwards.
-/

namespace ManagedHeap

namespace Arena

variable {kind : Kind} {α : Type} {arena : Arena kind α}

@[simp] theorem releaseAll_nil (arena : Arena kind α) : arena.releaseAll [] = arena := rfl

@[simp] theorem releaseAll_cons (arena : Arena kind α) (handle : Handle kind)
    (rest : List (Handle kind)) :
    arena.releaseAll (handle :: rest) = (arena.release handle).2.releaseAll rest := rfl

theorem get?_releaseAll (arena : Arena kind α) (garbage : List (Handle kind))
    (handle : Handle kind) :
    (arena.releaseAll garbage).get? handle =
      if handle ∈ garbage then none else arena.get? handle := by
  induction garbage generalizing arena with
  | nil => simp
  | cons first rest ih =>
      rw [releaseAll_cons, ih]
      by_cases hrest : handle ∈ rest
      · simp [hrest]
      · by_cases hfirst : handle = first
        · subst hfirst
          simp [hrest]
        · rw [if_neg hrest, get?_release_of_ne _ hfirst]
          simp [hrest, hfirst]

@[simp] theorem size_releaseAll (arena : Arena kind α) (garbage : List (Handle kind)) :
    (arena.releaseAll garbage).size = arena.size := by
  induction garbage generalizing arena with
  | nil => rfl
  | cons first rest ih => rw [releaseAll_cons, ih, size_release]

theorem WellFormed.releaseAll (harena : arena.WellFormed) (garbage : List (Handle kind)) :
    (arena.releaseAll garbage).WellFormed := by
  induction garbage generalizing arena with
  | nil => exact harena
  | cons first rest ih => exact ih (harena.release first)

theorem mem_unmarked {marks : Array Bool} {handle : Handle kind} :
    handle ∈ arena.unmarked marks ↔
      arena.isLive handle = true ∧ marks[handle.slot]? ≠ some true := by
  unfold unmarked
  rw [List.mem_filter, mem_handles, decide_eq_true_eq]

theorem nodup_handles (arena : Arena kind α) : arena.handles.Nodup := by
  have hrange : (List.range arena.size).Nodup := List.nodup_range
  unfold handles
  apply List.Pairwise.filter
  rw [List.pairwise_map]
  apply List.Pairwise.imp _ hrange
  intro first second hne heq
  exact hne (Handle.mk.inj heq)

/-- One arena has become another in which the entities of some handles are kept,
with all that they hold, and every other slot is free. -/
structure Retains (before after : Arena kind α) (kept : Handle kind → Prop) : Prop where
  wellFormed : after.WellFormed
  size_eq : after.size = before.size
  get?_kept : ∀ handle, kept handle → after.get? handle = before.get? handle
  get?_dropped : ∀ handle, ¬kept handle → after.get? handle = none

/-- The number of entities that are in one arena and not in the other. -/
def removed (before after : Arena kind α) : Nat :=
  (before.handles.filter fun handle => !after.isLive handle).length

theorem retains_releaseAll (harena : arena.WellFormed) {marks : Array Bool}
    {kept : Handle kind → Prop}
    (hmarks : ∀ handle, marks[handle.slot]? = some true ↔
      kept handle ∧ handle.slot < arena.size) :
    arena.Retains (arena.releaseAll (arena.unmarked marks)) kept where
  wellFormed := harena.releaseAll _
  size_eq := size_releaseAll arena _
  get?_kept := by
    intro handle hkept
    rw [get?_releaseAll, if_neg]
    intro hmem
    obtain ⟨hlive, hunmarked⟩ := mem_unmarked.1 hmem
    obtain ⟨entity, hget⟩ := isLive_iff.1 hlive
    exact hunmarked ((hmarks handle).2 ⟨hkept, slot_lt_size_of_get? hget⟩)
  get?_dropped := by
    intro handle hdropped
    rw [get?_releaseAll]
    split
    · rfl
    · rename_i hmem
      cases hget : arena.get? handle with
      | none => rfl
      | some entity =>
          have hlive := isLive_iff.2 ⟨entity, hget⟩
          have hunmarked : marks[handle.slot]? ≠ some true := by
            intro hmarked
            exact hdropped ((hmarks handle).1 hmarked).1
          exact absurd (mem_unmarked.2 ⟨hlive, hunmarked⟩) hmem

/-- What is not marked is what is gone once it has been released. -/
theorem filter_releaseAll (arena : Arena kind α) (marks : Array Bool) :
    (arena.handles.filter fun handle =>
      !(arena.releaseAll (arena.unmarked marks)).isLive handle) = arena.unmarked marks := by
  apply List.filter_congr
  intro handle hmem
  have hlive := mem_handles.1 hmem
  rw [isLive, get?_releaseAll]
  by_cases hmarked : marks[handle.slot]? = some true
  · rw [if_neg (by rw [mem_unmarked]; exact fun h => h.2 hmarked)]
    simp [hmarked, isLive] at hlive ⊢
    exact hlive
  · rw [if_pos (mem_unmarked.2 ⟨hlive, hmarked⟩)]
    simp [hmarked]

theorem removed_releaseAll (arena : Arena kind α) (marks : Array Bool) :
    removed arena (arena.releaseAll (arena.unmarked marks)) =
      (arena.unmarked marks).length := by
  rw [removed, filter_releaseAll]

namespace Retains

variable {before after : Arena kind α} {kept : Handle kind → Prop}
  (hretains : before.Retains after kept)

include hretains

/-- What is there afterwards was kept. -/
theorem get?_eq_some_iff {handle : Handle kind} {entity : α} :
    after.get? handle = some entity ↔ kept handle ∧ before.get? handle = some entity := by
  by_cases hkept : kept handle
  · rw [hretains.get?_kept handle hkept]
    simp [hkept]
  · rw [hretains.get?_dropped handle hkept]
    simp [hkept]

theorem isLive_iff (handle : Handle kind) :
    after.isLive handle = true ↔ kept handle ∧ before.isLive handle = true := by
  simp only [Arena.isLive_iff, hretains.get?_eq_some_iff, exists_and_left]

end Retains

end Arena

namespace Heap

/-! ## What arrays refer to -/

section Elements

variable {heap : Heap} {array : ArrayHandle} {record : ArrayRecord} {body : Body} {value : Value}

/-- What the window shows of a store are the elements of the array. -/
theorem Holds.mem_elements (hholds : heap.Holds array record body) {store : StoreHandle}
    {slots : Array Value} {index : Nat} (hstore : record.store = some store)
    (hslots : heap.stores.get? store = some slots) (hindex : index < record.window.length)
    (hvalue : slots[record.window.position index]? = some value) : value ∈ body.elements := by
  rw [hholds.stores_eq store hstore, Option.some.injEq] at hslots
  rw [hholds.window_eq] at hindex hvalue
  have hinside : body.slots[body.offset + index]? = body.elements[index]? :=
    Body.getElem?_slots_inside body hindex
  rw [← hslots] at hvalue
  change body.slots[body.offset + index]? = some value at hvalue
  rw [hinside] at hvalue
  exact List.mem_of_getElem? hvalue

/-- An array refers to what its elements are. -/
theorem Holds.refers (hholds : heap.Holds array record body) (hvalue : value ∈ body.elements)
    {entity : Entity} (hentity : value.entity? = some entity) :
    heap.Refers array.entity entity := by
  obtain ⟨index, hindex, hget⟩ := List.mem_iff_getElem.1 hvalue
  have hslot : body.slots[body.offset + index]? = some value := by
    rw [Body.getElem?_slots_inside body hindex, List.getElem?_eq_getElem hindex, hget]
  have hplace : body.slots[record.window.position index]? = some value := by
    rw [hholds.window_eq]
    exact hslot
  have hlength : index < record.window.length := by
    rw [hholds.window_eq]
    exact hindex
  cases hstore : record.store with
  | none =>
      rw [hholds.eq_empty hstore] at hvalue
      exact absurd hvalue List.not_mem_nil
  | some store =>
      exact .arrayElement hholds.get?_eq hstore (hholds.stores_eq store hstore) hlength hplace
        hentity

theorem Refers.kind_ne_store {source target : Entity} (hrefers : heap.Refers source target) :
    source.kind ≠ .store := by
  cases hrefers <;> simp [Handle.entity]

end Elements

/-! ## Sweeping -/

/-- The heap after a sweep. -/
def swept (heap : Heap) (marks : ByKind (Array Bool)) : Heap :=
  { heap.discard (heap.garbage marks) with
    stores := heap.stores.releaseAll (heap.stores.unmarked marks.store) }

def releaseEvents (heap : Heap) (stores : List StoreHandle) : List Event :=
  stores.map fun store => .storeReleased store ((heap.stores.get? store).map Array.size)

/-- A collection: of each kind the entities that the roots lead to are kept. -/
structure Collects (before after : Heap) (roots : List Value) : Prop where
  arrays : before.arrays.Retains after.arrays fun handle => before.Reaches roots handle.entity
  objects : before.objects.Retains after.objects fun handle => before.Reaches roots handle.entity
  closures :
    before.closures.Retains after.closures fun handle => before.Reaches roots handle.entity
  numbers : before.numbers.Retains after.numbers fun handle => before.Reaches roots handle.entity
  strings : before.strings.Retains after.strings fun handle => before.Reaches roots handle.entity
  stores : before.stores.Retains after.stores fun handle => before.Reaches roots handle.entity

/-- How many entities of each kind are in one heap and not in the other. -/
def removed (before after : Heap) : ByKind Nat where
  array := before.arrays.removed after.arrays
  object := before.objects.removed after.objects
  closure := before.closures.removed after.closures
  number := before.numbers.removed after.numbers
  string := before.strings.removed after.strings
  store := before.stores.removed after.stores

variable {heap after : Heap} {roots : List Value} {marks : ByKind (Array Bool)}

theorem removed_swept (heap : Heap) (marks : ByKind (Array Bool)) :
    heap.removed (heap.swept marks) = (heap.garbage marks).counts := by
  simp only [removed, swept, discard, garbage, Garbage.counts, Arena.removed_releaseAll]

theorem collects_swept (harenas : heap.ArenasWellFormed)
    (hmarks : ∀ entity, IsMarked marks entity ↔
      heap.Reaches roots entity ∧ entity.slot < heap.sizes.get entity.kind) :
    heap.Collects (heap.swept marks) roots where
  arrays := Arena.retains_releaseAll harenas.arrays fun handle => hmarks handle.entity
  objects := Arena.retains_releaseAll harenas.objects fun handle => hmarks handle.entity
  closures := Arena.retains_releaseAll harenas.closures fun handle => hmarks handle.entity
  numbers := Arena.retains_releaseAll harenas.numbers fun handle => hmarks handle.entity
  strings := Arena.retains_releaseAll harenas.strings fun handle => hmarks handle.entity
  stores := Arena.retains_releaseAll harenas.stores fun handle => hmarks handle.entity

/-! ## A collection keeps a heap sound -/

theorem Reaches.exists_owner {store : StoreHandle} (hreaches : heap.Reaches roots store.entity) :
    ∃ array record, heap.Reaches roots array.entity ∧
      heap.arrays.get? array = some record ∧ record.store = some store := by
  obtain ⟨entity, hentity⟩ : ∃ entity, entity = store.entity := ⟨_, rfl⟩
  have hkind : entity.kind = .store := by
    rw [hentity]
    rfl
  rw [← hentity] at hreaches
  cases hreaches with
  | root _ htarget => exact absurd hkind (Value.kind_ne_store htarget)
  | step hsource hrefers =>
      cases hrefers with
      | arrayStore hrecord hstore =>
          rw [Handle.entity_injective hentity] at hstore
          exact ⟨_, _, hsource, hrecord, hstore⟩
      | arrayHeader _ _ htarget | arrayElement _ _ _ _ _ htarget | objectHeader _ _ htarget
      | objectField _ _ htarget | closureEnv _ htarget =>
          exact absurd hkind (Value.kind_ne_store htarget)

namespace Collects

variable (hcollects : heap.Collects after roots)

include hcollects

theorem isLive_iff {entity : Entity} :
    after.isLive entity = true ↔ heap.Reaches roots entity ∧ heap.isLive entity = true := by
  obtain ⟨kind, slot⟩ := entity
  cases kind with
  | array => exact hcollects.arrays.isLive_iff ⟨slot⟩
  | object => exact hcollects.objects.isLive_iff ⟨slot⟩
  | closure => exact hcollects.closures.isLive_iff ⟨slot⟩
  | number => exact hcollects.numbers.isLive_iff ⟨slot⟩
  | string => exact hcollects.strings.isLive_iff ⟨slot⟩
  | store => exact hcollects.stores.isLive_iff ⟨slot⟩

theorem sizes_eq : after.sizes = heap.sizes := by
  unfold sizes
  rw [hcollects.arrays.size_eq, hcollects.objects.size_eq, hcollects.closures.size_eq,
    hcollects.numbers.size_eq, hcollects.strings.size_eq, hcollects.stores.size_eq]

theorem get?_arrays {array : ArrayHandle} {record : ArrayRecord}
    (hget : after.arrays.get? array = some record) :
    heap.Reaches roots array.entity ∧ heap.arrays.get? array = some record :=
  hcollects.arrays.get?_eq_some_iff.1 hget

theorem get?_ownStore {array : ArrayHandle} {record : ArrayRecord} {store : StoreHandle}
    (hget : after.arrays.get? array = some record) (hstore : record.store = some store) :
    after.stores.get? store = heap.stores.get? store := by
  obtain ⟨hreaches, hbefore⟩ := hcollects.get?_arrays hget
  exact hcollects.stores.get?_kept store (.step hreaches (.arrayStore hbefore hstore))

theorem owns_before {array : ArrayHandle} {store : StoreHandle}
    (howns : after.Owns array store) : heap.Owns array store := by
  obtain ⟨record, hget, hstore⟩ := howns
  exact ⟨record, (hcollects.get?_arrays hget).2, hstore⟩

theorem sound (hsound : heap.Sound) : after.Sound where
  arenas := ⟨hcollects.arrays.wellFormed, hcollects.objects.wellFormed,
    hcollects.closures.wellFormed, hcollects.numbers.wellFormed, hcollects.strings.wellFormed,
    hcollects.stores.wellFormed⟩
  represents := by
    intro array record hget
    have hrepresents := hsound.represents (hcollects.get?_arrays hget).2
    unfold Represents at hrepresents ⊢
    cases hstore : record.store with
    | none =>
        rw [hstore] at hrepresents
        exact hrepresents
    | some store =>
        rw [hstore] at hrepresents
        simp only at hrepresents ⊢
        rw [hcollects.get?_ownStore hget hstore]
        exact hrepresents
  ownership :=
    { owner_unique := by
        intro first second store hfirst hsecond
        exact hsound.ownership.owner_unique (hcollects.owns_before hfirst)
          (hcollects.owns_before hsecond)
      owned_live := by
        intro array store howns
        have hlive := hsound.ownership.owned_live (hcollects.owns_before howns)
        obtain ⟨record, hget, hstore⟩ := howns
        rw [Arena.isLive, hcollects.get?_ownStore hget hstore]
        exact hlive
      live_owned := by
        intro store hlive
        obtain ⟨hreaches, _⟩ := (hcollects.stores.isLive_iff store).1 hlive
        obtain ⟨array, record, hsource, hrecord, hstore⟩ := hreaches.exists_owner
        refine ⟨array, record, ?_, hstore⟩
        rw [hcollects.arrays.get?_kept array hsource]
        exact hrecord }

end Collects

end Heap

/-! ## Performing a collection -/

/-- The agent after a sweep has freed what is not marked and reported it. -/
def Agent.afterSweep (agent : Agent) (marks : ByKind (Array Bool)) : Agent :=
  { agent with
    heap := agent.heap.swept marks
    log := agent.log ++
      (agent.heap.releaseEvents (agent.heap.stores.unmarked marks.store)).toArray ++
        #[.collectionFinished (agent.heap.removed (agent.heap.swept marks))] }

namespace Action

variable {agent : Agent}

theorem releaseEvents_release (heap : Heap) {store : StoreHandle} {rest : List StoreHandle}
    (hfresh : store ∉ rest) :
    Heap.releaseEvents { heap with stores := (heap.stores.release store).2 } rest =
      heap.releaseEvents rest := by
  unfold Heap.releaseEvents
  apply List.map_congr_left
  intro other hother
  have hne : other ≠ store := by
    intro heq
    exact hfresh (heq ▸ hother)
  rw [Arena.get?_release_of_ne _ hne]

theorem perform_releaseStores (stores : List StoreHandle) (hnodup : stores.Nodup)
    (agent : Agent) :
    (stores.forM fun store => do
      let _ ← releaseStore store : Action Unit).perform agent =
      (.ok (),
        { agent with
          heap := { agent.heap with stores := agent.heap.stores.releaseAll stores }
          log := agent.log ++ (agent.heap.releaseEvents stores).toArray }) := by
  induction stores generalizing agent with
  | nil =>
      simp [Heap.releaseEvents]
  | cons store rest ih =>
      obtain ⟨hfresh, hrest⟩ := List.nodup_cons.1 hnodup
      rw [List.forM, perform_bind, perform_bind, perform_releaseStore, andThen_ok,
        perform_pure, andThen_ok, ih hrest, releaseEvents_release _ hfresh]
      simp [Heap.releaseEvents]

/-- What a sweep leaves behind and what it reports. -/
theorem perform_sweep (marks : ByKind (Array Bool)) (agent : Agent) :
    (sweep marks).perform agent = (.ok (), agent.afterSweep marks) := by
  have hnodup : (agent.heap.stores.unmarked marks.store).Nodup :=
    (Arena.nodup_handles agent.heap.stores).filter _
  unfold sweep Agent.afterSweep
  rw [perform_bind, perform_read, andThen_ok, perform_bind, perform_update, andThen_ok,
    perform_bind, Heap.removed_swept]
  change Outcome.andThen
    ((List.forM (agent.heap.stores.unmarked marks.store) fun store => do
      let _ ← releaseStore store : Action Unit).perform _) _ = _
  rw [perform_releaseStores _ hnodup, andThen_ok, perform_emit]
  simp [Heap.swept, Heap.discard, Heap.releaseEvents]

/-- Marking decides the outcome: it faults before anything is freed, or all that it has
not marked is freed. -/
theorem perform_collect_eq (agent : Agent) (roots : List Value) :
    (collect roots).perform agent =
      if agent.options.disableCollection then (.ok (), agent)
      else
        Outcome.andThen (agent.heap.mark roots, agent) fun marks after =>
          (.ok (), after.afterSweep marks) := by
  unfold collect
  simp only [perform_bind, perform_options, andThen_ok, perform_ite, perform_pure, perform_read,
    perform_sweep]

theorem perform_collect_of_disabled (hdisabled : agent.options.disableCollection = true)
    (roots : List Value) : (collect roots).perform agent = (.ok (), agent) := by
  rw [perform_collect_eq, if_pos hdisabled]

theorem perform_collect_of_enabled (henabled : agent.options.disableCollection = false)
    (roots : List Value) :
    (collect roots).perform agent =
      Outcome.andThen (agent.heap.mark roots, agent) fun marks after =>
        (.ok (), after.afterSweep marks) := by
  rw [perform_collect_eq, if_neg (by rw [henabled]; exact Bool.false_ne_true)]

/-- A collection that comes upon a freed slot has changed nothing. -/
theorem perform_collect_of_freed (hsound : agent.heap.Sound)
    (henabled : agent.options.disableCollection = false) {roots : List Value}
    (hfreed : agent.heap.MeetsFreed roots) :
    (collect roots).perform agent = (.error .slotEmpty, agent) := by
  have hmark : agent.heap.mark roots = .error .slotEmpty := by
    rcases Heap.mark_spec hsound roots with ⟨_, _, hnone, _⟩ | ⟨hmark, _⟩
    · exact absurd hfreed hnone
    · exact hmark
  rw [perform_collect_of_enabled henabled, hmark, andThen_error]

theorem perform_collect (hsound : agent.heap.Sound)
    (henabled : agent.options.disableCollection = false) {roots : List Value}
    (hfreed : ¬agent.heap.MeetsFreed roots) :
    ∃ marks, agent.heap.Collects (agent.heap.swept marks) roots ∧
      (collect roots).perform agent = (.ok (), agent.afterSweep marks) := by
  rcases Heap.mark_spec hsound roots with ⟨marks, hmark, _, _, hmarks⟩ | ⟨_, hmeets⟩
  · refine ⟨marks, Heap.collects_swept hsound.arenas hmarks, ?_⟩
    rw [perform_collect_of_enabled henabled, hmark, andThen_ok]
  · exact absurd hmeets hfreed

/-- A collection leaves the agent alone, or it sweeps up what the roots do not lead to. -/
theorem snd_perform_collect_cases (hsound : agent.heap.Sound) (roots : List Value) :
    ((collect roots).perform agent).2 = agent ∨
      ∃ marks, agent.heap.Collects (agent.heap.swept marks) roots ∧
        ((collect roots).perform agent).2 = agent.afterSweep marks := by
  cases hdisabled : agent.options.disableCollection with
  | true => exact .inl (congrArg Prod.snd (perform_collect_of_disabled hdisabled roots))
  | false =>
      by_cases hfreed : agent.heap.MeetsFreed roots
      · exact .inl (congrArg Prod.snd (perform_collect_of_freed hsound hdisabled hfreed))
      · obtain ⟨marks, hcollects, houtcome⟩ := perform_collect hsound hdisabled hfreed
        exact .inr ⟨marks, hcollects, congrArg Prod.snd houtcome⟩

end Action

end ManagedHeap
