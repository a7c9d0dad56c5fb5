import ManagedHeap.Proofs.StoreOwners

/-!
# What the log tells of the stores

Stores come and go when arrays move, when arrays are made and when garbage is
collected, and the handle of a store that has gone is given out again.  Whatever
happens, the log says it in an order in which it can be replayed, and nothing can
happen to the store of an array without the log saying so.
-/

namespace ManagedHeap

namespace Heap

/-- The events lead from the stores of one heap to those of another, and an array can
only have come to another store if one of them is about a store. -/
structure Tells (before after : Heap) (events : List Event) : Prop where
  replay_eq : events.foldlM Ledger.record before.ledger = some after.ledger
  owners_eq : (∀ event ∈ events, event.isOfStore = false) →
    ∀ array, after.ownStore? array = before.ownStore? array

variable {heap before after later : Heap} {array : ArrayHandle} {record : ArrayRecord}
  {body next : Body} {events others : List Event}

theorem tells_refl (hevents : ∀ event ∈ events, event.isOfStore = false) :
    heap.Tells heap events where
  replay_eq := Ledger.foldlM_record_of_not_isOfStore hevents heap.ledger
  owners_eq _ _ := rfl

theorem Tells.trans (hfirst : before.Tells after events) (hsecond : after.Tells later others) :
    before.Tells later (events ++ others) where
  replay_eq := by
    rw [List.foldlM_append, hfirst.replay_eq]
    exact hsecond.replay_eq
  owners_eq := by
    intro hquiet other
    have hleft := hfirst.owners_eq fun event hmem => hquiet event (List.mem_append_left _ hmem)
    have hright := hsecond.owners_eq fun event hmem => hquiet event (List.mem_append_right _ hmem)
    rw [hright other, hleft other]

/-! ## Arrays that stay in their stores -/

theorem ownStore?_eq_of_owns_iff
    (howns : ∀ array store, after.Owns array store ↔ before.Owns array store)
    (array : ArrayHandle) : after.ownStore? array = before.ownStore? array := by
  apply Option.ext
  intro store
  rw [← owns_iff, ← owns_iff]
  exact howns array store

theorem SamePlacement.tells (hsame : before.SamePlacement after) : before.Tells after [] where
  replay_eq := by
    unfold ledger
    rw [hsame.stores_eq]
    rfl
  owners_eq _ := ownStore?_eq_of_owns_iff fun _ _ => ⟨hsame.symm.owns, hsame.owns⟩

theorem tells_withArray (hsound : heap.Sound) (tag : UInt32) :
    heap.Tells (heap.withArray (.ofTag tag)) [] where
  replay_eq := rfl
  owners_eq _ := ownStore?_eq_of_owns_iff fun _ _ => owns_withArray_iff hsound tag

theorem ledger_of_get? {store : StoreHandle} {slots : Array Value}
    (hslots : heap.stores.get? store = some slots) : heap.ledger store = some slots.size := by
  unfold ledger
  rw [hslots]
  rfl

/-- A body of the same size stays in the store. -/
theorem ledger_reshape (hholds : heap.Holds array record body) (hfits : next.Fits)
    (hsize : next.offset + next.capacity = body.offset + body.capacity) :
    (heap.reshape array record next).ledger = heap.ledger := by
  funext store
  by_cases hstore : record.store = some store
  · rw [ledger_of_get? (get?_stores_reshape_self hholds hstore),
      ledger_of_get? (hholds.stores_eq store hstore), Body.size_slots hfits.length_le, hsize,
      Body.size_slots hholds.fits.length_le]
  · unfold ledger
    rw [get?_stores_reshape_of_ne hstore]

theorem tells_reshape (hholds : heap.Holds array record body) (hfits : next.Fits)
    (hsize : next.offset + next.capacity = body.offset + body.capacity) :
    heap.Tells (heap.reshape array record next) [] where
  replay_eq := by
    rw [ledger_reshape hholds hfits hsize]
    rfl
  owners_eq _ := ownStore?_eq_of_owns_iff fun _ _ => owns_reshape_iff hholds

/-! ## Moving into another store -/

theorem ledger_relocate (hsound : heap.Sound) (hholds : heap.Holds array record body) :
    (heap.relocate array record next).ledger =
      match record.store with
      | none => heap.ledger.set (heap.nextStore next) (some next.slots.size)
      | some old =>
          (heap.ledger.set (heap.nextStore next) (some next.slots.size)).set old none := by
  funext store
  have hnew : (heap.relocate array record next).ledger (heap.nextStore next) =
      some next.slots.size := ledger_of_get? (get?_stores_relocate_new hsound hholds)
  have hother : store ≠ heap.nextStore next → record.store ≠ some store →
      (heap.relocate array record next).ledger store = heap.ledger store := by
    intro hne hold
    unfold ledger
    rw [get?_stores_relocate_of_ne hne hold]
  cases hstore : record.store with
  | none =>
      simp only
      by_cases heq : store = heap.nextStore next
      · rw [heq, hnew, Ledger.set_self]
      · rw [hother heq (by simp [hstore]), Ledger.set_of_ne _ _ heq]
  | some old =>
      have hne := ne_nextStore hsound (hholds.stores_eq old hstore) next
      simp only
      by_cases hold : store = old
      · rw [hold, Ledger.set_self, ledger, get?_stores_relocate_old hstore]
        rfl
      · rw [Ledger.set_of_ne _ _ hold]
        by_cases heq : store = heap.nextStore next
        · rw [heq, hnew, Ledger.set_self]
        · rw [hother heq (by simp [hstore, Ne.symm hold]), Ledger.set_of_ne _ _ heq]

/-- A move tells of the new store first, which was not there before, and then of the old
one, which still is as large as it was. -/
theorem tells_relocate (hsound : heap.Sound) (hholds : heap.Holds array record body) :
    heap.Tells (heap.relocate array record next) (heap.moveEvents record next) where
  replay_eq := by
    have hfree : heap.ledger (heap.nextStore next) = none := by
      unfold ledger
      rw [get?_nextStore hsound next]
      rfl
    rw [ledger_relocate hsound hholds, moveEvents, List.foldlM_cons, Ledger.record, if_pos hfree]
    cases hstore : record.store with
    | none => rfl
    | some old =>
        have hslots := hholds.stores_eq old hstore
        have hne := ne_nextStore hsound hslots next
        have hold : (heap.ledger.set (heap.nextStore next) (some next.slots.size)) old =
            (heap.stores.get? old).map Array.size := by
          rw [Ledger.set_of_ne _ _ hne]
          rfl
        have hsome : ((heap.stores.get? old).map Array.size).isSome = true := by
          rw [hslots]
          rfl
        simp only [Option.map_some, Option.toList_some, Option.bind_eq_bind, Option.bind_some,
          List.foldlM_cons, List.foldlM_nil, Ledger.record, if_pos (And.intro hsome hold)]
        rfl
  owners_eq := by
    intro hquiet
    have hfirst := hquiet _ List.mem_cons_self
    simp [Event.isOfStore] at hfirst

/-! ## Collecting -/

theorem ledger_release (heap : Heap) (store : StoreHandle) :
    ledger { heap with stores := (heap.stores.release store).2 } =
      heap.ledger.set store none := by
  funext other
  by_cases hother : other = store
  · rw [hother, Ledger.set_self, ledger]
    simp
  · rw [Ledger.set_of_ne _ _ hother]
    unfold ledger
    simp only
    rw [Arena.get?_release_of_ne _ hother]

/-- The releases of different stores can be replayed one after the other. -/
theorem foldlM_record_releaseEvents (stores : List StoreHandle) (hnodup : stores.Nodup)
    (heap : Heap) (hlive : ∀ store ∈ stores, heap.stores.isLive store = true) :
    (heap.releaseEvents stores).foldlM Ledger.record heap.ledger =
      some (ledger { heap with stores := heap.stores.releaseAll stores }) := by
  induction stores generalizing heap with
  | nil => rfl
  | cons store rest ih =>
      obtain ⟨hfresh, hrest⟩ := List.nodup_cons.1 hnodup
      obtain ⟨slots, hslots⟩ := Arena.isLive_iff.1 (hlive store List.mem_cons_self)
      have hreleased : Ledger.record heap.ledger
          (.storeReleased store ((heap.stores.get? store).map Array.size)) =
            some (heap.ledger.set store none) := by
        rw [Ledger.record, if_pos]
        refine ⟨?_, rfl⟩
        rw [hslots]
        rfl
      have hstill : ∀ other ∈ rest,
          (heap.stores.release store).2.isLive other = true := by
        intro other hother
        have hne : other ≠ store := by
          intro heq
          exact hfresh (heq ▸ hother)
        rw [Arena.isLive, Arena.get?_release_of_ne _ hne]
        exact hlive other (List.mem_cons_of_mem _ hother)
      have hlater := ih hrest { heap with stores := (heap.stores.release store).2 } hstill
      rw [Action.releaseEvents_release heap hfresh, ledger_release] at hlater
      rw [releaseEvents, List.map_cons, List.foldlM_cons, hreleased]
      exact hlater

/-- A store that goes takes its array with it, and is told of. -/
theorem tells_swept (hsound : heap.Sound) {marks : ByKind (Array Bool)} {roots : List Value}
    (hcollects : heap.Collects (heap.swept marks) roots) (freed : ByKind Nat) :
    heap.Tells (heap.swept marks)
      (heap.releaseEvents (heap.stores.unmarked marks.store) ++ [.collectionFinished freed]) where
  replay_eq := by
    have hnodup : (heap.stores.unmarked marks.store).Nodup :=
      (Arena.nodup_handles heap.stores).filter _
    rw [List.foldlM_append, foldlM_record_releaseEvents _ hnodup heap
      fun store hmem => (Arena.mem_unmarked.1 hmem).1]
    rfl
  owners_eq := by
    intro hquiet
    have hnone : heap.stores.unmarked marks.store = [] := by
      apply List.eq_nil_iff_forall_not_mem.2
      intro store hmem
      have htold := hquiet
        (.storeReleased store ((heap.stores.get? store).map Array.size))
        (List.mem_append_left _ (List.mem_map.2 ⟨store, hmem, rfl⟩))
      simp [Event.isOfStore] at htold
    have hstores : (heap.swept marks).stores = heap.stores := by
      change heap.stores.releaseAll (heap.stores.unmarked marks.store) = heap.stores
      rw [hnone, Arena.releaseAll_nil]
    apply ownStore?_eq_of_owns_iff
    intro array store
    refine ⟨hcollects.owns_before, ?_⟩
    intro howns
    have hlive : (heap.swept marks).stores.isLive store = true := by
      rw [hstores]
      exact hsound.ownership.owned_live howns
    obtain ⟨owner, howner⟩ := (hcollects.sound hsound).ownership.live_owned hlive
    rw [← hsound.ownership.owner_unique (hcollects.owns_before howner) howns]
    exact howner

end Heap

/-! ## The log of a run -/

namespace Agent

/-- What the log has gained since another state tells of the stores. -/
structure Reports (before agent : Agent) : Prop where
  sound : agent.Sound
  told : ∃ events : List Event, agent.log = before.log ++ events.toArray ∧
    before.heap.Tells agent.heap events

variable {before agent : Agent} {array : ArrayHandle} {record : ArrayRecord} {body : Body}
  {change : Change}

theorem Sound.reports_self (hsound : agent.Sound) : agent.Reports agent := by
  refine ⟨hsound, [], by simp, Heap.tells_refl ?_⟩
  simp

theorem Reports.extend (hreports : before.Reports agent) {later : Agent} {events : List Event}
    (hlater : later.Sound) (hlog : later.log = agent.log ++ events.toArray)
    (htells : agent.heap.Tells later.heap events) : before.Reports later := by
  obtain ⟨hsound, first, hfirst, htold⟩ := hreports
  refine ⟨hlater, first ++ events, ?_, htold.trans htells⟩
  rw [hlog, hfirst]
  simp

/-- The events of a change: what it announces, and what the stores report. -/
def changeEvents (agent : Agent) (record : ArrayRecord) : Change → List Event
  | .settle _ => []
  | .move notices next => notices ++ agent.heap.moveEvents record next
  | .refuse notices error => notices ++ [.allocationFailed error]

theorem discreet_refusal {notices : List Event} {error : AllocationError}
    (hdiscreet : (Change.refuse notices error).Discreet) :
    ∀ event ∈ notices ++ [.allocationFailed error], event.isOfStore = false := by
  intro event hmem
  rcases List.mem_append.1 hmem with hnotice | hfailed
  · exact hdiscreet event hnotice
  · rw [List.mem_singleton.1 hfailed]
    rfl

theorem log_carryOut {α : Type} (agent : Agent) (array : ArrayHandle) (record : ArrayRecord)
    (change : Change) (answer : α) :
    (change.carryOut array record answer agent).2.log =
      agent.log ++ (agent.changeEvents record change).toArray := by
  cases change with
  | settle next => simp [Change.carryOut, changeEvents, reshape]
  | move notices next => simp [Change.carryOut, changeEvents, relocate, note]
  | refuse notices error => simp [Change.carryOut, changeEvents, note]

theorem tells_carryOut {α : Type} (hsound : agent.Sound)
    (hholds : agent.heap.Holds array record body) (hsuits : change.Suits body)
    (hdiscreet : change.Discreet) (answer : α) :
    agent.heap.Tells (change.carryOut array record answer agent).2.heap
      (agent.changeEvents record change) := by
  cases change with
  | settle next => exact Heap.tells_reshape hholds hsuits.1 hsuits.2
  | move notices next =>
      exact (Heap.tells_refl hdiscreet).trans (Heap.tells_relocate hsound hholds)
  | refuse notices error => exact Heap.tells_refl (discreet_refusal hdiscreet)

theorem invariant_reports (before : Agent) : Action.Invariant before.Reports where
  sound _ hreports := hreports.sound
  stable := by
    intro agent heap hsame harenas hreports
    have hsound := hreports.sound
    exact hreports.extend (hsame.sound hsound (harenas hsound.arenas)) (by simp)
      hsame.tells
  withArray := by
    intro agent tag hreports
    have hsound := hreports.sound
    exact hreports.extend (Heap.sound_withArray hsound tag)
      (by simp [Agent.withArray]) (Heap.tells_withArray hsound tag)
  carryOut := by
    intro agent array record body change hreports hholds hsuits hdiscreet
    have hsound := hreports.sound
    exact hreports.extend (hsound.carryOut hholds hsuits ())
      (log_carryOut agent array record change ()) (tells_carryOut hsound hholds hsuits hdiscreet ())
  afterSweep := by
    intro agent marks roots hreports hcollects
    have hsound := hreports.sound
    have htells := Heap.tells_swept hsound hcollects
      (agent.heap.removed (agent.heap.swept marks))
    exact hreports.extend (hcollects.sound hsound) (by simp [afterSweep]) htells

/-! ## Arrays that move -/

/-- The array has moved out of a store.  Beside the notices the log has gained the
allocation of another store and, after it, the release of the old one. -/
def Moves (before after : Agent) (array : ArrayHandle) (old : StoreHandle)
    (notices : List Event) : Prop :=
  ∃ store slots oldSlots, store ≠ old ∧ after.heap.ownStore? array = some store ∧
    after.heap.ledger store = some slots ∧ before.heap.ledger old = some oldSlots ∧
    after.log = before.log ++
      (notices ++
        [Event.storeAllocated store slots, Event.storeReleased old (some oldSlots)]).toArray

/-- The stores of all arrays are what they were, and the log says nothing of stores. -/
def Stays (before after : Agent) (notices : List Event) : Prop :=
  after.heap.ownStore? = before.heap.ownStore? ∧ after.log = before.log ++ notices.toArray

def StaysOrMoves (before after : Agent) (array : ArrayHandle) (old : StoreHandle) : Prop :=
  ∃ notices : List Event, (∀ event ∈ notices, event.isOfStore = false) ∧
    (before.Stays after notices ∨ before.Moves after array old notices)

theorem moves_carryOut {α : Type} (hsound : agent.Sound)
    (hholds : agent.heap.Holds array record body) {old : StoreHandle}
    (hstore : record.store = some old) (notices : List Event) (next : Body) (answer : α) :
    agent.Moves ((Change.move notices next).carryOut array record answer agent).2 array old
      notices := by
  have hslots := hholds.stores_eq old hstore
  have hown : (agent.heap.relocate array record next).ownStore? array =
      some (agent.heap.nextStore next) := by
    unfold Heap.ownStore?
    rw [Heap.get?_relocate_self hholds]
    rfl
  have hnew : (agent.heap.relocate array record next).ledger (agent.heap.nextStore next) =
      some next.slots.size :=
    Heap.ledger_of_get? (Heap.get?_stores_relocate_new hsound hholds)
  have hevents : agent.heap.moveEvents record next =
      [.storeAllocated (agent.heap.nextStore next) next.slots.size,
        .storeReleased old (some body.slots.size)] := by
    simp only [Heap.moveEvents, hstore, hslots, Option.map_some, Option.toList_some]
  refine ⟨_, _, _, (Heap.ne_nextStore hsound hslots next).symm, hown, hnew,
    Heap.ledger_of_get? hslots, ?_⟩
  rw [log_carryOut, changeEvents, hevents]

theorem staysOrMoves_carryOut {α : Type} (hsound : agent.Sound)
    (hholds : agent.heap.Holds array record body) {old : StoreHandle}
    (hstore : record.store = some old) (hsuits : change.Suits body)
    (hdiscreet : change.Discreet) (answer : α) :
    agent.StaysOrMoves (change.carryOut array record answer agent).2 array old := by
  have htells := tells_carryOut hsound hholds hsuits hdiscreet answer
  have hlog := log_carryOut agent array record change answer
  cases change with
  | settle next =>
      have hquiet : ∀ event ∈ ([] : List Event), event.isOfStore = false := by simp
      exact ⟨[], hquiet, .inl ⟨funext (htells.owners_eq hquiet), hlog⟩⟩
  | move notices next =>
      exact ⟨notices, hdiscreet, .inr (moves_carryOut hsound hholds hstore notices next answer)⟩
  | refuse notices error =>
      have hquiet := discreet_refusal hdiscreet
      exact ⟨_, hquiet, .inl ⟨funext (htells.owners_eq hquiet), hlog⟩⟩

/-- A reallocation that succeeds is a move. -/
theorem reallocate_eq_ok (hsound : agent.Sound) (hholds : agent.heap.Holds array record body)
    {capacity headroom : Nat} {after : Agent}
    (hperform : (Action.reallocate array capacity headroom).perform agent = (.ok (), after)) :
    after = ((Change.move [] ⟨headroom, capacity, body.elements⟩).carryOut array record ()
      agent).2 := by
  have hwindow : record.window.length = body.elements.length := by
    rw [hholds.window_eq]
    rfl
  have hlength : ¬capacity < body.elements.length := by
    intro hshort
    unfold Action.reallocate at hperform
    rw [Action.perform_ite] at hperform
    split at hperform
    · simp at hperform
    · rw [Action.perform_bind, Action.perform_read, hholds.deref_eq, Action.andThen_ok,
        Action.perform_ite, if_pos (by omega)] at hperform
      simp at hperform
  have hmoving := @Action.perform_reallocate array record body agent hsound hholds
    ⟨headroom, capacity, body.elements⟩ (Nat.le_of_not_lt hlength) rfl
  simp only at hmoving
  rw [hperform] at hmoving
  cases hdenial : agent.options.denial? (headroom + capacity) with
  | some error =>
      rw [Change.moving_of_some hdenial] at hmoving
      simp [Change.carryOut] at hmoving
  | none =>
      rw [Change.moving_of_none hdenial] at hmoving
      exact congrArg Prod.snd hmoving

theorem exists_holds_of_ownStore? (hsound : agent.Sound) {old : StoreHandle}
    (hown : agent.heap.ownStore? array = some old) :
    ∃ record body, agent.heap.Holds array record body ∧ record.store = some old := by
  obtain ⟨record, hget, hstore⟩ := Heap.owns_iff.2 hown
  obtain ⟨body, hholds⟩ := hsound.exists_holds hget
  exact ⟨record, body, hholds, hstore⟩

/-- After any run, whatever faulted in it, the log can be replayed and gives the stores
that there are, with their sizes.  A step that logs nothing about a store leaves every
array in its store.  An array with a store that is reallocated comes to another store,
and exactly one allocation and then one release are logged; writes and method calls do
that once or not at all. -/
theorem store_log_run (options : Options) (operations : List (Operation Value)) :
    let agent := (start options).run operations
    Ledger.replay agent.log.toList = some agent.heap.ledger ∧
    (∀ operation, ∃ events : List Event,
      (agent.step operation).2.log = agent.log ++ events.toArray ∧
      ((∀ event ∈ events, event.isOfStore = false) →
        ∀ array, (agent.step operation).2.heap.ownStore? array = agent.heap.ownStore? array)) ∧
    ∀ array old, agent.heap.ownStore? array = some old →
      (∀ capacity headroom after,
        (Action.reallocate array capacity headroom).perform agent = (.ok (), after) →
        agent.Moves after array old []) ∧
      (∀ index value,
        agent.StaysOrMoves ((array.put index value).perform agent).2 array old) ∧
      ∀ method argument,
        agent.StaysOrMoves ((array.call method argument).perform agent).2 array old := by
  intro agent
  have hsound : agent.Sound := (sound_start options).run operations
  refine ⟨?_, ?_, ?_⟩
  · have hstart := (sound_start options).reports_self
    obtain ⟨_, events, hlog, htells⟩ :=
      (invariant_reports (start options)).run hstart operations
    have hlist : agent.log.toList = events := by
      rw [hlog]
      simp [start]
    rw [hlist]
    exact htells.replay_eq
  · intro operation
    obtain ⟨_, events, hlog, htells⟩ := Operation.keeps_perform (invariant_reports agent)
      Action.keeps_pure operation agent hsound.reports_self
    exact ⟨events, hlog, htells.owners_eq⟩
  · intro array old hown
    obtain ⟨record, body, hholds, hstore⟩ := exists_holds_of_ownStore? hsound hown
    refine ⟨?_, ?_, ?_⟩
    · intro capacity headroom after hperform
      rw [reallocate_eq_ok hsound hholds hperform]
      exact moves_carryOut hsound hholds hstore [] _ ()
    · intro index value
      by_cases hindex : index < 0
      · rw [ArrayHandle.perform_put_of_neg hholds hindex]
        exact ⟨[], by simp, .inl ⟨rfl, by simp⟩⟩
      · rw [ArrayHandle.perform_put hsound hholds (Int.not_lt.1 hindex)]
        exact staysOrMoves_carryOut hsound hholds hstore (hholds.fits.suits_put _ value)
          (Body.discreet_put _ value) value
    · intro method argument
      rw [ArrayHandle.perform_call hsound hholds]
      exact staysOrMoves_carryOut hsound hholds hstore
        (hholds.fits.suits_method method argument) (Body.discreet_method method argument) _

theorem store_log_run_doubled :
    ∃ after, (Action.reallocate ⟨0⟩ 2 0).perform
        ((start .standard).run [.literal [.integer 1] 0]) = (.ok (), after) ∧
      ((start .standard).run [.literal [.integer 1] 0]).Moves after ⟨0⟩ ⟨0⟩ [] := by
  have hstores := (store_log_run .standard [.literal [.integer 1] 0]).2.2
  exact ⟨_, rfl, (hstores ⟨0⟩ ⟨0⟩ rfl).1 2 0 _ rfl⟩

end Agent

end ManagedHeap
