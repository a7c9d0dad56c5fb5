import ManagedHeap.Proofs.LiveHandles

/-!
# Collections one after another

A collection keeps what refers to what among all that it keeps.  A second collection whose
roots were roots of the first therefore finds its way to the same entities as it would have
found in the heap before, and the first one has made no difference to what it leaves.  If
the roots are the same, then nothing is left for it to free.
-/

namespace ManagedHeap

namespace Arena

variable {kind : Kind} {α : Type} {before middle after other : Arena kind α}
variable {kept wanted : Handle kind → Prop} {marks : Array Bool}

theorem Retains.comp (hfirst : before.Retains middle kept) (hsecond : middle.Retains after wanted)
    (hsubset : ∀ handle, wanted handle → kept handle) : before.Retains after wanted where
  wellFormed := hsecond.wellFormed
  size_eq := hsecond.size_eq.trans hfirst.size_eq
  get?_kept := by
    intro handle hwanted
    rw [hsecond.get?_kept handle hwanted, hfirst.get?_kept handle (hsubset handle hwanted)]
  get?_dropped := hsecond.get?_dropped

theorem Retains.congr (hretains : before.Retains after kept)
    (hwanted : ∀ handle, wanted handle ↔ kept handle) : before.Retains after wanted where
  wellFormed := hretains.wellFormed
  size_eq := hretains.size_eq
  get?_kept handle hhandle := hretains.get?_kept handle ((hwanted handle).1 hhandle)
  get?_dropped handle hhandle :=
    hretains.get?_dropped handle fun hkept => hhandle ((hwanted handle).2 hkept)

theorem Retains.get?_eq (hafter : before.Retains after kept) (hother : before.Retains other kept)
    (handle : Handle kind) : other.get? handle = after.get? handle := by
  by_cases hkept : kept handle
  · rw [hafter.get?_kept handle hkept, hother.get?_kept handle hkept]
  · rw [hafter.get?_dropped handle hkept, hother.get?_dropped handle hkept]

/-- If nothing is lost by the release of what is not marked, then all is marked. -/
theorem Retains.unmarked_eq_nil
    (hretains : before.Retains (before.releaseAll (before.unmarked marks)) kept)
    (hkept : ∀ handle, before.isLive handle = true → kept handle) : before.unmarked marks = [] := by
  rw [← filter_releaseAll, List.filter_eq_nil_iff]
  intro handle hmem
  have hlive : before.isLive handle = true := mem_handles.1 hmem
  rw [(hretains.isLive_iff handle).2 ⟨hkept handle hlive, hlive⟩]
  exact Bool.false_ne_true

end Arena

namespace Heap

/-- The same entities are alive, and they hold the same. -/
structure SameEntities (first second : Heap) : Prop where
  arrays : ∀ array, second.arrays.get? array = first.arrays.get? array
  objects : ∀ object, second.objects.get? object = first.objects.get? object
  closures : ∀ closure, second.closures.get? closure = first.closures.get? closure
  numbers : ∀ number, second.numbers.get? number = first.numbers.get? number
  strings : ∀ string, second.strings.get? string = first.strings.get? string
  stores : ∀ store, second.stores.get? store = first.stores.get? store

theorem sameEntities_refl (heap : Heap) : heap.SameEntities heap :=
  ⟨fun _ => rfl, fun _ => rfl, fun _ => rfl, fun _ => rfl, fun _ => rfl, fun _ => rfl⟩

namespace Collects

variable {before middle after other : Heap} {larger roots : List Value} {entity : Entity}

/-- Collections with the same roots leave the same entities, whatever becomes of the slots. -/
theorem sameEntities (hafter : before.Collects after roots)
    (hother : before.Collects other roots) : after.SameEntities other where
  arrays := hafter.arrays.get?_eq hother.arrays
  objects := hafter.objects.get?_eq hother.objects
  closures := hafter.closures.get?_eq hother.closures
  numbers := hafter.numbers.get?_eq hother.numbers
  strings := hafter.strings.get?_eq hother.strings
  stores := hafter.stores.get?_eq hother.stores

/-! ## What refers to what afterwards -/

theorem refers_before (hcollects : before.Collects after roots) {source target : Entity}
    (hrefers : after.Refers source target) : before.Refers source target := by
  cases hrefers with
  | arrayHeader hrecord hvalue htarget =>
      exact .arrayHeader (hcollects.get?_arrays hrecord).2 hvalue htarget
  | arrayStore hrecord hstore => exact .arrayStore (hcollects.get?_arrays hrecord).2 hstore
  | arrayElement hrecord hstore hslots hindex hvalue htarget =>
      rw [hcollects.get?_ownStore hrecord hstore] at hslots
      exact .arrayElement (hcollects.get?_arrays hrecord).2 hstore hslots hindex hvalue htarget
  | objectHeader hrecord hvalue htarget =>
      exact .objectHeader (hcollects.objects.get?_eq_some_iff.1 hrecord).2 hvalue htarget
  | objectField hrecord hvalue htarget =>
      exact .objectField (hcollects.objects.get?_eq_some_iff.1 hrecord).2 hvalue htarget
  | closureEnv hrecord htarget =>
      exact .closureEnv (hcollects.closures.get?_eq_some_iff.1 hrecord).2 htarget

/-- What is kept still refers to all that it did.  An array that is kept has kept its store. -/
theorem refers_after (hcollects : before.Collects after roots) {source target : Entity}
    (hsource : before.Reaches roots source) (hrefers : before.Refers source target) :
    after.Refers source target := by
  cases hrefers with
  | @arrayHeader array _ _ _ hrecord hvalue htarget =>
      rw [← hcollects.arrays.get?_kept array hsource] at hrecord
      exact .arrayHeader hrecord hvalue htarget
  | @arrayStore array _ _ hrecord hstore =>
      rw [← hcollects.arrays.get?_kept array hsource] at hrecord
      exact .arrayStore hrecord hstore
  | @arrayElement array _ store _ _ _ _ hrecord hstore hslots hindex hvalue htarget =>
      have hreaches : before.Reaches roots store.entity :=
        .step hsource (.arrayStore hrecord hstore)
      rw [← hcollects.arrays.get?_kept array hsource] at hrecord
      rw [← hcollects.stores.get?_kept store hreaches] at hslots
      exact .arrayElement hrecord hstore hslots hindex hvalue htarget
  | @objectHeader object _ _ _ hrecord hvalue htarget =>
      rw [← hcollects.objects.get?_kept object hsource] at hrecord
      exact .objectHeader hrecord hvalue htarget
  | @objectField object _ _ _ hrecord hvalue htarget =>
      rw [← hcollects.objects.get?_kept object hsource] at hrecord
      exact .objectField hrecord hvalue htarget
  | @closureEnv closure _ _ hrecord htarget =>
      rw [← hcollects.closures.get?_kept closure hsource] at hrecord
      exact .closureEnv hrecord htarget

/-- Roots that were roots of the collection lead to the same entities as before it. -/
theorem reaches_iff (hcollects : before.Collects after larger)
    (hsubset : ∀ value ∈ roots, value ∈ larger) :
    after.Reaches roots entity ↔ before.Reaches roots entity := by
  constructor
  · intro hreaches
    induction hreaches with
    | root hvalue htarget => exact .root hvalue htarget
    | step _ hrefers ih => exact .step ih (hcollects.refers_before hrefers)
  · intro hreaches
    induction hreaches with
    | root hvalue htarget => exact .root hvalue htarget
    | step hsource hrefers ih =>
        exact .step ih (hcollects.refers_after (hsource.of_subset hsubset) hrefers)

/-! ## The second collection -/

/-- Two collections make one, if the second has no roots that the first did not have. -/
theorem comp (hfirst : before.Collects middle larger) (hsecond : middle.Collects after roots)
    (hsubset : ∀ value ∈ roots, value ∈ larger) : before.Collects after roots := by
  have hreaches : ∀ entity, before.Reaches roots entity ↔ middle.Reaches roots entity :=
    fun _ => (hfirst.reaches_iff hsubset).symm
  have hkept : ∀ entity, middle.Reaches roots entity → before.Reaches larger entity :=
    fun entity hentity => ((hreaches entity).2 hentity).of_subset hsubset
  exact
    { arrays := (hfirst.arrays.comp hsecond.arrays fun _ => hkept _).congr fun _ => hreaches _
      objects := (hfirst.objects.comp hsecond.objects fun _ => hkept _).congr fun _ => hreaches _
      closures :=
        (hfirst.closures.comp hsecond.closures fun _ => hkept _).congr fun _ => hreaches _
      numbers := (hfirst.numbers.comp hsecond.numbers fun _ => hkept _).congr fun _ => hreaches _
      strings := (hfirst.strings.comp hsecond.strings fun _ => hkept _).congr fun _ => hreaches _
      stores := (hfirst.stores.comp hsecond.stores fun _ => hkept _).congr fun _ => hreaches _ }

theorem not_meetsFreed (hcollects : before.Collects after larger)
    (hsubset : ∀ value ∈ roots, value ∈ larger) (hnone : ¬before.MeetsFreed larger) :
    ¬after.MeetsFreed roots := by
  rintro ⟨entity, hreaches, hkind, hinside, hdead⟩
  have hbefore : before.Reaches larger entity :=
    ((hcollects.reaches_iff hsubset).1 hreaches).of_subset hsubset
  rw [hcollects.sizes_eq] at hinside
  refine hnone ⟨entity, hbefore, hkind, hinside, ?_⟩
  rw [← Bool.not_eq_true] at hdead ⊢
  exact fun hlive => hdead (hcollects.isLive_iff.2 ⟨hbefore, hlive⟩)

theorem isLive_of_subset (hlarger : before.Collects after larger)
    (hroots : before.Collects other roots) (hsubset : ∀ value ∈ roots, value ∈ larger)
    (hlive : other.isLive entity = true) : after.isLive entity = true := by
  obtain ⟨hreaches, hbefore⟩ := hroots.isLive_iff.1 hlive
  exact hlarger.isLive_iff.2 ⟨hreaches.of_subset hsubset, hbefore⟩

/-- After a collection the same roots lead to everything that is left. -/
theorem reaches_of_isLive (hcollects : before.Collects after roots)
    (hlive : after.isLive entity = true) : after.Reaches roots entity :=
  (hcollects.reaches_iff fun _ hvalue => hvalue).2 (hcollects.isLive_iff.1 hlive).1

end Collects

variable {heap : Heap} {roots : List Value} {marks : ByKind (Array Bool)}

theorem garbage_eq_nil (hcollects : heap.Collects (heap.swept marks) roots)
    (hreaches : ∀ entity, heap.isLive entity = true → heap.Reaches roots entity) :
    heap.garbage marks = ⟨[], [], [], [], [], []⟩ := by
  unfold garbage
  rw [hcollects.arrays.unmarked_eq_nil fun array => hreaches array.entity,
    hcollects.objects.unmarked_eq_nil fun object => hreaches object.entity,
    hcollects.closures.unmarked_eq_nil fun closure => hreaches closure.entity,
    hcollects.numbers.unmarked_eq_nil fun number => hreaches number.entity,
    hcollects.strings.unmarked_eq_nil fun string => hreaches string.entity,
    hcollects.stores.unmarked_eq_nil fun store => hreaches store.entity]

end Heap

namespace Agent

variable {agent : Agent} {larger roots : List Value} {marks : ByKind (Array Bool)}

/-- A sweep that finds no garbage changes nothing in the heap and reports no release. -/
theorem afterSweep_eq_of_garbage (hgarbage : agent.heap.garbage marks = ⟨[], [], [], [], [], []⟩) :
    agent.afterSweep marks =
      { agent with log := agent.log.push (.collectionFinished ⟨0, 0, 0, 0, 0, 0⟩) } := by
  have hstores : agent.heap.stores.unmarked marks.store = [] := congrArg Garbage.stores hgarbage
  have hswept : agent.heap.swept marks = agent.heap := by
    unfold Heap.swept Heap.discard
    rw [hgarbage, hstores]
    rfl
  unfold afterSweep
  rw [Heap.removed_swept, hgarbage, hstores, hswept]
  simp [Heap.releaseEvents, Garbage.counts]

/-- A collection whose roots lead to everything frees nothing. -/
theorem collect_of_reaches (hsound : agent.heap.Sound)
    (henabled : agent.options.disableCollection = false) (hnone : ¬agent.heap.MeetsFreed roots)
    (hreaches : ∀ entity, agent.heap.isLive entity = true → agent.heap.Reaches roots entity) :
    (Action.collect roots).perform agent =
      (.ok (), { agent with
        log := agent.log.push (.collectionFinished ⟨0, 0, 0, 0, 0, 0⟩) }) := by
  obtain ⟨marks, hcollects, hperform⟩ := Action.perform_collect hsound henabled hnone
  rw [hperform, afterSweep_eq_of_garbage (Heap.garbage_eq_nil hcollects hreaches)]

/-- What a second collection with the same roots adds to the log. -/
def emptyReport (options : Options) : Array Event :=
  if options.disableCollection then #[] else #[.collectionFinished ⟨0, 0, 0, 0, 0, 0⟩]

theorem collections_absorb (hsound : agent.heap.Sound) (hnone : ¬agent.heap.MeetsFreed larger)
    (hsubset : ∀ value ∈ roots, value ∈ larger) :
    ∃ first both alone : Agent,
      (Action.collect larger).perform agent = (.ok (), first) ∧
      (Action.collect roots).perform first = (.ok (), both) ∧
      (Action.collect roots).perform agent = (.ok (), alone) ∧
      alone.heap.SameEntities both.heap ∧
      (∀ entity, alone.heap.isLive entity = true → first.heap.isLive entity = true) ∧
      (Action.collect larger).perform first =
        (.ok (), { first with log := first.log ++ emptyReport agent.options }) := by
  unfold emptyReport
  cases hdisabled : agent.options.disableCollection with
  | true =>
      have hcollect := Action.perform_collect_of_disabled hdisabled
      refine ⟨agent, agent, agent, hcollect larger, hcollect roots, hcollect roots,
        agent.heap.sameEntities_refl, fun _ hlive => hlive, ?_⟩
      rw [hcollect larger, if_pos rfl, Array.append_empty]
  | false =>
      have hfewer : ¬agent.heap.MeetsFreed roots := fun hmeets => hnone (hmeets.of_subset hsubset)
      obtain ⟨marks, hfirst, hperform⟩ := Action.perform_collect hsound hdisabled hnone
      obtain ⟨_, halone, hdirect⟩ := Action.perform_collect hsound hdisabled hfewer
      have hafter : (agent.afterSweep marks).heap.Sound := hfirst.sound hsound
      have hnext : ∀ others : List Value, (∀ value ∈ others, value ∈ larger) →
          ¬(agent.afterSweep marks).heap.MeetsFreed others :=
        fun _ hothers => hfirst.not_meetsFreed hothers hnone
      obtain ⟨_, hboth, hsecond⟩ := Action.perform_collect hafter hdisabled (hnext roots hsubset)
      have hagain := collect_of_reaches hafter hdisabled (hnext larger fun _ hvalue => hvalue)
        fun _ hlive => hfirst.reaches_of_isLive hlive
      refine ⟨_, _, _, hperform, hsecond, hdirect,
        halone.sameEntities (hfirst.comp hboth hsubset), ?_, ?_⟩
      · exact fun _ hlive => hfirst.isLive_of_subset halone hsubset hlive
      · rw [hagain, if_neg Bool.false_ne_true, Array.push_eq_append]

/-- In every state that a run with living handles brings about, a collection may be preceded by
one that has all its roots, and it leaves the same entities with the same contents.  More roots
keep no less alive, and to collect with the same roots again does nothing. -/
theorem collections_absorb_run (options : Options) {operations : List (Operation Value)}
    (hadmits : (start options).AdmitsAll operations) {larger roots : List Value}
    (hlarger : ∀ value ∈ larger, ((start options).run operations).heap.Lives value)
    (hsubset : ∀ value ∈ roots, value ∈ larger) :
    ∃ first both alone : Agent,
      (Action.collect larger).perform ((start options).run operations) = (.ok (), first) ∧
      (Action.collect roots).perform first = (.ok (), both) ∧
      (Action.collect roots).perform ((start options).run operations) = (.ok (), alone) ∧
      alone.heap.SameEntities both.heap ∧
      (∀ entity, alone.heap.isLive entity = true → first.heap.isLive entity = true) ∧
      (Action.collect larger).perform first =
        (.ok (), { first with log := first.log ++ emptyReport options }) := by
  obtain ⟨ρ, other, hmirrors⟩ := (mirrored_start options).run hadmits
  have hnone : ¬((start options).run operations).heap.MeetsFreed larger :=
    hmirrors.heap.not_meetsFreed fun value hvalue =>
      hmirrors.heap.exists_partner (hlarger value hvalue)
  have habsorb := collections_absorb hmirrors.heap.sound hnone hsubset
  rwa [options_run] at habsorb

/-- The empty array outlives only the first of the collections. -/
theorem collections_absorb_run_fewer :
    let reached := (start .standard).run [.newArray 0, .strings ["kept"] 0]
    ∃ first both alone : Agent,
      (Action.collect [.array ⟨0⟩, .array ⟨1⟩]).perform reached = (.ok (), first) ∧
      (Action.collect [.array ⟨1⟩]).perform first = (.ok (), both) ∧
      (Action.collect [.array ⟨1⟩]).perform reached = (.ok (), alone) ∧
      alone.heap.SameEntities both.heap ∧
      first.heap.isLive ⟨.array, 0⟩ = true ∧ alone.heap.isLive ⟨.array, 0⟩ = false ∧
      (Action.collect [.array ⟨0⟩, .array ⟨1⟩]).perform first =
        (.ok (), { first with
          log := first.log ++ #[.collectionFinished ⟨0, 0, 0, 0, 0, 0⟩] }) := by
  intro reached
  have hadmits : (start .standard).AdmitsAll [.newArray 0, .strings ["kept"] 0] := by
    decide +kernel
  have hlive : reached.Admits (.collect [.array ⟨0⟩, .array ⟨1⟩]) := by
    decide +kernel
  have hlarger : ∀ value ∈ [.array ⟨0⟩, .array ⟨1⟩], reached.heap.Lives value := hlive
  have hkept : ((Action.collect [.array ⟨0⟩, .array ⟨1⟩]).perform reached).2.heap.isLive
      ⟨.array, 0⟩ = true := by
    decide +kernel
  have hfreed : ((Action.collect [.array ⟨1⟩]).perform reached).2.heap.isLive
      ⟨.array, 0⟩ = false := by
    decide +kernel
  have hsubset : ∀ value ∈ [Value.array ⟨1⟩], value ∈ [Value.array ⟨0⟩, .array ⟨1⟩] := by
    simp
  obtain ⟨first, both, alone, hfirst, hboth, halone, hsame, -, hagain⟩ :=
    collections_absorb_run .standard hadmits hlarger hsubset
  rw [show (Action.collect _).perform reached = _ from hfirst] at hkept
  rw [show (Action.collect _).perform reached = _ from halone] at hfreed
  exact ⟨first, both, alone, hfirst, hboth, halone, hsame, hkept, hfreed, hagain⟩

end Agent

end ManagedHeap
