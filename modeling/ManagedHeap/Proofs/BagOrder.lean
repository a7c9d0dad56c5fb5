import ManagedHeap.Proofs.Resemblance

/-!
# The order of the bags

Marking takes up the properties of a bag in the order of its entries, and so the order
decides which of several freed slots a collection comes upon first.  It decides nothing
else.  Heaps that differ in the order of their bags lead from the same roots to the same
entities, and a collection faults in both of them or in neither.
-/

namespace ManagedHeap

namespace Arena

variable {kind : Kind} {α : Type} {related : α → α → Prop} {first second : Arena kind α}

/-- The same slots are occupied, each by entities that are related. -/
structure Alike (first second : Arena kind α) (related : α → α → Prop) : Prop where
  slots : first.SameSlots second
  entities : ∀ {handle : Handle kind} {entity : α}, first.get? handle = some entity →
    ∃ other, second.get? handle = some other ∧ related entity other

theorem alike_refl (hrefl : ∀ entity, related entity entity) (arena : Arena kind α) :
    arena.Alike arena related where
  slots := arena.sameSlots_refl
  entities hget := ⟨_, hget, hrefl _⟩

theorem alike_modify (hrefl : ∀ entity, related entity entity) (arena : Arena kind α)
    (handle : Handle kind) {change : α → α} (hchange : ∀ entity, related entity (change entity)) :
    arena.Alike (arena.modify handle change) related where
  slots := sameSlots_modify arena handle change
  entities := by
    intro other entity hget
    by_cases hother : other = handle
    · subst hother
      refine ⟨change entity, ?_, hchange entity⟩
      rw [get?_modify_self, hget, Option.map_some]
    · refine ⟨entity, ?_, hrefl entity⟩
      rw [get?_modify_of_ne _ _ hother, hget]

theorem Alike.symm (halike : first.Alike second related)
    (hsymm : ∀ {entity other}, related entity other → related other entity) :
    second.Alike first related where
  slots := halike.slots.symm
  entities := by
    intro handle other hother
    cases hget : first.get? handle with
    | none =>
        rw [(halike.slots.get?_eq_none_iff handle).2 hget] at hother
        contradiction
    | some entity =>
        obtain ⟨same, hsame, hrelated⟩ := halike.entities hget
        rw [hother, Option.some.injEq] at hsame
        subst hsame
        exact ⟨entity, rfl, hsymm hrelated⟩

theorem Alike.trans {third : Arena kind α} (hfirst : first.Alike second related)
    (hsecond : second.Alike third related)
    (htrans : ∀ {entity other another}, related entity other → related other another →
      related entity another) :
    first.Alike third related where
  slots := hfirst.slots.trans hsecond.slots
  entities := by
    intro handle entity hget
    obtain ⟨other, hother, hrelated⟩ := hfirst.entities hget
    obtain ⟨another, hanother, hfurther⟩ := hsecond.entities hother
    exact ⟨another, hanother, htrans hrelated hfurther⟩

end Arena

/-! ## Bags in another order -/

/-- The headers differ in nothing but the order of their bags. -/
structure Header.Reorders (first second : Header) : Prop where
  proto_eq : second.proto = first.proto
  tag_eq : second.tag = first.tag
  bag_perm : second.bag.entries.Perm first.bag.entries

namespace Header

variable {first second third : Header}

theorem reorders_refl (header : Header) : header.Reorders header :=
  ⟨rfl, rfl, .refl _⟩

theorem Reorders.symm (hreorders : first.Reorders second) : second.Reorders first :=
  ⟨hreorders.proto_eq.symm, hreorders.tag_eq.symm, hreorders.bag_perm.symm⟩

theorem Reorders.trans (hfirst : first.Reorders second) (hsecond : second.Reorders third) :
    first.Reorders third :=
  ⟨hsecond.proto_eq.trans hfirst.proto_eq, hsecond.tag_eq.trans hfirst.tag_eq,
    hsecond.bag_perm.trans hfirst.bag_perm⟩

/-- The values are the same ones. -/
theorem Reorders.mem_values (hreorders : first.Reorders second) {value : Value}
    (hvalue : value ∈ first.values) : value ∈ second.values := by
  unfold values at hvalue ⊢
  rw [hreorders.proto_eq]
  rcases List.mem_append.1 hvalue with hproto | hbag
  · exact List.mem_append_left _ hproto
  · exact List.mem_append_right _ ((hreorders.bag_perm.map Prod.snd).mem_iff.2 hbag)

end Header

/-- The arrays differ in nothing but the order of their bags. -/
structure ArrayRecord.Reorders (first second : ArrayRecord) : Prop where
  header : first.header.Reorders second.header
  window_eq : second.window = first.window
  store_eq : second.store = first.store

/-- The objects differ in nothing but the order of their bags. -/
structure ObjectRecord.Reorders (first second : ObjectRecord) : Prop where
  header : first.header.Reorders second.header
  map_eq : second.map = first.map
  fields_eq : second.fields = first.fields

theorem ArrayRecord.reorders_refl (record : ArrayRecord) : record.Reorders record :=
  ⟨record.header.reorders_refl, rfl, rfl⟩

theorem ObjectRecord.reorders_refl (record : ObjectRecord) : record.Reorders record :=
  ⟨record.header.reorders_refl, rfl, rfl⟩

theorem ArrayRecord.Reorders.symm {first second : ArrayRecord}
    (hreorders : first.Reorders second) : second.Reorders first :=
  ⟨hreorders.header.symm, hreorders.window_eq.symm, hreorders.store_eq.symm⟩

theorem ObjectRecord.Reorders.symm {first second : ObjectRecord}
    (hreorders : first.Reorders second) : second.Reorders first :=
  ⟨hreorders.header.symm, hreorders.map_eq.symm, hreorders.fields_eq.symm⟩

theorem ArrayRecord.Reorders.trans {first second third : ArrayRecord}
    (hfirst : first.Reorders second) (hsecond : second.Reorders third) : first.Reorders third :=
  ⟨hfirst.header.trans hsecond.header, hsecond.window_eq.trans hfirst.window_eq,
    hsecond.store_eq.trans hfirst.store_eq⟩

theorem ObjectRecord.Reorders.trans {first second third : ObjectRecord}
    (hfirst : first.Reorders second) (hsecond : second.Reorders third) : first.Reorders third :=
  ⟨hfirst.header.trans hsecond.header, hsecond.map_eq.trans hfirst.map_eq,
    hsecond.fields_eq.trans hfirst.fields_eq⟩

namespace Heap

/-- The heaps differ in nothing but the order of the bags. -/
structure Reorders (first second : Heap) : Prop where
  arrays : first.arrays.Alike second.arrays ArrayRecord.Reorders
  objects : first.objects.Alike second.objects ObjectRecord.Reorders
  closures_eq : second.closures = first.closures
  numbers_eq : second.numbers = first.numbers
  strings_eq : second.strings = first.strings
  stores_eq : second.stores = first.stores

theorem reorders_refl (heap : Heap) : heap.Reorders heap where
  arrays := Arena.alike_refl ArrayRecord.reorders_refl heap.arrays
  objects := Arena.alike_refl ObjectRecord.reorders_refl heap.objects
  closures_eq := rfl
  numbers_eq := rfl
  strings_eq := rfl
  stores_eq := rfl

/-- One header can be put in another order. -/
theorem reorders_changeHeader (heap : Heap) (object : Object) {change : Header → Header}
    (hchange : ∀ header : Header, header.Reorders (change header)) :
    heap.Reorders (heap.changeHeader object change) := by
  have hsame := heap.reorders_refl
  cases object with
  | ordinary handle =>
      refine { hsame with objects := Arena.alike_modify ObjectRecord.reorders_refl _ _ ?_ }
      exact fun record => ⟨hchange record.header, rfl, rfl⟩
  | array handle =>
      refine { hsame with arrays := Arena.alike_modify ArrayRecord.reorders_refl _ _ ?_ }
      exact fun record => ⟨hchange record.header, rfl, rfl⟩

namespace Reorders

variable {first second : Heap} {roots : List Value} (hreorders : first.Reorders second)

include hreorders

theorem symm : second.Reorders first where
  arrays := hreorders.arrays.symm ArrayRecord.Reorders.symm
  objects := hreorders.objects.symm ObjectRecord.Reorders.symm
  closures_eq := hreorders.closures_eq.symm
  numbers_eq := hreorders.numbers_eq.symm
  strings_eq := hreorders.strings_eq.symm
  stores_eq := hreorders.stores_eq.symm

theorem trans {third : Heap} (hsecond : second.Reorders third) : first.Reorders third where
  arrays := hreorders.arrays.trans hsecond.arrays ArrayRecord.Reorders.trans
  objects := hreorders.objects.trans hsecond.objects ObjectRecord.Reorders.trans
  closures_eq := hsecond.closures_eq.trans hreorders.closures_eq
  numbers_eq := hsecond.numbers_eq.trans hreorders.numbers_eq
  strings_eq := hsecond.strings_eq.trans hreorders.strings_eq
  stores_eq := hsecond.stores_eq.trans hreorders.stores_eq

theorem samePlacement : first.SamePlacement second where
  stores_eq := hreorders.stores_eq
  arrays_eq := by
    intro array
    cases hget : first.arrays.get? array with
    | none => rw [(hreorders.arrays.slots.get?_eq_none_iff array).2 hget]
    | some record =>
        obtain ⟨other, hother, hsame⟩ := hreorders.arrays.entities hget
        rw [hother, Option.map_some, Option.map_some, hsame.window_eq, hsame.store_eq]

theorem sound (hsound : first.Sound) : second.Sound := by
  apply hreorders.samePlacement.sound hsound
  exact
    { arrays := hreorders.arrays.slots.wellFormed hsound.arenas.arrays
      objects := hreorders.objects.slots.wellFormed hsound.arenas.objects
      closures := hreorders.closures_eq ▸ hsound.arenas.closures
      numbers := hreorders.numbers_eq ▸ hsound.arenas.numbers
      strings := hreorders.strings_eq ▸ hsound.arenas.strings
      stores := hreorders.stores_eq ▸ hsound.arenas.stores }

theorem sizes_eq : second.sizes = first.sizes := by
  unfold sizes
  rw [hreorders.arrays.slots.size_eq, hreorders.objects.slots.size_eq, hreorders.closures_eq,
    hreorders.numbers_eq, hreorders.strings_eq, hreorders.stores_eq]

theorem isLive_eq (entity : Entity) : second.isLive entity = first.isLive entity := by
  obtain ⟨kind, slot⟩ := entity
  unfold isLive
  cases kind with
  | array => exact hreorders.arrays.slots.live_eq ⟨slot⟩
  | object => exact hreorders.objects.slots.live_eq ⟨slot⟩
  | closure => simp only [hreorders.closures_eq]
  | number => simp only [hreorders.numbers_eq]
  | string => simp only [hreorders.strings_eq]
  | store => simp only [hreorders.stores_eq]

/-! ## What the roots lead to -/

theorem refers {source target : Entity} (hrefers : first.Refers source target) :
    second.Refers source target := by
  cases hrefers with
  | arrayHeader hrecord hvalue htarget =>
      obtain ⟨other, hother, hsame⟩ := hreorders.arrays.entities hrecord
      exact .arrayHeader hother (hsame.header.mem_values hvalue) htarget
  | arrayStore hrecord hstore =>
      obtain ⟨other, hother, hsame⟩ := hreorders.arrays.entities hrecord
      exact .arrayStore hother (hsame.store_eq.trans hstore)
  | arrayElement hrecord hstore hslots hindex hvalue htarget =>
      obtain ⟨other, hother, hsame⟩ := hreorders.arrays.entities hrecord
      rw [← hsame.store_eq] at hstore
      rw [← hreorders.stores_eq] at hslots
      rw [← hsame.window_eq] at hindex hvalue
      exact .arrayElement hother hstore hslots hindex hvalue htarget
  | objectHeader hrecord hvalue htarget =>
      obtain ⟨other, hother, hsame⟩ := hreorders.objects.entities hrecord
      exact .objectHeader hother (hsame.header.mem_values hvalue) htarget
  | objectField hrecord hvalue htarget =>
      obtain ⟨other, hother, hsame⟩ := hreorders.objects.entities hrecord
      rw [← hsame.fields_eq] at hvalue
      exact .objectField hother hvalue htarget
  | closureEnv hrecord htarget =>
      rw [← hreorders.closures_eq] at hrecord
      exact .closureEnv hrecord htarget

theorem reaches {entity : Entity} (hreaches : first.Reaches roots entity) :
    second.Reaches roots entity := by
  induction hreaches with
  | root hvalue htarget => exact .root hvalue htarget
  | step _ hrefers ih => exact .step ih (hreorders.refers hrefers)

theorem meetsFreed (hfreed : first.MeetsFreed roots) : second.MeetsFreed roots := by
  obtain ⟨entity, hreaches, hkind, hinside, hdead⟩ := hfreed
  rw [← hreorders.sizes_eq] at hinside
  rw [← hreorders.isLive_eq] at hdead
  exact ⟨entity, hreorders.reaches hreaches, hkind, hinside, hdead⟩

theorem meetsFreed_iff (roots : List Value) :
    second.MeetsFreed roots ↔ first.MeetsFreed roots :=
  ⟨hreorders.symm.meetsFreed, hreorders.meetsFreed⟩

end Reorders

end Heap

/-! ## Collections that fault -/

namespace Action

variable {agent : Agent}

/-- A collection completes, or the roots lead to a freed slot and nothing happens. -/
theorem perform_collect_cases (hsound : agent.heap.Sound)
    (henabled : agent.options.disableCollection = false) (roots : List Value) :
    ((collect roots).perform agent = (.error .slotEmpty, agent) ∧
        agent.heap.MeetsFreed roots) ∨
      (((collect roots).perform agent).1 = .ok () ∧ ¬agent.heap.MeetsFreed roots) := by
  by_cases hfreed : agent.heap.MeetsFreed roots
  · exact .inl ⟨perform_collect_of_freed hsound henabled hfreed, hfreed⟩
  · obtain ⟨marks, -, hcollect⟩ := perform_collect hsound henabled hfreed
    exact .inr ⟨congrArg Prod.fst hcollect, hfreed⟩

end Action

namespace Agent

/-- In every state that a run brings about, whatever the order of the bags in it, a
collection fails just if the roots lead to a freed slot, and leaves all as it was. -/
theorem collect_faults_run (options : Options) (henabled : options.disableCollection = false)
    (operations : List (Operation Value)) {heap : Heap}
    (hheap : ((start options).run operations).heap.Reorders heap) (roots : List Value) :
    let reached := (start options).run operations
    let agent := { reached with heap := heap }
    let outcome := (Action.collect roots).perform agent
    ((∃ cause, outcome.1 = .error cause ∧ cause.message = "Heap slot empty") ↔
        reached.heap.MeetsFreed roots) ∧
      (∀ cause, outcome.1 = .error cause → outcome.2 = agent) ∧
      (¬reached.heap.MeetsFreed roots → outcome.1 = .ok ()) := by
  intro reached agent outcome
  have hsound : agent.heap.Sound := hheap.sound ((sound_start options).run operations)
  have hoptions : agent.options = options := options_run options operations
  have hagree : agent.heap.MeetsFreed roots ↔ reached.heap.MeetsFreed roots :=
    hheap.meetsFreed_iff roots
  rw [← hagree]
  rcases Action.perform_collect_cases hsound (hoptions ▸ henabled) roots with
    ⟨hcollect, hfreed⟩ | ⟨hcollect, hfreed⟩
  · refine ⟨⟨fun _ => hfreed, fun _ => ⟨.slotEmpty, ?_, rfl⟩⟩, ?_, ?_⟩
    · exact congrArg Prod.fst hcollect
    · exact fun _ _ => congrArg Prod.snd hcollect
    · exact fun hnone => absurd hfreed hnone
  · have hok : ∀ cause, outcome.1 ≠ .error cause := by
      intro cause herror
      exact absurd (hcollect.symm.trans herror) (by simp)
    refine ⟨⟨?_, fun hmeets => absurd hmeets hfreed⟩, ?_, fun _ => hcollect⟩
    · rintro ⟨cause, herror, -⟩
      exact absurd herror (hok cause)
    · exact fun cause herror => absurd herror (hok cause)

/-- A closure keeps the handle of an array that has been freed.  The bag of the prototype
is read from its other end. -/
theorem collect_faults_run_stale :
    let reached := (start .standard).run
      [.newArray 0, .collect [], .newClosure (.array ⟨0⟩) .environment]
    let agent := { reached with
      heap := reached.heap.changeHeader (.ordinary arrayPrototype) fun header =>
        { header with bag := ⟨header.bag.entries.reverse⟩ } }
    reached.heap.MeetsFreed [.closure ⟨5⟩] ∧
      (Action.collect [.closure ⟨5⟩]).perform agent = (.error .slotEmpty, agent) ∧
      ((Action.collect []).perform agent).1 = .ok () := by
  intro reached agent
  have hreverse : ∀ header : Header,
      header.Reorders { header with bag := ⟨header.bag.entries.reverse⟩ } :=
    fun header => ⟨rfl, rfl, header.bag.entries.reverse_perm⟩
  have hheap := reached.heap.reorders_changeHeader (.ordinary arrayPrototype) hreverse
  have hfault : ((Action.collect [.closure ⟨5⟩]).perform agent).1 = .error .slotEmpty := by
    decide +kernel
  have hcompletes : ((Action.collect []).perform agent).1 = .ok () := by
    decide +kernel
  obtain ⟨hiff, hkeeps, -⟩ := collect_faults_run .standard rfl _ hheap [.closure ⟨5⟩]
  exact ⟨hiff.1 ⟨_, hfault, rfl⟩, Prod.ext hfault (hkeeps _ hfault), hcompletes⟩

end Agent

end ManagedHeap
