import ManagedHeap.Collector.Reachability
import ManagedHeap.Invariant
import ManagedHeap.Proofs.MarkingRounds

/-!
# Marking finds what can be reached

Marking keeps one invariant over the marks and the references still to be looked
at: marks are set only on what the roots lead to, and whatever a marked entity
refers to is marked too, or lies beyond its arena, or is still to be looked at.
When nothing is left to look at, exactly the reachable slots are marked.

A store is marked with the window of the array through which it was found.  This
is the window of the only array that has the store.
-/

namespace ManagedHeap

theorem Arena.deref_of_dead {kind : Kind} {α : Type} {arena : Arena kind α}
    {handle : Handle kind} (hsize : handle.slot < arena.size)
    (hdead : arena.isLive handle = false) : arena.deref handle = .error .slotEmpty := by
  have hnone : arena.get? handle = none := by simpa [isLive] using hdead
  exact deref_eq_error_iff.2 (.inr ⟨(slots_eq_some_none_iff arena handle).2 ⟨hsize, hnone⟩, rfl⟩)

theorem Value.mem_references {values : List Value} {reference : Reference} :
    reference ∈ Value.references values ↔
      ∃ value ∈ values, ∃ target, value.entity? = some target ∧
        reference = .entity target := by
  simp only [references, List.mem_map, List.mem_filterMap]
  constructor
  · rintro ⟨target, ⟨value, hvalue, htarget⟩, rfl⟩
    exact ⟨value, hvalue, target, htarget, rfl⟩
  · rintro ⟨value, hvalue, target, htarget, rfl⟩
    exact ⟨target, ⟨value, hvalue, htarget⟩, rfl⟩

theorem Value.kind_ne_store {value : Value} {target : Entity}
    (htarget : value.entity? = some target) : target.kind ≠ .store := by
  intro hkind
  cases value with
  | undefined | null | boolean _ | integer _ => simp [entity?] at htarget
  | number handle | string handle | object handle | array handle | closure handle =>
      simp only [entity?, Option.some.injEq] at htarget
      rw [← htarget] at hkind
      simp [Handle.entity] at hkind

/-- How marking refers to the store of an array. -/
def ArrayRecord.reference? (record : ArrayRecord) : Option Reference :=
  record.store.map fun store => .window store record.window.offset record.window.length

theorem ArrayRecord.mem_reference? {record : ArrayRecord} {store : StoreHandle}
    (hstore : record.store = some store) :
    Reference.window store record.window.offset record.window.length ∈
      record.reference?.toList := by
  simp [reference?, hstore]

theorem mem_extract_iff {slots : Array Value} {offset length : Nat}
    (hinside : offset + length ≤ slots.size) {value : Value} :
    value ∈ (slots.extract offset (offset + length)).toList ↔
      ∃ index < length, slots[offset + index]? = some value := by
  rw [List.mem_iff_getElem?]
  have hmin : min (offset + length) slots.size - offset = length := by omega
  simp only [Array.getElem?_toList, Array.getElem?_extract, hmin]
  constructor
  · rintro ⟨index, hvalue⟩
    split at hvalue
    · rename_i hindex
      exact ⟨index, hindex, hvalue⟩
    · contradiction
  · rintro ⟨index, hindex, hvalue⟩
    refine ⟨index, ?_⟩
    rw [if_pos hindex]
    exact hvalue

namespace Heap

variable {heap : Heap} {roots : List Value}

/-! ## What marking can come across -/

/-- The slot of an array, an object or a closure that is in its arena and empty. -/
def Freed (heap : Heap) (entity : Entity) : Prop :=
  (entity.kind = .array ∨ entity.kind = .object ∨ entity.kind = .closure) ∧
    entity.slot < heap.sizes.get entity.kind ∧ heap.isLive entity = false

/-- The roots lead to a handle of a freed array, object or closure. -/
def MeetsFreed (heap : Heap) (roots : List Value) : Prop :=
  ∃ entity, heap.Reaches roots entity ∧ heap.Freed entity

theorem MeetsFreed.of_subset {others : List Value} (hsubset : ∀ value ∈ roots, value ∈ others)
    (hfreed : heap.MeetsFreed roots) : heap.MeetsFreed others := by
  obtain ⟨entity, hreaches, hentity⟩ := hfreed
  exact ⟨entity, hreaches.of_subset hsubset, hentity⟩

/-- Where no slot is free there is nothing to meet. -/
theorem not_meetsFreed_of_free_eq_nil (harenas : heap.ArenasWellFormed)
    (harrays : heap.arrays.free = []) (hobjects : heap.objects.free = [])
    (hclosures : heap.closures.free = []) : ¬heap.MeetsFreed roots := by
  have hlive : ∀ {kind : Kind} {α : Type} {arena : Arena kind α} {slot : Nat},
      arena.WellFormed → arena.free = [] → slot < arena.size →
      arena.isLive ⟨slot⟩ = true := by
    intro kind α arena slot harena hfree hsize
    rw [Arena.isLive, Option.isSome_iff_ne_none]
    intro hnone
    have hempty := (Arena.slots_eq_some_none_iff arena ⟨slot⟩).2 ⟨hsize, hnone⟩
    have hmem := (harena.mem_free_iff slot).2 hempty
    rw [hfree] at hmem
    exact List.not_mem_nil hmem
  rintro ⟨⟨kind, slot⟩, _, hkind, hsize, hdead⟩
  simp only at hkind
  rcases hkind with rfl | rfl | rfl
  · exact Bool.eq_false_iff.1 hdead (hlive harenas.arrays harrays hsize)
  · exact Bool.eq_false_iff.1 hdead (hlive harenas.objects hobjects hsize)
  · exact Bool.eq_false_iff.1 hdead (hlive harenas.closures hclosures hsize)

/-- A reference that the roots lead to.  A store is met with the window of an
array that has it. -/
inductive Leads (heap : Heap) (roots : List Value) : Reference → Prop where
  | entity {target : Entity} (hkind : target.kind ≠ .store)
      (hreaches : heap.Reaches roots target) : Leads heap roots (.entity target)
  | window {array : ArrayHandle} {record : ArrayRecord} {store : StoreHandle}
      (hreaches : heap.Reaches roots array.entity)
      (hrecord : heap.arrays.get? array = some record) (hstore : record.store = some store) :
      Leads heap roots (.window store record.window.offset record.window.length)

theorem Leads.reaches {reference : Reference} (hleads : heap.Leads roots reference) :
    heap.Reaches roots reference.target := by
  cases hleads with
  | entity _ hreaches => exact hreaches
  | window hreaches hrecord hstore => exact .step hreaches (.arrayStore hrecord hstore)

theorem Leads.of_value {value : Value} {target : Entity} (htarget : value.entity? = some target)
    (hreaches : heap.Reaches roots target) : heap.Leads roots (.entity target) :=
  .entity (Value.kind_ne_store htarget) hreaches

/-- There is one reference only to each target, since arrays share no store. -/
theorem Leads.eq_of_target_eq (hsound : heap.Sound) {first second : Reference}
    (hfirst : heap.Leads roots first) (hsecond : heap.Leads roots second)
    (heq : first.target = second.target) : first = second := by
  cases hfirst with
  | entity hkind _ =>
      cases hsecond with
      | entity _ _ => exact congrArg Reference.entity heq
      | window _ _ _ => exact absurd (congrArg Entity.kind heq) hkind
  | window _ hrecord hstore =>
      cases hsecond with
      | entity hkind _ => exact absurd (congrArg Entity.kind heq.symm) hkind
      | window _ hotherRecord hotherStore =>
          have hhandle := Handle.entity_injective heq
          subst hhandle
          have harray := hsound.ownership.owner_unique ⟨_, hrecord, hstore⟩
            ⟨_, hotherRecord, hotherStore⟩
          subst harray
          rw [hrecord, Option.some.injEq] at hotherRecord
          rw [hotherRecord]

/-- The window of an array lies inside its store. -/
theorem Sound.window_inside (hsound : heap.Sound) {array : ArrayHandle}
    {record : ArrayRecord} {store : StoreHandle}
    (hrecord : heap.arrays.get? array = some record) (hstore : record.store = some store) :
    ∃ slots, heap.stores.get? store = some slots ∧
      record.window.offset + record.window.length ≤ slots.size := by
  have hrepresents := hsound.represents hrecord
  unfold Represents at hrepresents
  rw [hstore] at hrepresents
  obtain ⟨slots, hslots, hlies⟩ := hrepresents
  have hlength := hlies.length_le
  have hsize := hlies.size_eq
  exact ⟨slots, hslots, by omega⟩

/-! ## What a reference leads to in one step -/

theorem expand_array {array : ArrayHandle} {record : ArrayRecord}
    (hrecord : heap.arrays.get? array = some record) :
    heap.expand (.entity array.entity) =
      .ok (Value.references record.header.values ++ record.reference?.toList) := by
  have hderef := Arena.deref_eq_ok_iff.2 hrecord
  simp only [Handle.entity, expand, hderef, bind, Except.bind]
  rfl

theorem expand_object {object : ObjectHandle} {record : ObjectRecord}
    (hrecord : heap.objects.get? object = some record) :
    heap.expand (.entity object.entity) =
      .ok (Value.references (record.header.values ++ record.fields.toList)) := by
  have hderef := Arena.deref_eq_ok_iff.2 hrecord
  simp only [Handle.entity, expand, hderef, bind, Except.bind]

theorem expand_closure {closure : ClosureHandle} {record : ClosureRecord}
    (hrecord : heap.closures.get? closure = some record) :
    heap.expand (.entity closure.entity) = .ok (Value.references [record.env]) := by
  have hderef := Arena.deref_eq_ok_iff.2 hrecord
  simp only [Handle.entity, expand, hderef, bind, Except.bind]

theorem expand_window (hsound : heap.Sound) {array : ArrayHandle} {record : ArrayRecord}
    {store : StoreHandle} (hrecord : heap.arrays.get? array = some record)
    (hstore : record.store = some store) :
    ∃ slots, heap.stores.get? store = some slots ∧
      record.window.offset + record.window.length ≤ slots.size ∧
      heap.expand (.window store record.window.offset record.window.length) =
        .ok (Value.references (slots.extract record.window.offset
          (record.window.offset + record.window.length)).toList) := by
  obtain ⟨slots, hslots, hinside⟩ := hsound.window_inside hrecord hstore
  refine ⟨slots, hslots, hinside, ?_⟩
  simp only [expand, hslots, if_pos hinside]

/-- A freed slot cannot be followed. -/
theorem expand_of_freed {target : Entity} (hfreed : heap.Freed target) :
    heap.expand (.entity target) = .error .slotEmpty := by
  obtain ⟨kind, slot⟩ := target
  obtain ⟨hkind, hsize, hdead⟩ := hfreed
  simp only at hkind
  rcases hkind with rfl | rfl | rfl
  · have hderef : heap.arrays.deref ⟨slot⟩ = .error .slotEmpty :=
      Arena.deref_of_dead hsize hdead
    simp only [expand, hderef, bind, Except.bind]
  · have hderef : heap.objects.deref ⟨slot⟩ = .error .slotEmpty :=
      Arena.deref_of_dead hsize hdead
    simp only [expand, hderef, bind, Except.bind]
  · have hderef : heap.closures.deref ⟨slot⟩ = .error .slotEmpty :=
      Arena.deref_of_dead hsize hdead
    simp only [expand, hderef, bind, Except.bind]

/-- Every other reference into an arena can. -/
theorem expand_of_lt (hsound : heap.Sound) {reference : Reference}
    (hleads : heap.Leads roots reference)
    (hsize : reference.target.slot < heap.sizes.get reference.target.kind) :
    (∃ found, heap.expand reference = .ok found) ∨
      (heap.expand reference = .error .slotEmpty ∧ heap.Freed reference.target) := by
  cases hleads with
  | window _ hrecord hstore =>
      obtain ⟨slots, _, _, hexpand⟩ := expand_window hsound hrecord hstore
      exact .inl ⟨_, hexpand⟩
  | @entity target hkind _ =>
      by_cases hfreed : heap.Freed target
      · exact .inr ⟨expand_of_freed hfreed, hfreed⟩
      · left
        have hlive : target.kind = .array ∨ target.kind = .object ∨ target.kind = .closure →
            heap.isLive target = true := by
          intro hkinds
          cases hdead : heap.isLive target with
          | true => rfl
          | false => exact absurd ⟨hkinds, hsize, hdead⟩ hfreed
        obtain ⟨kind, slot⟩ := target
        cases kind with
        | array =>
            obtain ⟨record, hrecord⟩ := Arena.isLive_iff.1 (hlive (.inl rfl))
            exact ⟨_, expand_array hrecord⟩
        | object =>
            obtain ⟨record, hrecord⟩ := Arena.isLive_iff.1 (hlive (.inr (.inl rfl)))
            exact ⟨_, expand_object hrecord⟩
        | closure =>
            obtain ⟨record, hrecord⟩ := Arena.isLive_iff.1 (hlive (.inr (.inr rfl)))
            exact ⟨_, expand_closure hrecord⟩
        | number | string => exact ⟨[], rfl⟩
        | store => exact absurd rfl hkind

theorem Leads.of_mem_references {values : List Value} {source : Entity} {next : Reference}
    (hreaches : heap.Reaches roots source)
    (hrefers : ∀ value ∈ values, ∀ target, value.entity? = some target →
      heap.Refers source target)
    (hnext : next ∈ Value.references values) : heap.Leads roots next := by
  obtain ⟨value, hvalue, target, htarget, rfl⟩ := Value.mem_references.1 hnext
  exact .of_value htarget (.step hreaches (hrefers value hvalue target htarget))

/-- What a reference leads to is led to by the roots. -/
theorem Leads.of_mem_expand {reference next : Reference} {found : List Reference}
    (hleads : heap.Leads roots reference) (hexpand : heap.expand reference = .ok found)
    (hnext : next ∈ found) : heap.Leads roots next := by
  cases hleads with
  | @window array record store hreaches hrecord hstore =>
      simp only [expand] at hexpand
      split at hexpand
      · rw [← Except.ok.inj hexpand] at hnext
        contradiction
      · rename_i slots hslots
        split at hexpand
        · rename_i hinside
          rw [← Except.ok.inj hexpand] at hnext
          apply Leads.of_mem_references hreaches _ hnext
          intro value hvalue target htarget
          obtain ⟨index, hindex, hget⟩ := (mem_extract_iff hinside).1 hvalue
          exact .arrayElement hrecord hstore hslots hindex hget htarget
        · rw [← Except.ok.inj hexpand] at hnext
          contradiction
  | @entity target hkind hreaches =>
      obtain ⟨kind, slot⟩ := target
      cases kind with
      | array =>
          simp only [expand] at hexpand
          cases hderef : heap.arrays.deref ⟨slot⟩ with
          | error cause => simp [hderef, bind, Except.bind] at hexpand
          | ok record =>
              have hrecord := Arena.deref_eq_ok_iff.1 hderef
              simp only [hderef, bind, Except.bind, Except.ok.injEq] at hexpand
              rw [← hexpand] at hnext
              rcases List.mem_append.1 hnext with hheader | hstores
              · apply Leads.of_mem_references hreaches _ hheader
                intro value hvalue target htarget
                exact .arrayHeader hrecord hvalue htarget
              · simp only [Option.mem_toList, Option.map_eq_some_iff] at hstores
                obtain ⟨store, hstore, rfl⟩ := hstores
                exact .window hreaches hrecord hstore
      | object =>
          simp only [expand] at hexpand
          cases hderef : heap.objects.deref ⟨slot⟩ with
          | error cause => simp [hderef, bind, Except.bind] at hexpand
          | ok record =>
              have hrecord := Arena.deref_eq_ok_iff.1 hderef
              simp only [hderef, bind, Except.bind, Except.ok.injEq] at hexpand
              rw [← hexpand] at hnext
              apply Leads.of_mem_references hreaches _ hnext
              intro value hvalue target htarget
              rcases List.mem_append.1 hvalue with hheader | hfield
              · exact .objectHeader hrecord hheader htarget
              · exact .objectField hrecord (Array.mem_toList_iff.1 hfield) htarget
      | closure =>
          simp only [expand] at hexpand
          cases hderef : heap.closures.deref ⟨slot⟩ with
          | error cause => simp [hderef, bind, Except.bind] at hexpand
          | ok record =>
              have hrecord := Arena.deref_eq_ok_iff.1 hderef
              simp only [hderef, bind, Except.bind, Except.ok.injEq] at hexpand
              rw [← hexpand] at hnext
              apply Leads.of_mem_references hreaches _ hnext
              intro value hvalue target htarget
              rw [List.mem_singleton.1 hvalue] at htarget
              exact .closureEnv hrecord htarget
      | number | string =>
          rw [← Except.ok.inj hexpand] at hnext
          contradiction
      | store => exact absurd rfl hkind

/-! ## The invariant of marking -/

/-- There is nothing to do about a reference but to look at it, and that only if
it is still waiting. -/
def Settled (heap : Heap) (marks : ByKind (Array Bool)) (work : List Reference)
    (reference : Reference) : Prop :=
  reference ∈ work ∨ IsMarked marks reference.target ∨
    heap.sizes.get reference.target.kind ≤ reference.target.slot

structure Progress (heap : Heap) (roots : List Value) (marks : ByKind (Array Bool))
    (work : List Reference) : Prop where
  size_eq : ∀ kind, (marks.get kind).size = heap.sizes.get kind
  leads : ∀ reference ∈ work, heap.Leads roots reference
  reached : ∀ entity, IsMarked marks entity → heap.Reaches roots entity
  roots_settled : ∀ reference ∈ Value.references (roots ++ permanent),
    heap.Settled marks work reference
  closed : ∀ reference, heap.Leads roots reference → IsMarked marks reference.target →
    ∃ found, heap.expand reference = .ok found ∧
      ∀ next ∈ found, heap.Settled marks work next

variable {marks : ByKind (Array Bool)} {work : List Reference} {reference : Reference}

theorem Progress.of_mem_iff {others : List Reference}
    (hprogress : heap.Progress roots marks work)
    (hmem : ∀ reference, reference ∈ others ↔ reference ∈ work) :
    heap.Progress roots marks others := by
  have hsettled : ∀ reference, heap.Settled marks work reference →
      heap.Settled marks others reference := by
    intro reference hwork
    rcases hwork with hwork | hdone
    · exact .inl ((hmem reference).2 hwork)
    · exact .inr hdone
  refine ⟨hprogress.size_eq, ?_, hprogress.reached, ?_, ?_⟩
  · intro reference hreference
    exact hprogress.leads reference ((hmem reference).1 hreference)
  · intro reference hreference
    exact hsettled reference (hprogress.roots_settled reference hreference)
  · intro reference hleads hmarked
    obtain ⟨found, hexpand, hfound⟩ := hprogress.closed reference hleads hmarked
    exact ⟨found, hexpand, fun next hnext => hsettled next (hfound next hnext)⟩

/-- A reference can be dropped if its slot is marked or lies beyond its arena. -/
theorem Progress.drop (hprogress : heap.Progress roots marks (reference :: work))
    (hdone : IsMarked marks reference.target ∨
      heap.sizes.get reference.target.kind ≤ reference.target.slot) :
    heap.Progress roots marks work := by
  have hsettled : ∀ next, heap.Settled marks (reference :: work) next →
      heap.Settled marks work next := by
    intro next hnext
    rcases hnext with hwork | hnextDone
    · rcases List.mem_cons.1 hwork with rfl | hrest
      · exact .inr hdone
      · exact .inl hrest
    · exact .inr hnextDone
  refine ⟨hprogress.size_eq, ?_, hprogress.reached, ?_, ?_⟩
  · intro next hnext
    exact hprogress.leads next (List.mem_cons_of_mem _ hnext)
  · intro next hnext
    exact hsettled next (hprogress.roots_settled next hnext)
  · intro other hleads hmarked
    obtain ⟨found, hexpand, hfound⟩ := hprogress.closed other hleads hmarked
    exact ⟨found, hexpand, fun next hnext => hsettled next (hfound next hnext)⟩

/-- Marking a slot puts what it refers to in its place. -/
theorem Progress.setMark (hsound : heap.Sound)
    (hprogress : heap.Progress roots marks (reference :: work)) {found : List Reference}
    (hsize : reference.target.slot < (marks.get reference.target.kind).size)
    (hexpand : heap.expand reference = .ok found) :
    heap.Progress roots (Heap.setMark marks reference.target) (work ++ found) := by
  have hleads := hprogress.leads reference List.mem_cons_self
  have hmarked : ∀ entity, IsMarked (Heap.setMark marks reference.target) entity ↔
      entity = reference.target ∨ IsMarked marks entity :=
    fun entity => isMarked_setMark_iff hsize
  have hsettled : ∀ next, heap.Settled marks (reference :: work) next →
      heap.Settled (Heap.setMark marks reference.target) (work ++ found) next := by
    intro next hnext
    rcases hnext with hwork | hnextMarked | hbeyond
    · rcases List.mem_cons.1 hwork with rfl | hrest
      · exact .inr (.inl ((hmarked _).2 (.inl rfl)))
      · exact .inl (List.mem_append_left _ hrest)
    · exact .inr (.inl ((hmarked _).2 (.inr hnextMarked)))
    · exact .inr (.inr hbeyond)
  constructor
  · intro kind
    rw [size_setMark, hprogress.size_eq]
  · intro next hnext
    rcases List.mem_append.1 hnext with hrest | hfound
    · exact hprogress.leads next (List.mem_cons_of_mem _ hrest)
    · exact hleads.of_mem_expand hexpand hfound
  · intro entity hentity
    rcases (hmarked entity).1 hentity with rfl | hbefore
    · exact hleads.reaches
    · exact hprogress.reached entity hbefore
  · intro next hnext
    exact hsettled next (hprogress.roots_settled next hnext)
  · intro other hother hotherMarked
    rcases (hmarked other.target).1 hotherMarked with heq | hbefore
    · have hsame := hother.eq_of_target_eq hsound hleads heq
      subst hsame
      exact ⟨found, hexpand, fun next hnext => .inl (List.mem_append_right _ hnext)⟩
    · obtain ⟨before, hexpandBefore, hfound⟩ := hprogress.closed other hother hbefore
      exact ⟨before, hexpandBefore, fun next hnext => hsettled next (hfound next hnext)⟩

theorem isMarked_startMarking (entity : Entity) :
    ¬IsMarked (heap.startMarking roots).marks entity := by
  unfold IsMarked startMarking
  simp only [ByKind.get_map, Array.getElem?_replicate]
  split <;> simp

theorem progress_startMarking :
    heap.Progress roots (heap.startMarking roots).marks
      (heap.startMarking roots).pending.toList := by
  constructor
  · exact covers_startMarking heap roots
  · intro reference hreference
    obtain ⟨value, hvalue, target, htarget, rfl⟩ := Value.mem_references.1 hreference
    exact .of_value htarget (.root hvalue htarget)
  · intro entity hmarked
    exact absurd hmarked (isMarked_startMarking entity)
  · intro reference hreference
    exact .inl hreference
  · intro reference _ hmarked
    exact absurd hmarked (isMarked_startMarking _)

/-! ## When nothing is left to look at -/

theorem Settled.isMarked (hsettled : heap.Settled marks [] reference)
    (hsize : reference.target.slot < heap.sizes.get reference.target.kind) :
    IsMarked marks reference.target := by
  rcases hsettled with hwork | hmarked | hbeyond
  · exact absurd hwork List.not_mem_nil
  · exact hmarked
  · exact absurd hsize (Nat.not_lt.2 hbeyond)

/-- Marks have been carried from each marked slot to what it refers to. -/
theorem Progress.isMarked_found (hprogress : heap.Progress roots marks [])
    (hleads : heap.Leads roots reference) (hmarked : IsMarked marks reference.target)
    {found : List Reference} (hexpand : heap.expand reference = .ok found) {next : Reference}
    (hnext : next ∈ found) (hsize : next.target.slot < heap.sizes.get next.target.kind) :
    IsMarked marks next.target := by
  obtain ⟨others, hothers, hsettled⟩ := hprogress.closed reference hleads hmarked
  rw [hexpand, Except.ok.injEq] at hothers
  subst hothers
  exact (hsettled next hnext).isMarked hsize

theorem mem_references_of_mem {values : List Value} {value : Value} {target : Entity}
    (hvalue : value ∈ values) (htarget : value.entity? = some target) :
    Reference.entity target ∈ Value.references values :=
  Value.mem_references.2 ⟨value, hvalue, target, htarget, rfl⟩

theorem Progress.isMarked_of_refers (hsound : heap.Sound)
    (hprogress : heap.Progress roots marks []) {source target : Entity}
    (hsource : heap.Reaches roots source) (hrefers : heap.Refers source target)
    (hmarked : source.slot < heap.sizes.get source.kind → IsMarked marks source)
    (hsize : target.slot < heap.sizes.get target.kind) : IsMarked marks target := by
  have hleads : source.kind ≠ .store → heap.Leads roots (.entity source) :=
    fun hkind => .entity hkind hsource
  cases hrefers with
  | arrayHeader hrecord hvalue htarget =>
      have hsourceMarked := hmarked (Arena.slot_lt_size_of_get? hrecord)
      have hmem := mem_references_of_mem hvalue htarget
      exact hprogress.isMarked_found (hleads (by simp [Handle.entity])) hsourceMarked
        (expand_array hrecord) (List.mem_append_left _ hmem) hsize
  | arrayStore hrecord hstore =>
      have hsourceMarked := hmarked (Arena.slot_lt_size_of_get? hrecord)
      have hmem := ArrayRecord.mem_reference? hstore
      exact hprogress.isMarked_found (hleads (by simp [Handle.entity])) hsourceMarked
        (expand_array hrecord) (List.mem_append_right _ hmem) hsize
  | arrayElement hrecord hstore hslots hindex hget htarget =>
      -- The element is found through the store, which is marked with the same window.
      have hsourceMarked := hmarked (Arena.slot_lt_size_of_get? hrecord)
      have hmem := ArrayRecord.mem_reference? hstore
      have hstoreMarked := hprogress.isMarked_found (hleads (by simp [Handle.entity]))
        hsourceMarked (expand_array hrecord) (List.mem_append_right _ hmem)
        (Arena.slot_lt_size_of_get? hslots)
      obtain ⟨contents, hcontents, hinside, hexpand⟩ := expand_window hsound hrecord hstore
      rw [hslots, Option.some.injEq] at hcontents
      subst hcontents
      have hshown := (mem_extract_iff hinside).2 ⟨_, hindex, hget⟩
      exact hprogress.isMarked_found (.window hsource hrecord hstore) hstoreMarked hexpand
        (mem_references_of_mem hshown htarget) hsize
  | objectHeader hrecord hvalue htarget =>
      have hsourceMarked := hmarked (Arena.slot_lt_size_of_get? hrecord)
      exact hprogress.isMarked_found (hleads (by simp [Handle.entity])) hsourceMarked
        (expand_object hrecord) (mem_references_of_mem (List.mem_append_left _ hvalue) htarget)
        hsize
  | objectField hrecord hvalue htarget =>
      have hsourceMarked := hmarked (Arena.slot_lt_size_of_get? hrecord)
      have hfield := Array.mem_toList_iff.2 hvalue
      exact hprogress.isMarked_found (hleads (by simp [Handle.entity])) hsourceMarked
        (expand_object hrecord) (mem_references_of_mem (List.mem_append_right _ hfield) htarget)
        hsize
  | closureEnv hrecord htarget =>
      have hsourceMarked := hmarked (Arena.slot_lt_size_of_get? hrecord)
      exact hprogress.isMarked_found (hleads (by simp [Handle.entity])) hsourceMarked
        (expand_closure hrecord) (mem_references_of_mem List.mem_cons_self htarget) hsize

/-- When the work is done, the marks are on what the roots lead to. -/
theorem Progress.isMarked_iff (hsound : heap.Sound) (hprogress : heap.Progress roots marks [])
    {entity : Entity} :
    IsMarked marks entity ↔
      heap.Reaches roots entity ∧ entity.slot < heap.sizes.get entity.kind := by
  constructor
  · intro hmarked
    obtain ⟨hsize, _⟩ := Array.getElem?_eq_some_iff.1 hmarked
    rw [hprogress.size_eq] at hsize
    exact ⟨hprogress.reached entity hmarked, hsize⟩
  · rintro ⟨hreaches, hsize⟩
    induction hreaches with
    | root hvalue htarget =>
        exact (hprogress.roots_settled _ (mem_references_of_mem hvalue htarget)).isMarked hsize
    | step hsource hrefers ih =>
        exact hprogress.isMarked_of_refers hsound hsource hrefers ih hsize

theorem Progress.not_meetsFreed (hsound : heap.Sound)
    (hprogress : heap.Progress roots marks []) : ¬heap.MeetsFreed roots := by
  rintro ⟨entity, hreaches, hfreed⟩
  have hmarked := (hprogress.isMarked_iff hsound).2 ⟨hreaches, hfreed.2.1⟩
  have hkind : entity.kind ≠ .store := by
    intro hkind
    rcases hfreed.1 with harray | hobject | hclosure <;> simp_all
  obtain ⟨found, hexpand, _⟩ := hprogress.closed (.entity entity) (.entity hkind hreaches) hmarked
  rw [expand_of_freed hfreed] at hexpand
  contradiction

/-! ## Going through the work -/

/-- Marking goes on to a state of some sort, or it stops at a freed slot. -/
def Ends (heap : Heap) (roots : List Value) (outcome : Except Fault Marking)
    (ends : Marking → Prop) : Prop :=
  (∃ next, outcome = .ok next ∧ ends next) ∨
    (outcome = .error .slotEmpty ∧ heap.MeetsFreed roots)

theorem Ends.bind {outcome : Except Fault Marking} {next : Marking → Except Fault Marking}
    {ends final : Marking → Prop} (houtcome : heap.Ends roots outcome ends)
    (hnext : ∀ state, ends state → heap.Ends roots (next state) final) :
    heap.Ends roots (outcome >>= next) final := by
  rcases houtcome with ⟨state, rfl, hends⟩ | ⟨rfl, hfreed⟩
  · exact hnext state hends
  · exact .inr ⟨rfl, hfreed⟩

theorem ends_visit (hsound : heap.Sound) {state : Marking} {todo : List Reference}
    (hprogress : heap.Progress roots state.marks (reference :: (todo ++ state.pending.toList))) :
    heap.Ends roots (heap.visit state reference) fun next =>
      heap.Progress roots next.marks (todo ++ next.pending.toList) := by
  have hleads := hprogress.leads reference List.mem_cons_self
  rcases visit_cases heap state reference with
    ⟨hbit, hvisit⟩ | ⟨hbit, cause, hexpand, hvisit⟩ | ⟨hbit, found, hexpand, hvisit⟩
  · refine .inl ⟨state, hvisit, hprogress.drop ?_⟩
    cases hget : (state.marks.get reference.target.kind)[reference.target.slot]? with
    | none =>
        right
        rw [← hprogress.size_eq]
        exact Array.getElem?_eq_none_iff.1 hget
    | some bit =>
        cases bit with
        | false => exact absurd hget hbit
        | true => exact .inl hget
  · obtain ⟨hsize, _⟩ := Array.getElem?_eq_some_iff.1 hbit
    rw [hprogress.size_eq] at hsize
    rcases expand_of_lt hsound hleads hsize with ⟨found, hfound⟩ | ⟨hempty, hfreed⟩
    · rw [hexpand] at hfound
      contradiction
    · have hcause : cause = .slotEmpty := Except.error.inj (hexpand.symm.trans hempty)
      refine .inr ⟨?_, reference.target, hleads.reaches, hfreed⟩
      rw [hvisit, hcause]
  · obtain ⟨hsize, _⟩ := Array.getElem?_eq_some_iff.1 hbit
    have hnext := hprogress.setMark hsound hsize hexpand
    have hpending : (state.pending ++ found).toList = state.pending.toList ++ found := by simp
    rw [List.append_assoc, ← hpending] at hnext
    exact .inl ⟨_, hvisit, hnext⟩

theorem ends_visits (hsound : heap.Sound) (todo : List Reference) (state : Marking)
    (hprogress : heap.Progress roots state.marks (todo ++ state.pending.toList)) :
    heap.Ends roots (todo.foldlM heap.visit state) fun next =>
      heap.Progress roots next.marks next.pending.toList := by
  induction todo generalizing state with
  | nil => exact .inl ⟨state, rfl, hprogress⟩
  | cons reference rest ih =>
      rw [List.foldlM_cons]
      exact (ends_visit hsound hprogress).bind ih

/-- One kind is taken up after the other, and what is not taken up stays. -/
theorem ends_drain (hsound : heap.Sound) (state : Marking) (kind : Kind)
    (hprogress : heap.Progress roots state.marks state.pending.toList) :
    heap.Ends roots (heap.drain state kind) fun next =>
      heap.Progress roots next.marks next.pending.toList := by
  rw [drain_eq]
  apply ends_visits hsound _ (without state [kind])
  apply hprogress.of_mem_iff
  intro reference
  simp only [due, without, List.mem_append, Reference.mem_sortBySlot, Array.mem_toList_iff,
    Array.mem_filter, List.mem_singleton, decide_eq_true_eq]
  by_cases hkind : reference.target.kind = kind <;> simp [hkind]

theorem ends_drains (hsound : heap.Sound) (kinds : List Kind) (state : Marking)
    (hprogress : heap.Progress roots state.marks state.pending.toList) :
    heap.Ends roots (kinds.foldlM heap.drain state) fun next =>
      heap.Progress roots next.marks next.pending.toList := by
  induction kinds generalizing state with
  | nil => exact .inl ⟨state, rfl, hprogress⟩
  | cons kind rest ih =>
      rw [List.foldlM_cons]
      exact (ends_drain hsound state kind hprogress).bind ih

theorem ends_round (hsound : heap.Sound) (state : Marking)
    (hprogress : heap.Progress roots state.marks state.pending.toList) :
    heap.Ends roots (heap.round state) fun next =>
      heap.Progress roots next.marks next.pending.toList :=
  ends_drains hsound kindOrder state hprogress

theorem ends_loops (hsound : heap.Sound) {state : Marking} {rounds : List (List Discovery)}
    {outcome : Except Fault Marking} (hloops : heap.Loops state rounds outcome)
    (hprogress : heap.Progress roots state.marks state.pending.toList) :
    heap.Ends roots outcome fun next => heap.Progress roots next.marks [] := by
  induction hloops with
  | @done state hdone =>
      rw [hdone] at hprogress
      exact .inl ⟨state, rfl, hprogress⟩
  | fault _ hround =>
      have hends := ends_round hsound _ hprogress
      rw [hround] at hends
      rcases hends with ⟨next, hnext, -⟩ | hfreed
      · contradiction
      · exact .inr hfreed
  | round _ hround _ ih =>
      have hends := ends_round hsound _ hprogress
      rw [hround] at hends
      rcases hends with ⟨next, hnext, hlater⟩ | ⟨hfault, -⟩
      · rw [Except.ok.inj hnext] at ih
        exact ih hlater
      · contradiction

/-- Marking finds the slots that the roots lead to, unless they lead to a freed
array, object or closure. -/
theorem mark_spec (hsound : heap.Sound) (roots : List Value) :
    (∃ marks, heap.mark roots = .ok marks ∧ ¬heap.MeetsFreed roots ∧
      (∀ kind, (marks.get kind).size = heap.sizes.get kind) ∧
      ∀ entity, IsMarked marks entity ↔
        heap.Reaches roots entity ∧ entity.slot < heap.sizes.get entity.kind) ∨
    (heap.mark roots = .error .slotEmpty ∧ heap.MeetsFreed roots) := by
  obtain ⟨rounds, outcome, hloops⟩ := exists_loops _ (covers_startMarking heap roots)
  rw [hloops.mark_eq]
  rcases ends_loops hsound hloops progress_startMarking with
    ⟨final, rfl, hdone⟩ | ⟨rfl, hfreed⟩
  · exact .inl ⟨final.marks, rfl, hdone.not_meetsFreed hsound, hdone.size_eq,
      fun entity => hdone.isMarked_iff hsound⟩
  · exact .inr ⟨rfl, hfreed⟩

end Heap

end ManagedHeap
