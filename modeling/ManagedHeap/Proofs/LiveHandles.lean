import ManagedHeap.Proofs.Transparency

/-!
# Handles that stay good

A client that only ever uses living handles never makes the heap store a handle
to anything that has been freed.  That holds of the slots of a backing store which
its array does not show as well, and no collection looks at those.

Such a run could as well be mirrored by an agent that never collects, in which no
handle ever goes stale.  That there is such an agent is the invariant: what an
entity refers to has a partner there, and only living entities have partners.
-/

namespace ManagedHeap

namespace Heap

/-- A constant, or a handle to a living entity. -/
def Lives (heap : Heap) (value : Value) : Prop :=
  ∀ entity, value.entity? = some entity → heap.isLive entity = true

/-- Every handle in the heap names a living entity. -/
structure Closed (heap : Heap) : Prop where
  /-- The prototype and the properties in the bag, of ordinary objects and arrays. -/
  header : ∀ {object : Object} {header : Header}, heap.header object = .ok header →
    ∀ value ∈ header.values, heap.Lives value
  field : ∀ {object : ObjectHandle} {record : ObjectRecord},
    heap.objects.get? object = some record → ∀ value ∈ record.fields, heap.Lives value
  env : ∀ {closure : ClosureHandle} {record : ClosureRecord},
    heap.closures.get? closure = some record → heap.Lives record.env
  store : ∀ {array : ArrayHandle} {store : StoreHandle},
    heap.Owns array store → heap.stores.isLive store = true
  /-- All slots of a store, not only those that its array shows. -/
  slot : ∀ {store : StoreHandle} {slots : Array Value},
    heap.stores.get? store = some slots → ∀ value ∈ slots, heap.Lives value
  permanent : ∀ value ∈ Heap.permanent, heap.Lives value

theorem lives_undefined (heap : Heap) : heap.Lives .undefined := by
  intro entity hentity
  simp [Value.entity?] at hentity

end Heap

theorem Body.mem_slots {body : Body} {value : Value} (hmem : value ∈ body.slots) :
    value = .undefined ∨ value ∈ body.elements := by
  simp only [slots, List.mem_toArray, List.mem_append, List.mem_replicate] at hmem
  rcases hmem with (⟨_, hfront⟩ | helement) | ⟨_, hback⟩
  · exact .inl hfront
  · exact .inr helement
  · exact .inl hback

/-! ## What has a partner -/

namespace Renaming

variable {ρ : Renaming} {first second : Heap}

namespace Corresponds

variable (hcorr : ρ.Corresponds first second)

include hcorr

theorem lives {value other : Value} (hvalues : ρ.Values value other) : first.Lives value := by
  intro entity hentity
  obtain ⟨slot, hpair⟩ := hvalues.entity? hentity
  exact (hcorr.isLive hpair).1

theorem lives_of_mem {values others : List Value} (hforall : List.Forall₂ ρ.Values values others)
    {value : Value} (hmem : value ∈ values) : first.Lives value := by
  obtain ⟨other, hvalues⟩ := exists_of_mem hforall hmem
  exact hcorr.lives hvalues

theorem exists_partner {value : Value} (hlives : first.Lives value) :
    ∃ other, ρ.Values value other := by
  have hpaired : ∀ {entity : Entity}, value.entity? = some entity →
      ∃ slot, ρ.pairs entity.kind entity.slot slot := by
    intro entity hentity
    exact hcorr.paired_of_isLive (hlives entity hentity) (Value.kind_ne_store hentity)
  cases value with
  | undefined => exact ⟨_, .undefined⟩
  | null => exact ⟨_, .null⟩
  | boolean b => exact ⟨_, .boolean b⟩
  | integer n => exact ⟨_, .integer n⟩
  | number handle =>
      obtain ⟨slot, hpair⟩ := hpaired rfl
      exact ⟨.number ⟨slot⟩, .number hpair⟩
  | string handle =>
      obtain ⟨slot, hpair⟩ := hpaired rfl
      exact ⟨.string ⟨slot⟩, .string hpair⟩
  | object handle =>
      obtain ⟨slot, hpair⟩ := hpaired rfl
      exact ⟨.object ⟨slot⟩, .object hpair⟩
  | array handle =>
      obtain ⟨slot, hpair⟩ := hpaired rfl
      exact ⟨.array ⟨slot⟩, .array hpair⟩
  | closure handle =>
      obtain ⟨slot, hpair⟩ := hpaired rfl
      exact ⟨.closure ⟨slot⟩, .closure hpair⟩

theorem lives_slot {store : StoreHandle} {slots : Array Value}
    (hslots : first.stores.get? store = some slots) {value : Value} (hvalue : value ∈ slots) :
    first.Lives value := by
  have hlive : first.stores.isLive store = true := Arena.isLive_iff.2 ⟨slots, hslots⟩
  obtain ⟨array, record, hget, hstore⟩ := hcorr.sound.ownership.live_owned hlive
  obtain ⟨_, _, body, _, _, hholds, _, hbodies⟩ := hcorr.exists_array hget
  rw [hholds.stores_eq store hstore, Option.some.injEq] at hslots
  subst hslots
  -- Nothing is left in the store of what was removed from the array.
  rcases Body.mem_slots hvalue with rfl | helement
  · exact first.lives_undefined
  · exact hcorr.lives_of_mem hbodies.elements helement

theorem closed : first.Closed where
  header := by
    intro object header hheader value hvalue
    cases object with
    | ordinary handle =>
        obtain ⟨record, hget, rfl⟩ := Heap.header_ordinary_eq_ok_iff.1 hheader
        obtain ⟨_, _, _, _, hrecords⟩ := hcorr.objects.exists_related hget
        exact hcorr.lives_of_mem hrecords.header.values hvalue
    | array handle =>
        obtain ⟨record, hget, rfl⟩ := Heap.header_array_eq_ok_iff.1 hheader
        obtain ⟨_, _, _, _, _, _, hrecords, _⟩ := hcorr.exists_array hget
        exact hcorr.lives_of_mem hrecords.header.values hvalue
  field := by
    intro object record hget value hvalue
    obtain ⟨_, _, _, _, hrecords⟩ := hcorr.objects.exists_related hget
    exact hcorr.lives_of_mem hrecords.fields (Array.mem_toList_iff.2 hvalue)
  env := by
    intro closure record hget
    obtain ⟨_, _, _, _, hrecords⟩ := hcorr.closures.exists_related hget
    exact hcorr.lives hrecords.env
  store := hcorr.sound.ownership.owned_live
  slot := fun hslots _ hvalue => hcorr.lives_slot hslots hvalue
  permanent := fun value hvalue => hcorr.lives (hcorr.permanent value hvalue)

end Corresponds

end Renaming

/-! ## Runs with living handles -/

namespace Agent

open ManagedHeap.Action

/-- Some agent that never collects mirrors this one. -/
def Mirrored (agent : Agent) : Prop :=
  ∃ (ρ : Renaming) (other : Agent), ρ.Mirrors agent other

theorem mirrored_start (options : Options) : (start options).Mirrored :=
  ⟨.permanent, start { options with disableCollection := true }, Renaming.corresponds_fresh, rfl⟩

variable {agent : Agent}

theorem Mirrored.collect {ρ : Renaming} {other : Agent} (hmirrors : ρ.Mirrors agent other)
    (roots : List Value) : (agent.step (.collect roots)).2.Mirrored := by
  have hstep : (agent.step (.collect roots)).2 = ((Action.collect roots).perform agent).2 :=
    Operation.snd_perform_collect agent roots
  rw [hstep]
  rcases snd_perform_collect_cases hmirrors.heap.sound roots with
    hsame | ⟨marks, hcollects, hswept⟩
  · rw [hsame]
    exact ⟨ρ, other, hmirrors⟩
  · -- The mirroring agent does nothing, and the pairs that are left are those reached.
    rw [hswept]
    exact ⟨ρ.reached agent.heap roots, other, hmirrors.heap.collect hcollects,
      hmirrors.options_eq⟩

theorem Mirrored.step (hmirrored : agent.Mirrored) {operation : Operation Value}
    (hadmits : agent.Admits operation) : (agent.step operation).2.Mirrored := by
  obtain ⟨ρ, other, hmirrors⟩ := hmirrored
  have hpartners : ∀ value ∈ operation.operands, ∃ partner, ρ.Values value partner := by
    intro value hvalue
    exact hmirrors.heap.exists_partner (hadmits value hvalue)
  by_cases hcollect : ∃ roots, operation = .collect roots
  · obtain ⟨roots, rfl⟩ := hcollect
    exact collect hmirrors roots
  · -- The mirroring agent does the same with the partners of the operands.
    choose! partner hpartner using hpartners
    have hevaluate : ∀ value ∈ operation.operands, ∀ σ, ρ ≤ σ →
        Simulates σ Renaming.Values (pure value) (pure (partner value)) := by
      intro value hvalue σ hle
      exact simulates_pure ((hpartner value hvalue).mono hle)
    obtain ⟨σ, _, hafter, _⟩ := operation.simulates_perform
      (fun roots heq => hcollect ⟨roots, heq⟩) hevaluate agent other hmirrors
    exact ⟨σ, _, hafter⟩

theorem Mirrored.run (hmirrored : agent.Mirrored) {operations : List (Operation Value)}
    (hadmits : agent.AdmitsAll operations) : (agent.run operations).Mirrored := by
  induction operations generalizing agent with
  | nil => exact hmirrored
  | cons operation rest ih => exact ih (hmirrored.step hadmits.1) hadmits.2

/-- After a run whose operands are living at the time, whatever is stored in the
heap is living too. -/
theorem closed_run (options : Options) {operations : List (Operation Value)}
    (hadmits : (start options).AdmitsAll operations) :
    ((start options).run operations).heap.Closed := by
  obtain ⟨ρ, other, hmirrors⟩ := (mirrored_start options).run hadmits
  exact hmirrors.heap.closed

/-- A lost array is collected, and the slot that it had is used again. -/
theorem closed_run_recycled :
    ((start .standard).run
      [.newArray 0, .literal [.array ⟨0⟩, .boolean true] 0,
        .array (.array ⟨1⟩) (.call .shift) none, .newString "kept",
        .array (.array ⟨1⟩) (.call .push) (some (.string ⟨0⟩)), .collect [.array ⟨1⟩],
        .newObject .plain (some (.array ⟨1⟩)) 0, .newArray 0,
        .object (.array ⟨0⟩) (.setProto (.object ⟨1⟩))]).heap.Closed := by
  apply closed_run
  decide +kernel

end Agent

end ManagedHeap
