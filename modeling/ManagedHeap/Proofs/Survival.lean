import ManagedHeap.Proofs.CorrespondingChanges

/-!
# Correspondence across a collection

A heap that corresponds to another has no handle to a freed slot in what it holds,
so a collection with paired roots meets none.  The pairs of what the roots lead to
survive it, and all that the survivors refer to survives with them.
-/

namespace ManagedHeap

/-! ## Fresh heaps -/

theorem Arena.get?_ofList {kind : Kind} {α : Type} (entities : List α) (handle : Handle kind) :
    (ofList entities).get? handle = entities[handle.slot]? := by
  simp only [ofList, get?, List.getElem?_toArray, List.getElem?_map]
  cases entities[handle.slot]? <;> rfl

theorem Arena.matches_empty {kind : Kind} {α β : Type} {pairs : Nat → Nat → Prop}
    {related : α → β → Prop} (hpairs : ∀ left right, ¬pairs left right) :
    Matches pairs related (empty : Arena kind α) (empty : Arena kind β) := by
  constructor
  · intro left right hpair
    exact absurd hpair (hpairs _ _)
  · intro left x hget
    simp [get?, empty] at hget
  · intro left right other hleft _
    exact absurd hleft (hpairs _ _)
  · intro left right other hleft _
    exact absurd hleft (hpairs _ _)

/-- Of the pairs of two arenas those survive of which the first entity is kept. -/
theorem Arena.Matches.retain {kind : Kind} {α β : Type} {first after : Arena kind α}
    {second : Arena kind β} {pairs others : Nat → Nat → Prop}
    {related relatedAfter : α → β → Prop} {kept : Handle kind → Prop}
    (hmatches : Matches pairs related first second)
    (hretains : first.Retains after kept)
    (hothers : ∀ left right, others left right ↔ pairs left right ∧ kept ⟨left⟩)
    (hrelated : ∀ left x y, kept left → first.get? left = some x → related x y →
      relatedAfter x y) :
    Matches others relatedAfter after second := by
  constructor
  · intro left right hpair
    obtain ⟨hold, hkept⟩ := (hothers _ _).1 hpair
    obtain ⟨x, y, hx, hy, hxy⟩ := hmatches.paired hold
    refine ⟨x, y, ?_, hy, hrelated left x y hkept hx hxy⟩
    rw [hretains.get?_kept left hkept, hx]
  · intro left x hget
    obtain ⟨hkept, hbefore⟩ := hretains.get?_eq_some_iff.1 hget
    obtain ⟨slot, hpair⟩ := hmatches.total hbefore
    exact ⟨slot, (hothers _ _).2 ⟨hpair, hkept⟩⟩
  · intro left right other hleft hright
    exact hmatches.left_unique ((hothers _ _).1 hleft).1 ((hothers _ _).1 hright).1
  · intro left right other hleft hright
    exact hmatches.right_unique ((hothers _ _).1 hleft).1 ((hothers _ _).1 hright).1

namespace Renaming

/-- The permanent entities, which a fresh heap holds and nothing else. -/
def permanent : Renaming where
  pairs kind first second := first = second ∧
    match kind with
    | .object => first = arrayPrototype.slot
    | .closure => ∃ method : ArrayMethod, first = method.closure.slot
    | _ => False

theorem permanent_method (method : ArrayMethod) :
    permanent.Values (.closure method.closure) (.closure method.closure) :=
  .closure ⟨rfl, method, rfl⟩

theorem header_fresh {object : Object} {header : Header}
    (hheader : Heap.fresh.header object = .ok header) :
    object = .ordinary arrayPrototype ∧ header = Heap.prototypeRecord.header := by
  cases object with
  | array handle =>
      obtain ⟨record, hget, _⟩ := Heap.header_array_eq_ok_iff.1 hheader
      simp [Heap.fresh, Arena.get?, Arena.empty] at hget
  | ordinary handle =>
      obtain ⟨record, hget, hrecord⟩ := Heap.header_ordinary_eq_ok_iff.1 hheader
      rw [Heap.fresh, Arena.get?_ofList] at hget
      obtain ⟨slot⟩ := handle
      cases slot with
      | zero =>
          rw [List.getElem?_cons_zero, Option.some.injEq] at hget
          rw [← hrecord, ← hget]
          exact ⟨rfl, rfl⟩
      | succ slot => simp at hget

theorem closure_fresh {handle : ClosureHandle} {record : ClosureRecord}
    (hget : Heap.fresh.closures.get? handle = some record) :
    record.env = .undefined ∧ ∃ method : ArrayMethod, handle.slot = method.closure.slot := by
  rw [Heap.fresh, Arena.get?_ofList, List.getElem?_map, Option.map_eq_some_iff] at hget
  obtain ⟨method, hmethod, hrecord⟩ := hget
  refine ⟨by rw [← hrecord], method, ?_⟩
  obtain ⟨slot⟩ := handle
  rcases slot with _ | _ | _ | _ | _ | slot <;> simp [ArrayMethod.all] at hmethod
  all_goals
    subst hmethod
    rfl

theorem objectRecords_prototype :
    permanent.ObjectRecords Heap.prototypeRecord Heap.prototypeRecord where
  header := by
    refine ⟨.none, ?_, rfl⟩
    rw [List.forall₂_same]
    intro entry hentry
    obtain ⟨method, _, rfl⟩ := List.mem_map.1 hentry
    exact ⟨rfl, permanent_method method⟩
  map_eq := rfl
  fields := .nil

theorem corresponds_fresh : permanent.Corresponds .fresh .fresh where
  sound := Heap.sound_fresh
  sound_other := Heap.sound_fresh
  grounded := by
    intro object header hheader
    obtain ⟨_, hrecord⟩ := header_fresh hheader
    refine ⟨[object], .cons hheader ?_⟩
    rw [hrecord]
    exact .nil
  arrays := Arena.matches_empty fun _ _ hpair => hpair.2
  elements := fun hpair => hpair.2.elim
  objects := by
    refine ⟨?_, ?_, fun hleft hright => hleft.1.trans hright.1.symm,
      fun hleft hright => hleft.1.symm.trans hright.1⟩
    · intro left right hpair
      have hleft : left = arrayPrototype := handle_eq_iff.2 hpair.2
      have hright : right = arrayPrototype := handle_eq_iff.2 (hpair.1.symm.trans hpair.2)
      rw [hleft, hright]
      exact ⟨_, _, rfl, rfl, objectRecords_prototype⟩
    · intro left record hget
      obtain ⟨heq, _⟩ := header_fresh (Heap.header_ordinary_eq_ok_iff.2 ⟨record, hget, rfl⟩)
      rw [Object.ordinary.injEq] at heq
      exact ⟨left.slot, rfl, congrArg Handle.slot heq⟩
  closures := by
    refine ⟨?_, ?_, fun hleft hright => hleft.1.trans hright.1.symm,
      fun hleft hright => hleft.1.symm.trans hright.1⟩
    · intro left right hpair
      obtain ⟨hsame, method, hmethod⟩ := hpair
      have hleft : left = method.closure := handle_eq_iff.2 hmethod
      have hright : right = method.closure := handle_eq_iff.2 (hsame.symm.trans hmethod)
      rw [hleft, hright]
      refine ⟨⟨.undefined, .arrayMethod method⟩, ⟨.undefined, .arrayMethod method⟩, ?_, ?_,
        .undefined, rfl⟩ <;>
      · cases method <;> rfl
    · intro left record hget
      obtain ⟨_, hmethod⟩ := closure_fresh hget
      exact ⟨left.slot, rfl, hmethod⟩
  numbers := Arena.matches_empty fun _ _ hpair => hpair.2
  strings := Arena.matches_empty fun _ _ hpair => hpair.2
  stores := fun _ _ hpair => hpair.2
  permanent := by
    intro value hvalue
    rcases List.mem_cons.1 hvalue with rfl | hmethod
    · exact .object ⟨rfl, rfl⟩
    · obtain ⟨method, _, rfl⟩ := List.mem_map.1 hmethod
      exact permanent_method method

/-! ## What is referred to -/

namespace Corresponds

variable {ρ : Renaming} {first second : Heap} (hcorr : ρ.Corresponds first second)

include hcorr

theorem exists_array {array : ArrayHandle} {record : ArrayRecord}
    (hget : first.arrays.get? array = some record) :
    ∃ slot other body otherBody, ρ.pairs .array array.slot slot ∧
      first.Holds array record body ∧ ρ.ArrayRecords record other ∧
        ρ.Bodies body otherBody := by
  obtain ⟨slot, hpair⟩ := hcorr.arrays.total hget
  obtain ⟨stored, body, other, otherBody, hholds, _, hrecords, hbodies⟩ :=
    @holds _ _ _ hcorr array ⟨slot⟩ hpair
  have heq := hholds.get?_eq
  rw [hget, Option.some.injEq] at heq
  subst heq
  exact ⟨slot, other, body, otherBody, hpair, hholds, hrecords, hbodies⟩

/-- Whatever a living entity refers to is paired, unless it is a backing store. -/
theorem paired_of_refers {source target : Entity} (hrefers : first.Refers source target) :
    target.kind = .store ∨ ∃ slot, ρ.pairs target.kind target.slot slot := by
  have hpaired : ∀ {values others : List Value} {value : Value},
      List.Forall₂ ρ.Values values others → value ∈ values →
      value.entity? = some target → ∃ slot, ρ.pairs target.kind target.slot slot := by
    intro values others value hforall hmem htarget
    obtain ⟨other, hvalues⟩ := exists_of_mem hforall hmem
    exact hvalues.entity? htarget
  cases hrefers with
  | arrayHeader hrecord hvalue htarget =>
      obtain ⟨_, _, _, _, _, _, hrecords, _⟩ := hcorr.exists_array hrecord
      exact .inr (hpaired hrecords.header.values hvalue htarget)
  | arrayStore _ _ => exact .inl rfl
  | @arrayElement array record store slots index value _ hrecord hstore hslots hindex hvalue
      htarget =>
      obtain ⟨_, _, body, _, _, hholds, _, hbodies⟩ := hcorr.exists_array hrecord
      have hmem := hholds.mem_elements hstore hslots hindex hvalue
      exact .inr (hpaired hbodies.elements hmem htarget)
  | objectHeader hrecord hvalue htarget =>
      obtain ⟨_, _, _, _, hrecords⟩ := hcorr.objects.exists_related hrecord
      exact .inr (hpaired hrecords.header.values hvalue htarget)
  | objectField hrecord hvalue htarget =>
      obtain ⟨_, _, _, _, hrecords⟩ := hcorr.objects.exists_related hrecord
      exact .inr (hpaired hrecords.fields (Array.mem_toList_iff.2 hvalue) htarget)
  | closureEnv hrecord htarget =>
      obtain ⟨_, _, _, _, hrecords⟩ := hcorr.closures.exists_related hrecord
      exact .inr (hrecords.env.entity? htarget)

theorem paired_of_reaches {roots : List Value}
    (hroots : ∀ value ∈ roots, ∃ other, ρ.Values value other) {entity : Entity}
    (hreaches : first.Reaches roots entity) :
    entity.kind = .store ∨ ∃ slot, ρ.pairs entity.kind entity.slot slot := by
  cases hreaches with
  | root hvalue htarget =>
      rcases List.mem_append.1 hvalue with hroot | hpermanent
      · obtain ⟨other, hvalues⟩ := hroots _ hroot
        exact .inr (hvalues.entity? htarget)
      · exact .inr ((hcorr.permanent _ hpermanent).entity? htarget)
  | step _ hrefers => exact hcorr.paired_of_refers hrefers

theorem isLive {entity : Entity} {slot : Nat} (hpair : ρ.pairs entity.kind entity.slot slot) :
    first.isLive entity = true ∧ second.isLive ⟨entity.kind, slot⟩ = true := by
  obtain ⟨kind, left⟩ := entity
  cases kind with
  | array =>
      obtain ⟨_, _, hleft, hright, _⟩ := @hcorr.arrays.paired ⟨left⟩ ⟨slot⟩ hpair
      exact ⟨Arena.isLive_iff.2 ⟨_, hleft⟩, Arena.isLive_iff.2 ⟨_, hright⟩⟩
  | object =>
      obtain ⟨_, _, hleft, hright, _⟩ := @hcorr.objects.paired ⟨left⟩ ⟨slot⟩ hpair
      exact ⟨Arena.isLive_iff.2 ⟨_, hleft⟩, Arena.isLive_iff.2 ⟨_, hright⟩⟩
  | closure =>
      obtain ⟨_, _, hleft, hright, _⟩ := @hcorr.closures.paired ⟨left⟩ ⟨slot⟩ hpair
      exact ⟨Arena.isLive_iff.2 ⟨_, hleft⟩, Arena.isLive_iff.2 ⟨_, hright⟩⟩
  | number =>
      obtain ⟨_, _, hleft, hright, _⟩ := @hcorr.numbers.paired ⟨left⟩ ⟨slot⟩ hpair
      exact ⟨Arena.isLive_iff.2 ⟨_, hleft⟩, Arena.isLive_iff.2 ⟨_, hright⟩⟩
  | string =>
      obtain ⟨_, _, hleft, hright, _⟩ := @hcorr.strings.paired ⟨left⟩ ⟨slot⟩ hpair
      exact ⟨Arena.isLive_iff.2 ⟨_, hleft⟩, Arena.isLive_iff.2 ⟨_, hright⟩⟩
  | store => exact absurd hpair (hcorr.stores _ _)

/-- Marking from paired roots comes upon no freed slot. -/
theorem not_meetsFreed {roots : List Value}
    (hroots : ∀ value ∈ roots, ∃ other, ρ.Values value other) : ¬first.MeetsFreed roots := by
  rintro ⟨entity, hreaches, hkind, _, hdead⟩
  rcases hcorr.paired_of_reaches hroots hreaches with hstore | ⟨slot, hpair⟩
  · rw [hstore] at hkind
    simp at hkind
  · rw [(hcorr.isLive hpair).1] at hdead
    contradiction

end Corresponds

/-! ## The pairs that survive -/

/-- The pairs of what the roots lead to. -/
def reached (ρ : Renaming) (heap : Heap) (roots : List Value) : Renaming where
  pairs kind first second := ρ.pairs kind first second ∧ heap.Reaches roots ⟨kind, first⟩

variable {ρ : Renaming} {first second after : Heap} {roots : List Value}

theorem Values.reached {value other : Value} (hvalues : ρ.Values value other)
    (hreaches : ∀ entity, value.entity? = some entity → first.Reaches roots entity) :
    (ρ.reached first roots).Values value other :=
  hvalues.restrict fun entity _ hentity hpair => ⟨hpair, hreaches entity hentity⟩

theorem reaches_header {object : Object} {header : Header}
    (hreaches : first.Reaches roots object.entity)
    (hheader : first.header object = .ok header) {value : Value} (hvalue : value ∈ header.values)
    {entity : Entity} (hentity : value.entity? = some entity) : first.Reaches roots entity := by
  cases object with
  | ordinary handle =>
      obtain ⟨record, hget, rfl⟩ := Heap.header_ordinary_eq_ok_iff.1 hheader
      exact .step hreaches (.objectHeader hget hvalue hentity)
  | array handle =>
      obtain ⟨record, hget, rfl⟩ := Heap.header_array_eq_ok_iff.1 hheader
      exact .step hreaches (.arrayHeader hget hvalue hentity)

theorem entity?_toValue (object : Object) : object.toValue.entity? = some object.entity := by
  cases object <;> rfl

/-- Who is reached has its whole chain reached. -/
theorem reaches_chain {start : Option Object} {objects : List Object}
    (hdescends : first.Descends start objects)
    (hstart : ∀ object ∈ start, first.Reaches roots object.entity) :
    ∀ object ∈ objects, first.Reaches roots object.entity := by
  induction hdescends with
  | nil =>
      intro object hmem
      exact absurd hmem List.not_mem_nil
  | @cons object header rest hheader _ ih =>
      have hobject := hstart object rfl
      intro other hmem
      rcases List.mem_cons.1 hmem with rfl | hrest
      · exact hobject
      · refine ih ?_ other hrest
        intro parent hparent
        have hproto : header.proto = some parent := hparent
        have hvalue : parent.toValue ∈ header.values := by
          apply List.mem_append_left
          rw [hproto]
          exact List.mem_cons_self
        exact reaches_header hobject hheader hvalue (entity?_toValue parent)

theorem header_of_reaches (hcollects : first.Collects after roots) {object : Object}
    (hreaches : first.Reaches roots object.entity) (header : Header) :
    after.header object = .ok header ↔ first.header object = .ok header := by
  cases object with
  | ordinary handle =>
      rw [Heap.header_ordinary_eq_ok_iff, Heap.header_ordinary_eq_ok_iff,
        hcollects.objects.get?_kept handle hreaches]
  | array handle =>
      rw [Heap.header_array_eq_ok_iff, Heap.header_array_eq_ok_iff,
        hcollects.arrays.get?_kept handle hreaches]

theorem reaches_of_header (hcollects : first.Collects after roots) {object : Object}
    {header : Header} (hheader : after.header object = .ok header) :
    first.Reaches roots object.entity := by
  cases object with
  | ordinary handle =>
      obtain ⟨record, hget, _⟩ := Heap.header_ordinary_eq_ok_iff.1 hheader
      exact (hcollects.objects.get?_eq_some_iff.1 hget).1
  | array handle =>
      obtain ⟨record, hget, _⟩ := Heap.header_array_eq_ok_iff.1 hheader
      exact (hcollects.arrays.get?_eq_some_iff.1 hget).1

theorem grounded_collects (hgrounded : first.Grounded) (hcollects : first.Collects after roots) :
    after.Grounded := by
  intro object header hheader
  have hreaches := reaches_of_header hcollects hheader
  rw [header_of_reaches hcollects hreaches] at hheader
  obtain ⟨objects, hdescends⟩ := hgrounded object header hheader
  refine ⟨objects, hdescends.of_headers ?_⟩
  intro other otherHeader hmem hother
  have hchain := reaches_chain hdescends (fun start hstart => by cases hstart; exact hreaches)
  exact ⟨otherHeader, (header_of_reaches hcollects (hchain other hmem) otherHeader).2 hother, rfl⟩

theorem Headers.reached (object : Object) {header other : Header}
    (hreaches : first.Reaches roots object.entity)
    (hheader : first.header object = .ok header) (hheaders : ρ.Headers header other) :
    (ρ.reached first roots).Headers header other :=
  hheaders.restrict fun _ hvalue _ hvalues =>
    hvalues.reached fun _ hentity => reaches_header hreaches hheader hvalue hentity

/-- A collection in one of two heaps that correspond leaves them corresponding. -/
theorem Corresponds.collect (hcorr : ρ.Corresponds first second)
    (hcollects : first.Collects after roots) :
    (ρ.reached first roots).Corresponds after second where
  sound := hcollects.sound hcorr.sound
  sound_other := hcorr.sound_other
  grounded := grounded_collects hcorr.grounded hcollects
  arrays := by
    refine hcorr.arrays.retain hcollects.arrays (fun _ _ => Iff.rfl) ?_
    intro array record other hreaches hget hrecords
    have hheader := Heap.header_array_eq_ok_iff.2 ⟨record, hget, rfl⟩
    exact ⟨Headers.reached (.array array) hreaches hheader hrecords.header, hrecords.window_eq⟩
  elements := by
    rintro left right ⟨hpair, hreaches⟩
    obtain ⟨record, body, other, otherBody, hholds, hother, _, hbodies⟩ := hcorr.holds hpair
    have helements : after.elements? left = first.elements? left := by
      rcases hcollects.elements?_eq left with hsame | ⟨hdropped, _⟩
      · exact hsame
      · exact absurd hreaches hdropped
    rw [helements, hholds.elements?_eq, hother.elements?_eq]
    refine .some (forall₂_restrict hbodies.elements ?_)
    intro value hvalue otherValue hvalues
    apply hvalues.reached
    intro entity hentity
    exact .step hreaches (hholds.refers hvalue hentity)
  objects := by
    refine hcorr.objects.retain hcollects.objects (fun _ _ => Iff.rfl) ?_
    intro object record other hreaches hget hrecords
    have hheader := Heap.header_ordinary_eq_ok_iff.2 ⟨record, hget, rfl⟩
    refine ⟨Headers.reached (.ordinary object) hreaches hheader hrecords.header,
      hrecords.map_eq, ?_⟩
    apply forall₂_restrict hrecords.fields
    intro value hvalue otherValue hvalues
    apply hvalues.reached
    intro entity hentity
    exact .step hreaches (.objectField hget (Array.mem_toList_iff.1 hvalue) hentity)
  closures := by
    refine hcorr.closures.retain hcollects.closures (fun _ _ => Iff.rfl) ?_
    intro closure record other hreaches hget hrecords
    refine ⟨hrecords.env.reached ?_, hrecords.behaviour_eq⟩
    intro entity hentity
    exact .step hreaches (.closureEnv hget hentity)
  numbers :=
    hcorr.numbers.retain hcollects.numbers (fun _ _ => Iff.rfl) fun _ _ _ _ _ heq => heq
  strings :=
    hcorr.strings.retain hcollects.strings (fun _ _ => Iff.rfl) fun _ _ _ _ _ heq => heq
  stores := fun left right hpair => hcorr.stores left right hpair.1
  permanent := by
    intro value hvalue
    apply (hcorr.permanent value hvalue).reached
    intro entity hentity
    exact .root (List.mem_append_right _ hvalue) hentity

end Renaming

end ManagedHeap
