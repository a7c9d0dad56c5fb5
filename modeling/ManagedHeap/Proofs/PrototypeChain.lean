import ManagedHeap.Proofs.ObjectChanges

/-!
# Prototype chains that end

A chain that ends visits no object twice, since each object determines what comes
after it.  It is therefore no longer than there are slots, and following it as
far as that finds all of it.  Objects keep such chains when others are added and
when a prototype is replaced by one whose chain does not pass through the object.
-/

namespace ManagedHeap

namespace Heap

variable {heap before after : Heap} {start : Option Object} {objects : List Object}
  {object : Object}

/-- The chain from an object on, down to one without a prototype. -/
inductive Descends (heap : Heap) : Option Object → List Object → Prop where
  | nil : Descends heap none []
  | cons {object : Object} {header : Header} {rest : List Object}
      (hheader : heap.header object = .ok header) (hrest : Descends heap header.proto rest) :
      Descends heap (some object) (object :: rest)

/-- Every chain that starts at an object of the heap ends. -/
def Grounded (heap : Heap) : Prop :=
  ∀ object header, heap.header object = .ok header →
    ∃ objects, heap.Descends (some object) objects

theorem Descends.unique {first second : List Object} (hfirst : heap.Descends start first)
    (hsecond : heap.Descends start second) : first = second := by
  induction hfirst generalizing second with
  | nil =>
      cases hsecond
      rfl
  | cons hheader _ ih =>
      cases hsecond with
      | cons hother hrest =>
          rw [hheader, Except.ok.injEq] at hother
          rw [← hother] at hrest
          rw [ih hrest]

theorem Descends.exists_header (hdescends : heap.Descends start objects)
    (hmem : object ∈ objects) : ∃ header, heap.header object = .ok header := by
  induction hdescends with
  | nil => exact absurd hmem List.not_mem_nil
  | cons hheader _ ih =>
      rcases List.mem_cons.1 hmem with rfl | hrest
      · exact ⟨_, hheader⟩
      · exact ih hrest

theorem Descends.from_mem (hdescends : heap.Descends start objects) (hmem : object ∈ objects) :
    ∃ rest, rest.length ≤ objects.length ∧ heap.Descends (some object) rest := by
  induction hdescends with
  | nil => exact absurd hmem List.not_mem_nil
  | cons hheader hrest ih =>
      rcases List.mem_cons.1 hmem with rfl | hlater
      · exact ⟨_, Nat.le_refl _, .cons hheader hrest⟩
      · obtain ⟨rest, hlength, hrest⟩ := ih hlater
        exact ⟨rest, Nat.le_succ_of_le hlength, hrest⟩

theorem Descends.nodup (hdescends : heap.Descends start objects) : objects.Nodup := by
  induction hdescends with
  | nil => exact List.nodup_nil
  | cons hheader hrest ih =>
      refine List.nodup_cons.2 ⟨?_, ih⟩
      intro hmem
      obtain ⟨again, hlength, hagain⟩ := hrest.from_mem hmem
      have heq := hagain.unique (.cons hheader hrest)
      rw [heq, List.length_cons] at hlength
      exact Nat.not_succ_le_self _ hlength

theorem header_ordinary_eq_ok_iff {heap : Heap} {object : ObjectHandle} {header : Header} :
    heap.header (.ordinary object) = .ok header ↔
      ∃ record, heap.objects.get? object = some record ∧ record.header = header := by
  unfold Heap.header
  simp only [← Arena.deref_eq_ok_iff]
  cases heap.objects.deref object with
  | error cause => simp [Except.map]
  | ok record => simp [Except.map]

theorem header_array_eq_ok_iff {heap : Heap} {array : ArrayHandle} {header : Header} :
    heap.header (.array array) = .ok header ↔
      ∃ record, heap.arrays.get? array = some record ∧ record.header = header := by
  unfold Heap.header
  simp only [← Arena.deref_eq_ok_iff]
  cases heap.arrays.deref array with
  | error cause => simp [Except.map]
  | ok record => simp [Except.map]

/-- All objects that there are slots for. -/
def objectSlots (heap : Heap) : List Object :=
  (List.range heap.objects.size).map (fun slot => .ordinary ⟨slot⟩) ++
    (List.range heap.arrays.size).map fun slot => .array ⟨slot⟩

theorem mem_objectSlots {header : Header} (hheader : heap.header object = .ok header) :
    object ∈ heap.objectSlots := by
  unfold objectSlots
  cases object with
  | ordinary handle =>
      obtain ⟨record, hget, _⟩ := header_ordinary_eq_ok_iff.1 hheader
      apply List.mem_append_left
      exact List.mem_map.2 ⟨handle.slot, List.mem_range.2 (Arena.slot_lt_size_of_get? hget), rfl⟩
  | array handle =>
      obtain ⟨record, hget, _⟩ := header_array_eq_ok_iff.1 hheader
      apply List.mem_append_right
      exact List.mem_map.2 ⟨handle.slot, List.mem_range.2 (Arena.slot_lt_size_of_get? hget), rfl⟩

theorem Descends.length_le (hdescends : heap.Descends start objects) :
    objects.length ≤ heap.objects.size + heap.arrays.size := by
  have hsubset : objects ⊆ heap.objectSlots := by
    intro object hmem
    obtain ⟨header, hheader⟩ := hdescends.exists_header hmem
    exact mem_objectSlots hheader
  have hlength := hdescends.nodup.length_le_of_subset hsubset
  simpa [objectSlots] using hlength

theorem Descends.follow_eq (hdescends : heap.Descends start objects) {steps : Nat}
    (hsteps : objects.length ≤ steps) : heap.follow steps start = ⟨objects, .noPrototype⟩ := by
  induction hdescends generalizing steps with
  | nil => cases steps <;> rfl
  | cons hheader _ ih =>
      cases steps with
      | zero => exact absurd hsteps (Nat.not_succ_le_zero _)
      | succ steps =>
          have hrest := ih (Nat.le_of_succ_le_succ hsteps)
          simp only [follow, hheader, hrest]

/-- Following a chain that ends finds its end. -/
theorem Descends.chainFrom_eq (hdescends : heap.Descends start objects) :
    heap.chainFrom start = ⟨objects, .noPrototype⟩ :=
  hdescends.follow_eq (Nat.le_succ_of_le hdescends.length_le)

theorem Descends.property_eq (hdescends : heap.Descends (some object) objects) (key : String) :
    heap.property object key =
      .ok ((objects.findSome? fun owner => heap.own? owner key).getD .undefined) := by
  unfold property
  rw [hdescends.chainFrom_eq]
  simp only
  cases objects.findSome? fun owner => heap.own? owner key <;> rfl

/-! ## Changes that keep chains -/

theorem Descends.of_headers (hdescends : before.Descends start objects)
    (hkept : ∀ object header, object ∈ objects → before.header object = .ok header →
      ∃ other, after.header object = .ok other ∧ other.proto = header.proto) :
    after.Descends start objects := by
  induction hdescends with
  | nil => exact .nil
  | cons hheader _ ih =>
      obtain ⟨other, hother, hproto⟩ := hkept _ _ List.mem_cons_self hheader
      refine .cons hother ?_
      rw [hproto]
      apply ih
      intro object header hmem
      exact hkept object header (List.mem_cons_of_mem _ hmem)

/-- Chains still end if objects are added whose prototypes have chains that end. -/
theorem Grounded.extend (hgrounded : before.Grounded)
    (hkept : ∀ object header, before.header object = .ok header →
      after.header object = .ok header)
    (hnew : ∀ object header, after.header object = .ok header →
      before.header object = .ok header ∨ ∃ objects, before.Descends header.proto objects) :
    after.Grounded := by
  have hchain : ∀ {start objects}, before.Descends start objects →
      after.Descends start objects := by
    intro start objects hdescends
    apply hdescends.of_headers
    intro object header _ hheader
    exact ⟨header, hkept object header hheader, rfl⟩
  intro object header hheader
  rcases hnew object header hheader with hold | ⟨objects, hproto⟩
  · obtain ⟨objects, hdescends⟩ := hgrounded object header hold
    exact ⟨objects, hchain hdescends⟩
  · exact ⟨object :: objects, .cons hheader (hchain hproto)⟩

theorem header_changeHeader_self (heap : Heap) (object : Object) (change : Header → Header) :
    (heap.changeHeader object change).header object = (heap.header object).map change := by
  cases object with
  | ordinary handle =>
      simp only [changeHeader, Heap.header, Arena.deref_modify_self]
      cases heap.objects.deref handle <;> rfl
  | array handle =>
      simp only [changeHeader, Heap.header, Arena.deref_modify_self]
      cases heap.arrays.deref handle <;> rfl

theorem header_changeHeader_of_ne (heap : Heap) {object other : Object}
    (change : Header → Header) (hne : other ≠ object) :
    (heap.changeHeader object change).header other = heap.header other := by
  cases object with
  | ordinary handle =>
      cases other with
      | array otherHandle => rfl
      | ordinary otherHandle =>
          have hhandle : otherHandle ≠ handle := fun heq => hne (congrArg Object.ordinary heq)
          simp only [changeHeader, Heap.header, Arena.deref_modify_of_ne _ _ hhandle]
  | array handle =>
      cases other with
      | ordinary otherHandle => rfl
      | array otherHandle =>
          have hhandle : otherHandle ≠ handle := fun heq => hne (congrArg Object.array heq)
          simp only [changeHeader, Heap.header, Arena.deref_modify_of_ne _ _ hhandle]

/-- Replacing a prototype by one whose chain avoids the object closes no circle. -/
theorem Grounded.changeHeader (hgrounded : heap.Grounded) {change : Header → Header}
    {header : Header} (hheader : heap.header object = .ok header)
    (hproto : ∃ objects, heap.Descends (change header).proto objects ∧ object ∉ objects) :
    (heap.changeHeader object change).Grounded := by
  have hself : (heap.changeHeader object change).header object = .ok (change header) := by
    rw [header_changeHeader_self, hheader]
    rfl
  obtain ⟨protoChain, hprotoChain, havoids⟩ := hproto
  have hafter : (heap.changeHeader object change).Descends (change header).proto protoChain := by
    apply hprotoChain.of_headers
    intro other otherHeader hmem hother
    have hne : other ≠ object := by
      intro heq
      exact havoids (heq ▸ hmem)
    exact ⟨otherHeader, by rw [header_changeHeader_of_ne heap change hne, hother], rfl⟩
  have hchains : ∀ {start objects}, heap.Descends start objects →
      ∃ others, (heap.changeHeader object change).Descends start others := by
    intro start objects hdescends
    induction hdescends with
    | nil => exact ⟨[], .nil⟩
    | @cons other otherHeader rest hother _ ih =>
        by_cases hother' : other = object
        · subst hother'
          exact ⟨other :: protoChain, .cons hself hafter⟩
        · obtain ⟨others, hothers⟩ := ih
          refine ⟨other :: others, .cons ?_ hothers⟩
          rw [header_changeHeader_of_ne heap change hother', hother]
  intro other otherHeader hother
  by_cases heq : other = object
  · subst heq
    exact ⟨other :: protoChain, .cons hself hafter⟩
  · rw [header_changeHeader_of_ne heap change heq] at hother
    obtain ⟨objects, hdescends⟩ := hgrounded other otherHeader hother
    exact hchains hdescends

end Heap

end ManagedHeap
