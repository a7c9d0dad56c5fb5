import Mathlib.Order.WellFounded
import ManagedHeap.Proofs.LiveHandles

/-!
# Walking up the prototypes

Walking up the prototypes ends, whatever objects and arrays a chain passes, as long
as the client only ever uses living handles.  Replacing a prototype is checked for
circles, but creating an object is not: a slot that is used again would close one
if anything still referred to it.
-/

namespace ManagedHeap

namespace Heap

variable {heap : Heap} {object : Object}

/-- One object is the prototype of another, which is living. -/
def IsProto (heap : Heap) (parent object : Object) : Prop :=
  ∃ header, heap.header object = .ok header ∧ header.proto = some parent

/-- Who has a chain that ends cannot walk up forever. -/
theorem Descends.acc {start : Option Object} {objects : List Object}
    (hdescends : heap.Descends start objects) : ∀ object ∈ start, Acc heap.IsProto object := by
  induction hdescends with
  | nil =>
      intro object hobject
      contradiction
  | @cons object header _ hheader _ ih =>
      intro other hother
      rw [Option.mem_some_iff] at hother
      subst hother
      constructor
      rintro parent ⟨found, hfound, hparent⟩
      rw [hheader, Except.ok.injEq] at hfound
      subst hfound
      exact ih parent hparent

theorem Grounded.wellFounded (hgrounded : heap.Grounded) : WellFounded heap.IsProto := by
  constructor
  intro object
  constructor
  rintro parent ⟨header, hheader, hparent⟩
  obtain ⟨objects, hdescends⟩ := hgrounded object header hheader
  have hacc : Acc heap.IsProto object := hdescends.acc object rfl
  exact hacc.inv ⟨header, hheader, hparent⟩

/-- No object is reached again by walking up from it. -/
theorem Grounded.acyclic (hgrounded : heap.Grounded) (object : Object) :
    ¬Relation.TransGen heap.IsProto object object := by
  have hirrefl := hgrounded.wellFounded.transGen.irrefl
  exact hirrefl.irrefl object

theorem exists_header_iff :
    (∃ header, heap.header object = .ok header) ↔ heap.isLive object.entity = true := by
  cases object with
  | ordinary handle =>
      have hlive : heap.isLive (Object.ordinary handle).entity = heap.objects.isLive handle := rfl
      simp only [hlive, Arena.isLive_iff, header_ordinary_eq_ok_iff]
      rw [exists_comm]
      simp
  | array handle =>
      have hlive : heap.isLive (Object.array handle).entity = heap.arrays.isLive handle := rfl
      simp only [hlive, Arena.isLive_iff, header_array_eq_ok_iff]
      rw [exists_comm]
      simp

theorem Grounded.exists_descends (hgrounded : heap.Grounded) {start : Option Object}
    (hlive : ∀ object ∈ start, heap.isLive object.entity = true) :
    ∃ objects, heap.Descends start objects := by
  cases start with
  | none => exact ⟨[], .nil⟩
  | some object =>
      obtain ⟨header, hheader⟩ := exists_header_iff.2 (hlive object rfl)
      exact hgrounded object header hheader

end Heap

namespace Agent

/-- What comes of walking up from `start`: a chain that ends, in which a property
is looked up, and which decides about a change of prototype.  A refused change
changes nothing, and one that is granted only the prototype of the object. -/
structure Climbs (agent : Agent) (start : Option Object) (chain : List Object) : Prop where
  descends : agent.heap.Descends start chain
  chainFrom_eq : agent.heap.chainFrom start = ⟨chain, .noPrototype⟩
  property_eq : ∀ object ∈ start, ∀ key, agent.heap.property object key =
    .ok ((chain.findSome? fun owner => agent.heap.own? owner key).getD .undefined)
  perform_setPrototype : ∀ object, agent.heap.isLive object.entity = true →
    (object.setPrototype start).perform agent =
      if object ∈ chain then (.ok false, agent)
      else
        (.ok true, { agent with
          heap := agent.heap.changeHeader object fun header => { header with proto := start } })

theorem climbs_of_descends {agent : Agent} {start : Option Object} {chain : List Object}
    (hdescends : agent.heap.Descends start chain) : agent.Climbs start chain where
  descends := hdescends
  chainFrom_eq := hdescends.chainFrom_eq
  property_eq := by
    intro object hobject key
    rw [Option.mem_def] at hobject
    subst hobject
    exact hdescends.property_eq key
  perform_setPrototype := by
    intro object hlive
    obtain ⟨header, hheader⟩ := Heap.exists_header_iff.2 hlive
    exact Object.perform_setPrototype hdescends hheader

/-- After a run whose operands are living at the time, no object is among its own
prototypes, and walking up from a living object comes to an end. -/
theorem prototypes_run (options : Options) {operations : List (Operation Value)}
    (hadmits : (start options).AdmitsAll operations) :
    let agent := (start options).run operations
    (∀ object, ¬Relation.TransGen agent.heap.IsProto object object) ∧
      ∀ proto : Option Object, (∀ parent ∈ proto, agent.heap.isLive parent.entity = true) →
        ∃ chain, agent.Climbs proto chain := by
  intro agent
  obtain ⟨ρ, other, hmirrors⟩ := (mirrored_start options).run hadmits
  have hgrounded : agent.heap.Grounded := hmirrors.heap.grounded
  constructor
  · exact hgrounded.acyclic
  · intro proto hlive
    obtain ⟨chain, hdescends⟩ := hgrounded.exists_descends hlive
    exact ⟨chain, climbs_of_descends hdescends⟩

/-- An object takes the slot of one that was collected.  Its chain passes an array,
which therefore cannot have it for a prototype. -/
theorem prototypes_run_refused :
    let agent := (start .standard).run
      [.newArray 0, .newObject .plain (some (.array ⟨0⟩)) 0, .collect [.array ⟨0⟩],
        .newObject .plain (some (.array ⟨0⟩)) 0]
    (∀ object, ¬Relation.TransGen agent.heap.IsProto object object) ∧
      ((Object.array ⟨0⟩).setPrototype (some (.ordinary ⟨1⟩))).perform agent =
        (.ok false, agent) := by
  intro agent
  have hadmits : (start .standard).AdmitsAll
      [.newArray 0, .newObject .plain (some (.array ⟨0⟩)) 0, .collect [.array ⟨0⟩],
        .newObject .plain (some (.array ⟨0⟩)) 0] := by
    decide +kernel
  obtain ⟨hacyclic, hclimbs⟩ := prototypes_run .standard hadmits
  obtain ⟨chain, hchain⟩ := hclimbs (some (.ordinary ⟨1⟩)) (by decide +kernel)
  have hobjects : agent.heap.chainFrom (some (.ordinary ⟨1⟩)) =
      ⟨[.ordinary ⟨1⟩, .array ⟨0⟩, .ordinary ⟨0⟩], .noPrototype⟩ := by
    decide +kernel
  rw [hchain.chainFrom_eq, Chain.mk.injEq] at hobjects
  have hmem : Object.array ⟨0⟩ ∈ chain := by
    rw [hobjects.1]
    decide
  have hlive : agent.heap.isLive (Object.array ⟨0⟩).entity = true := by
    decide +kernel
  have hrefused := hchain.perform_setPrototype (.array ⟨0⟩) hlive
  rw [if_pos hmem] at hrefused
  exact ⟨hacyclic, hrefused⟩

end Agent

end ManagedHeap
