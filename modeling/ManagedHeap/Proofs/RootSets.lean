import ManagedHeap.Proofs.BagOrder

/-!
# Roots as a set

A collection is given its roots in some order, some of them perhaps more than once, and
it goes through every bag in the order in which that is kept.  What it marks depends on
none of this.  A sweep looks at nothing but the marks, slot by slot, and so the arenas, the
order in which their free slots will be used, and the events are the same as well.
-/

namespace ManagedHeap

namespace Arena

variable {kind : Kind} {α : Type} {related : α → α → Prop} {first second : Arena kind α}

theorem SameSlots.unmarked_congr (hsame : first.SameSlots second) (marks : Array Bool) :
    second.unmarked marks = first.unmarked marks := by
  unfold unmarked
  rw [hsame.handles_eq]

theorem Alike.releaseAll (halike : first.Alike second related) (garbage : List (Handle kind)) :
    (first.releaseAll garbage).Alike (second.releaseAll garbage) related where
  slots := halike.slots.releaseAll garbage
  entities := by
    intro handle entity hget
    rw [get?_releaseAll] at hget ⊢
    split at hget
    · contradiction
    · rename_i hkept
      rw [if_neg hkept]
      exact halike.entities hget

theorem Alike.sweep (halike : first.Alike second related) (marks : Array Bool) :
    (first.releaseAll (first.unmarked marks)).Alike (second.releaseAll (second.unmarked marks))
      related := by
  rw [halike.slots.unmarked_congr]
  exact halike.releaseAll _

end Arena

namespace Heap

variable {first second : Heap} {roots others : List Value}

/-! ## The marks -/

theorem marks_ext {marks otherMarks : ByKind (Array Bool)}
    (hsize : ∀ kind, (otherMarks.get kind).size = (marks.get kind).size)
    (hmarked : ∀ entity, IsMarked otherMarks entity ↔ IsMarked marks entity) :
    otherMarks = marks := by
  apply ByKind.ext_get
  intro kind
  apply Array.ext (hsize kind)
  intro slot hother hslot
  have hboth := hmarked ⟨kind, slot⟩
  unfold IsMarked at hboth
  rw [Array.getElem?_eq_getElem hother, Array.getElem?_eq_getElem hslot, Option.some.injEq,
    Option.some.injEq] at hboth
  exact Bool.eq_iff_iff.2 hboth

theorem Reorders.reaches_iff (hreorders : first.Reorders second)
    (hroots : ∀ value, value ∈ others ↔ value ∈ roots) (entity : Entity) :
    second.Reaches others entity ↔ first.Reaches roots entity := by
  constructor
  · intro hother
    exact hreorders.symm.reaches (hother.of_subset fun value => (hroots value).1)
  · intro hfirst
    exact hreorders.reaches (hfirst.of_subset fun value => (hroots value).2)

theorem Reorders.meetsFreed_congr (hreorders : first.Reorders second)
    (hroots : ∀ value, value ∈ others ↔ value ∈ roots) :
    second.MeetsFreed others ↔ first.MeetsFreed roots := by
  rw [hreorders.meetsFreed_iff]
  constructor
  · exact MeetsFreed.of_subset fun value => (hroots value).1
  · exact MeetsFreed.of_subset fun value => (hroots value).2

/-- The order of the roots and of the bags makes no difference to what is marked, nor to
whether marking comes upon a freed slot. -/
theorem Reorders.mark_eq (hreorders : first.Reorders second) (hsound : first.Sound)
    (hroots : ∀ value, value ∈ others ↔ value ∈ roots) :
    second.mark others = first.mark roots := by
  have hmeets := hreorders.meetsFreed_congr hroots
  rcases mark_spec hsound roots with ⟨marks, hmark, hnone, hsize, hmarked⟩ | ⟨hmark, hfreed⟩
  · rcases mark_spec (hreorders.sound hsound) others with
      ⟨otherMarks, hotherMark, -, hotherSize, hotherMarked⟩ | ⟨-, hotherFreed⟩
    · have hsame : otherMarks = marks := by
        apply marks_ext
        · intro kind
          rw [hotherSize, hsize, hreorders.sizes_eq]
        · intro entity
          rw [hotherMarked, hmarked, hreorders.sizes_eq, hreorders.reaches_iff hroots]
      rw [hotherMark, hmark, hsame]
    · exact absurd (hmeets.1 hotherFreed) hnone
  · -- Which of the freed slots is come upon is not told by the fault.
    rcases mark_spec (hreorders.sound hsound) others with ⟨-, -, hotherNone, -⟩ | ⟨hotherMark, -⟩
    · exact absurd (hmeets.2 hfreed) hotherNone
    · rw [hotherMark, hmark]

/-! ## The sweep -/

theorem Reorders.garbage_eq (hreorders : first.Reorders second) (marks : ByKind (Array Bool)) :
    second.garbage marks = first.garbage marks := by
  unfold garbage
  rw [hreorders.arrays.slots.unmarked_congr, hreorders.objects.slots.unmarked_congr,
    hreorders.closures_eq, hreorders.numbers_eq, hreorders.strings_eq, hreorders.stores_eq]

theorem Reorders.swept (hreorders : first.Reorders second) (marks : ByKind (Array Bool)) :
    (first.swept marks).Reorders (second.swept marks) where
  arrays := hreorders.arrays.sweep marks.array
  objects := hreorders.objects.sweep marks.object
  closures_eq := by simp only [Heap.swept, discard, garbage, hreorders.closures_eq]
  numbers_eq := by simp only [Heap.swept, discard, garbage, hreorders.numbers_eq]
  strings_eq := by simp only [Heap.swept, discard, garbage, hreorders.strings_eq]
  stores_eq := by simp only [Heap.swept, hreorders.stores_eq]

end Heap

namespace Agent

/-- The agents differ in nothing but the order of the bags.  New entities get the same
handles in both. -/
structure Reorders (first second : Agent) : Prop where
  heap : first.heap.Reorders second.heap
  options_eq : second.options = first.options
  log_eq : second.log = first.log

variable {agent first second : Agent} {roots others : List Value}

theorem Reorders.afterSweep (hreorders : first.Reorders second) (marks : ByKind (Array Bool)) :
    (first.afterSweep marks).Reorders (second.afterSweep marks) where
  heap := hreorders.heap.swept marks
  options_eq := hreorders.options_eq
  log_eq := by
    unfold Agent.afterSweep Heap.releaseEvents
    simp only [Heap.removed_swept, hreorders.heap.garbage_eq, hreorders.heap.stores_eq,
      hreorders.log_eq]

theorem Reorders.collect (hreorders : first.Reorders second) (hsound : first.Sound)
    (hroots : ∀ value, value ∈ others ↔ value ∈ roots) :
    ((Action.collect others).perform second).1 = ((Action.collect roots).perform first).1 ∧
      ((Action.collect roots).perform first).2.Reorders
        ((Action.collect others).perform second).2 := by
  rw [Action.perform_collect_eq, Action.perform_collect_eq, hreorders.options_eq,
    hreorders.heap.mark_eq hsound hroots]
  split
  · exact ⟨rfl, hreorders⟩
  · cases first.heap.mark roots with
    | error cause => exact ⟨rfl, hreorders⟩
    | ok marks => exact ⟨rfl, hreorders.afterSweep marks⟩

theorem collect_congr (hsound : agent.Sound) (hroots : ∀ value, value ∈ others ↔ value ∈ roots) :
    (Action.collect others).perform agent = (Action.collect roots).perform agent := by
  rw [Action.perform_collect_eq, Action.perform_collect_eq,
    agent.heap.reorders_refl.mark_eq hsound hroots]

/-- In every state that a run brings about, and in whatever order its bags are, collections
whose roots are the same values have the same outcome.  Another order of the bags changes
neither the answer nor the log, and of the heap afterwards only that order. -/
theorem collections_agree_run (options : Options) (operations : List (Operation Value))
    {left right : Heap} (hleft : ((start options).run operations).heap.Reorders left)
    (hright : ((start options).run operations).heap.Reorders right)
    (hroots : ∀ value, value ∈ others ↔ value ∈ roots) :
    let reached := (start options).run operations
    let first := { reached with heap := left }
    let second := { reached with heap := right }
    (Action.collect others).perform first = (Action.collect roots).perform first ∧
      ((Action.collect others).perform second).1 = ((Action.collect roots).perform first).1 ∧
      ((Action.collect roots).perform first).2.Reorders
        ((Action.collect others).perform second).2 := by
  intro reached first second
  have hsound : first.Sound := hleft.sound ((sound_start options).run operations)
  have hreorders : first.Reorders second := ⟨hleft.symm.trans hright, rfl, rfl⟩
  exact ⟨collect_congr hsound hroots, hreorders.collect hsound hroots⟩

/-- The bag of the object is read from its other end, and one of the arrays is garbage. -/
theorem collections_agree_run_repeated :
    let reached := (start .standard).run
      [.newArray 0, .newArray 0, .newObject .plain none 0,
        .object (.object ⟨1⟩) (.set "first" (.array ⟨0⟩)),
        .object (.object ⟨1⟩) (.set "second" (.object ⟨1⟩))]
    let reversed := reached.heap.changeHeader (.ordinary ⟨1⟩) fun header =>
      { header with bag := ⟨header.bag.entries.reverse⟩ }
    let first := (Action.collect [.object ⟨1⟩, .null]).perform reached
    let second := (Action.collect [.null, .object ⟨1⟩, .null]).perform
      { reached with heap := reversed }
    first.1 = .ok () ∧ first.2.heap.isLive ⟨.array, 1⟩ = false ∧
      second.1 = first.1 ∧ first.2.Reorders second.2 := by
  intro reached reversed first second
  have hreverse : ∀ header : Header,
      header.Reorders { header with bag := ⟨header.bag.entries.reverse⟩ } :=
    fun header => ⟨rfl, rfl, header.bag.entries.reverse_perm⟩
  have hright : reached.heap.Reorders reversed :=
    reached.heap.reorders_changeHeader (.ordinary ⟨1⟩) hreverse
  have hroots : ∀ value : Value,
      value ∈ [.null, .object ⟨1⟩, .null] ↔ value ∈ [.object ⟨1⟩, .null] := by
    simp [or_comm]
  have hfirst : ((Action.collect [.object ⟨1⟩, .null]).perform reached).1 = .ok () := by
    decide +kernel
  have hfreed : ((Action.collect [.object ⟨1⟩, .null]).perform reached).2.heap.isLive
      ⟨.array, 1⟩ = false := by
    decide +kernel
  obtain ⟨-, hanswer, hagree⟩ :=
    collections_agree_run .standard _ reached.heap.reorders_refl hright hroots
  exact ⟨hfirst, hfreed, hanswer, hagree⟩

end Agent

end ManagedHeap
