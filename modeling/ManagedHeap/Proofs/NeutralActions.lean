import ManagedHeap.Proofs.Refusals
import ManagedHeap.Proofs.Resemblance

/-!
# Actions to which the growth policy makes no difference

Agents with different policies resemble each other if their heaps do.  An action is
neutral if its outcomes in such agents are alike: it answers the same in both, and they
resemble each other afterwards, unless one of them was refused a store.  The rules follow
the way in which actions are put together.  An operation on an array is neutral since the
changes that it comes down to, however they place the elements, make the same ones.
-/

namespace ManagedHeap

open ManagedHeap.Action

/-! ## Agents that resemble each other -/

/-- The heaps resemble each other, and both agents collect or neither does.  Nothing is
said of the policies. -/
structure Agent.Resembles (first second : Agent) : Prop where
  heap : first.heap.Resembles second.heap
  disableCollection_eq : second.options.disableCollection = first.options.disableCollection

theorem Agent.Resembles.update {first second : Agent} (hlike : first.Resembles second)
    {left right : Heap} (hheaps : left.Resembles right) :
    Agent.Resembles { first with heap := left } { second with heap := right } :=
  ⟨hheaps, hlike.disableCollection_eq⟩

def Fault.isAllocation : Fault → Bool
  | .allocation _ => true
  | _ => false

namespace Outcome

variable {α β : Type}

/-- A backing store was refused. -/
def runsOut (outcome : Outcome α) : Bool :=
  match outcome.1 with
  | .error cause => cause.isAllocation
  | .ok _ => false

/-- Unless a store was refused, the answers are the same and the agents still resemble
each other. -/
def Alike (first second : Outcome α) : Prop :=
  first.runsOut = true ∨ second.runsOut = true ∨
    (second.1 = first.1 ∧ first.2.Resembles second.2)

theorem alike_of_resembles {first second : Agent} (hlike : first.Resembles second)
    (answer : Except Fault α) : Alike (answer, first) (answer, second) :=
  .inr (.inr ⟨rfl, hlike⟩)

theorem runsOut_andThen {outcome : Outcome α} (hout : outcome.runsOut = true)
    (next : α → Agent → Outcome β) : (outcome.andThen next).runsOut = true := by
  obtain ⟨answer | answer, agent⟩ := outcome
  · exact hout
  · contradiction

theorem Alike.andThen {first second : Outcome α} (halike : first.Alike second)
    {next : α → Agent → Outcome β}
    (hnext : ∀ x left right, left.Resembles right → (next x left).Alike (next x right)) :
    (first.andThen next).Alike (second.andThen next) := by
  rcases halike with hout | hout | ⟨hanswers, hlike⟩
  · exact .inl (runsOut_andThen hout next)
  · exact .inr (.inl (runsOut_andThen hout next))
  · obtain ⟨answer, left⟩ := first
    obtain ⟨other, right⟩ := second
    simp only at hanswers
    subst hanswers
    cases other with
    | error cause => exact alike_of_resembles hlike (.error cause)
    | ok x => exact hnext x left right hlike

end Outcome

/-! ## Neutral actions -/

namespace Action

variable {α β γ : Type} {first second : Agent}

def AlikeIn (first second : Agent) (action : Action α) : Prop :=
  (action.perform first).Alike (action.perform second)

/-- What the action does in two agents is alike, whatever their policies. -/
def Neutral (action : Action α) : Prop :=
  ∀ first second, first.Resembles second → AlikeIn first second action

theorem AlikeIn.bind {action : Action α} {next : α → Action β}
    (haction : AlikeIn first second action) (hnext : ∀ x, Neutral (next x)) :
    AlikeIn first second (action >>= next) := by
  unfold AlikeIn
  rw [perform_bind, perform_bind]
  apply Outcome.Alike.andThen haction
  intro x left right hlike
  exact hnext x left right hlike

theorem neutral_pure (x : α) : Neutral (pure x : Action α) := by
  intro first second hlike
  exact Outcome.alike_of_resembles hlike _

theorem neutral_throw (cause : Fault) : Neutral (throw cause : Action α) := by
  intro first second hlike
  exact Outcome.alike_of_resembles hlike _

theorem AlikeIn.map {action : Action α} (haction : AlikeIn first second action) (f : α → β) :
    AlikeIn first second (f <$> action) := by
  rw [← bind_pure_comp]
  exact haction.bind fun x => neutral_pure (f x)

theorem Neutral.bind {action : Action α} {next : α → Action β} (haction : Neutral action)
    (hnext : ∀ x, Neutral (next x)) : Neutral (action >>= next) := by
  intro first second hlike
  exact (haction first second hlike).bind hnext

theorem Neutral.map {action : Action α} (haction : Neutral action) (f : α → β) :
    Neutral (f <$> action) := by
  intro first second hlike
  exact (haction first second hlike).map f

theorem neutral_read {question : Heap → Except Fault α}
    (hquestion : ∀ first second : Heap, first.Resembles second →
      question second = question first) : Neutral (read question) := by
  intro first second hlike
  unfold AlikeIn
  rw [perform_read, perform_read, hquestion _ _ hlike.heap]
  exact Outcome.alike_of_resembles hlike _

theorem neutral_transform {change : Heap → α × Heap}
    (hchange : ∀ first second : Heap, first.Resembles second →
      (change second).1 = (change first).1 ∧ (change first).2.Resembles (change second).2) :
    Neutral (transform change) := by
  intro first second hlike
  obtain ⟨hanswer, hafter⟩ := hchange _ _ hlike.heap
  unfold AlikeIn
  rw [perform_transform, perform_transform, hanswer]
  exact Outcome.alike_of_resembles (hlike.update hafter) _

theorem neutral_foldlM {step : β → α → Action β} (hstep : ∀ x y, Neutral (step x y))
    (items : List α) (start : β) : Neutral (items.foldlM step start) := by
  induction items generalizing start with
  | nil => exact neutral_pure start
  | cons item rest ih =>
      rw [List.foldlM_cons]
      exact (hstep start item).bind ih

theorem neutral_mapM {step : α → Action β} (hstep : ∀ x, Neutral (step x))
    (items : List α) : Neutral (items.mapM step) := by
  induction items with
  | nil =>
      rw [List.mapM_nil]
      exact neutral_pure []
  | cons item rest ih =>
      rw [List.mapM_cons]
      apply (hstep item).bind
      intro value
      apply ih.bind
      intro others
      exact neutral_pure _

theorem neutral_optionMapM {step : α → Action β} (hstep : ∀ x, Neutral (step x))
    (item : Option α) : Neutral (item.mapM step) := by
  cases item with
  | none => exact neutral_pure none
  | some x => exact (hstep x).map some

/-! ## New entities -/

theorem neutral_newString (text : String) : Neutral (newString text) := by
  apply neutral_transform
  intro first second hlike
  rw [hlike.strings_eq]
  refine ⟨rfl, hlike.of_same_arrays ?_ ?_ rfl rfl rfl rfl hlike.objects_eq hlike.closures_eq
    hlike.numbers_eq rfl⟩
  · exact { hlike.sound.arenas with strings := hlike.sound.arenas.strings.push text }
  · exact { hlike.sound_other.arenas with strings := hlike.sound.arenas.strings.push text }

theorem neutral_newNumber (x : Binary64) : Neutral (newNumber x) := by
  unfold newNumber
  split
  · exact neutral_pure _
  · apply neutral_transform
    intro first second hlike
    rw [hlike.numbers_eq]
    refine ⟨rfl, hlike.of_same_arrays ?_ ?_ rfl rfl rfl rfl hlike.objects_eq hlike.closures_eq
      rfl hlike.strings_eq⟩
    · exact { hlike.sound.arenas with numbers := hlike.sound.arenas.numbers.push x }
    · exact { hlike.sound_other.arenas with numbers := hlike.sound.arenas.numbers.push x }

theorem neutral_newObject (map : ObjectMap) (proto : Option Object) (tag : UInt32) :
    Neutral (newObject map proto tag) := by
  apply neutral_transform
  intro first second hlike
  rw [hlike.objects_eq]
  refine ⟨rfl, hlike.of_same_arrays ?_ ?_ rfl rfl rfl rfl rfl hlike.closures_eq
    hlike.numbers_eq hlike.strings_eq⟩
  · exact { hlike.sound.arenas with objects := hlike.sound.arenas.objects.push _ }
  · exact { hlike.sound_other.arenas with objects := hlike.sound.arenas.objects.push _ }

theorem neutral_newClosure (env : Value) (behaviour : Behaviour) :
    Neutral (newClosure env behaviour) := by
  apply neutral_transform
  intro first second hlike
  rw [hlike.closures_eq]
  refine ⟨rfl, hlike.of_same_arrays ?_ ?_ rfl rfl rfl rfl hlike.objects_eq rfl
    hlike.numbers_eq hlike.strings_eq⟩
  · exact { hlike.sound.arenas with closures := hlike.sound.arenas.closures.push _ }
  · exact { hlike.sound_other.arenas with closures := hlike.sound.arenas.closures.push _ }

theorem neutral_newArray (tag : UInt32) : Neutral (newArray tag) := by
  apply neutral_transform
  intro first second hlike
  exact ⟨hlike.nextArray_eq (.ofTag tag), hlike.withArray tag⟩

end Action

/-! ## Changes of arrays

The two agents may have different changes in store for an array, one that settles and
one that moves it.  What counts is that they make the same elements. -/

namespace Change

/-- Unless it is refused, the change gives an array with this body these elements.  If it
moves the array, it is to make room for them. -/
structure Yields (change : Change) (body : Body) (elements : List Value) : Prop where
  suits : change.Suits body
  makes : change.Makes elements
  moves : ∀ notices next, change = .move notices next → elements ≠ []

variable {change other : Change} {body otherBody : Body} {elements : List Value}

/-- Afterwards there is a store if there was one before or if there are elements. -/
theorem Yields.size_pos_iff (hyields : change.Yields body elements)
    (hgranted : change.refusal? = none) :
    0 < (change.next body).offset + (change.next body).capacity ↔
      0 < body.offset + body.capacity ∨ elements ≠ [] := by
  cases change with
  | settle next =>
      obtain ⟨hfits, hsize⟩ := hyields.suits
      have helements : next.elements = elements := hyields.makes
      have hlength := hfits.length_le
      change 0 < next.offset + next.capacity ↔ _
      rw [helements] at hlength
      rw [hsize]
      -- the store stays, and it has slots if it has to hold elements
      constructor
      · exact .inl
      · rintro (hpos | hne)
        · exact hpos
        · have hpos := List.length_pos_iff.2 hne
          omega
  | move notices next =>
      exact ⟨fun _ => .inr (hyields.moves notices next rfl), fun _ => hyields.suits.2⟩
  | refuse _ error => contradiction

theorem runsOut_carryOut {α : Type} {error : AllocationError}
    (hrefused : change.refusal? = some error) (array : ArrayHandle) (record : ArrayRecord)
    (answer : α) (agent : Agent) :
    (change.carryOut array record answer agent).runsOut = true := by
  unfold Outcome.runsOut
  rw [fst_carryOut, hrefused]
  rfl

theorem sameSlots_carryOut {α : Type} (change : Change) (array : ArrayHandle)
    (record : ArrayRecord) (answer : α) (agent : Agent) :
    agent.heap.arrays.SameSlots (change.carryOut array record answer agent).2.heap.arrays := by
  cases change with
  | settle next => exact Arena.sameSlots_modify _ array _
  | move notices next => exact Arena.sameSlots_modify _ array _
  | refuse notices error => exact Arena.sameSlots_refl _

theorem alike_carryOut {α : Type} {first second : Agent} {array : ArrayHandle}
    {record otherRecord : ArrayRecord} (hlike : first.Resembles second)
    (hshares : first.heap.Shares second.heap array record otherRecord body otherBody)
    (hsuits : change.Suits body) (hsuitsOther : other.Suits otherBody)
    (hmakes : change.Makes elements) (hmakesOther : other.Makes elements)
    (hsize : change.refusal? = none → other.refusal? = none →
      (0 < (other.next otherBody).offset + (other.next otherBody).capacity ↔
        0 < (change.next body).offset + (change.next body).capacity))
    (answer : α) :
    (change.carryOut array record answer first).Alike
      (other.carryOut array otherRecord answer second) := by
  cases hgranted : change.refusal? with
  | some error => exact .inl (runsOut_carryOut hgranted array record answer first)
  | none =>
      cases hother : other.refusal? with
      | some error =>
          exact .inr (.inl (runsOut_carryOut hother array otherRecord answer second))
      | none =>
          have hleft := rebuilds_carryOut hlike.heap.sound hshares.holds hsuits answer
          have hright :=
            rebuilds_carryOut hlike.heap.sound_other hshares.holds_other hsuitsOther answer
          have helements : (other.next otherBody).elements = (change.next body).elements := by
            rw [hmakes.elements_next hgranted, hmakesOther.elements_next hother]
          refine .inr (.inr ⟨?_, ?_, ?_⟩)
          · rw [fst_carryOut, fst_carryOut, hgranted, hother]
          · exact hlike.heap.rebuilds hleft hright (sameSlots_carryOut _ _ _ _ _)
              (sameSlots_carryOut _ _ _ _ _) hshares.header_eq (hsize hgranted hother) helements
          · rw [options_carryOut, options_carryOut]
            exact hlike.disableCollection_eq

theorem Yields.alike_carryOut {α : Type} {first second : Agent} {array : ArrayHandle}
    {record otherRecord : ArrayRecord} (hyields : change.Yields body elements)
    (hother : other.Yields otherBody elements) (hlike : first.Resembles second)
    (hshares : first.heap.Shares second.heap array record otherRecord body otherBody)
    (answer : α) :
    (change.carryOut array record answer first).Alike
      (other.carryOut array otherRecord answer second) := by
  apply Change.alike_carryOut hlike hshares hyields.suits hother.suits hyields.makes hother.makes
  intro hgranted hgrantedOther
  rw [hyields.size_pos_iff hgranted, hother.size_pos_iff hgrantedOther, hshares.size_pos_iff]

end Change

namespace Body

variable {body : Body}

theorem Fits.yields_put (hfits : body.Fits) (options : Options) (array : ArrayHandle)
    (index : Nat) (value : Value) :
    (body.put options array index value).Yields body (putAt body.elements index value) := by
  refine ⟨hfits.suits_put index value, makes_put index value, ?_⟩
  intro _ _ _
  apply List.ne_nil_of_length_pos
  rw [length_putAt]
  omega

theorem Fits.yields_method (hfits : body.Fits) (method : ArrayMethod) (options : Options)
    (array : ArrayHandle) (argument : Value) :
    (method.change options array argument body).Yields body
      (method.onList argument body.elements) := by
  refine ⟨hfits.suits_method method argument, makes_method method argument, ?_⟩
  intro notices next hmove
  cases method with
  | push | unshift => simp [ArrayMethod.onList]
  | pop | reverse => contradiction
  | shift =>
      simp only [ArrayMethod.change, shift] at hmove
      split at hmove <;> contradiction

theorem Fits.yields_setLength (hfits : body.Fits) (length : Int) :
    (body.setLength length).Yields body
      (if body.Admits length then resize body.elements length.toNat else body.elements) := by
  refine ⟨hfits.suits_setLength length, makes_setLength length, ?_⟩
  intro notices next hmove
  unfold setLength at hmove
  split at hmove <;> contradiction

theorem Fits.yields_setField (hfits : body.Fits) (slot : Nat) (value : Value) :
    (body.setField slot value).Yields body
      ((body.window.fieldLength? slot value).elim body.elements (resize body.elements)) := by
  refine ⟨hfits.suits_setField slot value, ?_, ?_⟩
  · unfold setField
    cases body.window.fieldLength? slot value <;> rfl
  · intro notices next hmove
    unfold setField at hmove
    split at hmove <;> contradiction

end Body

/-! ## Operations on arrays -/

namespace ArrayHandle

variable {α : Type} {array : ArrayHandle} {first second : Agent}

/-- An action that comes down to a change of an array. -/
theorem alikeIn_of_carryOut {action : Action α} (hlike : first.Resembles second)
    (hgone : ∀ agent cause, agent.heap.arrays.deref array = .error cause →
      action.perform agent = (.error cause, agent))
    (houtcomes : ∀ record other body otherBody,
      first.heap.Shares second.heap array record other body otherBody →
      ∃ (change otherChange : Change) (answer : α) (elements : List Value),
        action.perform first = change.carryOut array record answer first ∧
        action.perform second = otherChange.carryOut array other answer second ∧
        change.Yields body elements ∧ otherChange.Yields otherBody elements) :
    AlikeIn first second action := by
  unfold AlikeIn
  rcases hlike.heap.gone_or_shares array with ⟨cause, hleft, hright⟩ |
    ⟨record, other, body, otherBody, hshares⟩
  · rw [hgone first cause hleft, hgone second cause hright]
    exact Outcome.alike_of_resembles hlike _
  · obtain ⟨change, otherChange, answer, elements, hfirst, hsecond, hyields, hother⟩ :=
      houtcomes record other body otherBody hshares
    rw [hfirst, hsecond]
    exact hyields.alike_carryOut hother hlike hshares answer

theorem neutral_put (array : ArrayHandle) (index : Int) (value : Value) :
    Neutral (array.put index value) := by
  intro first second hlike
  by_cases hindex : index < 0
  -- nothing is written, but a stale handle is a fault all the same
  · unfold AlikeIn
    rcases hlike.heap.gone_or_shares array with ⟨cause, hleft, hright⟩ |
      ⟨record, other, body, otherBody, hshares⟩
    · rw [perform_put_of_gone hleft, perform_put_of_gone hright]
      exact Outcome.alike_of_resembles hlike _
    · rw [perform_put_of_neg hshares.holds hindex, perform_put_of_neg hshares.holds_other hindex]
      exact Outcome.alike_of_resembles hlike _
  · apply alikeIn_of_carryOut hlike
    · intro agent cause hgone
      exact perform_put_of_gone hgone index value
    · intro record other body otherBody hshares
      have hother :=
        hshares.holds_other.fits.yields_put second.options array index.toNat value
      rw [hshares.elements_eq] at hother
      exact ⟨_, _, value, _,
        perform_put hlike.heap.sound hshares.holds (Int.not_lt.1 hindex) value,
        perform_put hlike.heap.sound_other hshares.holds_other (Int.not_lt.1 hindex) value,
        hshares.holds.fits.yields_put _ array index.toNat value, hother⟩

theorem neutral_call (array : ArrayHandle) (method : ArrayMethod) (argument : Value) :
    Neutral (array.call method argument) := by
  intro first second hlike
  apply alikeIn_of_carryOut hlike
  · intro agent cause hgone
    exact perform_call_of_gone hgone method argument
  · intro record other body otherBody hshares
    have hperform := perform_call hlike.heap.sound_other hshares.holds_other method argument
    have hother :=
      hshares.holds_other.fits.yields_method method second.options array argument
    rw [hshares.elements_eq] at hperform hother
    exact ⟨_, _, _, _, perform_call hlike.heap.sound hshares.holds method argument, hperform,
      hshares.holds.fits.yields_method method _ array argument, hother⟩

theorem neutral_callRepeatedly (array : ArrayHandle) (method : ArrayMethod) (times : Nat) :
    Neutral (array.callRepeatedly method times) := by
  unfold callRepeatedly
  apply neutral_foldlM
  intro _ index
  exact neutral_call array method _

/-- A new array gets its first store, in the same way in both agents. -/
theorem neutral_of_create {tag : UInt32} {action : Action ArrayHandle} (change : Options → Change)
    {elements : List Value} {made : Change}
    (haction : ∀ agent, agent.heap.Sound → action.perform agent =
      (change agent.options).carryOut (agent.heap.nextArray (.ofTag tag)) (.ofTag tag)
        (agent.heap.nextArray (.ofTag tag)) (agent.withArray tag))
    (hsuits : ∀ options, (change options).Suits .empty)
    (hmakes : ∀ options, (change options).Makes elements)
    (hmade : ∀ options, (change options).refusal? = none → change options = made) :
    Neutral action := by
  intro first second hlike
  have hafter : (first.withArray tag).Resembles (second.withArray tag) :=
    ⟨hlike.heap.withArray tag, hlike.disableCollection_eq⟩
  have hleft := Heap.holds_withArray_self hlike.heap.sound tag
  have hright := Heap.holds_withArray_self hlike.heap.sound_other tag
  unfold AlikeIn
  rw [haction first hlike.heap.sound, haction second hlike.heap.sound_other,
    hlike.heap.nextArray_eq]
  rw [hlike.heap.nextArray_eq] at hright
  apply Change.alike_carryOut hafter ⟨hleft, hright, rfl, Iff.rfl, rfl⟩ (hsuits _) (hsuits _)
    (hmakes _) (hmakes _)
  intro hgranted hother
  rw [hmade _ hgranted, hmade _ hother]

theorem neutral_withCapacity (capacity : Nat) (tag : UInt32) :
    Neutral (withCapacity capacity tag) := by
  apply neutral_of_create (Body.reserve · capacity)
  · intro agent hsound
    exact perform_withCapacity hsound capacity tag
  · exact fun _ => Body.suits_reserve capacity
  · exact fun _ => Body.makes_reserve capacity
  · exact fun _ => Body.reserve_eq_of_granted capacity

theorem neutral_literal (elements : List Value) (tag : UInt32) :
    Neutral (literal elements.toArray tag) := by
  apply neutral_of_create (Body.ofElements · elements)
  · intro agent hsound
    exact perform_literal hsound elements tag
  · exact fun _ => Body.suits_ofElements elements
  · exact fun _ => Body.makes_ofElements elements
  · exact fun _ => Body.ofElements_eq_of_granted elements

/-- A length that is granted lies within the length that there is, or else the array is
made longer, which only its capacity allows. -/
theorem alikeIn_setLength {length : Int} (hlike : first.Resembles second)
    (hfirst : ∀ record, first.heap.arrays.get? array = some record →
      record.window.length < length → ¬length ≤ record.window.capacity)
    (hsecond : ∀ record, second.heap.arrays.get? array = some record →
      record.window.length < length → ¬length ≤ record.window.capacity) :
    AlikeIn first second (array.setLength length) := by
  apply alikeIn_of_carryOut hlike
  · intro agent cause hgone
    exact perform_setLength_of_gone hgone length
  · intro record other body otherBody hshares
    -- what is granted depends on the elements only, since none are to be added
    have hadmits : ∀ {heap : Heap} {record : ArrayRecord} {body : Body},
        heap.Holds array record body →
        (record.window.length < length → ¬length ≤ record.window.capacity) →
        (body.Admits length ↔ 0 ≤ length ∧ length ≤ body.elements.length) := by
      intro heap record body hholds hshort
      have hlength := hholds.fits.length_le
      rw [hholds.window_eq] at hshort
      change body.elements.length < length → ¬length ≤ body.capacity at hshort
      unfold Body.Admits
      omega
    have hleft := hadmits hshares.holds (hfirst record hshares.holds.get?_eq)
    have hright := hadmits hshares.holds_other (hsecond other hshares.holds_other.get?_eq)
    rw [hshares.elements_eq, ← hleft] at hright
    have hperform := perform_setLength hshares.holds_other length
    have hother := hshares.holds_other.fits.yields_setLength length
    simp only [hright, hshares.elements_eq] at hperform hother
    exact ⟨_, _, _, _, perform_setLength hshares.holds length, hperform,
      hshares.holds.fits.yields_setLength length, hother⟩

end ArrayHandle

end ManagedHeap
