import ManagedHeap.Proofs.ArrayCalls
import ManagedHeap.Proofs.MachineWords

/-!
# What can be refused

On a living array there is one thing that an operation can be refused for: it asks for
a store that is not to be had.  Either the store would have more slots than an array can
have, or the allocator does not grant it.  Only operations that make an array longer, or
make a new one, ask for stores at all.  No element is sought outside a store, no store is
too small for the elements that move into it, and no window leaves its words.

An array below the largest length takes one more element at its back under any policy,
for growth stops at the largest capacity.  At its front it need not: the headroom is
added to the whole capacity, and the sum may be too large although one slot would do.
-/

namespace ManagedHeap

open ManagedHeap.Action

/-! ## Insertion at either end -/

/-- Once an array holds more than half of what any can hold, and has no room in front,
there is no policy under which headroom can be had. -/
theorem GrowthPolicy.lt_headroom_add (policy : GrowthPolicy) {length capacity : Nat}
    (hhalf : maxCapacity < 2 * length) (hlength : length ≤ capacity) :
    maxCapacity < policy.headroom length + capacity := by
  unfold headroom
  omega

/-- The window has no room in front, and what an insertion there asks for is too much. -/
def Window.RefusesInFront (policy : GrowthPolicy) (window : Window) : Prop :=
  window.offset = 0 ∧ maxCapacity < policy.headroom window.length + window.capacity

instance (policy : GrowthPolicy) (window : Window) :
    Decidable (window.RefusesInFront policy) :=
  inferInstanceAs (Decidable (_ ∧ _))

namespace ArrayHandle

variable {agent : Agent} {array : ArrayHandle} {record : ArrayRecord} {body : Body}

theorem answersIfGranted_push (hsound : agent.Sound)
    (hholds : agent.heap.Holds array record body) (hroom : record.window.length < maxCapacity)
    (value : Value) :
    agent.options.AnswersIfGranted ((array.push value).perform agent).1 value := by
  rw [hholds.window_eq] at hroom
  rw [perform_push hsound hholds]
  apply Change.answersIfGranted_carryOut (Body.refusal?_put _ value)
  intro slots hslots
  exact Window.le_of_putRequest? hroom hslots

/-- An insertion that is refused for its size is refused whatever the allocator grants. -/
theorem fst_perform_unshift_of_refusesInFront (hsound : agent.Sound)
    (hholds : agent.heap.Holds array record body)
    (hrefused : record.window.RefusesInFront agent.options.growth) (value : Value) :
    ((array.unshift value).perform agent).1 =
      .error (.allocation (.capacityOverflow
        (agent.options.growth.headroom record.window.length + record.window.capacity))) := by
  rw [hholds.window_eq] at hrefused ⊢
  have hrequest : body.window.unshiftRequest? agent.options.growth =
      some (agent.options.growth.headroom body.window.length + body.window.capacity) :=
    if_pos hrefused.1
  rw [perform_unshift hsound hholds, Change.fst_carryOut, Body.refusal?_unshift, hrequest,
    Option.bind_some, Options.denial?_of_lt hrefused.2]

theorem answersIfGranted_unshift (hsound : agent.Sound)
    (hholds : agent.heap.Holds array record body)
    (hgranted : ¬record.window.RefusesInFront agent.options.growth) (value : Value) :
    agent.options.AnswersIfGranted ((array.unshift value).perform agent).1 () := by
  rw [hholds.window_eq] at hgranted
  rw [perform_unshift hsound hholds]
  apply Change.answersIfGranted_carryOut (Body.refusal?_unshift value)
  intro slots hslots
  obtain ⟨hoffset, hsum⟩ := Option.ite_none_right_eq_some.1 hslots
  rw [Option.some.injEq] at hsum
  rw [← hsum]
  exact Nat.not_lt.1 fun hlarge => hgranted ⟨hoffset, hlarge⟩

end ArrayHandle

namespace Agent

variable {array : ArrayHandle} {record : ArrayRecord}

/-- After any run, an array that is not as long as any can be takes a value at its back if
the allocator grants what is asked for.  So it does at its front, unless it has no room
there and the headroom that the policy asks for, with the whole capacity behind it, is more
than a store can have. -/
theorem insertions_run (options : Options) (operations : List (Operation Value))
    (hlive : ((start options).run operations).heap.arrays.get? array = some record)
    (hroom : record.window.length < maxCapacity) (value : Value) :
    let agent := (start options).run operations
    options.AnswersIfGranted ((array.push value).perform agent).1 value ∧
      if record.window.RefusesInFront options.growth then
        ((array.unshift value).perform agent).1 =
          .error (.allocation (.capacityOverflow
            (options.growth.headroom record.window.length + record.window.capacity)))
      else options.AnswersIfGranted ((array.unshift value).perform agent).1 () := by
  intro agent
  have hsound : agent.Sound := (sound_start options).run operations
  have hoptions : agent.options = options := options_run options operations
  obtain ⟨body, hholds⟩ := hsound.exists_holds hlive
  rw [← hoptions]
  refine ⟨ArrayHandle.answersIfGranted_push hsound hholds hroom value, ?_⟩
  split
  · rename_i hrefused
    exact ArrayHandle.fst_perform_unshift_of_refusesInFront hsound hholds hrefused value
  · rename_i hgranted
    exact ArrayHandle.answersIfGranted_unshift hsound hholds hgranted value

/-- With an allocator that never refuses, a second element goes in at either end. -/
theorem insertions_run_second :
    let agent := (start { Options.standard with grants := fun _ => true }).run
      [.newArray 0, .array (.array ⟨0⟩) (.call .push) (some (.integer 1))]
    (((ArrayHandle.push ⟨0⟩ .null).perform agent).1 = .ok .null ∧
      ((ArrayHandle.unshift ⟨0⟩ .null).perform agent).1 = .ok ()) := by
  have hprovides : Options.Provides { Options.standard with grants := fun _ => true } :=
    fun _ _ => rfl
  obtain ⟨hpush, hunshift⟩ := @insertions_run ⟨0⟩
    { ArrayRecord.ofTag 0 with window := ⟨1, 8, 0⟩, store := some ⟨0⟩ }
    { Options.standard with grants := fun _ => true }
    [.newArray 0, .array (.array ⟨0⟩) (.call .push) (some (.integer 1))] rfl (by decide) .null
  rw [if_neg (by decide)] at hunshift
  exact ⟨hprovides.eq_ok hpush, hprovides.eq_ok hunshift⟩

/-- One element in an array that has room for eight, and a policy with the most headroom
that a word can ask for: a second element goes in behind it, but none in front. -/
theorem unshift_refused :
    let agent := (start { Options.standard with growth := ⟨8, 4294967295⟩ }).run
      [.newArray 0, .array (.array ⟨0⟩) (.call .push) (some (.integer 1))]
    (agent.heap.arrays.get? ⟨0⟩).map ArrayRecord.window = some ⟨1, 8, 0⟩ ∧
      ((ArrayHandle.push ⟨0⟩ (.integer 2)).perform agent).1 = .ok (.integer 2) ∧
      ((ArrayHandle.unshift ⟨0⟩ (.integer 0)).perform agent).1 =
        .error (.allocation (.capacityOverflow 4294967303)) :=
  ⟨rfl, rfl, rfl⟩

/-- No policy helps an array that holds more than half of what any can hold. -/
theorem unshift_of_half_run (options : Options) (operations : List (Operation Value))
    (hlive : ((start options).run operations).heap.arrays.get? array = some record)
    (hhalf : maxCapacity < 2 * record.window.length) (hoffset : record.window.offset = 0)
    (value : Value) :
    ∃ required, ((array.unshift value).perform ((start options).run operations)).1 =
      .error (.allocation (.capacityOverflow required)) := by
  have hsound := (sound_start options).run operations
  obtain ⟨body, hholds⟩ := hsound.exists_holds hlive
  have hlength : record.window.length ≤ record.window.capacity := by
    rw [hholds.window_eq]
    exact hholds.fits.length_le
  exact ⟨_, ArrayHandle.fst_perform_unshift_of_refusesInFront hsound hholds
    ⟨hoffset, GrowthPolicy.lt_headroom_add _ hhalf hlength⟩ value⟩

end Agent

/-! ## No other fault -/

/-- The only fault is that a store which the operation asks for is not to be had. -/
def Outcome.Proceeds {α : Type} (outcome : Outcome α) (requests : Nat → Prop) : Prop :=
  ∀ cause, outcome.1 = .error cause → outcome.2.options.Denies requests cause

section Proceeding

variable {α β : Type} {agent : Agent} {array : ArrayHandle} {record : ArrayRecord} {body : Body}
  {change : Change} {requests : Nat → Prop}

theorem Outcome.proceeds_ok (answer : α) (agent : Agent) (requests : Nat → Prop) :
    Outcome.Proceeds (.ok answer, agent) requests := by
  intro cause herror
  contradiction

theorem Outcome.Proceeds.map {action : Action α}
    (hproceeds : (action.perform agent).Proceeds requests) (f : α → β) :
    ((f <$> action).perform agent).Proceeds requests := by
  intro cause herror
  rw [perform_map] at herror ⊢
  apply hproceeds cause
  cases houtcome : (action.perform agent).1 with
  | ok answer =>
      rw [houtcome] at herror
      contradiction
  | error other =>
      rw [houtcome] at herror
      injection herror with hcause
      rw [hcause]

/-- What comes after a change finds the array there again, if the change is not refused. -/
theorem Change.proceeds_andThen (hbody : agent.Sound)
    (hholds : agent.heap.Holds array record body) (hsuits : change.Suits body)
    (hasks : change.Asks agent.options requests) {answer : α} {next : α → Agent → Outcome β}
    (hnext : ∀ after made, after.HasBody array made → after.options = agent.options →
      (next answer after).Proceeds requests) :
    ((change.carryOut array record answer agent).andThen next).Proceeds requests := by
  have hrebuilds := change.rebuilds_carryOut hbody hholds hsuits answer
  obtain ⟨store, hmade⟩ := hrebuilds.holds
  cases change with
  | settle made => exact hnext _ made ⟨hrebuilds.sound, _, hmade⟩ rfl
  | move notices made => exact hnext _ made ⟨hrebuilds.sound, _, hmade⟩ rfl
  | refuse notices error =>
      rintro cause hfault
      have hrefused : ((Change.refuse notices error).carryOut array record answer agent).1 =
          .error cause := by
        cases hfault
        rfl
      exact hasks.denies hrefused

theorem Change.proceeds_carryOut (hsound : agent.Sound)
    (hholds : agent.heap.Holds array record body) (hsuits : change.Suits body)
    (hasks : change.Asks agent.options requests) (answer : α) :
    (change.carryOut array record answer agent).Proceeds requests := by
  rw [← ArrayHandle.carryOut_andThen_pure]
  apply Change.proceeds_andThen hsound hholds hsuits hasks
  intro after _ _ _
  exact Outcome.proceeds_ok answer after requests

theorem ArrayHandle.proceeds_calls (method : ArrayMethod) (policy : GrowthPolicy)
    (indices : List Nat) (start : Value) (agent : Agent) (body : Body)
    (hbody : agent.HasBody array body) (hpolicy : agent.options.growth = policy) :
    ((indices.foldlM
      (fun _ index => call array method (.integer (Int32.ofNat index))) start :
        Action Value).perform agent).Proceeds
      fun slots => ∃ later : Window, method.request? policy later = some slots := by
  induction indices generalizing start agent body with
  | nil => exact Outcome.proceeds_ok start agent _
  | cons index rest ih =>
      obtain ⟨hsound, record, hholds⟩ := hbody
      rw [List.foldlM_cons, perform_bind, perform_call hsound hholds]
      apply Change.proceeds_andThen hsound hholds (hholds.fits.suits_method method _)
      · apply Change.asks_of_refusal?_eq_bind (Body.refusal?_method method _)
        rw [hpolicy]
        exact fun slots hslots => ⟨body.window, hslots⟩
      · intro after made hmade hoptions
        exact ih _ after made hmade (by rw [hoptions, hpolicy])

theorem ArrayOp.proceeds_perform (hsound : agent.Sound)
    (hholds : agent.heap.Holds array record body) (op : ArrayOp) (argument : Value) :
    ((op.perform array argument).perform agent).Proceeds
      (op.Requests agent.options.growth record.window) := by
  rw [hholds.window_eq]
  cases op with
  | length | capacity | isEmpty =>
      rw [ArrayOp.perform, perform_bind, perform_read, hholds.deref_eq, andThen_ok, perform_pure]
      exact Outcome.proceeds_ok _ agent _
  | slice =>
      rw [ArrayOp.perform, perform_map, perform_read, hholds.slice_eq]
      exact Outcome.proceeds_ok _ agent _
  | get index =>
      rw [ArrayOp.perform, perform_map, perform_read, hholds.element_eq]
      exact Outcome.proceeds_ok _ agent _
  | put index =>
      apply Outcome.Proceeds.map
      by_cases hindex : index.toInt < 0
      · rw [ArrayHandle.perform_put_of_neg hholds hindex]
        exact Outcome.proceeds_ok _ agent _
      · rw [ArrayHandle.perform_put hsound hholds (Int.not_lt.1 hindex)]
        apply Change.proceeds_carryOut hsound hholds (hholds.fits.suits_put _ argument)
        exact Change.asks_of_refusal?_eq_bind (Body.refusal?_put _ argument)
          fun slots hslots => ⟨Int.not_lt.1 hindex, hslots⟩
  | setLength extent =>
      apply Outcome.Proceeds.map
      rw [ArrayHandle.perform_setLength hholds]
      exact Change.proceeds_carryOut hsound hholds (hholds.fits.suits_setLength extent.toInt)
        (Change.asks_of_refusal?_eq_none (Body.refusal?_setLength extent.toInt)) _
  | call method =>
      apply Outcome.Proceeds.map
      rw [ArrayHandle.perform_call hsound hholds]
      apply Change.proceeds_carryOut hsound hholds (hholds.fits.suits_method method argument)
      exact Change.asks_of_refusal?_eq_bind (Body.refusal?_method method argument)
        fun slots hslots => hslots
  | callRepeatedly method times =>
      apply Outcome.Proceeds.map
      exact ArrayHandle.proceeds_calls method agent.options.growth (List.range times) .undefined
        agent body ⟨hsound, record, hholds⟩ rfl

theorem Object.proceeds_setField (hsound : agent.Sound)
    (hholds : agent.heap.Holds array record body) (slot : Nat) (value : Value) :
    (((Object.array array).setField slot value).perform agent).Proceeds fun _ => False := by
  rw [perform_setField_array hholds]
  exact Change.proceeds_carryOut hsound hholds (hholds.fits.suits_setField slot value)
    (Change.asks_of_refusal?_eq_none (Body.refusal?_setField slot value)) _

theorem ArrayHandle.proceeds_withCapacity (hsound : agent.Sound) (capacity : Nat)
    (tag : UInt32) :
    ((withCapacity capacity tag).perform agent).Proceeds (· = capacity) := by
  have hnew : (agent.withArray tag).Sound := Heap.sound_withArray hsound tag
  rw [perform_withCapacity hsound]
  exact Change.proceeds_carryOut hnew (Heap.holds_withArray_self hsound tag)
    (Body.suits_reserve capacity) (Change.asks_reserve capacity) _

theorem ArrayHandle.proceeds_literal (hsound : agent.Sound) (elements : List Value)
    (tag : UInt32) :
    ((literal elements.toArray tag).perform agent).Proceeds (· = elements.length) := by
  have hnew : (agent.withArray tag).Sound := Heap.sound_withArray hsound tag
  rw [perform_literal hsound]
  exact Change.proceeds_carryOut hnew (Heap.holds_withArray_self hsound tag)
    (Body.suits_ofElements elements) (Change.asks_ofElements elements) _

end Proceeding

/-! ## Runs -/

namespace Arena

variable {kind : Kind} {α : Type} {arena : Arena kind α}

/-- The next entity goes into an empty slot.  As long as there are not as many slots as
handles, its number is one that a handle can have. -/
structure Accepts (arena : Arena kind α) : Prop where
  next_empty : ∀ slot rest, arena.free = slot :: rest → arena.slots[slot]? = some none
  next_handle : arena.size < Handle.limit → ∀ entity,
    Handle.ofNumber (arena.push entity).1.slot = .ok (arena.push entity).1

theorem WellFormed.accepts (harena : arena.WellFormed) : arena.Accepts where
  next_empty := by
    intro slot rest hfree
    exact (harena.mem_free_iff slot).1 (by simp [hfree])
  next_handle := by
    intro hsize entity
    have hslot : (arena.push entity).1.slot ≤ arena.size := by
      unfold Arena.push
      split
      · exact Nat.le_refl _
      · rename_i slot rest hfree
        have hempty := (harena.mem_free_iff slot).1 (by simp [hfree])
        exact Nat.le_of_lt (Array.getElem?_eq_some_iff.1 hempty).1
    exact Handle.ofNumber_eq_ok (Nat.lt_of_le_of_lt hslot hsize)

end Arena

namespace Agent

/-- After any run, under any policy that two words describe and with any allocator, the
operations on a living array answer, but for those that lengthen it or make a new one.
These may ask for a store, and fault if it would have more slots than an array can have or
if the allocator does not grant it.  All that the operations do with the numbers of the
window is exact in machine words, and new arrays and stores go into empty slots. -/
theorem array_operations_run (disabled : Bool) (minIncrement minHeadroom : UInt32)
    (grants : Nat → Bool) (operations : List (Operation Value)) :
    let policy := GrowthPolicy.ofWords minIncrement minHeadroom
    let agent := (start ⟨disabled, policy, grants⟩).run operations
    (∀ array record, agent.heap.arrays.get? array = some record →
      record.window.Exact ∧ record.window.GrowsExactly minIncrement minHeadroom ∧
      (∀ (op : ArrayOp) argument,
        ((op.perform array argument).perform agent).Proceeds (op.Requests policy record.window)) ∧
      ∀ slot value, agent.heap.field (.array array) slot = .ok (Heap.arrayField record slot) ∧
        (((Object.array array).setField slot value).perform agent).Proceeds fun _ => False) ∧
    (∀ capacity tag,
      ((ArrayHandle.withCapacity capacity tag).perform agent).Proceeds (· = capacity)) ∧
    (∀ elements tag, ((ArrayHandle.literal (List.toArray elements) tag).perform agent).Proceeds
      (· = elements.length)) ∧
    agent.heap.arrays.Accepts ∧ agent.heap.stores.Accepts := by
  intro policy agent
  have hsound : agent.Sound := (sound_start _).run operations
  refine ⟨?_, ?_, ?_, hsound.arenas.arrays.accepts, hsound.arenas.stores.accepts⟩
  · intro array record hlive
    obtain ⟨body, hholds⟩ := hsound.exists_holds hlive
    have hexact : record.window.Exact := by
      rw [hholds.window_eq]
      exact Window.exact_of_le hholds.fits.length_le hholds.fits.size_le
    refine ⟨hexact, hexact.growsExactly minIncrement minHeadroom, ?_, ?_⟩
    · intro op argument
      have hpolicy : agent.options.growth = policy :=
        congrArg Options.growth (options_run ⟨disabled, policy, grants⟩ operations)
      rw [← hpolicy]
      exact op.proceeds_perform hsound hholds argument
    · intro slot value
      refine ⟨?_, Object.proceeds_setField hsound hholds slot value⟩
      change (agent.heap.arrays.deref array).map _ = _
      rw [hholds.deref_eq]
      rfl
  · intro capacity tag
    exact ArrayHandle.proceeds_withCapacity hsound capacity tag
  · intro elements tag
    exact ArrayHandle.proceeds_literal hsound elements tag

/-- A store of the largest size there is may be too much for the allocator: room for as many
elements as any array can have is refused for want of memory, and not for its size. -/
theorem withCapacity_refused :
    let outcome := (ArrayHandle.withCapacity 2147483647 0).perform ((start .standard).run [])
    outcome.1 = .error (.allocation (.outOfMemory 2147483647)) ∧
      ∀ requested, outcome.1 ≠ .error (.allocation (.capacityOverflow requested)) := by
  intro outcome
  have hrefused : outcome.1 = .error (.allocation (.outOfMemory 2147483647)) := rfl
  refine ⟨hrefused, ?_⟩
  intro requested hoverflow
  rw [hrefused] at hoverflow
  simp at hoverflow

end Agent

end ManagedHeap
