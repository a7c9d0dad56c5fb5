import Mathlib.Data.Nat.Size
import ManagedHeap.Proofs.Bystanders
import ManagedHeap.Proofs.Refusals
import ManagedHeap.Proofs.StoreOwners

/-!
# Amortised growth

An array that takes elements at both ends moves a number of times that is logarithmic in
its length.  Growth at the back doubles the capacity, so it cannot happen more often than
the capacity can be doubled, but it throws the headroom away.  Each time headroom has to be
reserved again after that is paid for by the growth before it.  Otherwise the array came to
the end of headroom that was as long as the array, so that its length has doubled since.
-/

namespace ManagedHeap

/-- How often an array has moved, and for what. -/
structure MoveCount where
  growths : Nat
  /-- Reservations of headroom that growth had thrown away. -/
  renewals : Nat
  /-- All other reservations of headroom. -/
  reservations : Nat
  /-- Whether the last move was growth. -/
  grownLast : Bool

namespace MoveCount

def none : MoveCount := ⟨0, 0, 0, false⟩

def total (count : MoveCount) : Nat :=
  count.growths + count.renewals + count.reservations

def grow (count : MoveCount) : MoveCount :=
  { count with growths := count.growths + 1, grownLast := true }

def reserve (count : MoveCount) : MoveCount :=
  if count.grownLast then { count with renewals := count.renewals + 1, grownLast := false }
  else { count with reservations := count.reservations + 1 }

/-- An array with this window can have moved as often as that.  `Nat.size` is the number
of binary digits, so it grows by one when a number doubles. -/
structure Affordable (count : MoveCount) (window : Window) : Prop where
  growths_of_length : count.growths ≤ window.length.size + 1
  growths_of_capacity : count.growths ≤ window.capacity.size ∨ maxCapacity ≤ window.capacity
  renewals_le : count.renewals + (if count.grownLast then 1 else 0) ≤ count.growths
  reservations_of_length : count.reservations ≤ window.length.size + 1
  reservations_of_room : count.grownLast = false →
    count.reservations ≤ (window.length + window.offset).size

@[simp] theorem total_grow (count : MoveCount) : count.grow.total = count.total + 1 := by
  simp only [grow, total]
  omega

@[simp] theorem total_reserve (count : MoveCount) : count.reserve.total = count.total + 1 := by
  unfold reserve
  split
  · simp only [total]
    omega
  · rfl

theorem affordable_none (window : Window) : none.Affordable window where
  growths_of_length := Nat.zero_le _
  growths_of_capacity := .inl (Nat.zero_le _)
  renewals_le := Nat.le_refl 0
  reservations_of_length := Nat.zero_le _
  reservations_of_room _ := Nat.zero_le _

theorem size_lt_size {few many : Nat} (hmore : few < many) (hdouble : 2 * few ≤ many) :
    few.size < many.size := by
  rw [Nat.lt_size]
  cases hsize : few.size with
  | zero =>
      rw [Nat.pow_zero]
      omega
  | succ digits =>
      have hdigits : 2 ^ digits ≤ few := by
        rw [← Nat.lt_size]
        omega
      rw [Nat.pow_succ]
      omega

namespace Affordable

variable {count : MoveCount} {window next : Window} (haffordable : count.Affordable window)

include haffordable

theorem total_le : count.total ≤ 3 * (window.length.size + 1) := by
  have hgrowths := haffordable.growths_of_length
  have hrenewals := haffordable.renewals_le
  have hreservations := haffordable.reservations_of_length
  simp only [total]
  omega

/-- An insertion into room that is there. -/
theorem mono (hlength : window.length ≤ next.length) (hcapacity : window.capacity ≤ next.capacity)
    (hroom : window.length + window.offset ≤ next.length + next.offset) :
    count.Affordable next where
  growths_of_length := by
    have hsize := Nat.size_le_size hlength
    have hgrowths := haffordable.growths_of_length
    omega
  growths_of_capacity := by
    have hsize := Nat.size_le_size hcapacity
    have hgrowths := haffordable.growths_of_capacity
    omega
  renewals_le := haffordable.renewals_le
  reservations_of_length := by
    have hsize := Nat.size_le_size hlength
    have hreservations := haffordable.reservations_of_length
    omega
  reservations_of_room hgrownLast :=
    Nat.le_trans (haffordable.reservations_of_room hgrownLast) (Nat.size_le_size hroom)

/-- Growth of a full array, which at least doubles its capacity or makes it as large as
any can be. -/
theorem grow (hfull : window.length = window.capacity) (hmax : window.capacity < maxCapacity)
    {grown : Nat} (hmore : window.capacity < grown)
    (hdouble : 2 * window.capacity ≤ grown ∨ maxCapacity ≤ grown) :
    count.grow.Affordable ⟨window.length + 1, grown, 0⟩ := by
  have hlength : window.length.size ≤ (window.length + 1).size :=
    Nat.size_le_size (Nat.le_succ window.length)
  have hgrowths : count.growths ≤ window.capacity.size := by
    rcases haffordable.growths_of_capacity with hgrowths | hlarge
    · exact hgrowths
    · omega
  constructor
  · rw [← hfull] at hgrowths
    exact Nat.succ_le_succ (Nat.le_trans hgrowths hlength)
  · rcases hdouble with hdouble | hlarge
    · exact .inl (Nat.lt_of_le_of_lt hgrowths (size_lt_size hmore hdouble))
    · exact .inr hlarge
  · exact Nat.succ_le_succ (Nat.le_trans (Nat.le_add_right _ _) haffordable.renewals_le)
  · exact Nat.le_trans haffordable.reservations_of_length (Nat.succ_le_succ hlength)
  · intro hgrownLast
    contradiction

/-- A reservation of headroom for an array that has none, at least as much as the array is
long. -/
theorem reserve (hoffset : window.offset = 0) {headroom : Nat} (hpos : 0 < headroom)
    (hheadroom : window.length ≤ headroom) :
    count.reserve.Affordable ⟨window.length + 1, window.capacity + 1, headroom - 1⟩ := by
  have hlength : window.length.size ≤ (window.length + 1).size :=
    Nat.size_le_size (Nat.le_succ window.length)
  have hroom : window.length.size < (window.length + 1 + (headroom - 1)).size :=
    size_lt_size (by omega) (by omega)
  -- The room and the length after the insertion do not depend on why it was reserved.
  have hinserted : count.Affordable ⟨window.length + 1, window.capacity + 1, headroom - 1⟩ := by
    apply haffordable.mono (Nat.le_succ _) (Nat.le_succ _)
    simp only [hoffset]
    omega
  have hreservations := haffordable.reservations_of_length
  have hrenewals := haffordable.renewals_le
  unfold MoveCount.reserve
  cases hgrownLast : count.grownLast with
  | true =>
      rw [hgrownLast, if_pos rfl] at hrenewals
      rw [if_pos rfl]
      exact
        { hinserted with
          renewals_le := hrenewals
          reservations_of_room := fun _ => Nat.le_trans hreservations hroom }
  | false =>
      have hfew := haffordable.reservations_of_room hgrownLast
      rw [hoffset, Nat.add_zero] at hfew
      rw [hgrownLast] at hrenewals
      rw [if_neg Bool.false_ne_true]
      exact
        { hinserted with
          renewals_le := hrenewals
          reservations_of_length := Nat.succ_le_succ (Nat.le_trans hfew hlength)
          reservations_of_room := fun _ => Nat.lt_of_le_of_lt hfew hroom }

end Affordable

end MoveCount

/-! ## Insertions as changes -/

/-- The moves that have been made after a change by a method that inserts. -/
def Change.counted (change : Change) (method : ArrayMethod) (count : MoveCount) : MoveCount :=
  match change, method with
  | .move _ _, .push => count.grow
  | .move _ _, .unshift => count.reserve
  | _, _ => count

namespace Body

variable {options : Options} {array : ArrayHandle} {body : Body} {count : MoveCount}

/-- A move that is refused costs nothing. -/
theorem affordable_moving {method : ArrayMethod} {notices : List Event} {slots : Nat}
    {next : Body} (haffordable : count.Affordable body.window)
    (hmoved : ((Change.move notices next).counted method count).Affordable next.window) :
    ((Change.moving options notices slots next).counted method count).Affordable
      ((Change.moving options notices slots next).next body).window := by
  cases hdenial : options.denial? slots with
  | none =>
      rw [Change.moving_of_none hdenial]
      exact hmoved
  | some error =>
      rw [Change.moving_of_some hdenial]
      exact haffordable

theorem Fits.affordable_push (hfits : body.Fits) (haffordable : count.Affordable body.window)
    (value : Value) :
    ((body.put options array body.elements.length value).counted .push count).Affordable
      ((body.put options array body.elements.length value).next body).window := by
  have hlength := hfits.length_le
  have hput := length_putAt_self body.elements value
  unfold put
  split
  · apply haffordable.mono
    · simp only [Change.next, window, hput]
      omega
    · exact Nat.le_refl _
    · simp only [Change.next, window, hput]
      omega
  · rename_i hroom
    have hfull : body.elements.length = body.capacity := by omega
    cases hgrown : options.growth.grownCapacity body.capacity (body.elements.length + 1) with
    | error error => exact haffordable
    | ok grown =>
        obtain ⟨hrequired, hmax⟩ := GrowthPolicy.grownCapacity_bounds hgrown
        apply affordable_moving haffordable
        simp only [Change.counted, window, hput]
        exact haffordable.grow hfull (by simp only [window]; omega) (by simp only [window]; omega)
          (GrowthPolicy.double_le_grownCapacity hgrown)

theorem affordable_unshift (haffordable : count.Affordable body.window) (value : Value) :
    ((body.unshift options array value).counted .unshift count).Affordable
      ((body.unshift options array value).next body).window := by
  unfold unshift
  by_cases hoffset : body.offset = 0
  · rw [if_pos hoffset]
    apply affordable_moving haffordable
    exact haffordable.reserve hoffset (options.growth.headroom_pos _)
      (options.growth.le_headroom _)
  · rw [if_neg hoffset]
    apply haffordable.mono
    · simp [Change.next, window]
    · simp [Change.next, window]
    · simp only [Change.next, window, List.length_cons]
      omega

theorem Fits.affordable_method (hfits : body.Fits) (haffordable : count.Affordable body.window)
    {method : ArrayMethod} (hlengthens : method.lengthens = true) (argument : Value) :
    ((method.change options array argument body).counted method count).Affordable
      ((method.change options array argument body).next body).window := by
  cases method with
  | push => exact hfits.affordable_push haffordable argument
  | unshift => exact affordable_unshift haffordable argument
  | pop | shift | reverse => contradiction

theorem length_method {method : ArrayMethod} (hlengthens : method.lengthens = true)
    {argument : Value}
    (hgranted : (method.change options array argument body).refusal? = none) :
    ((method.change options array argument body).next body).window.length =
      body.window.length + 1 := by
  simp only [window, (makes_method method argument).elements_next hgranted]
  cases method with
  | push => exact List.length_append
  | unshift => rfl
  | pop | shift | reverse => contradiction

end Body

/-! ## Runs of insertions -/

namespace Heap

/-- The array and the method that an operation calls, directly or through a closure. -/
def call? (heap : Heap) : Operation Value → Option (ArrayHandle × ArrayMethod)
  | .array subject (.call method) _ => subject.asArray?.map fun array => (array, method)
  | .call closure receiver _ => heap.calledMethod? closure receiver
  | _ => none

/-- The operation puts an element in at one end of the array. -/
def inserts (heap : Heap) (array : ArrayHandle) (operation : Operation Value) : Bool :=
  (heap.call? operation).any fun called => decide (called.1 = array) && called.2.lengthens

end Heap

namespace Agent

open ManagedHeap.Action

/-- Every step either puts an element in at one end of the array, and succeeds, or is not
about the array, which is still there afterwards. -/
def OnlyInserts (array : ArrayHandle) : Agent → List (Operation Value) → Prop
  | _, [] => True
  | agent, operation :: rest =>
      (if agent.heap.inserts array operation then (agent.step operation).1.isOk = true
        else agent.heap.subject? operation ≠ some array ∧
          (agent.step operation).2.heap.arrays.isLive array = true) ∧
        OnlyInserts array (agent.step operation).2 rest

instance decidableOnlyInserts (array : ArrayHandle) :
    ∀ (agent : Agent) (operations : List (Operation Value)),
      Decidable (agent.OnlyInserts array operations)
  | _, [] => .isTrue trivial
  | agent, operation :: rest =>
      have := decidableOnlyInserts array (agent.step operation).2 rest
      inferInstanceAs (Decidable ((if agent.heap.inserts array operation then
        (agent.step operation).1.isOk = true else _ ∧ _) ∧ OnlyInserts array _ rest))

/-- The number of steps that put an element in. -/
def insertions (array : ArrayHandle) : Agent → List (Operation Value) → Nat
  | _, [] => 0
  | agent, operation :: rest =>
      (if agent.heap.inserts array operation then 1 else 0) +
        insertions array (agent.step operation).2 rest

/-- The number of steps after which the array has another store than before. -/
def reallocations (array : ArrayHandle) : Agent → List (Operation Value) → Nat
  | _, [] => 0
  | agent, operation :: rest =>
      (if (agent.step operation).2.heap.ownStore? array = agent.heap.ownStore? array then 0
        else 1) +
        reallocations array (agent.step operation).2 rest

variable {agent : Agent} {array : ArrayHandle} {window : Window} {store : Option StoreHandle}
  {count : MoveCount}

theorem Places.ownStore?_eq (hplaces : agent.Places array (window, store)) :
    agent.heap.ownStore? array = store := by
  obtain ⟨record, hget, hplace⟩ := hplaces.exists_record
  rw [Heap.ownStore?, hget]
  exact congrArg Prod.snd hplace

theorem step_of_call? {operation : Operation Value} {method : ArrayMethod}
    (hcall : agent.heap.call? operation = some (array, method)) :
    ∃ argument, agent.step operation =
      (((array.call method argument).perform agent).1.map .value,
        ((array.call method argument).perform agent).2) := by
  cases operation with
  | array subject op argument =>
      cases op with
      | call other =>
          obtain ⟨receiver, hreceiver, heq⟩ := Option.map_eq_some_iff.1 hcall
          cases heq
          refine ⟨argument.getD .undefined, ?_⟩
          rw [← perform_map, Agent.step, Operation.perform, pure_bind]
          simp only [hreceiver, optionMapM_pure_self, pure_bind, ArrayOp.perform]
      | length | capacity | isEmpty | slice | get | put | setLength | callRepeatedly =>
          contradiction
  | call closure receiver argument =>
      refine ⟨argument, ?_⟩
      have hcalled : agent.heap.calledMethod? closure receiver = some (array, method) := hcall
      rw [← perform_map, Agent.step, Operation.perform, pure_bind]
      cases hclosure : closure.asClosure? with
      | none => simp [Heap.calledMethod?, hclosure] at hcalled
      | some handle =>
          cases hget : agent.heap.closures.get? handle with
          | none => simp [Heap.calledMethod?, hclosure, hget] at hcalled
          | some record =>
              rw [Heap.calledMethod?_eq hclosure hget] at hcalled
              simp only [pure_bind]
              rw [perform_map, perform_map, ClosureHandle.perform_call hget,
                Behaviour.run_of_target? hcalled]
  | value | newString | newNumber | newArray | withCapacity | literal | strings | newObject
  | newClosure | collect | equal | distinctArrays | distinctObjects | slotOf | ask | object =>
      contradiction

/-- Only a move is counted, and only a move gives the array another store. -/
theorem places_carryOut {α : Type} {record : ArrayRecord} {body : Body}
    {change : Change} {method : ArrayMethod} (hsound : agent.Sound)
    (hholds : agent.heap.Holds array record body) (hsuits : change.Suits body)
    (hlengthens : method.lengthens = true) (count : MoveCount) (answer : α) :
    ∃ nextStore, (change.carryOut array record answer agent).2.Places array
        ((change.next body).window, nextStore) ∧
      count.total + (if nextStore = record.store then 0 else 1) ≤
        (change.counted method count).total := by
  have hrebuilds := Change.rebuilds_carryOut hsound hholds hsuits answer
  obtain ⟨nextStore, hafter⟩ := hrebuilds.holds
  refine ⟨nextStore, ⟨hrebuilds.sound, ?_⟩, ?_⟩
  · rw [Heap.placement?, hafter.get?_eq]
    rfl
  · cases change with
    | settle next =>
        have hget := hafter.get?_eq
        change (agent.heap.reshape array record next).arrays.get? array = _ at hget
        rw [Heap.get?_reshape_self hholds, Option.some.injEq] at hget
        have hstore : record.store = nextStore := congrArg ArrayRecord.store hget
        rw [if_pos hstore.symm]
        exact Nat.le_refl _
    | move notices next =>
        cases method with
        | push =>
            simp only [Change.counted, MoveCount.total_grow]
            split <;> omega
        | unshift =>
            simp only [Change.counted, MoveCount.total_reserve]
            split <;> omega
        | pop | shift | reverse => contradiction
    | refuse notices error =>
        have hget := hafter.get?_eq
        change agent.heap.arrays.get? array = _ at hget
        rw [hholds.get?_eq, Option.some.injEq] at hget
        have hstore : record.store = nextStore := congrArg ArrayRecord.store hget
        rw [if_pos hstore.symm]
        exact Nat.le_refl _

/-- An insertion that succeeds makes the array longer by one, and what it costs is counted. -/
theorem Places.insert (hplaces : agent.Places array (window, store))
    (haffordable : count.Affordable window) {operation : Operation Value}
    (hinserts : agent.heap.inserts array operation = true)
    (hanswers : (agent.step operation).1.isOk = true) :
    ∃ (next : Window) (nextStore : Option StoreHandle) (nextCount : MoveCount),
      (agent.step operation).2.Places array (next, nextStore) ∧ nextCount.Affordable next ∧
      next.length = window.length + 1 ∧
      count.total + (if nextStore = store then 0 else 1) ≤ nextCount.total := by
  have hsound := hplaces.sound
  obtain ⟨record, hget, hplace⟩ := hplaces.exists_record
  cases hplace
  obtain ⟨body, hholds⟩ := hsound.exists_holds hget
  obtain ⟨⟨subject, method⟩, hcall, hboth⟩ := (Option.any_eq_true _ _).1 hinserts
  rw [Bool.and_eq_true, decide_eq_true_eq] at hboth
  obtain ⟨rfl, hlengthens⟩ := hboth
  obtain ⟨argument, hstep⟩ := step_of_call? hcall
  rw [hstep] at hanswers ⊢
  rw [ArrayHandle.perform_call hsound hholds] at hanswers ⊢
  obtain ⟨change, hchange⟩ :
      ∃ change, method.change agent.options subject argument body = change := ⟨_, rfl⟩
  have hsuits : change.Suits body := hchange ▸ hholds.fits.suits_method method argument
  have hgranted : change.refusal? = none := by
    rw [hchange] at hanswers
    cases change with
    | settle next | move notices next => rfl
    | refuse notices error => contradiction
  have haffords : (change.counted method count).Affordable (change.next body).window := by
    rw [hholds.window_eq] at haffordable
    exact hchange ▸ hholds.fits.affordable_method haffordable hlengthens argument
  have hlength : (change.next body).window.length = record.window.length + 1 := by
    rw [hholds.window_eq]
    rw [← hchange] at hgranted ⊢
    exact Body.length_method hlengthens hgranted
  rw [hchange]
  obtain ⟨nextStore, hplace, htotal⟩ :=
    places_carryOut hsound hholds hsuits hlengthens count
      (method.answer subject argument body.elements)
  exact ⟨_, nextStore, _, hplace, haffords, hlength, htotal⟩

theorem Places.reallocations_le {operations : List (Operation Value)}
    (hplaces : agent.Places array (window, store)) (haffordable : count.Affordable window)
    (honly : agent.OnlyInserts array operations) :
    count.total + agent.reallocations array operations ≤
      3 * ((window.length + agent.insertions array operations).size + 1) := by
  induction operations generalizing agent window store count with
  | nil => exact haffordable.total_le
  | cons operation rest ih =>
      obtain ⟨hstep, hrest⟩ := honly
      rw [reallocations, insertions]
      cases hinserts : agent.heap.inserts array operation with
      | true =>
          rw [hinserts, if_pos rfl] at hstep
          obtain ⟨next, nextStore, nextCount, hnext, hcount, hlength, htotal⟩ :=
            hplaces.insert haffordable hinserts hstep
          have hlater := ih hnext hcount hrest
          rw [hlength] at hlater
          rw [hplaces.ownStore?_eq, hnext.ownStore?_eq, if_pos rfl, ← Nat.add_assoc window.length]
          omega
      | false =>
          rw [hinserts, if_neg Bool.false_ne_true] at hstep
          have hsame := hplaces.step hstep.1 hstep.2
          have hlater := ih hsame haffordable hrest
          rw [hplaces.ownStore?_eq, hsame.ownStore?_eq, if_pos rfl, if_neg Bool.false_ne_true,
            Nat.zero_add, Nat.zero_add]
          exact hlater

/-- Under any policy, a run in which nothing but successful insertions at either end is done
to a living array reallocates its store no more often than three times the number of binary
digits of its final length, and three times more. -/
theorem reallocations_run (options : Options) (operations : List (Operation Value))
    {array : ArrayHandle} {record : ArrayRecord}
    (hlive : ((start options).run operations).heap.arrays.get? array = some record)
    {later : List (Operation Value)}
    (honly : ((start options).run operations).OnlyInserts array later) :
    let agent := (start options).run operations
    agent.reallocations array later ≤
      3 * (record.window.length + agent.insertions array later).log2 + 6 := by
  intro agent
  have hplaces : agent.Places array (record.window, record.store) := by
    refine ⟨(sound_start options).run operations, ?_⟩
    rw [Heap.placement?, hlive]
    rfl
  have hbound := hplaces.reallocations_le (MoveCount.affordable_none record.window) honly
  have hsize : (record.window.length + agent.insertions array later).size ≤
      (record.window.length + agent.insertions array later).log2 + 1 :=
    Nat.size_le.2 Nat.lt_log2_self
  have hnone : MoveCount.none.total = 0 := rfl
  omega

/-- A policy that reserves as little as possible, and an array that moves at each insertion.
One of them is the call of a closure, and in between another array is filled. -/
theorem reallocations_run_alternating :
    let agent := (start { Options.standard with growth := ⟨0, 0⟩ }).run [.newArray 0]
    let later : List (Operation Value) :=
      [.array (.array ⟨0⟩) (.call .push) (some .null), .newArray 0,
        .call (.closure ⟨3⟩) (.array ⟨0⟩) .null,
        .array (.array ⟨1⟩) (.call .push) (some (.array ⟨0⟩)),
        .array (.array ⟨0⟩) (.call .push) (some .null),
        .array (.array ⟨0⟩) (.call .unshift) (some .null)]
    agent.insertions ⟨0⟩ later = 4 ∧ agent.reallocations ⟨0⟩ later = 4 ∧
      agent.reallocations ⟨0⟩ later ≤ 12 := by
  intro agent later
  have hbound : agent.reallocations ⟨0⟩ later ≤
      3 * (0 + agent.insertions ⟨0⟩ later).log2 + 6 :=
    @reallocations_run { Options.standard with growth := ⟨0, 0⟩ } [.newArray 0] ⟨0⟩
      (.ofTag 0) rfl later (by decide +kernel)
  have hinsertions : agent.insertions ⟨0⟩ later = 4 := by decide +kernel
  have hreallocations : agent.reallocations ⟨0⟩ later = 4 := by decide +kernel
  rw [hinsertions] at hbound
  exact ⟨hinsertions, hreallocations, hbound⟩

end Agent

end ManagedHeap
