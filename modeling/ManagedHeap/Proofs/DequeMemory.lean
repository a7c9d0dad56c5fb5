import Mathlib.Data.List.Infix
import ManagedHeap.Proofs.ArrayCalls

/-!
# The memory of a deque

How large the backing store becomes of an array that is used at both ends.  A push
into a full array at most doubles what its elements need.  Beside that only an
unshift adds to the capacity, one slot for its element, and the slot is not given
back when the element leaves at the other end, because a pop keeps the capacity.
Each element that passes through from front to back leaves a slot behind, so the
length of the array bounds its store only up to the number of those.
-/

namespace ManagedHeap

/-! ## What passes through -/

namespace CallStep

/-- The number of elements put at the back. -/
def pushed (step : CallStep) : Nat :=
  if step.method = .push then step.after - step.before else 0

/-- The number of elements taken from the back. -/
def popped (step : CallStep) : Nat :=
  if step.method = .pop then step.before - step.after else 0

/-- By how many more elements were lately taken from the back than put there, if it
was by `drift` before the call. -/
def driftAfter (drift : Nat) (step : CallStep) : Nat :=
  drift + step.popped - step.pushed

variable {drift before after : Nat}

theorem driftAfter_push :
    driftAfter drift ⟨.push, before, after⟩ = drift - (after - before) := rfl

theorem driftAfter_pop :
    driftAfter drift ⟨.pop, before, after⟩ = drift + (before - after) := rfl

theorem driftAfter_shift : driftAfter drift ⟨.shift, before, after⟩ = drift := rfl

theorem driftAfter_unshift : driftAfter drift ⟨.unshift, before, after⟩ = drift := rfl

theorem driftAfter_self (method : ArrayMethod) (length : Nat) :
    driftAfter drift ⟨method, length, length⟩ = drift := by
  simp [driftAfter, pushed, popped]

end CallStep

def pushed : List CallStep → Nat
  | [] => 0
  | step :: rest => step.pushed + pushed rest

def popped : List CallStep → Nat
  | [] => 0
  | step :: rest => step.popped + popped rest

/-- No stretch of the history takes more than `surplus` elements from the back beyond
those that it puts there. -/
def DrainsAtMost (surplus : Nat) (history : List CallStep) : Prop :=
  ∀ stretch, stretch <:+: history → popped stretch ≤ pushed stretch + surplus

instance (surplus : Nat) (history : List CallStep) : Decidable (DrainsAtMost surplus history) :=
  decidable_of_iff
    (∀ back ∈ history.tails, ∀ stretch ∈ back.inits,
      popped stretch ≤ pushed stretch + surplus) <| by
    simp only [DrainsAtMost, List.mem_tails, List.mem_inits, List.infix_iff_prefix_suffix]
    constructor
    · rintro hall stretch ⟨back, hstretch, hback⟩
      exact hall back hback stretch hstretch
    · intro hall back hback stretch hstretch
      exact hall stretch ⟨back, hstretch, hback⟩

def DriftsAtMost (surplus : Nat) : Nat → List CallStep → Prop
  | drift, [] => drift ≤ surplus
  | drift, step :: rest => drift ≤ surplus ∧ DriftsAtMost surplus (step.driftAfter drift) rest

section Drift

variable {surplus : Nat} {step : CallStep} {rest : List CallStep}

theorem DrainsAtMost.of_cons (hdrains : DrainsAtMost surplus (step :: rest)) :
    DrainsAtMost surplus rest := by
  intro stretch hstretch
  exact hdrains stretch (hstretch.trans (List.suffix_cons step rest).isInfix)

/-- The drift is what the stretch since it was last zero takes from the back. -/
theorem DrainsAtMost.driftsAtMost {history : List CallStep}
    (hdrains : DrainsAtMost surplus history) {drift : Nat}
    (hfront : ∀ front, front <+: history → drift + popped front ≤ pushed front + surplus) :
    DriftsAtMost surplus drift history := by
  induction history generalizing drift with
  | nil =>
      have hnone : drift + 0 ≤ 0 + surplus := hfront [] List.nil_prefix
      rwa [Nat.add_zero, Nat.zero_add] at hnone
  | cons step rest ih =>
      have hnone : drift + 0 ≤ 0 + surplus := hfront [] List.nil_prefix
      constructor
      · rwa [Nat.add_zero, Nat.zero_add] at hnone
      · apply ih hdrains.of_cons
        intro front hprefix
        -- A push that finds no drift starts a new stretch, the others go on with the old one.
        have hold : drift + (step.popped + popped front) ≤
            step.pushed + pushed front + surplus :=
          hfront (step :: front) ((List.prefix_cons_inj step).2 hprefix)
        have hnew : popped front ≤ pushed front + surplus :=
          hdrains.of_cons front hprefix.isInfix
        unfold CallStep.driftAfter
        omega

end Drift

/-! ## Windows of a bounded size -/

theorem GrowthPolicy.grown_le {policy : GrowthPolicy} {capacity required grown : Nat}
    (hgrown : policy.grownCapacity capacity required = .ok grown) :
    grown ≤ max (max (2 * capacity) (capacity + policy.minIncrement)) required := by
  unfold grownCapacity at hgrown
  split at hgrown
  · contradiction
  · rw [Except.ok.injEq] at hgrown
    rw [← hgrown]
    exact Nat.min_le_left _ _

/-- A window that never showed more than `k` elements, whose spare slots at the back
come from growth and from `drift`. -/
structure Window.Bounded (policy : GrowthPolicy) (k surplus drift : Nat) (window : Window) :
    Prop where
  length_le : window.length ≤ k
  capacity_le : window.capacity ≤ window.length + max k policy.minIncrement + drift
  size_le : window.offset + window.capacity ≤
    3 * k + policy.minIncrement + policy.minHeadroom + 1 + surplus

namespace Window

variable {options : Options} {k surplus drift : Nat} {before after : Window}

theorem bounded_empty (policy : GrowthPolicy) (k surplus : Nat) :
    Window.empty.Bounded policy k surplus 0 where
  length_le := Nat.zero_le k
  capacity_le := Nat.zero_le _
  size_le := Nat.zero_le _

theorem Bounded.step (hbounded : before.Bounded options.growth k surplus drift)
    (hdrift : drift ≤ surplus) {method : ArrayMethod}
    (hstep : WindowStep options method before after) (hlength : after.length ≤ k) :
    after.Bounded options.growth k surplus
      (CallStep.driftAfter drift ⟨method, before.length, after.length⟩) := by
  obtain ⟨hbefore, hcapacity, hsize⟩ := hbounded
  cases hstep with
  | stay =>
      rw [CallStep.driftAfter_self]
      exact ⟨hbefore, hcapacity, hsize⟩
  | @pushInside length capacity offset hroom =>
      rw [CallStep.driftAfter_push, Nat.add_sub_cancel_left]
      have hspare : capacity ≤ length + 1 + max k options.growth.minIncrement + (drift - 1) := by
        simp only at hcapacity
        omega
      exact ⟨hlength, hspare, hsize⟩
  | @pushGrown capacity offset grown hgrown =>
      -- The array was full, so all of the new capacity is told from its length.
      rw [CallStep.driftAfter_push, Nat.add_sub_cancel_left]
      have hmax := GrowthPolicy.grown_le hgrown
      have hroom : capacity + 1 ≤ k := hlength
      have hspare : grown ≤ capacity + 1 + max k options.growth.minIncrement := by omega
      have hfits : 0 + grown ≤
          3 * k + options.growth.minIncrement + options.growth.minHeadroom + 1 + surplus := by omega
      exact ⟨hlength, Nat.le_trans hspare (Nat.le_add_right _ _), hfits⟩
  | @pop length capacity offset =>
      rw [CallStep.driftAfter_pop, Nat.add_sub_cancel_left]
      have hspare : capacity ≤ length + max k options.growth.minIncrement + (drift + 1) := by
        simp only at hcapacity
        omega
      exact ⟨hlength, hspare, hsize⟩
  | @shift length capacity offset =>
      rw [CallStep.driftAfter_shift]
      have hspare : capacity ≤ length + max k options.growth.minIncrement + drift := by
        simp only at hcapacity
        omega
      have hsame : offset + 1 + capacity = offset + (capacity + 1) := by omega
      exact ⟨hlength, hspare, Nat.le_trans (Nat.le_of_eq hsame) hsize⟩
  | @unshiftInside length capacity offset =>
      rw [CallStep.driftAfter_unshift]
      have hspare : capacity + 1 ≤ length + 1 + max k options.growth.minIncrement + drift := by
        simp only at hcapacity
        omega
      have hsame : offset + (capacity + 1) = offset + 1 + capacity := by omega
      exact ⟨hlength, hspare, Nat.le_trans (Nat.le_of_eq hsame) hsize⟩
  | @unshiftMoved length capacity hroom =>
      -- The headroom comes on top of the old capacity, spare slots and all.
      rw [CallStep.driftAfter_unshift]
      have hheadroom : options.growth.headroom length =
          max (max length options.growth.minHeadroom) 1 := rfl
      have hlonger : length + 1 ≤ k := hlength
      have hold : capacity ≤ length + max k options.growth.minIncrement + drift := hcapacity
      have hspare : capacity + 1 ≤ length + 1 + max k options.growth.minIncrement + drift := by
        omega
      have hfront : options.growth.headroom length - 1 ≤ k + options.growth.minHeadroom := by omega
      have hback : capacity + 1 ≤ 2 * k + options.growth.minIncrement + surplus := by omega
      have hfits : options.growth.headroom length - 1 + (capacity + 1) ≤
          3 * k + options.growth.minIncrement + options.growth.minHeadroom + 1 + surplus := by omega
      exact ⟨hlength, hspare, hfits⟩

end Window

/-! ## Runs of bounded memory -/

namespace Agent

variable {agent : Agent} {array : ArrayHandle} {calls : List ArrayCall} {k surplus : Nat}

/-- The window stays bounded from call to call. -/
theorem HasBody.bounded_calls {body : Body} {drift : Nat} (hbody : agent.HasBody array body)
    (hbounded : body.window.Bounded agent.options.growth k surplus drift)
    (hlengths : ∀ step ∈ agent.history array calls, step.after ≤ k)
    (hdrifts : DriftsAtMost surplus drift (agent.history array calls)) :
    ∃ last left, (agent.calls array calls).HasBody array last ∧
      last.window.Bounded agent.options.growth k surplus left := by
  induction calls generalizing agent body drift with
  | nil => exact ⟨body, drift, hbody, hbounded⟩
  | cons call rest ih =>
      obtain ⟨hnext, hoptions⟩ := hbody.step call
      rw [history_cons hbody] at hlengths hdrifts
      have hlength := hlengths _ List.mem_cons_self
      have hstep : WindowStep agent.options call.method body.window
          (call.next agent.options array body).window := hbody.fits.windowStep_next call
      have hafter := hbounded.step hdrifts.1 hstep hlength
      have hrest : ∀ step ∈ (agent.step (call.operation array)).2.history array rest,
          step.after ≤ k := by
        intro step hmem
        exact hlengths step (List.mem_cons_of_mem _ hmem)
      have hlater := ih hnext (by rw [hoptions]; exact hafter) hrest hdrifts.2
      rw [hoptions] at hlater
      exact hlater

/-- However many calls are made on a new array, its store stays within a bound that
depends on the policy, on the most elements it ever holds and on how many elements pass
through it from front to back. -/
theorem storeSize_calls (options : Options) {operations : List (Operation Value)} {tag : UInt32}
    {created : Agent} (hcreated : ((start options).run operations).step (.newArray tag) =
      (.ok (.value (.array array)), created))
    (hlengths : ∀ step ∈ created.history array calls, step.after ≤ k)
    (hdrains : DrainsAtMost surplus (created.history array calls)) :
    let policy := created.options.growth
    ∃ size, (created.calls array calls).heap.storeSize? array = some size ∧
      size ≤ 3 * k + policy.minIncrement + policy.minHeadroom + 1 + surplus := by
  intro policy
  have hsound : ((start options).run operations).Sound := (sound_start options).run operations
  have hbody : created.HasBody array .empty := hsound.hasBody_newArray hcreated
  have hempty : Body.empty.window.Bounded policy k surplus 0 :=
    Window.bounded_empty policy k surplus
  have hdrifts : DriftsAtMost surplus 0 (created.history array calls) := by
    apply hdrains.driftsAtMost
    intro front hfront
    rw [Nat.zero_add]
    exact hdrains front hfront.isInfix
  obtain ⟨last, left, hlast, hbounded⟩ := hbody.bounded_calls hempty hlengths hdrifts
  exact ⟨_, hlast.storeSize?_eq, hbounded.size_le⟩

/-- Two elements at most, which leave at the back though one entered at the front. -/
theorem storeSize_calls_mixed :
    let created := (((start .standard).run [.literal [.null] 0]).step (.newArray 0)).2
    let calls : List ArrayCall :=
      [⟨.push, .null⟩, ⟨.unshift, .null⟩, ⟨.pop, .undefined⟩, ⟨.pop, .undefined⟩,
        ⟨.pop, .undefined⟩, ⟨.push, .null⟩, ⟨.shift, .undefined⟩]
    ∃ size, (created.calls ⟨1⟩ calls).heap.storeSize? ⟨1⟩ = some size ∧
      size ≤ 3 * 2 + 8 + 4 + 1 + 2 := by
  intro created calls
  have hlengths : ∀ step ∈ created.history ⟨1⟩ calls, step.after ≤ 2 := by
    decide +kernel +revert
  have hdrains : DrainsAtMost 2 (created.history ⟨1⟩ calls) := by
    decide +kernel +revert
  have hcreated : ((start .standard).run [.literal [.null] 0]).step (.newArray 0) =
      (.ok (.value (.array ⟨1⟩)), created) := rfl
  exact storeSize_calls .standard hcreated hlengths hdrains

/-! ## What passes from front to back -/

/-- Elements that enter at the front and leave at the back, one after the other. -/
def passing (value : Value) : Nat → List ArrayCall
  | 0 => []
  | count + 1 => ⟨.unshift, value⟩ :: ⟨.pop, .undefined⟩ :: passing value count

/-- The sizes of the stores that were allocated. -/
def allocated (agent : Agent) : List Nat :=
  agent.log.toList.filterMap fun
    | .storeAllocated _ slots => some slots
    | _ => none

end Agent

theorem Body.next_unshift_of_nil {body : Body} (hnil : body.elements = [])
    {options : Options} (hprovides : options.Provides)
    (hroom : options.growth.headroom 0 + body.capacity ≤ maxCapacity) (array : ArrayHandle)
    (value : Value) :
    ((body.unshift options array value).next body).elements = [value] ∧
      ((body.unshift options array value).next body).capacity = body.capacity + 1 := by
  obtain ⟨offset, capacity, elements⟩ := body
  simp only at hnil hroom
  subst hnil
  unfold unshift
  split
  · rw [List.length_nil, Change.moving_of_none (hprovides.denial?_eq_none hroom)]
    exact ⟨rfl, rfl⟩
  · exact ⟨rfl, rfl⟩

namespace Agent

variable {agent : Agent} {array : ArrayHandle}

theorem HasBody.passing {body : Body} (hbody : agent.HasBody array body)
    (hnil : body.elements = []) (value : Value) (hprovides : agent.options.Provides)
    {count : Nat}
    (hroom : agent.options.growth.headroom 0 + (body.capacity + count) ≤ maxCapacity) :
    ∃ last, (agent.calls array (passing value count)).HasBody array last ∧
      last.capacity = body.capacity + count := by
  induction count generalizing agent body with
  | zero => exact ⟨body, hbody, rfl⟩
  | succ count ih =>
      have hfront : agent.options.growth.headroom 0 + body.capacity ≤ maxCapacity := by omega
      obtain ⟨helements, hcapacity⟩ :=
        Body.next_unshift_of_nil hnil hprovides hfront array value
      obtain ⟨hentered, hfirst⟩ := hbody.step ⟨.unshift, value⟩
      obtain ⟨hleft, hsecond⟩ := hentered.step ⟨.pop, .undefined⟩
      let entered := ArrayCall.next ⟨.unshift, value⟩ agent.options array body
      have hempty : entered.elements.dropLast = [] := by
        have hone : entered.elements = [value] := helements
        rw [hone]
        rfl
      have hmore : entered.capacity = body.capacity + 1 := hcapacity
      have hlater := ih hleft hempty
      rw [hsecond, hfirst] at hlater
      obtain ⟨last, hlast, hgrown⟩ := hlater hprovides (by
        change agent.options.growth.headroom 0 + (entered.capacity + count) ≤ maxCapacity
        omega)
      have hlastCapacity : last.capacity = entered.capacity + count := hgrown
      exact ⟨last, hlast, by omega⟩

/-- Every element that passes through a new array leaves a slot behind, as long as the
allocator provides the stores. -/
theorem le_storeSize_passing (options : Options) {operations : List (Operation Value)}
    {tag : UInt32} {created : Agent}
    (hcreated : ((start options).run operations).step (.newArray tag) =
      (.ok (.value (.array array)), created)) (value : Value)
    (hprovides : created.options.Provides) {count : Nat}
    (hroom : created.options.growth.headroom 0 + count ≤ maxCapacity) :
    ∃ size, (created.calls array (passing value count)).heap.storeSize? array = some size ∧
      count ≤ size := by
  have hsound : ((start options).run operations).Sound := (sound_start options).run operations
  have hbody : created.HasBody array .empty := hsound.hasBody_newArray hcreated
  have hcount : created.options.growth.headroom 0 + (Body.empty.capacity + count) ≤
      maxCapacity := by
    change created.options.growth.headroom 0 + (0 + count) ≤ maxCapacity
    omega
  obtain ⟨last, hlast, hgrown⟩ := hbody.passing rfl value hprovides hcount
  have hcapacity : last.capacity = 0 + count := hgrown
  exact ⟨_, hlast.storeSize?_eq, by omega⟩

/-- An array of one element at most needs more slots than any bound allows that is made
of that length and the policy. -/
theorem storeSize_passing_exceeds :
    let created := ((start { Options.standard with growth := ⟨0, 0⟩ }).step (.newArray 0)).2
    let used := created.calls ⟨0⟩ (passing .null 17)
    (∀ step ∈ created.history ⟨0⟩ (passing .null 17), step.after ≤ 1) ∧
      (∀ slots ∈ used.allocated, slots < maxCapacity) ∧
      used.heap.storeSize? ⟨0⟩ = some 17 ∧ ¬17 ≤ 8 * (1 + 0 + 0 + 1) := by
  decide +kernel

end Agent

end ManagedHeap
