import ManagedHeap.Operation
import ManagedHeap.Proofs.Creation
import ManagedHeap.Proofs.ObjectChanges

/-!
# Requests for stores

An operation asks for a backing store only if it makes an array longer than its store
allows, or makes a new array.  The window and the growth policy determine how many slots
it asks for, and it is refused exactly if there is no such store to be had: because no
array can have so many slots, or because the allocator does not grant them.
-/

namespace ManagedHeap

/-! ## How many slots are asked for -/

namespace Window

/-- The number of slots that a write at an index asks for, if there is no room for it. -/
def putRequest? (policy : GrowthPolicy) (index : Nat) (window : Window) : Option Nat :=
  if index < window.capacity then none
  else
    match policy.grownCapacity window.capacity (index + 1) with
    | .error _ => some (index + 1)
    | .ok grown => some grown

/-- The number of slots that an insertion at the front asks for, if there is no room. -/
def unshiftRequest? (policy : GrowthPolicy) (window : Window) : Option Nat :=
  if window.offset = 0 then some (policy.headroom window.length + window.capacity) else none

/-- A write that would not make an array too long asks for no more than there can be. -/
theorem le_of_putRequest? {policy : GrowthPolicy} {index slots : Nat} {window : Window}
    (hindex : index < maxCapacity) (hrequest : window.putRequest? policy index = some slots) :
    slots ≤ maxCapacity := by
  unfold putRequest? at hrequest
  split at hrequest
  · contradiction
  · split at hrequest <;> rw [Option.some.injEq] at hrequest
    · omega
    · rename_i grown hgrown
      rw [← hrequest]
      exact (GrowthPolicy.grownCapacity_bounds hgrown).2

end Window

/-- The method makes an array longer, and may move it for that. -/
def ArrayMethod.lengthens : ArrayMethod → Bool
  | .push | .unshift => true
  | .pop | .shift | .reverse => false

def ArrayMethod.request? (method : ArrayMethod) (policy : GrowthPolicy) (window : Window) :
    Option Nat :=
  match method with
  | .push => window.putRequest? policy window.length
  | .unshift => window.unshiftRequest? policy
  | .pop | .shift | .reverse => none

/-- The operation may ask for a store of so many slots.  Calls that are repeated ask for
what the windows require that the array comes to. -/
def ArrayOp.Requests (op : ArrayOp) (policy : GrowthPolicy) (window : Window) (slots : Nat) :
    Prop :=
  match op with
  | .put index => 0 ≤ index.toInt ∧ window.putRequest? policy index.toInt.toNat = some slots
  | .call method => method.request? policy window = some slots
  | .callRepeatedly method _ => ∃ later : Window, method.request? policy later = some slots
  | .length | .capacity | .isEmpty | .slice | .get _ | .setLength _ => False

/-! ## Refusals -/

namespace Body

variable {options : Options} {array : ArrayHandle} {body : Body}

theorem refusal?_put (index : Nat) (value : Value) :
    (body.put options array index value).refusal? =
      (body.window.putRequest? options.growth index).bind options.denial? := by
  have hcapacity : body.window.capacity = body.capacity := rfl
  unfold put Window.putRequest?
  rw [hcapacity]
  by_cases hroom : index < body.capacity
  · rw [if_pos hroom, if_pos hroom]
    rfl
  · rw [if_neg hroom, if_neg hroom]
    cases hgrown : options.growth.grownCapacity body.capacity (index + 1) with
    | error error =>
        obtain ⟨hlarge, herror⟩ := GrowthPolicy.grownCapacity_eq_error_iff.1 hgrown
        rw [herror]
        exact (Options.denial?_of_lt hlarge).symm
    | ok grown => exact Change.refusal?_moving

theorem refusal?_unshift (value : Value) :
    (body.unshift options array value).refusal? =
      (body.window.unshiftRequest? options.growth).bind options.denial? := by
  have hoffset : body.window.offset = body.offset := rfl
  unfold unshift Window.unshiftRequest?
  rw [hoffset]
  split
  · exact Change.refusal?_moving
  · rfl

theorem refusal?_shift : body.shift.refusal? = none := by
  unfold shift
  split <;> rfl

theorem refusal?_method (method : ArrayMethod) (argument : Value) :
    (method.change options array argument body).refusal? =
      (method.request? options.growth body.window).bind options.denial? := by
  cases method with
  | push => exact refusal?_put body.elements.length argument
  | unshift => exact refusal?_unshift argument
  | shift => exact refusal?_shift
  | pop | reverse => rfl

/-- Only a method that makes an array longer is ever refused. -/
theorem refusal?_method_eq_none {method : ArrayMethod} (hmethod : method.lengthens = false)
    (argument : Value) : (method.change options array argument body).refusal? = none := by
  rw [refusal?_method]
  cases method with
  | push | unshift => contradiction
  | pop | shift | reverse => rfl

theorem refusal?_setLength (length : Int) : (body.setLength length).refusal? = none := by
  unfold setLength
  split <;> rfl

theorem refusal?_setField (slot : Nat) (value : Value) :
    (body.setField slot value).refusal? = none := by
  unfold setField
  split <;> rfl

theorem refusal?_reserve (capacity : Nat) :
    (reserve options capacity).refusal? =
      if capacity = 0 then none else options.denial? capacity := by
  unfold reserve
  split
  · rfl
  · rw [Change.refusal?_moving, Nat.zero_add]

theorem refusal?_ofElements (elements : List Value) :
    (ofElements options elements).refusal? =
      if elements = [] then none else options.denial? elements.length := by
  unfold ofElements
  split
  · rfl
  · rw [Change.refusal?_moving, Nat.zero_add]

end Body

/-- A store was asked for that is not to be had. -/
def Options.Denies (options : Options) (requests : Nat → Prop) (cause : Fault) : Prop :=
  ∃ slots error, requests slots ∧ options.denial? slots = some error ∧
    cause = .allocation error

/-- The result is the answer, unless the allocator has refused a store that an array
can have. -/
def Options.AnswersIfGranted {α : Type} (options : Options) (result : Except Fault α)
    (answer : α) : Prop :=
  result = .ok answer ∨
    ∃ slots, slots ≤ maxCapacity ∧ options.grants slots = false ∧
      result = .error (.allocation (.outOfMemory slots))

theorem Options.Provides.eq_ok {α : Type} {options : Options} {result : Except Fault α}
    {answer : α} (hprovides : options.Provides)
    (hanswers : options.AnswersIfGranted result answer) : result = .ok answer := by
  rcases hanswers with hok | ⟨slots, hslots, hrefused, -⟩
  · exact hok
  · rw [hprovides slots hslots] at hrefused
    contradiction

/-- If the change is refused, it asks for a store that is not to be had. -/
def Change.Asks (change : Change) (options : Options) (requests : Nat → Prop) : Prop :=
  ∀ error, change.refusal? = some error →
    ∃ slots, requests slots ∧ options.denial? slots = some error

namespace Change

variable {change : Change} {options : Options} {requests others : Nat → Prop}

theorem asks_of_refusal?_eq_bind {request? : Option Nat}
    (hrefusal : change.refusal? = request?.bind options.denial?)
    (hrequests : ∀ slots, request? = some slots → requests slots) :
    change.Asks options requests := by
  intro error herror
  rw [hrefusal, Option.bind_eq_some_iff] at herror
  obtain ⟨slots, hslots, hdenial⟩ := herror
  exact ⟨slots, hrequests slots hslots, hdenial⟩

theorem asks_of_refusal?_eq_none (hrefusal : change.refusal? = none) :
    change.Asks options requests := by
  intro error herror
  rw [hrefusal] at herror
  contradiction

theorem asks_reserve (capacity : Nat) :
    (Body.reserve options capacity).Asks options (· = capacity) := by
  intro error herror
  rw [Body.refusal?_reserve, Option.ite_none_left_eq_some] at herror
  exact ⟨capacity, rfl, herror.2⟩

theorem asks_ofElements (elements : List Value) :
    (Body.ofElements options elements).Asks options (· = elements.length) := by
  intro error herror
  rw [Body.refusal?_ofElements, Option.ite_none_left_eq_some] at herror
  exact ⟨elements.length, rfl, herror.2⟩

/-- A change that is refused faults for want of the store that it asks for. -/
theorem Asks.denies {α : Type} {agent : Agent} {array : ArrayHandle} {record : ArrayRecord}
    {answer : α} {cause : Fault} (hasks : change.Asks agent.options requests)
    (hfault : (change.carryOut array record answer agent).1 = .error cause) :
    agent.options.Denies requests cause := by
  rw [fst_carryOut] at hfault
  cases hrefusal : change.refusal? with
  | none =>
      rw [hrefusal] at hfault
      contradiction
  | some error =>
      rw [hrefusal] at hfault
      obtain ⟨slots, hslots, hdenial⟩ := hasks error hrefusal
      exact ⟨slots, error, hslots, hdenial, (Except.error.inj hfault).symm⟩

/-- A request within the largest size is refused by nobody but the allocator. -/
theorem answersIfGranted_carryOut {α : Type} {agent : Agent} {request? : Option Nat}
    (hrefusal : change.refusal? = request?.bind agent.options.denial?)
    (hroom : ∀ slots, request? = some slots → slots ≤ maxCapacity) (array : ArrayHandle)
    (record : ArrayRecord) (answer : α) :
    agent.options.AnswersIfGranted (change.carryOut array record answer agent).1 answer := by
  rw [fst_carryOut]
  cases hrefused : change.refusal? with
  | none => exact .inl rfl
  | some error =>
      rw [hrefusal, Option.bind_eq_some_iff] at hrefused
      obtain ⟨slots, hslots, hdenial⟩ := hrefused
      have hsmall := hroom slots hslots
      rcases Options.denial?_eq_some_iff.1 hdenial with ⟨hlarge, -⟩ | ⟨-, hrefused, herror⟩
      · exact absurd hlarge (Nat.not_lt.2 hsmall)
      · exact .inr ⟨slots, hsmall, hrefused, by rw [herror]⟩

end Change

end ManagedHeap
