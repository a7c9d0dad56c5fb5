import ManagedHeap.Proofs.NeutralActions

/-!
# Runs under two growth policies

The policy decides when an array moves and how much room it gets, and nothing that can
be read depends on either.  All operations but three are neutral.  A capacity can be asked
for, and the two ways in which the length of an array is set can make it longer, for which
one agent may have room where the other has none.  Runs without these steps cannot be told
apart.
-/

namespace ManagedHeap

open ManagedHeap.Action

/-! ## Objects -/

namespace Window

variable {slot : Nat} {value : Value} {window other : Window}

/-- A write to a field that makes an array no longer is granted whatever the capacity. -/
theorem fieldLength?_congr (hlength : other.length = window.length)
    (hroom : window.length ≤ window.capacity) (hroomOther : other.length ≤ other.capacity)
    (hshort : ∀ length ∈ window.fieldLength? slot value, length ≤ window.length)
    (hshortOther : ∀ length ∈ other.fieldLength? slot value, length ≤ other.length) :
    other.fieldLength? slot value = window.fieldLength? slot value := by
  unfold fieldLength? at hshort hshortOther ⊢
  split
  · rename_i length
    simp only [Option.mem_def] at hshort hshortOther
    by_cases hsame : length.toInt = window.length
    · rw [if_pos (by omega), if_pos (by omega)]
    -- any other length that is granted would make the array longer
    · have hrefused : ¬(window.length ≤ length.toInt ∧ length.toInt ≤ window.capacity) := by
        intro hgranted
        have hlonger := hshort _ (if_pos hgranted)
        omega
      have hrefusedOther : ¬(other.length ≤ length.toInt ∧ length.toInt ≤ other.capacity) := by
        intro hgranted
        have hlonger := hshortOther _ (if_pos hgranted)
        omega
      rw [if_neg hrefused, if_neg hrefusedOther]
  · rfl

end Window

namespace Object

variable {array : ArrayHandle} {first second : Agent}

theorem neutral_changeHeader (object : Object) (change : Header → Header) :
    Neutral (object.changeHeader change) := by
  intro first second hlike
  unfold AlikeIn
  rw [perform_changeHeader, perform_changeHeader]
  exact Outcome.alike_of_resembles (hlike.update (hlike.heap.changeHeader object change)) _

theorem neutral_setPrototype (object : Object) (proto : Option Object) :
    Neutral (object.setPrototype proto) := by
  unfold setPrototype
  refine (neutral_read ?_).bind ?_
  · intro first second hlike
    rw [hlike.chainFrom_eq]
  · intro chain
    split
    · exact neutral_pure false
    · split
      · exact neutral_throw _
      · refine (neutral_read fun _ _ hlike => hlike.header_eq object).bind ?_
        intro _
        exact (neutral_changeHeader object _).bind fun _ => neutral_pure true

theorem neutral_setField_ordinary (handle : ObjectHandle) (slot : Nat) (value : Value) :
    Neutral ((Object.ordinary handle).setField slot value) := by
  unfold setField
  simp only
  refine (neutral_read ?_).bind ?_
  · intro first second hlike
    rw [hlike.objects_eq]
  · intro record
    split
    · refine Neutral.bind ?_ fun _ => neutral_pure true
      apply neutral_transform
      intro first second hlike
      have harenas := hlike.sound.arenas
      have harenasOther := hlike.sound_other.arenas
      refine ⟨rfl, hlike.of_same_arrays
        { harenas with objects := harenas.objects.modify handle _ }
        { harenasOther with objects := harenasOther.objects.modify handle _ }
        rfl rfl rfl rfl ?_ hlike.closures_eq hlike.numbers_eq hlike.strings_eq⟩
      exact congrArg (Arena.modify · handle _) hlike.objects_eq
    · exact neutral_pure false

theorem neutral_setProperty_ordinary (handle : ObjectHandle) (key : String) (value : Value) :
    Neutral ((Object.ordinary handle).setProperty key value) := by
  unfold setProperty
  refine (neutral_read fun _ _ hlike => hlike.objectMap_eq _).bind ?_
  intro map
  split
  · exact neutral_setField_ordinary handle _ value
  · exact (neutral_changeHeader _ _).bind fun _ => neutral_pure true

theorem alikeIn_setField {slot : Nat} {value : Value} (hlike : first.Resembles second)
    (hfirst : ∀ record, first.heap.arrays.get? array = some record →
      ∀ length ∈ record.window.fieldLength? slot value, length ≤ record.window.length)
    (hsecond : ∀ record, second.heap.arrays.get? array = some record →
      ∀ length ∈ record.window.fieldLength? slot value, length ≤ record.window.length) :
    AlikeIn first second ((Object.array array).setField slot value) := by
  apply ArrayHandle.alikeIn_of_carryOut hlike
  · intro agent cause hgone
    unfold setField
    rw [perform_bind, perform_read, hgone, andThen_error]
  · intro record other body otherBody hshares
    have hleft := hfirst record hshares.holds.get?_eq
    have hright := hsecond other hshares.holds_other.get?_eq
    rw [hshares.holds.window_eq] at hleft
    rw [hshares.holds_other.window_eq] at hright
    have hwritten := Window.fieldLength?_congr (congrArg List.length hshares.elements_eq)
      hshares.holds.fits.length_le hshares.holds_other.fits.length_le hleft hright
    have hperform := perform_setField_array hshares.holds_other slot value
    have hother := hshares.holds_other.fits.yields_setField slot value
    rw [hwritten] at hperform hother
    rw [hshares.elements_eq] at hother
    exact ⟨_, _, _, _, perform_setField_array hshares.holds slot value, hperform,
      hshares.holds.fits.yields_setField slot value, hother⟩

theorem alikeIn_setProperty {key : String} {value : Value} (hlike : first.Resembles second)
    (hfield : ∀ slot ∈ ObjectMap.array.slotOf? key,
      AlikeIn first second ((Object.array array).setField slot value)) :
    AlikeIn first second ((Object.array array).setProperty key value) := by
  unfold AlikeIn setProperty
  rw [perform_bind, perform_bind, perform_read, perform_read, hlike.heap.objectMap_eq]
  rcases hlike.heap.gone_or_shares array with ⟨cause, hgone, _⟩ | ⟨_, _, _, _, hshares⟩
  · have hmap : first.heap.objectMap (.array array) = .error cause := by
      unfold Heap.objectMap
      simp only [hgone]
      rfl
    rw [hmap]
    exact Outcome.alike_of_resembles hlike _
  · rw [Heap.objectMap_array hshares.holds.get?_eq, andThen_ok, andThen_ok]
    cases hslot : ObjectMap.array.slotOf? key with
    | some slot => exact hfield slot hslot
    | none =>
        exact (neutral_changeHeader _ _).bind (fun _ => neutral_pure true) first second hlike

end Object

theorem ObjectOp.alikeIn_perform {first second : Agent} {object : Object} {op : ObjectOp Value}
    (hlike : first.Resembles second)
    (hfield : ∀ slot value, op = .setField slot value →
      AlikeIn first second (object.setField slot value))
    (hproperty : ∀ key value, op = .set key value →
      AlikeIn first second (object.setProperty key value)) :
    AlikeIn first second (op.perform object) := by
  have hmap : Neutral (read fun heap => heap.objectMap object) :=
    neutral_read fun _ _ halike => halike.objectMap_eq object
  have hheader : Neutral (read fun heap => heap.header object) :=
    neutral_read fun _ _ halike => halike.header_eq object
  cases op with
  | header => exact (hmap.bind fun _ => hheader.bind fun _ => neutral_pure _) first second hlike
  | map => exact hmap.map _ first second hlike
  | tag | proto => exact (hheader.bind fun _ => neutral_pure _) first second hlike
  | setProto parent => exact (Object.neutral_setPrototype object _).map _ first second hlike
  | getField slot =>
      have hread : Neutral (read fun heap => heap.field object slot) :=
        neutral_read fun _ _ halike => halike.field_eq object slot
      exact hread.map _ first second hlike
  | get key =>
      have hread : Neutral (read fun heap => heap.property object key) :=
        neutral_read fun _ _ halike => halike.property_eq object key
      exact hread.map _ first second hlike
  | setField slot value => exact (hfield slot value rfl).map _
  | set key value => exact (hproperty key value rfl).map _

/-! ## Calls, questions and collections -/

theorem neutral_toBinary64? (value : Value) :
    Neutral (read fun heap => heap.toBinary64? value) :=
  neutral_read fun _ _ hlike => hlike.toBinary64?_eq value

theorem neutral_addValues (first second : Value) : Neutral (addValues first second) := by
  unfold addValues
  apply (neutral_toBinary64? first).bind
  intro x
  apply (neutral_toBinary64? second).bind
  intro y
  split
  · exact neutral_newNumber _
  · exact neutral_pure _

theorem Behaviour.neutral_run (behaviour : Behaviour) (env receiver argument : Value) :
    Neutral (behaviour.run env receiver argument) := by
  cases behaviour with
  | arrayMethod method =>
      unfold Behaviour.run
      simp only
      split
      · exact ArrayHandle.neutral_call _ method argument
      · exact neutral_pure _
  | environment | receiver | argument => exact neutral_pure _
  | sum => exact neutral_addValues env argument
  | append =>
      unfold Behaviour.run
      simp only
      split
      · exact ArrayHandle.neutral_call _ .push argument
      · exact neutral_pure _

theorem ClosureHandle.neutral_call (closure : ClosureHandle) (receiver argument : Value) :
    Neutral (closure.call receiver argument) := by
  unfold ClosureHandle.call
  refine (neutral_read ?_).bind ?_
  · intro first second hlike
    rw [hlike.closures_eq]
  · intro record
    exact record.behaviour.neutral_run record.env receiver argument

theorem ValueQuery.neutral_perform (query : ValueQuery) (value : Value) :
    Neutral (query.perform value) := by
  cases query with
  | self | isUndefined | isArray | isObject | snapshot => exact neutral_pure _
  | number => exact (neutral_toBinary64? value).map _
  | boxedNumber =>
      unfold ValueQuery.perform
      simp only
      split
      · rename_i handle
        have hread : Neutral (read fun heap => heap.numbers.deref handle) :=
          neutral_read fun _ _ hlike => by rw [hlike.numbers_eq]
        exact hread.map _
      · exact neutral_pure _
  | text =>
      unfold ValueQuery.perform
      simp only
      split
      · rename_i handle
        have hread : Neutral (read fun heap => heap.strings.deref handle) :=
          neutral_read fun _ _ hlike => by rw [hlike.strings_eq]
        exact hread.map _
      · exact neutral_pure _

theorem neutral_collect (roots : List Value) : Neutral (collect roots) := by
  intro first second hlike
  have hsound := hlike.heap.sound
  have hsoundOther := hlike.heap.sound_other
  have hoption := hlike.disableCollection_eq
  unfold AlikeIn
  cases hdisabled : first.options.disableCollection with
  | true =>
      rw [hdisabled] at hoption
      rw [perform_collect_of_disabled hdisabled, perform_collect_of_disabled hoption]
      exact Outcome.alike_of_resembles hlike _
  | false =>
      rw [hdisabled] at hoption
      have hmeets := hlike.heap.meetsFreed_iff roots
      by_cases hfreed : first.heap.MeetsFreed roots
      · rw [perform_collect_of_freed hsound hdisabled hfreed,
          perform_collect_of_freed hsoundOther hoption (hmeets.2 hfreed)]
        exact Outcome.alike_of_resembles hlike _
      · obtain ⟨marks, hcollects, hperform⟩ := perform_collect hsound hdisabled hfreed
        obtain ⟨others, hcollectsOther, hperformOther⟩ :=
          perform_collect hsoundOther hoption fun hmet => hfreed (hmeets.1 hmet)
        rw [hperform, hperformOther]
        have hafter : (first.afterSweep marks).Resembles (second.afterSweep others) :=
          ⟨hlike.heap.swept hcollects hcollectsOther, hlike.disableCollection_eq⟩
        exact Outcome.alike_of_resembles hafter _

/-! ## Operations -/

/-- The length of an array is set to more than it is, within the capacity. -/
def Agent.stretches (agent : Agent) : Operation Value → Bool
  | .array (.array array) (.setLength length) _ =>
      (agent.heap.arrays.get? array).any fun record =>
        decide (record.window.length < length.toInt ∧ length.toInt ≤ record.window.capacity)
  | .object (.array array) op =>
      (agent.heap.arrays.get? array).any fun record =>
        (agent.heap.writtenLength? array op).any fun length =>
          decide (record.window.length < length)
  | _ => false

def Operation.asksCapacity {ν : Type} : Operation ν → Bool
  | .array _ .capacity _ => true
  | _ => false

section Operations

variable {first second : Agent} {array : ArrayHandle}

/-- The records differ in more than the length, which is all that is looked at. -/
theorem neutral_length (array : ArrayHandle) (answer : Nat → Answer) :
    Neutral (do
      let record ← read fun heap => heap.arrays.deref array
      pure (answer record.window.length)) := by
  intro first second hlike
  unfold AlikeIn
  rw [perform_bind, perform_bind, perform_read, perform_read]
  rcases hlike.heap.gone_or_shares array with ⟨cause, hleft, hright⟩ |
    ⟨record, other, body, otherBody, hshares⟩
  · rw [hleft, hright]
    exact Outcome.alike_of_resembles hlike _
  · rw [hshares.holds.deref_eq, hshares.holds_other.deref_eq, andThen_ok, andThen_ok,
      hshares.length_eq]
    exact Outcome.alike_of_resembles hlike _

theorem ArrayOp.alikeIn_perform {op : ArrayOp} {argument : Value} (hlike : first.Resembles second)
    (hcapacity : op ≠ .capacity)
    (hlength : ∀ length, op = .setLength length →
      AlikeIn first second (array.setLength length.toInt)) :
    AlikeIn first second (op.perform array argument) := by
  cases op with
  | capacity => exact absurd rfl hcapacity
  | length => exact neutral_length array .count first second hlike
  | isEmpty =>
      exact neutral_length array (fun length => .flag (decide (length = 0))) first second hlike
  | slice =>
      have hread : Neutral (read fun heap => heap.slice array) :=
        neutral_read fun _ _ halike => halike.slice_eq array
      exact hread.map _ first second hlike
  | get index =>
      have hread : Neutral (read fun heap => heap.element array index.toInt) :=
        neutral_read fun _ _ halike => halike.element_eq array index.toInt
      exact hread.map _ first second hlike
  | put index => exact (ArrayHandle.neutral_put array _ argument).map _ first second hlike
  | setLength length => exact (hlength length rfl).map _
  | call method => exact (ArrayHandle.neutral_call array method argument).map _ first second hlike
  | callRepeatedly method times =>
      exact (ArrayHandle.neutral_callRepeatedly array method times).map _ first second hlike

theorem Agent.stretches_set {key : String} {slot : Nat}
    (hslot : ObjectMap.array.slotOf? key = some slot) (agent : Agent) (array : ArrayHandle)
    (value : Value) :
    agent.stretches (.object (.array array) (.set key value)) =
      agent.stretches (.object (.array array) (.setField slot value)) := by
  simp only [stretches, Heap.writtenLength?_set hslot]

theorem Agent.le_of_not_stretches {agent : Agent} {slot : Nat} {value : Value}
    (hstretches : agent.stretches (.object (.array array) (.setField slot value)) = false)
    (record : ArrayRecord) (hget : agent.heap.arrays.get? array = some record) :
    ∀ length ∈ record.window.fieldLength? slot value, length ≤ record.window.length := by
  intro length hwritten
  simp only [stretches, hget, Heap.writtenLength?_setField hget, Option.any_some] at hstretches
  rw [Option.mem_def.1 hwritten, Option.any_some] at hstretches
  exact Nat.le_of_not_lt (of_decide_eq_false hstretches)

theorem Operation.alikeIn_perform {operation : Operation Value} (hlike : first.Resembles second)
    (hasks : operation.asksCapacity = false) (hfirst : first.stretches operation = false)
    (hsecond : second.stretches operation = false) :
    AlikeIn first second (operation.perform pure) := by
  cases operation with
  | value operand => exact (neutral_pure operand).map _ first second hlike
  | newString text => exact (neutral_newString text).map _ first second hlike
  | newNumber x => exact (neutral_newNumber x).map _ first second hlike
  | newArray tag => exact (neutral_newArray tag).map _ first second hlike
  | withCapacity capacity tag =>
      exact (ArrayHandle.neutral_withCapacity capacity tag).map _ first second hlike
  | literal elements tag =>
      rw [Operation.perform]
      refine ((neutral_mapM neutral_pure elements).bind ?_) first second hlike
      intro values
      exact (ArrayHandle.neutral_literal values tag).bind fun _ => neutral_pure _
  | strings texts tag =>
      rw [Operation.perform]
      refine ((neutral_mapM neutral_newString texts).bind ?_) first second hlike
      intro values
      exact (ArrayHandle.neutral_literal values tag).bind fun _ => neutral_pure _
  | newObject map proto tag =>
      rw [Operation.perform]
      refine ((neutral_optionMapM neutral_pure proto).bind ?_) first second hlike
      intro parent
      exact (neutral_newObject map _ tag).bind fun _ => neutral_pure _
  | newClosure env behaviour =>
      rw [Operation.perform]
      refine ((neutral_pure env).bind ?_) first second hlike
      intro value
      exact (neutral_newClosure value behaviour).bind fun _ => neutral_pure _
  | collect roots =>
      rw [Operation.perform]
      refine ((neutral_mapM neutral_pure roots).bind ?_) first second hlike
      intro values
      exact (neutral_collect values).bind fun _ => neutral_pure _
  | equal x y =>
      rw [Operation.perform]
      refine ((neutral_pure x).bind ?_) first second hlike
      intro _
      exact (neutral_pure y).bind fun _ => neutral_pure _
  | distinctArrays values | distinctObjects values =>
      rw [Operation.perform]
      exact ((neutral_mapM neutral_pure values).bind fun _ => neutral_pure _) first second hlike
  | slotOf map key => exact neutral_pure _ first second hlike
  | ask subject query =>
      rw [Operation.perform]
      exact ((neutral_pure subject).bind fun value => query.neutral_perform value) first second
        hlike
  | call closure receiver argument =>
      rw [Operation.perform, pure_bind]
      split
      · exact neutral_pure _ first second hlike
      · rename_i called _
        simp only [pure_bind]
        exact (called.neutral_call receiver argument).map _ first second hlike
  | object subject op =>
      rw [Operation.perform, pure_bind]
      cases subject with
      | array array =>
          simp only [Value.asObject?, ObjectOp.evaluate_pure, pure_bind]
          apply ObjectOp.alikeIn_perform hlike
          · rintro slot value rfl
            exact Object.alikeIn_setField hlike (Agent.le_of_not_stretches hfirst)
              (Agent.le_of_not_stretches hsecond)
          · rintro key value rfl
            apply Object.alikeIn_setProperty hlike
            intro slot hslot
            rw [Agent.stretches_set hslot] at hfirst hsecond
            exact Object.alikeIn_setField hlike (Agent.le_of_not_stretches hfirst)
              (Agent.le_of_not_stretches hsecond)
      | object handle =>
          simp only [Value.asObject?, ObjectOp.evaluate_pure, pure_bind]
          apply ObjectOp.alikeIn_perform hlike
          · intro slot value _
            exact Object.neutral_setField_ordinary handle slot value first second hlike
          · intro key value _
            exact Object.neutral_setProperty_ordinary handle key value first second hlike
      | undefined | null | boolean _ | integer _ | number _ | string _ | closure _ =>
          exact neutral_pure _ first second hlike
  | array subject op argument =>
      rw [Operation.perform, pure_bind]
      cases subject with
      | array array =>
          simp only [Value.asArray?, optionMapM_pure_self, pure_bind]
          apply ArrayOp.alikeIn_perform hlike
          · rintro rfl
            contradiction
          · rintro length rfl
            apply ArrayHandle.alikeIn_setLength hlike
            · intro record hget hlonger hroom
              simp [Agent.stretches, hget, hlonger, hroom] at hfirst
            · intro record hget hlonger hroom
              simp [Agent.stretches, hget, hlonger, hroom] at hsecond
      | undefined | null | boolean _ | integer _ | number _ | string _ | object _ | closure _ =>
          exact neutral_pure _ first second hlike

end Operations

/-! ## Runs -/

/-- Nothing that can be read of the heaps tells them apart, nor do the handles that new
entities get.  Of the stores only their number is told. -/
structure Heap.Indistinguishable (first second : Heap) : Prop where
  slots : first.arrays.SameSlots second.arrays
  objects_eq : second.objects = first.objects
  closures_eq : second.closures = first.closures
  numbers_eq : second.numbers = first.numbers
  strings_eq : second.strings = first.strings
  length_eq : ∀ array, second.lengthOf array = first.lengthOf array
  element_eq : ∀ array index, second.element array index = first.element array index
  slice_eq : ∀ array, second.slice array = first.slice array
  header_eq : ∀ object, second.header object = first.header object
  objectMap_eq : ∀ object, second.objectMap object = first.objectMap object
  field_eq : ∀ object slot, second.field object slot = first.field object slot
  property_eq : ∀ object key, second.property object key = first.property object key
  liveCounts_eq : second.liveCounts = first.liveCounts

theorem Heap.Resembles.indistinguishable {first second : Heap} (hlike : first.Resembles second) :
    first.Indistinguishable second where
  slots := hlike.slots
  objects_eq := hlike.objects_eq
  closures_eq := hlike.closures_eq
  numbers_eq := hlike.numbers_eq
  strings_eq := hlike.strings_eq
  length_eq := hlike.lengthOf_eq
  element_eq := hlike.element_eq
  slice_eq := hlike.slice_eq
  header_eq := hlike.header_eq
  objectMap_eq := hlike.objectMap_eq
  field_eq := hlike.field_eq
  property_eq := hlike.property_eq
  liveCounts_eq := hlike.liveCounts_eq

namespace Agent

/-- The operation is not refused a store, sets no length above the present one, and does
not ask for a capacity. -/
def Plain (agent : Agent) (operation : Operation Value) : Prop :=
  (agent.step operation).runsOut = false ∧ agent.stretches operation = false ∧
    operation.asksCapacity = false

/-- A run of plain operations. -/
def PlainAll : Agent → List (Operation Value) → Prop
  | _, [] => True
  | agent, operation :: rest => agent.Plain operation ∧ PlainAll (agent.step operation).2 rest

instance (agent : Agent) (operation : Operation Value) : Decidable (agent.Plain operation) :=
  inferInstanceAs (Decidable (_ ∧ _))

instance decidablePlainAll : ∀ (agent : Agent) (operations : List (Operation Value)),
    Decidable (agent.PlainAll operations)
  | _, [] => .isTrue trivial
  | agent, operation :: rest =>
      have := decidablePlainAll (agent.step operation).2 rest
      inferInstanceAs (Decidable (agent.Plain operation ∧ PlainAll _ rest))

/-- The entity is alive before the operation and not afterwards. -/
def Frees (agent : Agent) (operation : Operation Value) (entity : Entity) : Prop :=
  agent.heap.isLive entity = true ∧ (agent.step operation).2.heap.isLive entity = false

variable {first second : Agent} {operation : Operation Value} {done rest : List (Operation Value)}

theorem Resembles.step (hlike : first.Resembles second) (hfirst : first.Plain operation)
    (hsecond : second.Plain operation) :
    (second.step operation).1 = (first.step operation).1 ∧
      (first.step operation).2.Resembles (second.step operation).2 := by
  obtain ⟨hgranted, hshort, hasks⟩ := hfirst
  obtain ⟨hgrantedOther, hshortOther, _⟩ := hsecond
  have halike : (first.step operation).Alike (second.step operation) :=
    operation.alikeIn_perform hlike hasks hshort hshortOther
  rcases halike with hout | hout | hsame
  · rw [hgranted] at hout
    contradiction
  · rw [hgrantedOther] at hout
    contradiction
  · exact hsame

theorem PlainAll.of_append {agent : Agent} (hplain : agent.PlainAll (done ++ rest)) :
    (agent.run done).PlainAll rest := by
  induction done generalizing agent with
  | nil => exact hplain
  | cons operation later ih => exact ih hplain.2

/-- What a step keeps up, a run does. -/
theorem Resembles.run (hlike : first.Resembles second) (hfirst : first.PlainAll (done ++ rest))
    (hsecond : second.PlainAll (done ++ rest)) :
    (first.run done).Resembles (second.run done) := by
  induction done generalizing first second with
  | nil => exact hlike
  | cons operation later ih =>
      obtain ⟨_, hafter⟩ := hlike.step hfirst.1 hsecond.1
      exact ih hafter hfirst.2 hsecond.2

/-- Two runs of the same operations under two policies, in which no store is refused, no
length is set above the present one and no capacity is asked for: each step gets the same
answer and frees the same entities in both, and nothing that can be read in between tells
the runs apart. -/
theorem policies_run (options : Options) (other : GrowthPolicy)
    (hfirst : (start options).PlainAll (done ++ operation :: rest))
    (hsecond : (start { options with growth := other }).PlainAll (done ++ operation :: rest)) :
    let first := (start options).run done
    let second := (start { options with growth := other }).run done
    first.heap.Indistinguishable second.heap ∧
      (second.step operation).1 = (first.step operation).1 ∧
      (first.step operation).2.heap.Indistinguishable (second.step operation).2.heap ∧
      ∀ entity : Entity, entity.kind ≠ .store →
        (second.Frees operation entity ↔ first.Frees operation entity) := by
  intro first second
  have hstart : (start options).Resembles (start { options with growth := other }) :=
    ⟨Heap.sound_fresh.resembles_self, rfl⟩
  have hlike : first.Resembles second := hstart.run hfirst hsecond
  obtain ⟨hanswers, hafter⟩ := hlike.step hfirst.of_append.1 hsecond.of_append.1
  refine ⟨hlike.heap.indistinguishable, hanswers, hafter.heap.indistinguishable, ?_⟩
  intro entity hkind
  unfold Frees
  rw [hlike.heap.isLive_eq hkind, hafter.heap.isLive_eq hkind]

/-- The array is in its second store under one policy and in its third under the other
when the array that it has lost is collected. -/
theorem policies_run_moved :
    let done : List (Operation Value) :=
      [.newArray 0, .array (.array ⟨0⟩) (.call .push) (some (.integer 1)),
        .array (.array ⟨0⟩) (.call .push) (some (.integer 2)), .newArray 0,
        .array (.array ⟨0⟩) (.call .unshift) (some (.array ⟨1⟩)),
        .array (.array ⟨0⟩) (.call .shift) none]
    let first := (start .standard).run done
    let second := (start { Options.standard with growth := ⟨1, 1⟩ }).run done
    (first.heap.arrays.get? ⟨0⟩).map ArrayRecord.window = some ⟨2, 8, 4⟩ ∧
      (second.heap.arrays.get? ⟨0⟩).map ArrayRecord.window = some ⟨2, 2, 2⟩ ∧
      second.heap.slice ⟨0⟩ = first.heap.slice ⟨0⟩ ∧
      first.Frees (.collect [.array ⟨0⟩]) ⟨.array, 1⟩ ∧
      second.Frees (.collect [.array ⟨0⟩]) ⟨.array, 1⟩ := by
  intro done first second
  have hfirst : (start .standard).PlainAll (done ++ .collect [.array ⟨0⟩] :: []) := by
    decide +kernel
  have hsecond : (start { Options.standard with growth := ⟨1, 1⟩ }).PlainAll
      (done ++ .collect [.array ⟨0⟩] :: []) := by
    decide +kernel
  have hwindow : (first.heap.arrays.get? ⟨0⟩).map ArrayRecord.window = some ⟨2, 8, 4⟩ := by
    simp only [first]
    decide +kernel
  have hother : (second.heap.arrays.get? ⟨0⟩).map ArrayRecord.window = some ⟨2, 2, 2⟩ := by
    simp only [second]
    decide +kernel
  have hfreed : first.Frees (.collect [.array ⟨0⟩]) ⟨.array, 1⟩ := by
    simp only [first]
    exact ⟨by decide +kernel, by decide +kernel⟩
  obtain ⟨hsame, _, _, hfrees⟩ := policies_run .standard ⟨1, 1⟩ hfirst hsecond
  exact ⟨hwindow, hother, hsame.slice_eq ⟨0⟩, hfreed,
    (hfrees ⟨.array, 1⟩ (by decide)).2 hfreed⟩

end Agent

end ManagedHeap
