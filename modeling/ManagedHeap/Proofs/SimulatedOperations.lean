import Mathlib.Data.List.Perm.Basic
import ManagedHeap.Proofs.Simulation

/-!
# Operations that simulate each other

An operation other than a collection, with operands that correspond, does the same
in agents that mirror each other.
-/

namespace ManagedHeap

open ManagedHeap.Action

variable {ρ : Renaming}

/-! ## Objects -/

/-- A prototype with a chain that ends is taken unless the chain passes the object. -/
theorem Object.perform_setPrototype {agent : Agent} {object : Object} {proto : Option Object}
    {objects : List Object} {header : Header} (hdescends : agent.heap.Descends proto objects)
    (hheader : agent.heap.header object = .ok header) :
    (object.setPrototype proto).perform agent =
      if object ∈ objects then (.ok false, agent)
      else
        (.ok true, { agent with
          heap := agent.heap.changeHeader object fun header =>
            { header with proto := proto } }) := by
  unfold setPrototype
  rw [perform_bind, perform_read, hdescends.chainFrom_eq, andThen_ok, perform_ite]
  split
  · rfl
  · simp only
    rw [perform_bind, perform_read, hheader, andThen_ok, perform_bind, perform_changeHeader,
      andThen_ok, perform_pure]

namespace Object

variable {left right : Object} (hobjects : ρ.Objects left right)

include hobjects

theorem simulates_header :
    Simulates ρ Renaming.Headers (read fun heap => heap.header left)
      (read fun heap => heap.header right) :=
  simulates_read fun _ _ hcorr => hcorr.header hobjects

theorem simulates_objectMap :
    Simulates ρ (fun _ => Eq) (read fun heap => heap.objectMap left)
      (read fun heap => heap.objectMap right) := by
  apply simulates_read
  intro first second hcorr
  obtain ⟨map, hleft, hright⟩ := hcorr.objectMap hobjects
  exact ⟨map, map, hleft, hright, rfl⟩

theorem simulates_setPrototype {proto other : Option Object}
    (hproto : Option.Rel ρ.Objects proto other) :
    Simulates ρ (fun _ => Eq) (left.setPrototype proto) (right.setPrototype other) := by
  intro first second hmirrors
  obtain ⟨objects, others, hdescends, hother, hforall⟩ := hmirrors.heap.chains hproto
  obtain ⟨header, otherHeader, hleft, hright, _⟩ := hmirrors.heap.header hobjects
  have hmem := hmirrors.heap.mem_iff hobjects hforall
  rw [perform_setPrototype hdescends hleft, perform_setPrototype hother hright]
  by_cases hinside : left ∈ objects
  · rw [if_pos hinside, if_pos (hmem.1 hinside)]
    exact ⟨ρ, ρ.le_refl, hmirrors, .ok rfl⟩
  · rw [if_neg hinside, if_neg (fun hright => hinside (hmem.2 hright))]
    exact ⟨ρ, ρ.le_refl,
      ⟨hmirrors.heap.replaceProto hobjects hproto hdescends hinside, hmirrors.options_eq⟩,
      .ok rfl⟩

variable {value other : Value} (hvalues : ρ.Values value other)

include hvalues

theorem simulates_setField (slot : Nat) :
    Simulates ρ (fun _ => Eq) (left.setField slot value) (right.setField slot other) := by
  cases hobjects with
  | @ordinary first second hpair =>
      unfold setField
      simp only
      have hrecord : Simulates ρ Renaming.ObjectRecords
          (read fun heap => heap.objects.deref first)
          (read fun heap => heap.objects.deref second) :=
        simulates_read fun _ _ hcorr => hcorr.objects.deref hpair
      apply hrecord.bind
      intro σ hle record otherRecord hrecords
      have hsize : record.fields.size = otherRecord.fields.size := by
        rw [← Array.length_toList, ← Array.length_toList]
        exact hrecords.fields.length_eq
      rw [hsize]
      split
      · intro left right hmirrors
        exact ⟨σ, σ.le_refl,
          ⟨hmirrors.heap.setField (hle _ _ _ hpair) slot (hvalues.mono hle),
            hmirrors.options_eq⟩, .ok rfl⟩
      · exact simulates_pure rfl
  | array hpair =>
      apply simulates_of_carryOut hpair
      intro first second record body otherRecord otherBody _ hholds hother hbodies
      refine ⟨_, _, _, _, perform_setField_array hholds slot value,
        perform_setField_array hother slot other, hholds.fits.suits_setField slot value,
        hother.fits.suits_setField slot other, hbodies.setField slot hvalues, ?_⟩
      rw [hbodies.window_eq, hvalues.fieldLength?_eq]

theorem simulates_setProperty (key : String) :
    Simulates ρ (fun _ => Eq) (left.setProperty key value) (right.setProperty key other) := by
  unfold setProperty
  apply (simulates_objectMap hobjects).bind
  rintro σ hle map _ rfl
  cases map.slotOf? key with
  | some slot => exact simulates_setField (hobjects.mono hle) (hvalues.mono hle) slot
  | none =>
      intro first second hmirrors
      simp only
      rw [perform_bind, perform_bind, perform_changeHeader, perform_changeHeader, andThen_ok,
        andThen_ok, perform_pure, perform_pure]
      exact ⟨σ, σ.le_refl,
        ⟨hmirrors.heap.insertProperty (hobjects.mono hle) key (hvalues.mono hle),
          hmirrors.options_eq⟩, .ok rfl⟩

end Object

/-- The same operation on an object, with values that correspond. -/
inductive Renaming.ObjectOps (ρ : Renaming) : ObjectOp Value → ObjectOp Value → Prop where
  | header : ObjectOps ρ .header .header
  | map : ObjectOps ρ .map .map
  | tag : ObjectOps ρ .tag .tag
  | proto : ObjectOps ρ .proto .proto
  | setProto {parent other : Value} (hvalues : ρ.Values parent other) :
      ObjectOps ρ (.setProto parent) (.setProto other)
  | getField (slot : Nat) : ObjectOps ρ (.getField slot) (.getField slot)
  | setField (slot : Nat) {value other : Value} (hvalues : ρ.Values value other) :
      ObjectOps ρ (.setField slot value) (.setField slot other)
  | get (key : String) : ObjectOps ρ (.get key) (.get key)
  | set (key : String) {value other : Value} (hvalues : ρ.Values value other) :
      ObjectOps ρ (.set key value) (.set key other)

theorem ObjectOp.simulates_perform {left right : Object} (hobjects : ρ.Objects left right)
    {op other : ObjectOp Value} (hops : ρ.ObjectOps op other) :
    Simulates ρ Renaming.Answers (op.perform left) (other.perform right) := by
  cases hops with
  | header =>
      rw [ObjectOp.perform, ObjectOp.perform]
      apply (Object.simulates_objectMap hobjects).bind
      rintro σ hle map _ rfl
      apply (Object.simulates_header (hobjects.mono hle)).bind
      intro τ _ header otherHeader hheaders
      rw [hheaders.tag_eq]
      exact simulates_pure (.header map _ hheaders.proto)
  | map =>
      apply (Object.simulates_objectMap hobjects).map
      rintro σ map _ rfl
      exact .map map
  | tag =>
      apply (Object.simulates_header hobjects).bind
      intro σ _ header otherHeader hheaders
      rw [hheaders.tag_eq]
      exact simulates_pure (.count _)
  | proto =>
      apply (Object.simulates_header hobjects).bind
      intro σ _ header otherHeader hheaders
      exact simulates_pure (.proto hheaders.proto)
  | setProto hvalues =>
      apply (Object.simulates_setPrototype hobjects hvalues.asObject?).map
      rintro σ flag _ rfl
      exact .flag flag
  | getField slot =>
      refine Simulates.map (simulates_read ?_) fun σ _ _ hfield => .value hfield
      intro first second hcorr
      exact hcorr.field hobjects slot
  | setField slot hvalues =>
      apply (Object.simulates_setField hobjects hvalues slot).map
      rintro σ flag _ rfl
      exact .flag flag
  | get key =>
      refine Simulates.map (simulates_read ?_) fun σ _ _ hproperty => .value hproperty
      intro first second hcorr
      exact hcorr.property hobjects key
  | set key hvalues =>
      apply (Object.simulates_setProperty hobjects hvalues key).map
      rintro σ flag _ rfl
      exact .flag flag

/-! ## Values -/

theorem simulates_toBinary64? {value other : Value} (hvalues : ρ.Values value other) :
    Simulates ρ (fun _ => Eq) (read fun heap => heap.toBinary64? value)
      (read fun heap => heap.toBinary64? other) := by
  apply simulates_read
  intro first second hcorr
  obtain ⟨x, hleft, hright⟩ := hcorr.toBinary64? hvalues
  exact ⟨x, x, hleft, hright, rfl⟩

theorem ValueQuery.simulates_perform (query : ValueQuery) {value other : Value}
    (hvalues : ρ.Values value other) :
    Simulates ρ Renaming.Answers (query.perform value) (query.perform other) := by
  cases query with
  | self => exact simulates_pure (.value hvalues)
  | snapshot => exact simulates_pure (.snapshot hvalues)
  | isUndefined | isArray | isObject => cases hvalues <;> exact simulates_pure (.flag _)
  | number =>
      apply (simulates_toBinary64? hvalues).map
      rintro σ x _ rfl
      exact .number x
  | boxedNumber =>
      cases hvalues with
      | @number handle otherHandle hpair =>
          have hread : Simulates ρ (fun _ => Eq) (read fun heap => heap.numbers.deref handle)
              (read fun heap => heap.numbers.deref otherHandle) :=
            simulates_read fun _ _ hcorr => hcorr.numbers.deref hpair
          apply hread.map
          rintro σ x _ rfl
          exact .boxedNumber (some x)
      | undefined | null | boolean _ | integer _ | string _ | object _ | array _ | closure _ =>
          exact simulates_pure (.boxedNumber none)
  | text =>
      cases hvalues with
      | @string handle otherHandle hpair =>
          have hread : Simulates ρ (fun _ => Eq) (read fun heap => heap.strings.deref handle)
              (read fun heap => heap.strings.deref otherHandle) :=
            simulates_read fun _ _ hcorr => hcorr.strings.deref hpair
          apply hread.map
          rintro σ text _ rfl
          exact .text (some text)
      | undefined | null | boolean _ | integer _ | number _ | object _ | array _ | closure _ =>
          exact simulates_pure (.text none)

theorem simulates_addValues {first second left right : Value} (hfirst : ρ.Values first left)
    (hsecond : ρ.Values second right) :
    Simulates ρ Renaming.Values (addValues first second) (addValues left right) := by
  unfold addValues
  apply (simulates_toBinary64? hfirst).bind
  rintro σ hle x _ rfl
  apply (simulates_toBinary64? (hsecond.mono hle)).bind
  rintro τ _ y _ rfl
  cases x with
  | none => exact simulates_pure .undefined
  | some x =>
      cases y with
      | none => exact simulates_pure .undefined
      | some y => exact simulates_newNumber (x.add y)

/-! ## Calls -/

theorem Behaviour.simulates_run (behaviour : Behaviour)
    {env receiver argument left right other : Value}
    (henv : ρ.Values env left) (hreceiver : ρ.Values receiver right)
    (hargument : ρ.Values argument other) :
    Simulates ρ Renaming.Values (behaviour.run env receiver argument)
      (behaviour.run left right other) := by
  cases behaviour with
  | arrayMethod method =>
      cases hreceiver with
      | array hpair => exact ArrayHandle.simulates_call hpair hargument method
      | undefined | null | boolean _ | integer _ | number _ | string _ | object _ | closure _ =>
          exact simulates_pure .undefined
  | environment => exact simulates_pure henv
  | receiver => exact simulates_pure hreceiver
  | argument => exact simulates_pure hargument
  | sum => exact simulates_addValues henv hargument
  | append =>
      cases henv with
      | array hpair => exact ArrayHandle.simulates_call hpair hargument .push
      | undefined | null | boolean _ | integer _ | number _ | string _ | object _ | closure _ =>
          exact simulates_pure .undefined

theorem ClosureHandle.simulates_call {closure other : ClosureHandle}
    (hpair : ρ.pairs .closure closure.slot other.slot) {receiver argument right last : Value}
    (hreceiver : ρ.Values receiver right) (hargument : ρ.Values argument last) :
    Simulates ρ Renaming.Values (closure.call receiver argument) (other.call right last) := by
  have hrecord : Simulates ρ Renaming.ClosureRecords
      (read fun heap => heap.closures.deref closure)
      (read fun heap => heap.closures.deref other) :=
    simulates_read fun _ _ hcorr => hcorr.closures.deref hpair
  unfold ClosureHandle.call
  apply hrecord.bind
  intro σ hle record otherRecord hrecords
  rw [hrecords.behaviour_eq]
  exact otherRecord.behaviour.simulates_run hrecords.env (hreceiver.mono hle)
    (hargument.mono hle)

/-! ## Different handles -/

/-- Where equality is told alike, so are repetitions. -/
theorem eraseDups_related {α β : Type} [BEq α] [LawfulBEq α] [BEq β] [LawfulBEq β]
    {related : α → β → Prop}
    (heq : ∀ {x y u v}, related x u → related y v → (x = y ↔ u = v)) (bound : Nat) :
    ∀ {first : List α} {second : List β}, first.length ≤ bound →
      List.Forall₂ related first second →
      List.Forall₂ related first.eraseDups second.eraseDups := by
  induction bound with
  | zero =>
      intro first second hbound hforall
      cases hforall with
      | nil => exact .nil
      | cons _ _ => exact absurd hbound (Nat.not_succ_le_zero _)
  | succ bound ih =>
      intro first second hbound hforall
      cases hforall with
      | nil => exact .nil
      | @cons x u rest others hrelated hrest =>
          rw [List.eraseDups_cons, List.eraseDups_cons]
          refine .cons hrelated (ih ?_ ?_)
          · exact Nat.le_trans (List.length_filter_le _ rest) (Nat.le_of_succ_le_succ hbound)
          · apply List.rel_filter _ hrest
            intro y v hyv
            simp only [Bool.not_eq_true', beq_eq_false_iff_ne, ne_eq, heq hyv hrelated]

theorem Renaming.OneToOne.distinctArrays (hone : ρ.OneToOne) {values others : List Value}
    (hvalues : List.Forall₂ ρ.Values values others) :
    ρ.Answers
      (.arrays ((values.filterMap Value.asArray?).map Handle.slot).eraseDups.mergeSort)
      (.arrays ((others.filterMap Value.asArray?).map Handle.slot).eraseDups.mergeSort) := by
  have hhandles : List.Forall₂ ρ.Arrays (values.filterMap Value.asArray?)
      (others.filterMap Value.asArray?) :=
    List.rel_filterMap (fun _ _ hvalue => Values.asArray? hvalue) hvalues
  have hslots : List.Forall₂ (ρ.pairs .array)
      ((values.filterMap Value.asArray?).map Handle.slot)
      ((others.filterMap Value.asArray?).map Handle.slot) := by
    rw [List.forall₂_map_left_iff, List.forall₂_map_right_iff]
    exact hhandles
  have hdistinct := eraseDups_related (fun hfirst hsecond => hone.slot_eq_iff hfirst hsecond) _
    (Nat.le_refl _) hslots
  obtain ⟨renamed, hrenamed, hperm⟩ :=
    List.perm_comp_forall₂ (List.mergeSort_perm _ _) hdistinct
  exact .arrays hrenamed (hperm.trans (List.mergeSort_perm _ _).symm)

theorem Renaming.OneToOne.distinctObjects (hone : ρ.OneToOne) {values others : List Value}
    (hvalues : List.Forall₂ ρ.Values values others) :
    (values.filterMap Value.asObject?).eraseDups.length =
      (others.filterMap Value.asObject?).eraseDups.length := by
  have hobjects : List.Forall₂ ρ.Objects (values.filterMap Value.asObject?)
      (others.filterMap Value.asObject?) :=
    List.rel_filterMap (fun _ _ hvalue => Values.asObject? hvalue) hvalues
  have hdistinct := eraseDups_related (fun hfirst hsecond => hone.object_eq_iff hfirst hsecond) _
    (Nat.le_refl _) hobjects
  exact hdistinct.length_eq

/-- Agents that mirror each other have a renaming that is one to one. -/
theorem Action.simulates_of_oneToOne {α β : Type} {related : Renaming → α → β → Prop}
    {action : Action α} {other : Action β}
    (hsimulates : ρ.OneToOne → Simulates ρ related action other) :
    Simulates ρ related action other := by
  intro first second hmirrors
  exact hsimulates hmirrors.heap.oneToOne first second hmirrors

/-! ## Operations -/

section Operations

variable {ν : Type} {evaluate other : ν → Action Value}

theorem ObjectOp.simulates_evaluate (op : ObjectOp ν)
    (hevaluate : ∀ operand ∈ op.operands, ∀ σ, ρ ≤ σ →
      Simulates σ Renaming.Values (evaluate operand) (other operand)) :
    Simulates ρ Renaming.ObjectOps (op.evaluate evaluate) (op.evaluate other) := by
  cases op with
  | header => exact simulates_pure .header
  | map => exact simulates_pure .map
  | tag => exact simulates_pure .tag
  | proto => exact simulates_pure .proto
  | getField slot => exact simulates_pure (.getField slot)
  | get key => exact simulates_pure (.get key)
  | setProto parent =>
      exact (hevaluate parent List.mem_cons_self ρ ρ.le_refl).map fun _ _ _ hvalues =>
        .setProto hvalues
  | setField slot value =>
      exact (hevaluate value List.mem_cons_self ρ ρ.le_refl).map fun _ _ _ hvalues =>
        .setField slot hvalues
  | set key value =>
      exact (hevaluate value List.mem_cons_self ρ ρ.le_refl).map fun _ _ _ hvalues =>
        .set key hvalues

namespace Operation

theorem simulates_call {closure receiver argument : ν}
    (hevaluate : ∀ operand ∈ [closure, receiver, argument], ∀ σ, ρ ≤ σ →
      Simulates σ Renaming.Values (evaluate operand) (other operand)) :
    Simulates ρ Renaming.Answers ((call closure receiver argument).perform evaluate)
      ((call closure receiver argument).perform other) := by
  rw [Operation.perform, Operation.perform]
  apply (hevaluate closure List.mem_cons_self ρ ρ.le_refl).bind
  intro σ hle called otherCalled hcalled
  cases hcalled with
  | closure hpair =>
      apply (hevaluate receiver (List.mem_cons_of_mem _ List.mem_cons_self) σ hle).bind
      intro τ hmore x u hreceiver
      apply (hevaluate argument
        (List.mem_cons_of_mem _ (List.mem_cons_of_mem _ List.mem_cons_self)) τ
        (Renaming.le_trans hle hmore)).bind
      intro υ hlast y v hargument
      have hcall := ClosureHandle.simulates_call (hlast _ _ _ (hmore _ _ _ hpair))
        (hreceiver.mono hlast) hargument
      exact hcall.map fun _ _ _ hvalues => .value hvalues
  | undefined | null | boolean _ | integer _ | number _ | string _ | object _ | array _ =>
      exact simulates_pure .notClosure

theorem simulates_object {subject : ν} {op : ObjectOp ν}
    (hevaluate : ∀ operand ∈ subject :: op.operands, ∀ σ, ρ ≤ σ →
      Simulates σ Renaming.Values (evaluate operand) (other operand)) :
    Simulates ρ Renaming.Answers ((object subject op).perform evaluate)
      ((object subject op).perform other) := by
  rw [Operation.perform, Operation.perform]
  apply (hevaluate subject List.mem_cons_self ρ ρ.le_refl).bind
  intro σ hle value otherValue hvalues
  have hops : ∀ {left right : Object}, σ.Objects left right →
      Simulates σ Renaming.Answers
        (do (← op.evaluate evaluate).perform left)
        (do (← op.evaluate other).perform right) := by
    intro left right hobjects
    have hevaluated := op.simulates_evaluate fun operand hmem τ hmore =>
      hevaluate operand (List.mem_cons_of_mem _ hmem) τ (Renaming.le_trans hle hmore)
    apply hevaluated.bind
    intro τ hmore evaluated otherEvaluated hops
    exact ObjectOp.simulates_perform (hobjects.mono hmore) hops
  cases hvalues with
  | object hpair => exact hops (.ordinary hpair)
  | array hpair => exact hops (.array hpair)
  | undefined | null | boolean _ | integer _ | number _ | string _ | closure _ =>
      exact simulates_pure .notObject

theorem simulates_array {subject : ν} (op : ArrayOp) {argument : Option ν}
    (hevaluate : ∀ operand ∈ subject :: argument.toList, ∀ σ, ρ ≤ σ →
      Simulates σ Renaming.Values (evaluate operand) (other operand)) :
    Simulates ρ Renaming.Answers ((array subject op argument).perform evaluate)
      ((array subject op argument).perform other) := by
  rw [Operation.perform, Operation.perform]
  apply (hevaluate subject List.mem_cons_self ρ ρ.le_refl).bind
  intro σ hle value otherValue hvalues
  cases hvalues with
  | array hpair =>
      have hargument := simulates_optionMapM argument fun operand hmem =>
        hevaluate operand (List.mem_cons_of_mem _ (Option.mem_toList.2 hmem)) σ hle
      apply hargument.bind
      intro τ hmore given otherGiven hgiven
      exact ArrayOp.simulates_perform (hmore _ _ _ hpair) op (Renaming.Values.getD hgiven)
  | undefined | null | boolean _ | integer _ | number _ | string _ | object _ | closure _ =>
      exact simulates_pure .notArray

theorem simulates_newObject (map : ObjectMap) {proto : Option ν} (tag : UInt32)
    (hevaluate : ∀ operand ∈ proto.toList, ∀ σ, ρ ≤ σ →
      Simulates σ Renaming.Values (evaluate operand) (other operand)) :
    Simulates ρ Renaming.Answers ((newObject map proto tag).perform evaluate)
      ((newObject map proto tag).perform other) := by
  rw [Operation.perform, Operation.perform]
  have hproto := simulates_optionMapM proto fun parent hparent =>
    hevaluate parent (Option.mem_toList.2 hparent) ρ ρ.le_refl
  apply hproto.bind
  intro σ _ parent otherParent hparents
  have hobjects : Option.Rel σ.Objects (parent.bind Value.asObject?)
      (otherParent.bind Value.asObject?) := by
    cases hparents with
    | none => exact .none
    | some hvalues => exact hvalues.asObject?
  apply (Action.simulates_newObject map hobjects tag).bind
  intro τ _ object otherObject hvalues
  exact simulates_pure (.value hvalues)

theorem simulates_equal {first second : ν}
    (hevaluate : ∀ operand ∈ [first, second], ∀ σ, ρ ≤ σ →
      Simulates σ Renaming.Values (evaluate operand) (other operand)) :
    Simulates ρ Renaming.Answers ((equal first second).perform evaluate)
      ((equal first second).perform other) := by
  rw [Operation.perform, Operation.perform]
  apply (hevaluate first List.mem_cons_self ρ ρ.le_refl).bind
  intro σ hle x u hfirst
  apply (hevaluate second (List.mem_cons_of_mem _ List.mem_cons_self) σ hle).bind
  intro τ hmore y v hsecond
  apply simulates_of_oneToOne
  intro hone
  apply simulates_pure
  rw [decide_eq_decide.2 (hone.value_eq_iff (hfirst.mono hmore) hsecond)]
  exact .flag _

end Operation

/-- Every operation but a collection, whatever its operands, as long as they
correspond. -/
theorem Operation.simulates_perform (operation : Operation ν)
    (hcollect : ∀ roots, operation ≠ .collect roots)
    (hevaluate : ∀ operand ∈ operation.operands, ∀ σ, ρ ≤ σ →
      Simulates σ Renaming.Values (evaluate operand) (other operand)) :
    Simulates ρ Renaming.Answers (operation.perform evaluate) (operation.perform other) := by
  have hvalue : ∀ {σ : Renaming} {x y : Value}, σ.Values x y →
      σ.Answers (.value x) (.value y) := fun hvalues => .value hvalues
  cases operation with
  | value operand =>
      exact (hevaluate operand List.mem_cons_self ρ ρ.le_refl).map fun _ _ _ => hvalue
  | newString text => exact (simulates_newString text).map fun _ _ _ => hvalue
  | newNumber x => exact (simulates_newNumber x).map fun _ _ _ => hvalue
  | newArray tag => exact (simulates_newArray tag).map fun _ _ _ hpair => hvalue (.array hpair)
  | withCapacity capacity tag =>
      exact (ArrayHandle.simulates_withCapacity capacity tag).map fun _ _ _ hpair =>
        hvalue (.array hpair)
  | literal elements tag =>
      rw [Operation.perform, Operation.perform]
      apply (simulates_mapM elements hevaluate).bind
      intro σ _ values others hvalues
      apply (ArrayHandle.simulates_literal hvalues tag).bind
      intro τ _ array otherArray hpair
      exact simulates_pure (hvalue (.array hpair))
  | strings texts tag =>
      rw [Operation.perform, Operation.perform]
      refine (simulates_mapM texts
        fun text _ σ _ => simulates_newString text).bind ?_
      intro σ _ values others hvalues
      apply (ArrayHandle.simulates_literal hvalues tag).bind
      intro τ _ array otherArray hpair
      exact simulates_pure (hvalue (.array hpair))
  | newObject map proto tag => exact simulates_newObject map tag hevaluate
  | newClosure env behaviour =>
      rw [Operation.perform, Operation.perform]
      apply (hevaluate env List.mem_cons_self ρ ρ.le_refl).bind
      intro σ _ value otherValue hvalues
      apply (simulates_newClosure hvalues behaviour).bind
      intro τ _ closure otherClosure hclosures
      exact simulates_pure (hvalue hclosures)
  | collect roots => exact absurd rfl (hcollect roots)
  | equal first second => exact simulates_equal hevaluate
  | distinctArrays values =>
      rw [Operation.perform, Operation.perform]
      apply (simulates_mapM values hevaluate).bind
      intro σ _ evaluated others hvalues
      exact simulates_of_oneToOne fun hone => simulates_pure (hone.distinctArrays hvalues)
  | distinctObjects values =>
      rw [Operation.perform, Operation.perform]
      apply (simulates_mapM values hevaluate).bind
      intro σ _ evaluated others hvalues
      apply simulates_of_oneToOne
      intro hone
      apply simulates_pure
      rw [hone.distinctObjects hvalues]
      exact .count _
  | slotOf map key => exact simulates_pure (.slot _)
  | ask subject query =>
      rw [Operation.perform, Operation.perform]
      apply (hevaluate subject List.mem_cons_self ρ ρ.le_refl).bind
      intro σ _ value otherValue hvalues
      exact query.simulates_perform hvalues
  | call closure receiver argument => exact simulates_call hevaluate
  | object subject op => exact simulates_object hevaluate
  | array subject op argument => exact simulates_array op hevaluate

end Operations

end ManagedHeap
