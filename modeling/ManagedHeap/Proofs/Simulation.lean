import ManagedHeap.Proofs.CorrespondingChanges

/-!
# Actions that simulate each other

Two agents mirror each other if their heaps correspond and they have the same
growth policy and the same allocator.  The second of them never collects.
Performed in such agents, two actions simulate each other if the agents still
mirror each other afterwards and the answers agree, under a renaming that keeps
all the pairs and may have more.
The rules follow the way in which actions are put together.
-/

namespace ManagedHeap

namespace Renaming

structure Mirrors (ρ : Renaming) (first second : Agent) : Prop where
  heap : ρ.Corresponds first.heap second.heap
  options_eq : second.options = { first.options with disableCollection := true }

theorem Mirrors.sizesAlike {ρ : Renaming} {first second : Agent}
    (hmirrors : ρ.Mirrors first second) : first.options.SizesAlike second.options := by
  rw [hmirrors.options_eq]
  exact ⟨rfl, rfl⟩

/-- Array handles that are paired. -/
def Arrays (ρ : Renaming) (first second : ArrayHandle) : Prop :=
  ρ.pairs .array first.slot second.slot

end Renaming

namespace Action

variable {α β γ δ ν : Type} {ρ : Renaming} {related : Renaming → α → β → Prop}
  {result : Renaming → γ → δ → Prop}

/-- What two actions are to each other in agents that mirror each other. -/
def Simulates (ρ : Renaming) (related : Renaming → α → β → Prop) (action : Action α)
    (other : Action β) : Prop :=
  ∀ first second, ρ.Mirrors first second → ∃ σ, ρ ≤ σ ∧
    σ.Mirrors (action.perform first).2 (other.perform second).2 ∧
      Agree (related σ) (action.perform first).1 (other.perform second).1

theorem simulates_pure {x : α} {y : β} (hxy : related ρ x y) :
    Simulates ρ related (pure x) (pure y) := by
  intro first second hmirrors
  exact ⟨ρ, ρ.le_refl, hmirrors, .ok hxy⟩

theorem simulates_read {question : Heap → Except Fault α} {asked : Heap → Except Fault β}
    (hanswers : ∀ first second, ρ.Corresponds first second →
      ∃ x y, question first = .ok x ∧ asked second = .ok y ∧ related ρ x y) :
    Simulates ρ related (read question) (read asked) := by
  intro first second hmirrors
  obtain ⟨x, y, hx, hy, hxy⟩ := hanswers first.heap second.heap hmirrors.heap
  refine ⟨ρ, ρ.le_refl, hmirrors, ?_⟩
  rw [perform_read, perform_read, hx, hy]
  exact .ok hxy

theorem Simulates.bind {action : Action α} {other : Action β} {next : α → Action γ}
    {nextOther : β → Action δ} (haction : Simulates ρ related action other)
    (hnext : ∀ σ, ρ ≤ σ → ∀ x y, related σ x y → Simulates σ result (next x) (nextOther y)) :
    Simulates ρ result (action >>= next) (other >>= nextOther) := by
  intro first second hmirrors
  obtain ⟨σ, hle, hafter, hagree⟩ := haction first second hmirrors
  rw [perform_bind, perform_bind]
  rcases hleft : action.perform first with ⟨answer, left⟩
  rcases hright : other.perform second with ⟨otherAnswer, right⟩
  rw [hleft, hright] at hafter hagree
  cases hagree with
  | error cause => exact ⟨σ, hle, hafter, .error cause⟩
  | ok hrelated =>
      obtain ⟨τ, hmore, hdone, hanswers⟩ := hnext σ hle _ _ hrelated left right hafter
      exact ⟨τ, Renaming.le_trans hle hmore, hdone, hanswers⟩

theorem Simulates.map {action : Action α} {other : Action β} {f : α → γ} {g : β → δ}
    (haction : Simulates ρ related action other)
    (hresult : ∀ σ x y, related σ x y → result σ (f x) (g y)) :
    Simulates ρ result (f <$> action) (g <$> other) := by
  rw [← bind_pure_comp, ← bind_pure_comp]
  apply haction.bind
  intro σ _ x y hrelated
  exact simulates_pure (hresult σ x y hrelated)

theorem simulates_mapM {step other : ν → Action Value} (items : List ν)
    (hstep : ∀ item ∈ items, ∀ σ, ρ ≤ σ →
      Simulates σ Renaming.Values (step item) (other item)) :
    Simulates ρ (fun σ => List.Forall₂ σ.Values) (items.mapM step) (items.mapM other) := by
  induction items generalizing ρ with
  | nil => exact simulates_pure .nil
  | cons item rest ih =>
      rw [List.mapM_cons, List.mapM_cons]
      apply (hstep item List.mem_cons_self ρ ρ.le_refl).bind
      intro σ hle x y hxy
      have hrest := ih fun other hmem τ hmore =>
        hstep other (List.mem_cons_of_mem _ hmem) τ (Renaming.le_trans hle hmore)
      apply hrest.bind
      intro τ hmore xs ys hforall
      exact simulates_pure (.cons (hxy.mono hmore) hforall)

theorem simulates_optionMapM {step : ν → Action α} {other : ν → Action β} (item : Option ν)
    (hstep : ∀ x ∈ item, Simulates ρ related (step x) (other x)) :
    Simulates ρ (fun σ => Option.Rel (related σ)) (item.mapM step) (item.mapM other) := by
  cases item with
  | none => exact simulates_pure .none
  | some x => exact (hstep x rfl).map fun _ _ _ hrelated => .some hrelated

theorem simulates_foldlM {step : α → ν → Action α} {other : β → ν → Action β}
    (hstep : ∀ item σ, ρ ≤ σ → ∀ x y, related σ x y →
      Simulates σ related (step x item) (other y item))
    (items : List ν) {x : α} {y : β} (hxy : related ρ x y) :
    Simulates ρ related (items.foldlM step x) (items.foldlM other y) := by
  induction items generalizing ρ x y with
  | nil => exact simulates_pure hxy
  | cons item rest ih =>
      rw [List.foldlM_cons, List.foldlM_cons]
      apply (hstep item ρ ρ.le_refl x y hxy).bind
      intro σ hle u v huv
      exact ih (fun item τ hmore => hstep item τ (Renaming.le_trans hle hmore)) huv

/-! ## New entities -/

theorem simulates_newString (text : String) :
    Simulates ρ Renaming.Values (newString text) (newString text) := by
  intro first second hmirrors
  exact ⟨_, Renaming.le_insert _ _ _ _,
    ⟨hmirrors.heap.pushString text, hmirrors.options_eq⟩,
    .ok (.string (Renaming.pairs_insert_self _ _ _ _))⟩

theorem simulates_newNumber (x : Binary64) :
    Simulates ρ Renaming.Values (newNumber x) (newNumber x) := by
  unfold newNumber
  split
  · exact simulates_pure (.integer _)
  · intro first second hmirrors
    exact ⟨_, Renaming.le_insert _ _ _ _,
      ⟨hmirrors.heap.pushNumber x, hmirrors.options_eq⟩,
      .ok (.number (Renaming.pairs_insert_self _ _ _ _))⟩

theorem simulates_newClosure {env other : Value} (hvalues : ρ.Values env other)
    (behaviour : Behaviour) :
    Simulates ρ (fun σ left right => σ.Values (.closure left) (.closure right))
      (newClosure env behaviour) (newClosure other behaviour) := by
  intro first second hmirrors
  exact ⟨_, Renaming.le_insert _ _ _ _,
    ⟨hmirrors.heap.pushClosure ⟨hvalues, rfl⟩, hmirrors.options_eq⟩,
    .ok (.closure (Renaming.pairs_insert_self _ _ _ _))⟩

theorem simulates_newObject (map : ObjectMap) {proto other : Option Object}
    (hproto : Option.Rel ρ.Objects proto other) (tag : UInt32) :
    Simulates ρ (fun σ left right => σ.Values (.object left) (.object right))
      (newObject map proto tag) (newObject map other tag) := by
  intro first second hmirrors
  have hrecords : ρ.ObjectRecords (.new map proto tag) (.new map other tag) := by
    refine ⟨⟨hproto, .nil, rfl⟩, rfl, ?_⟩
    simp only [ObjectRecord.new]
    rw [List.forall₂_same]
    intro value hvalue
    rw [Array.toList_replicate] at hvalue
    rw [List.eq_of_mem_replicate hvalue]
    exact .undefined
  exact ⟨_, Renaming.le_insert _ _ _ _,
    ⟨hmirrors.heap.pushObject hrecords, hmirrors.options_eq⟩,
    .ok (.object (Renaming.pairs_insert_self _ _ _ _))⟩

theorem simulates_newArray (tag : UInt32) :
    Simulates ρ Renaming.Arrays (newArray tag) (newArray tag) := by
  intro first second hmirrors
  exact ⟨_, Renaming.le_insert _ _ _ _,
    ⟨hmirrors.heap.withArray tag, hmirrors.options_eq⟩,
    .ok (Renaming.pairs_insert_self _ _ _ _)⟩

end Action

/-! ## Changes of arrays -/

section Arrays

open ManagedHeap.Action

variable {α β : Type} {ρ : Renaming} {related : Renaming → α → β → Prop}
  {left right : ArrayHandle}

/-- Changes that correspond, carried out on paired arrays. -/
theorem Renaming.Mirrors.carryOut {first second : Agent} (hmirrors : ρ.Mirrors first second)
    (hpair : ρ.Arrays left right) {record other : ArrayRecord} {body otherBody : Body}
    (hholds : first.heap.Holds left record body)
    (hother : second.heap.Holds right other otherBody) (hrecords : ρ.ArrayRecords record other)
    (hbodies : ρ.Bodies body otherBody) {change otherChange : Change}
    (hsuits : change.Suits body) (hsuitsOther : otherChange.Suits otherBody)
    (hchanges : ρ.Changes change otherChange) {x : α} {y : β} (hxy : related ρ x y) :
    ρ.Mirrors (change.carryOut left record x first).2
        (otherChange.carryOut right other y second).2 ∧
      Agree (related ρ) (change.carryOut left record x first).1
        (otherChange.carryOut right other y second).1 := by
  have hrebuilds := change.rebuilds_carryOut hmirrors.heap.sound hholds hsuits x
  have hrebuildsOther :=
    otherChange.rebuilds_carryOut hmirrors.heap.sound_other hother hsuitsOther y
  refine ⟨⟨?_, ?_⟩, ?_⟩
  · exact hmirrors.heap.rebuilds hpair hholds.get?_eq hrecords hrebuilds hrebuildsOther
      (hchanges.next hbodies)
  · rw [Change.options_carryOut, Change.options_carryOut]
    exact hmirrors.options_eq
  · cases hchanges with
    | settle _ => exact .ok hxy
    | move _ _ _ => exact .ok hxy
    | refuse _ _ error => exact .error (.allocation error)

/-- Actions that come down to changes of paired arrays. -/
theorem Action.simulates_of_carryOut (hpair : ρ.Arrays left right) {action : Action α}
    {otherAction : Action β}
    (houtcomes : ∀ first second record body other otherBody, ρ.Mirrors first second →
      first.heap.Holds left record body → second.heap.Holds right other otherBody →
      ρ.Bodies body otherBody → ∃ change otherChange x y,
        action.perform first = change.carryOut left record x first ∧
        otherAction.perform second = otherChange.carryOut right other y second ∧
        change.Suits body ∧ otherChange.Suits otherBody ∧ ρ.Changes change otherChange ∧
        related ρ x y) :
    Simulates ρ related action otherAction := by
  intro first second hmirrors
  obtain ⟨record, body, other, otherBody, hholds, hother, hrecords, hbodies⟩ :=
    hmirrors.heap.holds hpair
  obtain ⟨change, otherChange, x, y, haction, hotherAction, hsuits, hsuitsOther, hchanges, hxy⟩ :=
    houtcomes first second record body other otherBody hmirrors hholds hother hbodies
  rw [haction, hotherAction]
  exact ⟨ρ, ρ.le_refl, hmirrors.carryOut hpair hholds hother hrecords hbodies hsuits hsuitsOther
    hchanges hxy⟩

/-- Actions that make an array and change it at once. -/
theorem Action.simulates_of_create {tag : UInt32} {action other : Action ArrayHandle}
    {change otherChange : Options → Change}
    (haction : ∀ agent, agent.heap.Sound → action.perform agent =
      (change agent.options).carryOut (agent.heap.nextArray (.ofTag tag)) (.ofTag tag)
        (agent.heap.nextArray (.ofTag tag)) (agent.withArray tag))
    (hother : ∀ agent, agent.heap.Sound → other.perform agent =
      (otherChange agent.options).carryOut (agent.heap.nextArray (.ofTag tag)) (.ofTag tag)
        (agent.heap.nextArray (.ofTag tag)) (agent.withArray tag))
    (hsuits : ∀ options, (change options).Suits .empty)
    (hsuitsOther : ∀ options, (otherChange options).Suits .empty)
    (hchanges : ∀ options others, options.SizesAlike others →
      ρ.Changes (change options) (otherChange others)) :
    Simulates ρ Renaming.Arrays action other := by
  intro first second hmirrors
  rw [haction first hmirrors.heap.sound, hother second hmirrors.heap.sound_other]
  let σ := ρ.insert .array (first.heap.nextArray (.ofTag tag)).slot
    (second.heap.nextArray (.ofTag tag)).slot
  have hle : ρ ≤ σ := ρ.le_insert _ _ _
  have hpair : σ.Arrays (first.heap.nextArray (.ofTag tag))
      (second.heap.nextArray (.ofTag tag)) := ρ.pairs_insert_self _ _ _
  have hcreated : σ.Mirrors (first.withArray tag) (second.withArray tag) :=
    ⟨hmirrors.heap.withArray tag, hmirrors.options_eq⟩
  refine ⟨σ, hle, ?_⟩
  exact hcreated.carryOut hpair (Heap.holds_withArray_self hmirrors.heap.sound tag)
    (Heap.holds_withArray_self hmirrors.heap.sound_other tag)
    (hcreated.heap.arrayRecords_ofTag tag) (.empty σ) (hsuits _) (hsuitsOther _)
    ((hchanges _ _ hmirrors.sizesAlike).mono hle) hpair

namespace ArrayHandle

theorem simulates_withCapacity (capacity : Nat) (tag : UInt32) :
    Simulates ρ Renaming.Arrays (withCapacity capacity tag) (withCapacity capacity tag) := by
  have hperform := fun (agent : Agent) (hsound : agent.heap.Sound) =>
    perform_withCapacity hsound capacity tag
  exact simulates_of_create hperform hperform (fun _ => Body.suits_reserve capacity)
    (fun _ => Body.suits_reserve capacity)
    (fun _ _ halike => Renaming.changes_reserve ρ halike capacity)

theorem simulates_literal {elements others : List Value}
    (hvalues : List.Forall₂ ρ.Values elements others) (tag : UInt32) :
    Simulates ρ Renaming.Arrays (literal elements.toArray tag) (literal others.toArray tag) :=
  simulates_of_create (fun _ hsound => perform_literal hsound elements tag)
    (fun _ hsound => perform_literal hsound others tag)
    (fun _ => Body.suits_ofElements elements) (fun _ => Body.suits_ofElements others)
    (fun _ _ halike => Renaming.changes_ofElements halike hvalues)

variable (hpair : ρ.Arrays left right) {value other : Value} (hvalues : ρ.Values value other)

include hpair

theorem simulates_setLength (length : Int) :
    Simulates ρ (fun _ => Eq) (left.setLength length) (right.setLength length) := by
  apply simulates_of_carryOut hpair
  intro first second record body otherRecord otherBody _ hholds hother hbodies
  refine ⟨_, _, _, _, perform_setLength hholds length, perform_setLength hother length,
    hholds.fits.suits_setLength length, hother.fits.suits_setLength length,
    hbodies.setLength length, ?_⟩
  exact decide_eq_decide.2 (hbodies.admits_iff length)

include hvalues

theorem simulates_put (index : Int) :
    Simulates ρ Renaming.Values (left.put index value) (right.put index other) := by
  apply simulates_of_carryOut hpair
  intro first second record body otherRecord otherBody hmirrors hholds hother hbodies
  by_cases hindex : index < 0
  · refine ⟨.settle body, .settle otherBody, value, other, ?_, ?_, ⟨hholds.fits, rfl⟩,
      ⟨hother.fits, rfl⟩, .settle hbodies, hvalues⟩
    · rw [perform_put_of_neg hholds hindex, carryOut_settle_self hholds]
    · rw [perform_put_of_neg hother hindex, carryOut_settle_self hother]
  · have hleft := perform_put hmirrors.heap.sound hholds (Int.not_lt.1 hindex) value
    have hright := perform_put hmirrors.heap.sound_other hother (Int.not_lt.1 hindex) other
    exact ⟨_, _, value, other, hleft, hright, hholds.fits.suits_put _ value,
      hother.fits.suits_put _ other, hbodies.put hmirrors.sizesAlike _ hvalues, hvalues⟩

theorem simulates_call (method : ArrayMethod) :
    Simulates ρ Renaming.Values (left.call method value) (right.call method other) := by
  apply simulates_of_carryOut hpair
  intro first second record body otherRecord otherBody hmirrors hholds hother hbodies
  have hleft := perform_call hmirrors.heap.sound hholds method value
  have hright := perform_call hmirrors.heap.sound_other hother method other
  exact ⟨_, _, _, _, hleft, hright, hholds.fits.suits_method method value,
    hother.fits.suits_method method other, hbodies.method hmirrors.sizesAlike method hvalues,
    hbodies.answer method hpair hvalues⟩

omit hvalues

theorem simulates_callRepeatedly (method : ArrayMethod) (times : Nat) :
    Simulates ρ Renaming.Values (left.callRepeatedly method times)
      (right.callRepeatedly method times) := by
  unfold callRepeatedly
  refine simulates_foldlM ?_ _ .undefined
  intro index σ hle _ _ _
  exact simulates_call (hle _ _ _ hpair) (.integer _) method

end ArrayHandle

theorem ArrayOp.simulates_perform (hpair : ρ.Arrays left right) (op : ArrayOp)
    {value other : Value} (hvalues : ρ.Values value other) :
    Simulates ρ Renaming.Answers (op.perform left value) (op.perform right other) := by
  have hrecord : Simulates ρ (fun σ => σ.ArrayRecords) (read fun heap => heap.arrays.deref left)
      (read fun heap => heap.arrays.deref right) :=
    simulates_read fun _ _ hcorr => hcorr.arrays.deref hpair
  cases op with
  | length | capacity =>
      apply hrecord.bind
      intro σ _ record otherRecord hrecords
      rw [hrecords.window_eq]
      exact simulates_pure (.count _)
  | isEmpty =>
      apply hrecord.bind
      intro σ _ record otherRecord hrecords
      rw [hrecords.window_eq]
      exact simulates_pure (.flag _)
  | slice =>
      refine Simulates.map (simulates_read ?_) fun σ _ _ helements => .elements helements
      intro first second hcorr
      obtain ⟨_, body, _, otherBody, hholds, hother, _, hbodies⟩ := hcorr.holds hpair
      exact ⟨_, _, hholds.slice_eq, hother.slice_eq, hbodies.elements⟩
  | get index =>
      refine Simulates.map (simulates_read ?_) fun σ _ _ hread => .value hread
      intro first second hcorr
      exact hcorr.element hpair index.toInt
  | put index =>
      exact (ArrayHandle.simulates_put hpair hvalues index.toInt).map fun σ _ _ hput =>
        .value hput
  | setLength extent =>
      refine (ArrayHandle.simulates_setLength hpair extent.toInt).map ?_
      rintro σ flag _ rfl
      exact .flag flag
  | call method =>
      exact (ArrayHandle.simulates_call hpair hvalues method).map fun σ _ _ hcall => .value hcall
  | callRepeatedly method times =>
      exact (ArrayHandle.simulates_callRepeatedly hpair method times).map fun σ _ _ hcall =>
        .value hcall

end Arrays

end ManagedHeap
