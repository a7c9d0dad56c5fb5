import Mathlib.Data.List.Forall2
import ManagedHeap.Arena.Lemmas
import ManagedHeap.Operation

/-!
# Renamings

Two heaps can hold the same entities in different slots.  A renaming pairs the
slots of one with those of the other, for each kind.  This file carries a
renaming over to values, to records and to answers, and gives what happens to a
pair of arenas when both change in the same way.
-/

namespace ManagedHeap

/-- Slots of one heap paired with slots of another. -/
structure Renaming where
  pairs : Kind → Nat → Nat → Prop

namespace Renaming

instance : LE Renaming where
  le before after := ∀ kind first second,
    before.pairs kind first second → after.pairs kind first second

variable {ρ σ : Renaming}

theorem le_refl (ρ : Renaming) : ρ ≤ ρ := by
  intro _ _ _ hpair
  exact hpair

theorem le_trans {τ : Renaming} (hfirst : ρ ≤ σ) (hsecond : σ ≤ τ) : ρ ≤ τ := by
  intro kind first second hpair
  exact hsecond kind first second (hfirst kind first second hpair)

/-- The renaming with one more pair. -/
def insert (ρ : Renaming) (kind : Kind) (first second : Nat) : Renaming where
  pairs other left right :=
    ρ.pairs other left right ∨ (other = kind ∧ left = first ∧ right = second)

theorem le_insert (ρ : Renaming) (kind : Kind) (first second : Nat) :
    ρ ≤ ρ.insert kind first second := by
  intro _ _ _ hpair
  exact .inl hpair

theorem pairs_insert_self (ρ : Renaming) (kind : Kind) (first second : Nat) :
    (ρ.insert kind first second).pairs kind first second :=
  .inr ⟨rfl, rfl, rfl⟩

theorem pairs_insert_iff {kind : Kind} {first second left right : Nat} :
    (ρ.insert kind first second).pairs kind left right ↔
      ρ.pairs kind left right ∨ (left = first ∧ right = second) := by
  simp [insert]

theorem pairs_insert_of_ne {kind other : Kind} (hne : other ≠ kind)
    {first second left right : Nat} :
    (ρ.insert kind first second).pairs other left right ↔ ρ.pairs other left right := by
  constructor
  · rintro (hpair | ⟨heq, _⟩)
    · exact hpair
    · exact absurd heq hne
  · exact .inl

/-! ## Values and records -/

inductive Values (ρ : Renaming) : Value → Value → Prop where
  | undefined : Values ρ .undefined .undefined
  | null : Values ρ .null .null
  | boolean (b : Bool) : Values ρ (.boolean b) (.boolean b)
  | integer (n : Int32) : Values ρ (.integer n) (.integer n)
  | number {first second : NumberHandle} (hpair : ρ.pairs .number first.slot second.slot) :
      Values ρ (.number first) (.number second)
  | string {first second : StringHandle} (hpair : ρ.pairs .string first.slot second.slot) :
      Values ρ (.string first) (.string second)
  | object {first second : ObjectHandle} (hpair : ρ.pairs .object first.slot second.slot) :
      Values ρ (.object first) (.object second)
  | array {first second : ArrayHandle} (hpair : ρ.pairs .array first.slot second.slot) :
      Values ρ (.array first) (.array second)
  | closure {first second : ClosureHandle} (hpair : ρ.pairs .closure first.slot second.slot) :
      Values ρ (.closure first) (.closure second)

inductive Objects (ρ : Renaming) : Object → Object → Prop where
  | ordinary {first second : ObjectHandle} (hpair : ρ.pairs .object first.slot second.slot) :
      Objects ρ (.ordinary first) (.ordinary second)
  | array {first second : ArrayHandle} (hpair : ρ.pairs .array first.slot second.slot) :
      Objects ρ (.array first) (.array second)

/-- The same name with values that correspond. -/
def Entries (ρ : Renaming) (first second : String × Value) : Prop :=
  first.1 = second.1 ∧ ρ.Values first.2 second.2

structure Headers (ρ : Renaming) (first second : Header) : Prop where
  proto : Option.Rel ρ.Objects first.proto second.proto
  bag : List.Forall₂ ρ.Entries first.bag.entries second.bag.entries
  tag_eq : first.tag = second.tag

structure ObjectRecords (ρ : Renaming) (first second : ObjectRecord) : Prop where
  header : ρ.Headers first.header second.header
  map_eq : first.map = second.map
  fields : List.Forall₂ ρ.Values first.fields.toList second.fields.toList

/-- What an array has beside its elements.  The stores may differ in their handles. -/
structure ArrayRecords (ρ : Renaming) (first second : ArrayRecord) : Prop where
  header : ρ.Headers first.header second.header
  window_eq : first.window = second.window

structure ClosureRecords (ρ : Renaming) (first second : ClosureRecord) : Prop where
  env : ρ.Values first.env second.env
  behaviour_eq : first.behaviour = second.behaviour

theorem Values.mono (hle : ρ ≤ σ) {first second : Value} (hvalues : ρ.Values first second) :
    σ.Values first second := by
  cases hvalues with
  | undefined => exact .undefined
  | null => exact .null
  | boolean b => exact .boolean b
  | integer n => exact .integer n
  | number hpair => exact .number (hle _ _ _ hpair)
  | string hpair => exact .string (hle _ _ _ hpair)
  | object hpair => exact .object (hle _ _ _ hpair)
  | array hpair => exact .array (hle _ _ _ hpair)
  | closure hpair => exact .closure (hle _ _ _ hpair)

theorem Objects.mono (hle : ρ ≤ σ) {first second : Object} (hobjects : ρ.Objects first second) :
    σ.Objects first second := by
  cases hobjects with
  | ordinary hpair => exact .ordinary (hle _ _ _ hpair)
  | array hpair => exact .array (hle _ _ _ hpair)

theorem rel_mono {α β : Type} {before after : α → β → Prop}
    (himp : ∀ x y, before x y → after x y) {first : Option α} {second : Option β}
    (hrel : Option.Rel before first second) : Option.Rel after first second := by
  cases hrel with
  | some hsome => exact .some (himp _ _ hsome)
  | none => exact .none

theorem rel_getD {α β : Type} {related : α → β → Prop} {first : Option α} {second : Option β}
    (hrel : Option.Rel related first second) {x : α} {y : β} (hxy : related x y) :
    related (first.getD x) (second.getD y) := by
  cases hrel with
  | some hsome => exact hsome
  | none => exact hxy

theorem Headers.mono (hle : ρ ≤ σ) {first second : Header} (hheaders : ρ.Headers first second) :
    σ.Headers first second where
  proto := rel_mono (fun _ _ => Objects.mono hle) hheaders.proto
  bag := hheaders.bag.imp fun _ _ hentry => ⟨hentry.1, hentry.2.mono hle⟩
  tag_eq := hheaders.tag_eq

theorem ObjectRecords.mono (hle : ρ ≤ σ) {first second : ObjectRecord}
    (hrecords : ρ.ObjectRecords first second) : σ.ObjectRecords first second where
  header := hrecords.header.mono hle
  map_eq := hrecords.map_eq
  fields := hrecords.fields.imp fun _ _ => Values.mono hle

theorem ArrayRecords.mono (hle : ρ ≤ σ) {first second : ArrayRecord}
    (hrecords : ρ.ArrayRecords first second) : σ.ArrayRecords first second where
  header := hrecords.header.mono hle
  window_eq := hrecords.window_eq

theorem ClosureRecords.mono (hle : ρ ≤ σ) {first second : ClosureRecord}
    (hrecords : ρ.ClosureRecords first second) : σ.ClosureRecords first second where
  env := hrecords.env.mono hle
  behaviour_eq := hrecords.behaviour_eq

/-! ## Reading values -/

theorem Values.asArray? {first second : Value} (hvalues : ρ.Values first second) :
    Option.Rel (fun left right : ArrayHandle => ρ.pairs .array left.slot right.slot)
      first.asArray? second.asArray? := by
  cases hvalues with
  | array hpair => exact .some hpair
  | undefined | null | boolean _ | integer _ | number _ | string _ | object _ | closure _ =>
      exact .none

theorem Values.asObject? {first second : Value} (hvalues : ρ.Values first second) :
    Option.Rel ρ.Objects first.asObject? second.asObject? := by
  cases hvalues with
  | object hpair => exact .some (.ordinary hpair)
  | array hpair => exact .some (.array hpair)
  | undefined | null | boolean _ | integer _ | number _ | string _ | closure _ => exact .none

theorem Values.entity? {first second : Value} (hvalues : ρ.Values first second)
    {entity : Entity} (hentity : first.entity? = some entity) :
    ∃ slot, ρ.pairs entity.kind entity.slot slot := by
  cases hvalues with
  | undefined | null | boolean _ | integer _ => simp [Value.entity?] at hentity
  | number hpair | string hpair | object hpair | array hpair | closure hpair =>
      simp only [Value.entity?, Option.some.injEq] at hentity
      rw [← hentity]
      exact ⟨_, hpair⟩

/-- A value that corresponds to another does so under any renaming that pairs its
entity in the same way. -/
theorem Values.restrict {first second : Value} (hvalues : ρ.Values first second)
    (hpairs : ∀ entity slot, first.entity? = some entity →
      ρ.pairs entity.kind entity.slot slot → σ.pairs entity.kind entity.slot slot) :
    σ.Values first second := by
  cases hvalues with
  | undefined => exact .undefined
  | null => exact .null
  | boolean b => exact .boolean b
  | integer n => exact .integer n
  | number hpair => exact .number (hpairs _ _ rfl hpair)
  | string hpair => exact .string (hpairs _ _ rfl hpair)
  | object hpair => exact .object (hpairs _ _ rfl hpair)
  | array hpair => exact .array (hpairs _ _ rfl hpair)
  | closure hpair => exact .closure (hpairs _ _ rfl hpair)

theorem Objects.toValue {first second : Object} (hobjects : ρ.Objects first second) :
    ρ.Values first.toValue second.toValue := by
  cases hobjects with
  | ordinary hpair => exact .object hpair
  | array hpair => exact .array hpair

/-! ## Headers -/

theorem exists_of_mem {α β : Type} {related : α → β → Prop} {first : List α} {second : List β}
    (hforall : List.Forall₂ related first second) {x : α} (hmem : x ∈ first) :
    ∃ y, related x y := by
  induction hforall with
  | nil => exact absurd hmem List.not_mem_nil
  | cons hrelated _ ih =>
      rcases List.mem_cons.1 hmem with rfl | hrest
      · exact ⟨_, hrelated⟩
      · exact ih hrest

theorem forall₂_restrict {α β : Type} {before after : α → β → Prop} {first : List α}
    {second : List β} (hforall : List.Forall₂ before first second)
    (himp : ∀ x ∈ first, ∀ y, before x y → after x y) : List.Forall₂ after first second := by
  have hboth := (List.forall₂_and_left first second).2 ⟨himp, hforall⟩
  exact hboth.imp fun x y hxy => hxy.1 y hxy.2

theorem Entries.lookup {first second : List (String × Value)}
    (hentries : List.Forall₂ ρ.Entries first second) (name : String) :
    Option.Rel ρ.Values (first.lookup name) (second.lookup name) := by
  induction hentries with
  | nil => exact .none
  | @cons entry other _ _ hentry _ ih =>
      obtain ⟨key, value⟩ := entry
      obtain ⟨otherKey, otherValue⟩ := other
      obtain ⟨hkey, hvalue⟩ := hentry
      simp only at hkey hvalue
      subst hkey
      rw [Bindings.lookup_cons_eq, Bindings.lookup_cons_eq]
      split
      · exact .some hvalue
      · exact ih

theorem Entries.insertEntry {first second : List (String × Value)}
    (hentries : List.Forall₂ ρ.Entries first second) (name : String) {value other : Value}
    (hvalue : ρ.Values value other) :
    List.Forall₂ ρ.Entries (Bindings.insertEntry name value first)
      (Bindings.insertEntry name other second) := by
  induction hentries with
  | nil => exact .cons ⟨rfl, hvalue⟩ .nil
  | cons hentry hrest ih =>
      unfold Bindings.insertEntry
      rw [hentry.1]
      split
      · exact .cons ⟨rfl, hvalue⟩ hrest
      · exact .cons hentry ih

theorem Objects.of_toValue {first second : Object}
    (hvalues : ρ.Values first.toValue second.toValue) : ρ.Objects first second := by
  cases first <;> cases second <;> cases hvalues
  case ordinary.ordinary.object hpair => exact .ordinary hpair
  case array.array.array hpair => exact .array hpair

theorem Headers.values {first second : Header} (hheaders : ρ.Headers first second) :
    List.Forall₂ ρ.Values first.values second.values := by
  have hproto := hheaders.proto
  unfold Header.values Bindings.values
  apply List.rel_append
  · generalize first.proto = proto, second.proto = other at hproto
    cases hproto with
    | some hobjects => exact .cons hobjects.toValue .nil
    | none => exact .nil
  · rw [List.forall₂_map_left_iff, List.forall₂_map_right_iff]
    exact hheaders.bag.imp fun _ _ hentry => hentry.2

/-- Headers that correspond do so under any renaming that relates their values alike. -/
theorem Headers.restrict {first second : Header} (hheaders : ρ.Headers first second)
    (hvalues : ∀ value ∈ first.values, ∀ other, ρ.Values value other → σ.Values value other) :
    σ.Headers first second where
  proto := by
    obtain ⟨proto, bag, tag⟩ := first
    obtain ⟨otherProto, otherBag, otherTag⟩ := second
    cases hheaders.proto with
    | none => exact .none
    | some hobjects =>
        refine .some (.of_toValue (hvalues _ ?_ _ hobjects.toValue))
        exact List.mem_append_left _ List.mem_cons_self
  bag := by
    apply forall₂_restrict hheaders.bag
    intro entry hentry other hrelated
    refine ⟨hrelated.1, hvalues _ ?_ _ hrelated.2⟩
    exact List.mem_append_right _ (List.mem_map_of_mem hentry)
  tag_eq := hheaders.tag_eq

/-! ## Telling values apart -/

/-- No slot is paired with two others. -/
structure OneToOne (ρ : Renaming) : Prop where
  left_unique : ∀ {kind first second other},
    ρ.pairs kind first other → ρ.pairs kind second other → first = second
  right_unique : ∀ {kind first second other},
    ρ.pairs kind other first → ρ.pairs kind other second → first = second

theorem OneToOne.slot_eq_iff (hone : ρ.OneToOne) {kind : Kind} {first second left right : Nat}
    (hfirst : ρ.pairs kind first left) (hsecond : ρ.pairs kind second right) :
    first = second ↔ left = right := by
  constructor
  · intro heq
    rw [heq] at hfirst
    exact hone.right_unique hfirst hsecond
  · intro heq
    rw [heq] at hfirst
    exact hone.left_unique hfirst hsecond

theorem handle_eq_iff {kind : Kind} {first second : Handle kind} :
    first = second ↔ first.slot = second.slot := by
  cases first
  cases second
  simp

/-- Values that correspond are told apart alike. -/
theorem OneToOne.value_eq_iff (hone : ρ.OneToOne) {first second left right : Value}
    (hfirst : ρ.Values first left) (hsecond : ρ.Values second right) :
    first = second ↔ left = right := by
  cases hfirst <;> cases hsecond <;>
    simp only [reduceCtorEq, Value.boolean.injEq, Value.integer.injEq, Value.number.injEq,
      Value.string.injEq, Value.object.injEq, Value.array.injEq, Value.closure.injEq,
      handle_eq_iff]
  case number.number _ _ hleft _ _ hright => exact hone.slot_eq_iff hleft hright
  case string.string _ _ hleft _ _ hright => exact hone.slot_eq_iff hleft hright
  case object.object _ _ hleft _ _ hright => exact hone.slot_eq_iff hleft hright
  case array.array _ _ hleft _ _ hright => exact hone.slot_eq_iff hleft hright
  case closure.closure _ _ hleft _ _ hright => exact hone.slot_eq_iff hleft hright

theorem OneToOne.object_eq_iff (hone : ρ.OneToOne) {first second left right : Object}
    (hfirst : ρ.Objects first left) (hsecond : ρ.Objects second right) :
    first = second ↔ left = right := by
  cases hfirst <;> cases hsecond <;>
    simp only [reduceCtorEq, Object.ordinary.injEq, Object.array.injEq, handle_eq_iff]
  case ordinary.ordinary _ _ hleft _ _ hright => exact hone.slot_eq_iff hleft hright
  case array.array _ _ hleft _ _ hright => exact hone.slot_eq_iff hleft hright

/-! ## Answers -/

inductive Answers (ρ : Renaming) : Answer → Answer → Prop where
  | value {first second : Value} (hvalues : ρ.Values first second) :
      Answers ρ (.value first) (.value second)
  | flag (b : Bool) : Answers ρ (.flag b) (.flag b)
  | count (n : Nat) : Answers ρ (.count n) (.count n)
  | slot (slot : Option Nat) : Answers ρ (.slot slot) (.slot slot)
  | number (x : Option Binary64) : Answers ρ (.number x) (.number x)
  | boxedNumber (x : Option Binary64) : Answers ρ (.boxedNumber x) (.boxedNumber x)
  | text (text : Option String) : Answers ρ (.text text) (.text text)
  | elements {first second : Array Value}
      (hvalues : List.Forall₂ ρ.Values first.toList second.toList) :
      Answers ρ (.elements first) (.elements second)
  | map (map : ObjectMap) : Answers ρ (.map map) (.map map)
  | header (map : ObjectMap) (tag : UInt32) {first second : Option Object}
      (hproto : Option.Rel ρ.Objects first second) :
      Answers ρ (.header map tag first) (.header map tag second)
  | proto {first second : Option Object} (hproto : Option.Rel ρ.Objects first second) :
      Answers ρ (.proto first) (.proto second)
  /-- The slots are told in ascending order, which a renaming need not keep. -/
  | arrays {first second renamed : List Nat}
      (hslots : List.Forall₂ (ρ.pairs .array) first renamed)
      (hperm : renamed.Perm second) : Answers ρ (.arrays first) (.arrays second)
  | snapshot {first second : Value} (hvalues : ρ.Values first second) :
      Answers ρ (.snapshot first) (.snapshot second)
  | notArray : Answers ρ .notArray .notArray
  | notObject : Answers ρ .notObject .notObject
  | notClosure : Answers ρ .notClosure .notClosure

end Renaming

/-- Both answer, and the answers correspond, or both fault in the same way. -/
inductive Agree {α β : Type} (related : α → β → Prop) :
    Except Fault α → Except Fault β → Prop where
  | ok {x : α} {y : β} (hrelated : related x y) : Agree related (.ok x) (.ok y)
  | error (cause : Fault) : Agree related (.error cause) (.error cause)

/-! ## Arenas that correspond -/

namespace Arena

variable {kind : Kind} {α β : Type} {first after : Arena kind α} {second : Arena kind β}
  {pairs others : Nat → Nat → Prop} {related relatedAfter : α → β → Prop}

/-- The slots that are paired hold entities that correspond, no slot is paired
twice, and every entity of the first arena is in a pair. -/
structure Matches (pairs : Nat → Nat → Prop) (related : α → β → Prop)
    (first : Arena kind α) (second : Arena kind β) : Prop where
  paired : ∀ {left right : Handle kind}, pairs left.slot right.slot →
    ∃ x y, first.get? left = some x ∧ second.get? right = some y ∧ related x y
  total : ∀ {left : Handle kind} {x}, first.get? left = some x → ∃ slot, pairs left.slot slot
  left_unique : ∀ {left right other}, pairs left other → pairs right other → left = right
  right_unique : ∀ {left right other}, pairs other left → pairs other right → left = right

theorem Matches.congr (hmatches : Matches pairs related first second)
    (hpairs : ∀ left right, others left right ↔ pairs left right)
    (hrelated : ∀ x y, related x y → relatedAfter x y) :
    Matches others relatedAfter first second := by
  have heq : others = pairs := by
    funext left right
    exact propext (hpairs left right)
  rw [heq]
  refine ⟨?_, hmatches.total, hmatches.left_unique, hmatches.right_unique⟩
  intro left right hpair
  obtain ⟨x, y, hleft, hright, hxy⟩ := hmatches.paired hpair
  exact ⟨x, y, hleft, hright, hrelated x y hxy⟩

theorem Matches.deref (hmatches : Matches pairs related first second)
    {left right : Handle kind} (hpair : pairs left.slot right.slot) :
    ∃ x y, first.deref left = .ok x ∧ second.deref right = .ok y ∧ related x y := by
  obtain ⟨x, y, hleft, hright, hxy⟩ := hmatches.paired hpair
  exact ⟨x, y, deref_eq_ok_iff.2 hleft, deref_eq_ok_iff.2 hright, hxy⟩

/-- A pair of another kind changes nothing here. -/
theorem Matches.insert_of_ne {ρ : Renaming} {other : Kind} (hne : kind ≠ other) {left right : Nat}
    (hmatches : Matches (ρ.pairs kind) related first second)
    (hrelated : ∀ x y, related x y → relatedAfter x y) :
    Matches ((ρ.insert other left right).pairs kind) relatedAfter first second :=
  hmatches.congr (fun _ _ => Renaming.pairs_insert_of_ne hne) hrelated

theorem Matches.exists_related (hmatches : Matches pairs related first second)
    {left : Handle kind} {x : α} (hget : first.get? left = some x) :
    ∃ slot y, pairs left.slot slot ∧ second.get? ⟨slot⟩ = some y ∧ related x y := by
  obtain ⟨slot, hpair⟩ := hmatches.total hget
  obtain ⟨stored, y, hstored, hright, hxy⟩ := @hmatches.paired left ⟨slot⟩ hpair
  rw [hget, Option.some.injEq] at hstored
  subst hstored
  exact ⟨slot, y, hpair, hright, hxy⟩

theorem Matches.push (hmatches : Matches pairs related first second)
    (hfirst : first.WellFormed) (hsecond : second.WellFormed) {x : α} {y : β}
    (hrelated : ∀ x y, related x y → relatedAfter x y) (hxy : relatedAfter x y)
    (hothers : ∀ left right, others left right ↔
      pairs left right ∨ (left = (first.push x).1.slot ∧ right = (second.push y).1.slot)) :
    Matches others relatedAfter (first.push x).2 (second.push y).2 := by
  have hleftNew : ∀ right, ¬pairs (first.push x).1.slot right := by
    intro right hpair
    obtain ⟨_, _, hleft, _, _⟩ := @hmatches.paired _ ⟨right⟩ hpair
    rw [get?_push_fst hfirst] at hleft
    contradiction
  have hrightNew : ∀ left, ¬pairs left (second.push y).1.slot := by
    intro left hpair
    obtain ⟨_, _, _, hright, _⟩ := @hmatches.paired ⟨left⟩ _ hpair
    rw [get?_push_fst hsecond] at hright
    contradiction
  constructor
  · intro left right hpair
    rcases (hothers _ _).1 hpair with hold | ⟨hleft, hright⟩
    · have hleftNe : left ≠ (first.push x).1 := by
        intro heq
        exact hleftNew _ (heq ▸ hold)
      have hrightNe : right ≠ (second.push y).1 := by
        intro heq
        exact hrightNew _ (heq ▸ hold)
      obtain ⟨u, v, hu, hv, huv⟩ := hmatches.paired hold
      refine ⟨u, v, ?_, ?_, hrelated u v huv⟩
      · rw [get?_push_of_ne hleftNe, hu]
      · rw [get?_push_of_ne hrightNe, hv]
    · have hleftEq : left = (first.push x).1 := by
        cases left
        cases hpush : (first.push x).1
        simp_all
      have hrightEq : right = (second.push y).1 := by
        cases right
        cases hpush : (second.push y).1
        simp_all
      rw [hleftEq, hrightEq]
      exact ⟨x, y, get?_push_self hfirst x, get?_push_self hsecond y, hxy⟩
  · intro left u hget
    by_cases hleft : left = (first.push x).1
    · exact ⟨(second.push y).1.slot, (hothers _ _).2 (.inr ⟨congrArg Handle.slot hleft, rfl⟩)⟩
    · rw [get?_push_of_ne hleft] at hget
      obtain ⟨slot, hpair⟩ := hmatches.total hget
      exact ⟨slot, (hothers _ _).2 (.inl hpair)⟩
  · intro left right other hleft hright
    rcases (hothers _ _).1 hleft with hleft | ⟨hleft, hleftOther⟩
    · rcases (hothers _ _).1 hright with hright | ⟨_, hrightOther⟩
      · exact hmatches.left_unique hleft hright
      · exact absurd (hrightOther ▸ hleft) (hrightNew left)
    · rcases (hothers _ _).1 hright with hright | ⟨hright, _⟩
      · exact absurd (hleftOther ▸ hright) (hrightNew right)
      · rw [hleft, hright]
  · intro left right other hleft hright
    rcases (hothers _ _).1 hleft with hleft | ⟨hleftOther, hleft⟩
    · rcases (hothers _ _).1 hright with hright | ⟨hrightOther, _⟩
      · exact hmatches.right_unique hleft hright
      · exact absurd (hrightOther ▸ hleft) (hleftNew left)
    · rcases (hothers _ _).1 hright with hright | ⟨_, hright⟩
      · exact absurd (hleftOther ▸ hright) (hleftNew right)
      · rw [hleft, hright]

/-- Two entities that correspond are replaced by others that do. -/
theorem Matches.update (hmatches : Matches pairs related first second) {left right : Handle kind}
    (hpair : pairs left.slot right.slot) {x : α} {y : β} (hxy : related x y)
    {changed : Arena kind β} (hleft : after.get? left = some x)
    (hright : changed.get? right = some y)
    (hothers : ∀ other ≠ left, after.get? other = first.get? other)
    (hchanged : ∀ other ≠ right, changed.get? other = second.get? other) :
    Matches pairs related after changed := by
  refine ⟨?_, ?_, hmatches.left_unique, hmatches.right_unique⟩
  · intro other target hother
    by_cases heq : other = left
    · subst heq
      have htarget : target = right :=
        Renaming.handle_eq_iff.2 (hmatches.right_unique hother hpair)
      subst htarget
      exact ⟨x, y, hleft, hright, hxy⟩
    · have htarget : target ≠ right := by
        intro htarget
        rw [htarget] at hother
        exact heq (Renaming.handle_eq_iff.2 (hmatches.left_unique hother hpair))
      rw [hothers other heq, hchanged target htarget]
      exact hmatches.paired hother
  · intro other u hget
    by_cases heq : other = left
    · rw [heq]
      exact ⟨right.slot, hpair⟩
    · rw [hothers other heq] at hget
      exact hmatches.total hget

theorem Matches.modify (hmatches : Matches pairs related first second) {left right : Handle kind}
    (hpair : pairs left.slot right.slot) {f : α → α} {g : β → β}
    (hchange : ∀ x y, first.get? left = some x → second.get? right = some y →
      related x y → related (f x) (g y)) :
    Matches pairs related (first.modify left f) (second.modify right g) := by
  obtain ⟨x, y, hleft, hright, hxy⟩ := hmatches.paired hpair
  apply hmatches.update hpair (hchange x y hleft hright hxy)
  · rw [get?_modify_self, hleft]
    rfl
  · rw [get?_modify_self, hright]
    rfl
  · exact fun other hne => get?_modify_of_ne first f hne
  · exact fun other hne => get?_modify_of_ne second g hne

end Arena

end ManagedHeap
