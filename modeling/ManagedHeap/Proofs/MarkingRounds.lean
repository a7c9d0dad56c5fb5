import ManagedHeap.Arena.Lemmas
import ManagedHeap.Collector.Mark

/-!
# Rounds of marking

While marking works through what is pending, more becomes pending, and one entity may be pending
many times.  What runs out are the slots without a mark.  A visit that changes anything sets a
mark, so the references of an entity become pending once; and a round without such a visit
leaves nothing to do.  All this holds of any heap, also of one that no agent brings about.
-/

namespace ManagedHeap

/-- Looking at an entity that has a slot fails only if the slot is empty. -/
theorem Arena.slotEmpty_of_bind_error {kind : Kind} {α β : Type} {arena : Arena kind α}
    {handle : Handle kind} {next : α → Except Fault β} {cause : Fault}
    (hsize : handle.slot < arena.size) (hnext : ∀ entity, next entity ≠ .error cause)
    (herror : arena.deref handle >>= next = .error cause) : cause = .slotEmpty := by
  cases hderef : arena.deref handle with
  | ok entity =>
      rw [hderef] at herror
      exact absurd herror (hnext entity)
  | error other =>
      rw [hderef] at herror
      rcases deref_eq_error_iff.1 hderef with ⟨hbeyond, _⟩ | ⟨_, hother⟩
      · exact absurd hsize (Nat.not_lt.2 hbeyond)
      · rw [← Except.error.inj herror, hother]

/-- What became pending when an entity was marked. -/
structure Discovery where
  source : Entity
  found : List Reference

namespace Heap

variable {heap : Heap} {marks : ByKind (Array Bool)} {state : Marking} {reference : Reference}

/-! ## Marks -/

def IsMarked (marks : ByKind (Array Bool)) (entity : Entity) : Prop :=
  (marks.get entity.kind)[entity.slot]? = some true

/-- There is a mark to be set for every slot. -/
def Covers (heap : Heap) (marks : ByKind (Array Bool)) : Prop :=
  ∀ kind, (marks.get kind).size = heap.sizes.get kind

/-- The slots that are not marked yet. -/
def unmarked (marks : ByKind (Array Bool)) : Nat :=
  (marks.map fun bits => bits.count false).sum

/-- Sets the mark of one slot. -/
def setMark (marks : ByKind (Array Bool)) (entity : Entity) : ByKind (Array Bool) :=
  marks.modify (fun bits => bits.setIfInBounds entity.slot true) entity.kind

theorem isMarked_setMark_iff {entity other : Entity}
    (hsize : entity.slot < (marks.get entity.kind).size) :
    IsMarked (setMark marks entity) other ↔ other = entity ∨ IsMarked marks other := by
  obtain ⟨kind, slot⟩ := entity
  obtain ⟨otherKind, otherSlot⟩ := other
  simp only at hsize
  unfold IsMarked setMark
  simp only
  by_cases hkind : otherKind = kind
  · subst hkind
    rw [ByKind.get_modify_self, Array.getElem?_setIfInBounds]
    by_cases hslot : slot = otherSlot
    · subst hslot
      simp [hsize]
    · rw [if_neg hslot]
      simp [Ne.symm hslot]
  · rw [ByKind.get_modify_of_ne _ _ hkind]
    simp [hkind]

theorem size_setMark (entity : Entity) (kind : Kind) :
    ((setMark marks entity).get kind).size = (marks.get kind).size := by
  unfold setMark
  by_cases hkind : kind = entity.kind
  · rw [hkind, ByKind.get_modify_self, Array.size_setIfInBounds]
  · rw [ByKind.get_modify_of_ne _ _ hkind]

theorem unmarked_setMark {entity : Entity}
    (hbit : (marks.get entity.kind)[entity.slot]? = some false) :
    unmarked (setMark marks entity) + 1 = unmarked marks := by
  obtain ⟨kind, slot⟩ := entity
  have hcount : ∀ bits : Array Bool, bits[slot]? = some false →
      (bits.setIfInBounds slot true).count false + 1 = bits.count false := by
    intro bits hget
    obtain ⟨hsize, hvalue⟩ := Array.getElem?_eq_some_iff.1 hget
    have hpos : 0 < bits.count false := Array.count_pos_iff.2 (hvalue ▸ Array.getElem_mem hsize)
    have hset : bits.setIfInBounds slot true = bits.set slot true hsize := by
      simp [Array.setIfInBounds, hsize]
    have hother : ¬(true == false) = true := Bool.false_ne_true
    rw [hset, Array.count_set, hvalue, if_pos (beq_self_eq_true false), if_neg hother]
    omega
  have hless := hcount _ hbit
  unfold unmarked setMark
  cases kind <;>
    simp only [ByKind.get, ByKind.modify, ByKind.map, ByKind.sum] at hless ⊢ <;> omega

theorem not_isMarked_of_unset {entity : Entity}
    (hbit : (marks.get entity.kind)[entity.slot]? = some false) : ¬IsMarked marks entity := by
  unfold IsMarked
  rw [hbit]
  simp

/-! ## Visits -/

/-- All that a visit can do. -/
theorem visit_cases (heap : Heap) (state : Marking) (reference : Reference) :
    let bit := (state.marks.get reference.target.kind)[reference.target.slot]?
    (bit ≠ some false ∧ heap.visit state reference = .ok state) ∨
      (bit = some false ∧ ∃ cause, heap.expand reference = .error cause ∧
        heap.visit state reference = .error cause) ∨
      (bit = some false ∧ ∃ found, heap.expand reference = .ok found ∧
        heap.visit state reference =
          .ok ⟨setMark state.marks reference.target, state.pending ++ found⟩) := by
  intro bit
  unfold visit
  by_cases hbit : bit = some false
  · right
    cases hexpand : heap.expand reference with
    | error cause => exact .inl ⟨hbit, cause, rfl, if_pos hbit⟩
    | ok found => exact .inr ⟨hbit, found, rfl, if_pos hbit⟩
  · exact .inl ⟨hbit, if_neg hbit⟩

/-- An entity that has a slot can be looked at unless the slot is empty. -/
theorem expand_error {cause : Fault} (herror : heap.expand reference = .error cause)
    (hsize : reference.target.slot < heap.sizes.get reference.target.kind) :
    cause = .slotEmpty := by
  cases reference with
  | window store offset length =>
      simp only [expand] at herror
      split at herror
      · contradiction
      · split at herror <;> contradiction
  | entity target =>
      obtain ⟨kind, slot⟩ := target
      cases kind with
      | array | object | closure =>
          exact Arena.slotEmpty_of_bind_error hsize (fun _ => by simp) herror
      | number | string | store => contradiction

/-- What a visit adds to the pending references, if it changes anything. -/
def visitLog (heap : Heap) (state : Marking) (reference : Reference) : List Discovery :=
  match heap.visit state reference with
  | .error _ => []
  | .ok next =>
      if next.marks = state.marks ∧ next.pending = state.pending then []
      else [⟨reference.target, next.pending.toList.drop state.pending.size⟩]

theorem visitLog_of_same (hsame : heap.visit state reference = .ok state) :
    heap.visitLog state reference = [] := by
  simp [visitLog, hsame]

theorem visitLog_of_error {cause : Fault} (herror : heap.visit state reference = .error cause) :
    heap.visitLog state reference = [] := by
  simp [visitLog, herror]

theorem visitLog_of_unset {found : List Reference}
    (hbit : (state.marks.get reference.target.kind)[reference.target.slot]? = some false)
    (hvisit : heap.visit state reference =
      .ok ⟨setMark state.marks reference.target, state.pending ++ found⟩) :
    heap.visitLog state reference = [⟨reference.target, found⟩] := by
  have hless := unmarked_setMark hbit
  have hmarks : setMark state.marks reference.target ≠ state.marks := by
    intro heq
    rw [heq] at hless
    omega
  have hfound : (state.pending ++ found).toList.drop state.pending.size = found := by
    simp
  simp only [visitLog, hvisit, hmarks, false_and, if_false, hfound]

/-! ## Rounds -/

/-- The state without the pending references of some kinds. -/
def without (state : Marking) (kinds : List Kind) : Marking where
  marks := state.marks
  pending := state.pending.filter fun reference => decide (reference.target.kind ∉ kinds)

theorem without_nil (state : Marking) : without state [] = state := by
  unfold without
  have hall : state.pending.filter (fun reference => decide (reference.target.kind ∉ [])) =
      state.pending := by
    rw [Array.filter_eq_self]
    intro reference _
    simp
  rw [hall]

theorem without_without (state : Marking) (first rest : List Kind) :
    without (without state first) rest = without state (first ++ rest) := by
  unfold without
  simp only [Array.filter_filter]
  congr 1
  congr 1
  funext reference
  by_cases hfirst : reference.target.kind ∈ first <;> simp [hfirst]

/-- The pending references of one kind in the order in which they are visited. -/
def due (state : Marking) (kind : Kind) : List Reference :=
  Reference.sortBySlot
    (state.pending.filter fun reference => decide (reference.target.kind = kind)).toList

theorem drain_eq (state : Marking) (kind : Kind) :
    heap.drain state kind = (due state kind).foldlM heap.visit (without state [kind]) := by
  have hrest : without state [kind] =
      { state with
        pending := state.pending.filter fun reference =>
          decide (reference.target.kind ≠ kind) } := by
    simp [without]
  rw [hrest]
  rfl

/-- The order in which a round takes up the kinds. -/
def kindOrder : List Kind := [.array, .store, .closure, .object, .number, .string]

theorem pending_without_kindOrder (state : Marking) : (without state kindOrder).pending = #[] := by
  unfold without
  rw [Array.filter_eq_empty_iff]
  intro reference _
  cases reference.target.kind <;> simp [kindOrder]

/-- The log of steps that are taken one after the other up to the first fault. -/
def foldLog {α : Type} (step : Marking → α → Except Fault Marking)
    (log : Marking → α → List Discovery) : Marking → List α → List Discovery
  | _, [] => []
  | state, item :: rest =>
      log state item ++
        match step state item with
        | .error _ => []
        | .ok next => foldLog step log next rest

def drainLog (heap : Heap) (state : Marking) (kind : Kind) : List Discovery :=
  foldLog heap.visit heap.visitLog (without state [kind]) (due state kind)

def roundLog (heap : Heap) (state : Marking) : List Discovery :=
  foldLog heap.drain heap.drainLog state kindOrder

/-! ## Stretches of marking -/

/-- How marking came from a state to an outcome.  The entities in the log were marked on the
way, and if there are none, the references of some kinds are no longer pending and that is
all. -/
structure Stretch (heap : Heap) (kinds : List Kind) (state : Marking) (log : List Discovery)
    (outcome : Except Fault Marking) : Prop where
  nodup_sources : (log.map Discovery.source).Nodup
  not_isMarked : ∀ source ∈ log.map Discovery.source, ¬IsMarked state.marks source
  length_le : log.length ≤ unmarked state.marks
  expand_eq : ∀ discovery ∈ log, ∃ reference : Reference,
    reference.target = discovery.source ∧ heap.expand reference = .ok discovery.found
  fault_eq : ∀ cause, outcome = .error cause → cause = .slotEmpty
  covers : ∀ next, outcome = .ok next → heap.Covers next.marks
  isMarked_iff : ∀ next, outcome = .ok next → ∀ entity,
    IsMarked next.marks entity ↔
      IsMarked state.marks entity ∨ entity ∈ log.map Discovery.source
  unmarked_eq : ∀ next, outcome = .ok next →
    unmarked next.marks + log.length = unmarked state.marks
  eq_without : log = [] → ∀ next, outcome = .ok next → next = without state kinds

theorem stretch_refl (hcovers : heap.Covers state.marks) :
    heap.Stretch [] state [] (.ok state) where
  nodup_sources := List.nodup_nil
  not_isMarked := by simp
  length_le := Nat.zero_le _
  expand_eq := by simp
  fault_eq := by simp
  covers := by
    rintro next ⟨⟩
    exact hcovers
  isMarked_iff := by
    rintro next ⟨⟩ entity
    simp
  unmarked_eq := by
    rintro next ⟨⟩
    rfl
  eq_without := by
    rintro - next ⟨⟩
    exact (without_nil state).symm

/-- A fault ends what is being done, whatever else there was to do. -/
theorem Stretch.of_error {kinds others : List Kind} {log : List Discovery} {cause : Fault}
    (hstretch : heap.Stretch kinds state log (.error cause)) :
    heap.Stretch others state log (.error cause) where
  nodup_sources := hstretch.nodup_sources
  not_isMarked := hstretch.not_isMarked
  length_le := hstretch.length_le
  expand_eq := hstretch.expand_eq
  fault_eq := hstretch.fault_eq
  covers := by simp
  isMarked_iff := by simp
  unmarked_eq := by simp
  eq_without := by simp

theorem stretch_error (state : Marking) : heap.Stretch [] state [] (.error .slotEmpty) where
  nodup_sources := List.nodup_nil
  not_isMarked := by simp
  length_le := Nat.zero_le _
  expand_eq := by simp
  fault_eq := by simp
  covers := by simp
  isMarked_iff := by simp
  unmarked_eq := by simp
  eq_without := by simp

theorem Stretch.append {first rest : List Kind} {log later : List Discovery} {middle : Marking}
    {outcome : Except Fault Marking} (hfirst : heap.Stretch first state log (.ok middle))
    (hrest : heap.Stretch rest middle later outcome) :
    heap.Stretch (first ++ rest) state (log ++ later) outcome where
  nodup_sources := by
    rw [List.map_append, List.nodup_append]
    refine ⟨hfirst.nodup_sources, hrest.nodup_sources, ?_⟩
    -- What the first part has marked is not discovered again.
    rintro source hsource other hother rfl
    exact hrest.not_isMarked source hother
      ((hfirst.isMarked_iff middle rfl source).2 (.inr hsource))
  not_isMarked := by
    intro source hsource hmarked
    rw [List.map_append, List.mem_append] at hsource
    rcases hsource with hearly | hlate
    · exact hfirst.not_isMarked source hearly hmarked
    · exact hrest.not_isMarked source hlate
        ((hfirst.isMarked_iff middle rfl source).2 (.inl hmarked))
  length_le := by
    have hunmarked := hfirst.unmarked_eq middle rfl
    have hlength := hrest.length_le
    rw [List.length_append]
    omega
  expand_eq := by
    intro discovery hdiscovery
    rcases List.mem_append.1 hdiscovery with hearly | hlate
    · exact hfirst.expand_eq discovery hearly
    · exact hrest.expand_eq discovery hlate
  fault_eq := hrest.fault_eq
  covers := hrest.covers
  isMarked_iff := by
    intro next hnext entity
    rw [hrest.isMarked_iff next hnext, hfirst.isMarked_iff middle rfl, List.map_append,
      List.mem_append, or_assoc]
  unmarked_eq := by
    intro next hnext
    have hunmarked := hfirst.unmarked_eq middle rfl
    have hlater := hrest.unmarked_eq next hnext
    rw [List.length_append]
    omega
  eq_without := by
    intro hnil next hnext
    obtain ⟨hearly, hlate⟩ := List.append_eq_nil_iff.1 hnil
    rw [hrest.eq_without hlate next hnext, hfirst.eq_without hearly middle rfl, without_without]

theorem Stretch.of_without {kinds rest : List Kind} {log : List Discovery}
    {outcome : Except Fault Marking}
    (hstretch : heap.Stretch rest (without state kinds) log outcome) :
    heap.Stretch (kinds ++ rest) state log outcome where
  nodup_sources := hstretch.nodup_sources
  not_isMarked := hstretch.not_isMarked
  length_le := hstretch.length_le
  expand_eq := hstretch.expand_eq
  fault_eq := hstretch.fault_eq
  covers := hstretch.covers
  isMarked_iff := hstretch.isMarked_iff
  unmarked_eq := hstretch.unmarked_eq
  eq_without := by
    intro hnil next hnext
    rw [hstretch.eq_without hnil next hnext, without_without]

theorem stretch_visit (hcovers : heap.Covers state.marks) (reference : Reference) :
    heap.Stretch [] state (heap.visitLog state reference) (heap.visit state reference) := by
  rcases visit_cases heap state reference with
    ⟨_, hvisit⟩ | ⟨hbit, cause, hexpand, hvisit⟩ | ⟨hbit, found, hexpand, hvisit⟩
  · rw [visitLog_of_same hvisit, hvisit]
    exact stretch_refl hcovers
  · obtain ⟨hsize, _⟩ := Array.getElem?_eq_some_iff.1 hbit
    rw [hcovers] at hsize
    rw [visitLog_of_error hvisit, hvisit, expand_error hexpand hsize]
    exact stretch_error state
  · obtain ⟨hsize, _⟩ := Array.getElem?_eq_some_iff.1 hbit
    have hless := unmarked_setMark hbit
    rw [visitLog_of_unset hbit hvisit, hvisit]
    constructor
    · simp
    · rintro source hsource
      rw [List.mem_singleton.1 hsource]
      exact not_isMarked_of_unset hbit
    · rw [List.length_singleton]
      omega
    · intro discovery hdiscovery
      rw [List.mem_singleton.1 hdiscovery]
      exact ⟨reference, rfl, hexpand⟩
    · simp
    · rintro next ⟨⟩ kind
      rw [size_setMark, hcovers]
    · rintro next ⟨⟩ entity
      rw [isMarked_setMark_iff hsize, or_comm]
      simp
    · rintro next ⟨⟩
      exact hless
    · simp

/-- A loop is a stretch if every step of it is one. -/
theorem stretch_foldLog {α : Type} {step : Marking → α → Except Fault Marking}
    {log : Marking → α → List Discovery} {kinds : α → List Kind}
    (hstep : ∀ (state : Marking) item, heap.Covers state.marks →
      heap.Stretch (kinds item) state (log state item) (step state item))
    (items : List α) (state : Marking) (hcovers : heap.Covers state.marks) :
    heap.Stretch (items.flatMap kinds) state (foldLog step log state items)
      (items.foldlM step state) := by
  induction items generalizing state with
  | nil => exact stretch_refl hcovers
  | cons item rest ih =>
      have hfirst := hstep state item hcovers
      rw [List.foldlM_cons, foldLog]
      cases houtcome : step state item with
      | error cause =>
          rw [houtcome] at hfirst
          simp only [List.append_nil]
          exact hfirst.of_error
      | ok next =>
          rw [houtcome] at hfirst
          exact hfirst.append (ih next (hfirst.covers next rfl))

theorem stretch_drain (state : Marking) (kind : Kind) (hcovers : heap.Covers state.marks) :
    heap.Stretch [kind] state (heap.drainLog state kind) (heap.drain state kind) := by
  have hvisits := stretch_foldLog (fun _ reference hcovers => stretch_visit hcovers reference)
    (due state kind) (without state [kind]) hcovers
  have hkinds : (due state kind).flatMap (fun _ => ([] : List Kind)) = [] := by simp
  rw [drain_eq, drainLog]
  rw [hkinds] at hvisits
  exact hvisits.of_without

theorem stretch_round (hcovers : heap.Covers state.marks) :
    heap.Stretch kindOrder state (heap.roundLog state) (heap.round state) := by
  have hdrains := stretch_foldLog stretch_drain kindOrder state hcovers
  exact hdrains

/-- A round that discovers nothing leaves nothing to do. -/
theorem pending_of_roundLog_eq_nil {next : Marking} (hcovers : heap.Covers state.marks)
    (hround : heap.round state = .ok next) (hlog : heap.roundLog state = []) :
    next.pending = #[] := by
  rw [(stretch_round hcovers).eq_without hlog next hround]
  exact pending_without_kindOrder state

/-- Any other round leaves fewer slots to be marked. -/
theorem unmarked_lt_of_roundLog_ne_nil {next : Marking} (hcovers : heap.Covers state.marks)
    (hround : heap.round state = .ok next) (hlog : heap.roundLog state ≠ []) :
    unmarked next.marks < unmarked state.marks := by
  have hunmarked := (stretch_round hcovers).unmarked_eq next hround
  have hlength := List.length_pos_iff.2 hlog
  omega

/-! ## The whole loop -/

theorem rounds_of_done (hdone : state.pending = #[]) (count : Nat) :
    heap.rounds count state = .ok state := by
  cases count with
  | zero => rfl
  | succ count => simp [rounds, hdone]

theorem rounds_of_pending (hpending : state.pending ≠ #[]) (count : Nat) :
    heap.rounds (count + 1) state = heap.round state >>= heap.rounds count := by
  have hwork : ¬state.pending.isEmpty = true := by simpa using hpending
  rw [rounds, if_neg hwork]

/-- Rounds follow each other until nothing is pending or one of them faults.  Each is listed
with what it discovers. -/
inductive Loops (heap : Heap) : Marking → List (List Discovery) → Except Fault Marking → Prop where
  | done {state : Marking} (hdone : state.pending = #[]) : Loops heap state [] (.ok state)
  | fault {state : Marking} {cause : Fault} (hpending : state.pending ≠ #[])
      (hround : heap.round state = .error cause) :
      Loops heap state [heap.roundLog state] (.error cause)
  | round {state next : Marking} {rounds : List (List Discovery)}
      {outcome : Except Fault Marking} (hpending : state.pending ≠ #[])
      (hround : heap.round state = .ok next) (hrest : Loops heap next rounds outcome) :
      Loops heap state (heap.roundLog state :: rounds) outcome

theorem exists_loops (state : Marking) (hcovers : heap.Covers state.marks) :
    ∃ rounds outcome, heap.Loops state rounds outcome := by
  induction hcount : unmarked state.marks using Nat.strongRecOn generalizing state with
  | ind count ih =>
      by_cases hpending : state.pending = #[]
      · exact ⟨_, _, .done hpending⟩
      · cases hround : heap.round state with
        | error cause => exact ⟨_, _, .fault hpending hround⟩
        | ok next =>
            by_cases hlog : heap.roundLog state = []
            · have hdone := pending_of_roundLog_eq_nil hcovers hround hlog
              exact ⟨_, _, .round hpending hround (.done hdone)⟩
            · have hless := unmarked_lt_of_roundLog_ne_nil hcovers hround hlog
              have hnext := (stretch_round hcovers).covers next hround
              obtain ⟨rounds, outcome, hrest⟩ := ih _ (by omega) next hnext rfl
              exact ⟨_, _, .round hpending hround hrest⟩

namespace Loops

variable {rounds : List (List Discovery)} {outcome : Except Fault Marking}

theorem stretch (hloops : heap.Loops state rounds outcome) (hcovers : heap.Covers state.marks) :
    ∃ kinds, heap.Stretch kinds state rounds.flatten outcome := by
  induction hloops with
  | done _ => exact ⟨[], stretch_refl hcovers⟩
  | fault _ hround =>
      have hstretch := stretch_round hcovers
      rw [hround] at hstretch
      exact ⟨kindOrder, by simpa using hstretch⟩
  | round _ hround _ ih =>
      have hstretch := stretch_round hcovers
      rw [hround] at hstretch
      obtain ⟨kinds, hrest⟩ := ih (hstretch.covers _ rfl)
      exact ⟨kindOrder ++ kinds, hstretch.append hrest⟩

theorem ends (hloops : heap.Loops state rounds outcome) :
    (∃ final, outcome = .ok final ∧ final.pending = #[]) ∨ ∃ cause, outcome = .error cause := by
  induction hloops with
  | done hdone => exact .inl ⟨_, rfl, hdone⟩
  | fault _ _ => exact .inr ⟨_, rfl⟩
  | round _ _ _ ih => exact ih

/-- Only the last round discovers nothing. -/
theorem length_le (hloops : heap.Loops state rounds outcome)
    (hcovers : heap.Covers state.marks) : rounds.length ≤ rounds.flatten.length + 1 := by
  induction hloops with
  | done _ => exact Nat.zero_le _
  | fault _ _ => simp
  | @round state next rest _ _ hround hrest ih =>
      have hlater := ih ((stretch_round hcovers).covers next hround)
      rw [List.length_cons, List.flatten_cons, List.length_append]
      cases hlog : heap.roundLog state with
      | cons discovery others =>
          rw [List.length_cons]
          omega
      | nil =>
          have hdone := pending_of_roundLog_eq_nil hcovers hround hlog
          cases hrest with
          | done _ => simp
          | fault hpending _ => exact absurd hdone hpending
          | round hpending _ _ => exact absurd hdone hpending

/-- A limit on the rounds that is large enough is never felt. -/
theorem rounds_eq (hloops : heap.Loops state rounds outcome) {count : Nat}
    (hcount : rounds.length ≤ count) : heap.rounds count state = outcome := by
  induction hloops generalizing count with
  | done hdone => exact rounds_of_done hdone count
  | fault hpending hround =>
      obtain ⟨limit, rfl⟩ := Nat.exists_eq_add_of_le' hcount
      exact (rounds_of_pending hpending limit).trans (by rw [hround]; rfl)
  | round hpending hround _ ih =>
      obtain ⟨limit, rfl⟩ := Nat.exists_eq_add_of_le'
        (Nat.le_trans (Nat.le_add_left 1 _) hcount)
      rw [rounds_of_pending hpending, hround]
      exact ih (Nat.le_of_succ_le_succ hcount)

end Loops

theorem covers_startMarking (heap : Heap) (roots : List Value) :
    heap.Covers (heap.startMarking roots).marks := by
  intro kind
  simp [startMarking]

theorem unmarked_startMarking (heap : Heap) (roots : List Value) :
    unmarked (heap.startMarking roots).marks = heap.sizes.sum := by
  unfold unmarked startMarking
  simp [ByKind.map, ByKind.sum, Array.count_replicate_self]

variable {roots : List Value} {rounds : List (List Discovery)} {outcome : Except Fault Marking}

theorem Loops.length_le_sizes (hloops : heap.Loops (heap.startMarking roots) rounds outcome) :
    rounds.length ≤ heap.sizes.sum + 1 := by
  have hcovers := covers_startMarking heap roots
  obtain ⟨kinds, hstretch⟩ := hloops.stretch hcovers
  have hdiscoveries := hstretch.length_le
  have hrounds := hloops.length_le hcovers
  rw [unmarked_startMarking] at hdiscoveries
  omega

theorem Loops.mark_eq (hloops : heap.Loops (heap.startMarking roots) rounds outcome) :
    heap.mark roots = outcome.map Marking.marks := by
  rw [mark, hloops.rounds_eq hloops.length_le_sizes]

/-- Marking ends, after one round more at most than there are slots in all arenas: either
nothing is pending any more, or it has come to an empty slot.  In all those rounds together
the references of an entity become pending at most once. -/
theorem marking_rounds (heap : Heap) (roots : List Value) :
    (∃ rounds outcome, heap.Loops (heap.startMarking roots) rounds outcome) ∧
      ∀ rounds outcome, heap.Loops (heap.startMarking roots) rounds outcome →
        rounds.length ≤ heap.sizes.sum + 1 ∧
        ((∃ final, outcome = .ok final ∧ final.pending = #[]) ∨ outcome = .error .slotEmpty) ∧
        (rounds.flatten.map Discovery.source).Nodup ∧
        (∀ discovery ∈ rounds.flatten, ∃ reference : Reference,
          reference.target = discovery.source ∧
            heap.expand reference = .ok discovery.found) ∧
        heap.mark roots = outcome.map Marking.marks := by
  have hcovers := covers_startMarking heap roots
  refine ⟨exists_loops _ hcovers, ?_⟩
  intro rounds outcome hloops
  obtain ⟨kinds, hstretch⟩ := hloops.stretch hcovers
  refine ⟨hloops.length_le_sizes, ?_, hstretch.nodup_sources, hstretch.expand_eq, hloops.mark_eq⟩
  rcases hloops.ends with hdone | ⟨cause, hcause⟩
  · exact .inl hdone
  · right
    rw [hcause, hstretch.fault_eq cause hcause]

end Heap

end ManagedHeap
