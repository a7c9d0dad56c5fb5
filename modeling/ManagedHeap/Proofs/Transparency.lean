import ManagedHeap.Proofs.SimulatedOperations
import ManagedHeap.Proofs.SlotNumbers
import ManagedHeap.Proofs.Survival

/-!
# Collections cannot be observed

A program that gives every collection the registers it mentions afterwards is run
twice, in an agent that collects and in one that does not.  Freed slots are used
again in the first run only, so the two soon use different handles.  After every
step there is still a renaming of the one run's handles into the other's, and up to
it the answers are the same and everything that can be read is the same.

Both agents ask the same allocator, which goes by the number of slots, so that a store is
refused in both runs or in neither.  The run without collections needs more slots, and the
two are compared for as long as there is a handle for each.
-/

namespace ManagedHeap

open ManagedHeap.Action

/-! ## Programs -/

def Instruction.operands (instruction : Instruction) : List Operand :=
  match instruction.command with
  | .restart _ => []
  | .operation request => request.operands

/-- Some instruction has the register for an operand. -/
def Mentions (program : List Instruction) (name : String) : Prop :=
  ∃ instruction ∈ program, Operand.register name ∈ instruction.operands

/-- A program for one agent, in which each collection has among its roots every
register that is mentioned later. -/
inductive Protects : List Instruction → Prop where
  | nil : Protects []
  | cons {request : Operation Operand} {target : Option String} {rest : List Instruction}
      (hroots : ∀ roots, request = .collect roots → ∀ name, Mentions rest name →
        Operand.register name ∈ roots)
      (hrest : Protects rest) : Protects (⟨.operation request, target⟩ :: rest)

def Session.register (session : Session) (name : String) : Value :=
  (session.registers.get? name).getD .undefined

/-! ## What can be read -/

namespace Renaming

variable {ρ : Renaming} {first second : Heap}

theorem Corresponds.paired_of_isLive (hcorr : ρ.Corresponds first second) {entity : Entity}
    (hlive : first.isLive entity = true) (hkind : entity.kind ≠ .store) :
    ∃ slot, ρ.pairs entity.kind entity.slot slot := by
  obtain ⟨kind, slot⟩ := entity
  cases kind with
  | array =>
      obtain ⟨_, hget⟩ := Arena.isLive_iff.1 hlive
      exact hcorr.arrays.total hget
  | object =>
      obtain ⟨_, hget⟩ := Arena.isLive_iff.1 hlive
      exact hcorr.objects.total hget
  | closure =>
      obtain ⟨_, hget⟩ := Arena.isLive_iff.1 hlive
      exact hcorr.closures.total hget
  | number =>
      obtain ⟨_, hget⟩ := Arena.isLive_iff.1 hlive
      exact hcorr.numbers.total hget
  | string =>
      obtain ⟨_, hget⟩ := Arena.isLive_iff.1 hlive
      exact hcorr.strings.total hget
  | store => exact absurd rfl hkind

end Renaming

/-! ## Steps -/

/-- The agents of two sessions mirror each other, and the registers that still
matter hold values that correspond. -/
structure Renaming.Sessions (ρ : Renaming) (matters : String → Prop)
    (first second : Session) : Prop where
  agents : ρ.Mirrors first.agent second.agent
  registers : ∀ name, matters name → ρ.Values (first.register name) (second.register name)

section Steps

variable {ρ : Renaming} {first second : Session} {request : Operation Operand}
  {target : Option String} {rest : List Instruction}

theorem Operand.simulates_evaluate (operand : Operand) {registers others : Bindings}
    (hregisters : ∀ name, operand = .register name →
      ρ.Values ((registers.get? name).getD .undefined) ((others.get? name).getD .undefined)) :
    Simulates ρ Renaming.Values (operand.evaluate registers) (operand.evaluate others) := by
  cases operand with
  | undefined => exact simulates_pure .undefined
  | null => exact simulates_pure .null
  | boolean b => exact simulates_pure (.boolean b)
  | integer n => exact simulates_pure (.integer n)
  | text content => exact simulates_newString content
  | number x => exact simulates_newNumber x
  | register name => exact simulates_pure (hregisters name rfl)
  | method called =>
      intro first second hmirrors
      exact ⟨ρ, ρ.le_refl, hmirrors, .ok (hmirrors.heap.pairs_method called)⟩
  | arrayPrototype =>
      intro first second hmirrors
      exact ⟨ρ, ρ.le_refl, hmirrors, .ok hmirrors.heap.pairs_arrayPrototype⟩

/-- What an instruction answers and leaves, told from the operation's outcome. -/
theorem Session.step_eq (session : Session) (request : Operation Operand)
    (target : Option String) {answer : Except Fault Answer} {agent : Agent}
    (hperform : (request.perform (Operand.evaluate session.registers)).perform session.agent =
      (answer, agent)) :
    (session.step ⟨.operation request, target⟩).1 = answer ∧
      (session.step ⟨.operation request, target⟩).2.agent = agent ∧
      ∀ name, (session.step ⟨.operation request, target⟩).2.register name =
        if target = some name then
          (answer.toOption.bind Answer.value?).getD (session.register name)
        else session.register name := by
  unfold Session.step
  simp only [hperform]
  cases target with
  | none => exact ⟨rfl, rfl, fun name => rfl⟩
  | some written =>
      cases hvalue : answer.toOption.bind Answer.value? with
      | none =>
          refine ⟨rfl, rfl, ?_⟩
          intro name
          rw [Option.getD_none, ite_self]
          rfl
      | some value =>
          refine ⟨rfl, rfl, ?_⟩
          intro name
          simp only [Session.register, Bindings.get?_insert, Option.some.injEq]
          by_cases hname : written = name
          · rw [if_pos hname, if_pos hname.symm]
            rfl
          · rw [if_neg hname, if_neg (Ne.symm hname)]

theorem Agree.value? {σ : Renaming} {answer other : Except Fault Answer}
    (hagree : Agree σ.Answers answer other) :
    Option.Rel σ.Values (answer.toOption.bind Answer.value?)
      (other.toOption.bind Answer.value?) := by
  cases hagree with
  | error _ => exact .none
  | ok hanswers =>
      cases hanswers with
      | value hvalues => exact .some hvalues
      | _ => exact .none

/-- Sessions go on together if their operations did. -/
theorem Session.step_agrees {σ : Renaming} {matters : String → Prop}
    {answer otherAnswer : Except Fault Answer} {agent otherAgent : Agent}
    (hperform : (request.perform (Operand.evaluate first.registers)).perform first.agent =
      (answer, agent))
    (hother : (request.perform (Operand.evaluate second.registers)).perform second.agent =
      (otherAnswer, otherAgent))
    (hmirrors : σ.Mirrors agent otherAgent) (hagree : Agree σ.Answers answer otherAnswer)
    (hregisters : ∀ name, matters name →
      σ.Values (first.register name) (second.register name)) :
    σ.Sessions matters (first.step ⟨.operation request, target⟩).2
        (second.step ⟨.operation request, target⟩).2 ∧
      Agree σ.Answers (first.step ⟨.operation request, target⟩).1
        (second.step ⟨.operation request, target⟩).1 := by
  obtain ⟨hanswer, hagent, hregister⟩ := first.step_eq request target hperform
  obtain ⟨hotherAnswer, hotherAgent, hotherRegister⟩ := second.step_eq request target hother
  refine ⟨⟨?_, ?_⟩, ?_⟩
  · rw [hagent, hotherAgent]
    exact hmirrors
  · intro name hmatters
    have hbefore := hregisters name hmatters
    rw [hregister, hotherRegister]
    split
    · exact Renaming.rel_getD hagree.value? hbefore
    · exact hbefore
  · rw [hanswer, hotherAnswer]
    exact hagree

/-- The values of constants and registers are among those of all operands. -/
theorem Action.mem_of_mapM {ν α : Type} {step : ν → Action α} {item : ν} {x : α}
    (hstep : step item = pure x) (items : List ν) (hmem : item ∈ items) (agent : Agent)
    {values : List α} {after : Agent}
    (hperform : (items.mapM step).perform agent = (.ok values, after)) : x ∈ values := by
  induction items generalizing agent values after with
  | nil => exact absurd hmem List.not_mem_nil
  | cons head rest ih =>
      rw [List.mapM_cons, perform_bind] at hperform
      rcases hhead : (step head).perform agent with ⟨cause | y, middle⟩
      · rw [hhead, andThen_error] at hperform
        simp at hperform
      · rw [hhead, andThen_ok, perform_bind] at hperform
        rcases hrest : (rest.mapM step).perform middle with ⟨cause | others, last⟩
        · rw [hrest, andThen_error] at hperform
          simp at hperform
        · rw [hrest, andThen_ok, perform_pure, Prod.mk.injEq, Except.ok.injEq] at hperform
          rw [← hperform.1]
          rcases List.mem_cons.1 hmem with rfl | hlater
          · rw [hstep, perform_pure, Prod.mk.injEq, Except.ok.injEq] at hhead
            rw [hhead.1]
            exact List.mem_cons_self
          · exact List.mem_cons_of_mem _ (ih hlater middle hrest)

theorem Mentions.of_rest {instruction : Instruction} {name : String}
    (hmentions : Mentions rest name) : Mentions (instruction :: rest) name := by
  obtain ⟨later, hmem, hname⟩ := hmentions
  exact ⟨later, List.mem_cons_of_mem _ hmem, hname⟩

/-- The operands of the next instruction are evaluated alike. -/
theorem Renaming.Sessions.evaluate {σ : Renaming}
    (hsessions : ρ.Sessions (Mentions (⟨.operation request, target⟩ :: rest)) first second)
    (hle : ρ ≤ σ) {operand : Operand} (hoperand : operand ∈ request.operands) :
    Simulates σ Renaming.Values (operand.evaluate first.registers)
      (operand.evaluate second.registers) := by
  apply operand.simulates_evaluate
  rintro name rfl
  exact (hsessions.registers name ⟨_, List.mem_cons_self, hoperand⟩).mono hle

theorem Operation.perform_collect_eq {roots : List Operand} {session : Session}
    {values : List Value} {agent after : Agent}
    (hroots : (roots.mapM (Operand.evaluate session.registers)).perform session.agent =
      (.ok values, agent))
    (hcollect : (Action.collect values).perform agent = (.ok (), after)) :
    ((Operation.collect roots).perform (Operand.evaluate session.registers)).perform
        session.agent = (.ok (.value .undefined), after) := by
  rw [Operation.perform, perform_bind, hroots, andThen_ok, perform_bind, hcollect, andThen_ok,
    perform_pure]

/-- A collection happens in the first session only.  What the roots lead to stays
paired, and the registers that matter are among the roots. -/
theorem Renaming.Sessions.collect {roots : List Operand}
    (hsessions :
      ρ.Sessions (Mentions (⟨.operation (.collect roots), target⟩ :: rest)) first second)
    (hroots : ∀ name, Mentions rest name → Operand.register name ∈ roots) :
    ∃ σ : Renaming, σ.Sessions (Mentions rest)
        (first.step ⟨.operation (.collect roots), target⟩).2
        (second.step ⟨.operation (.collect roots), target⟩).2 ∧
      Agree σ.Answers (first.step ⟨.operation (.collect roots), target⟩).1
        (second.step ⟨.operation (.collect roots), target⟩).1 := by
  obtain ⟨σ, hle, hmirrors, hagree⟩ := simulates_mapM roots
    (fun _ hroot _ hmore => hsessions.evaluate hmore hroot) first.agent second.agent
    hsessions.agents
  have hregisters : ∀ name, Mentions rest name →
      σ.Values (first.register name) (second.register name) :=
    fun name hname => (hsessions.registers name hname.of_rest).mono hle
  rcases hleft : (roots.mapM (Operand.evaluate first.registers)).perform first.agent with
    ⟨answer, agent⟩
  rcases hright : (roots.mapM (Operand.evaluate second.registers)).perform second.agent with
    ⟨otherAnswer, otherAgent⟩
  rw [hleft, hright] at hmirrors hagree
  cases hagree with
  | error cause =>
      refine ⟨σ, Session.step_agrees ?_ ?_ hmirrors (.error cause) hregisters⟩
      · rw [Operation.perform, perform_bind, hleft, andThen_error]
      · rw [Operation.perform, perform_bind, hright, andThen_error]
  | @ok values others hvalues =>
      have hdisabled : otherAgent.options.disableCollection = true := by
        rw [hmirrors.options_eq]
      have hother := Operation.perform_collect_eq hright
        (perform_collect_of_disabled hdisabled others)
      have hanswers : ∀ {τ : Renaming}, Agree τ.Answers (.ok (.value .undefined))
          (.ok (.value .undefined)) := .ok (.value .undefined)
      cases henabled : agent.options.disableCollection with
      | true =>
          have hself := Operation.perform_collect_eq hleft
            (perform_collect_of_disabled henabled values)
          exact ⟨σ, Session.step_agrees hself hother hmirrors hanswers hregisters⟩
      | false =>
          have hnone : ¬agent.heap.MeetsFreed values :=
            hmirrors.heap.not_meetsFreed fun value hvalue =>
              Renaming.exists_of_mem hvalues hvalue
          obtain ⟨marks, hcollects, hcollect⟩ :=
            perform_collect hmirrors.heap.sound henabled hnone
          have hself := Operation.perform_collect_eq hleft hcollect
          refine ⟨σ.reached agent.heap values, Session.step_agrees hself hother ?_ hanswers ?_⟩
          · exact ⟨hmirrors.heap.collect hcollects, hmirrors.options_eq⟩
          · intro name hname
            have hregister : Operand.evaluate first.registers (.register name) =
                pure (first.register name) := rfl
            have hmem := mem_of_mapM hregister roots (hroots name hname) first.agent hleft
            apply (hregisters name hname).reached
            intro entity hentity
            exact .root (List.mem_append_left _ hmem) hentity

/-- One instruction in both sessions. -/
theorem Renaming.Sessions.step {instruction : Instruction}
    (hsessions : ρ.Sessions (Mentions (instruction :: rest)) first second)
    (hprotects : Protects (instruction :: rest)) :
    ∃ σ : Renaming, σ.Sessions (Mentions rest) (first.step instruction).2
        (second.step instruction).2 ∧
      Agree σ.Answers (first.step instruction).1 (second.step instruction).1 := by
  cases hprotects with
  | @cons request target _ hroots _ =>
      by_cases hcollect : ∃ roots, request = .collect roots
      · obtain ⟨roots, rfl⟩ := hcollect
        exact hsessions.collect (hroots roots rfl)
      · obtain ⟨σ, hle, hmirrors, hagree⟩ := request.simulates_perform
          (fun roots heq => hcollect ⟨roots, heq⟩)
          (fun _ hoperand _ hmore => hsessions.evaluate hmore hoperand) first.agent second.agent
          hsessions.agents
        refine ⟨σ, Session.step_agrees rfl rfl hmirrors hagree ?_⟩
        intro name hname
        exact (hsessions.registers name hname.of_rest).mono hle

theorem Protects.of_append {done : List Instruction} (hprotects : Protects (done ++ rest)) :
    Protects rest := by
  induction done with
  | nil => exact hprotects
  | cons instruction later ih =>
      cases hprotects with
      | cons _ hrest => exact ih hrest

/-- As many instructions as there are, by one step after the other. -/
theorem Renaming.Sessions.run {done : List Instruction}
    (hsessions : ρ.Sessions (Mentions (done ++ rest)) first second)
    (hprotects : Protects (done ++ rest)) :
    ∃ σ : Renaming, σ.Sessions (Mentions rest) (first.run done).2 (second.run done).2 := by
  induction done generalizing ρ first second with
  | nil => exact ⟨ρ, hsessions⟩
  | cons instruction later ih =>
      obtain ⟨σ, hstep, _⟩ := hsessions.step hprotects
      exact ih hstep (@Protects.of_append (later ++ rest) [instruction] hprotects)

end Steps

/-! ## Runs -/

namespace Session

variable {session : Session} {done rest : List Instruction}

/-- What an agent keeps is kept by any program for one agent. -/
theorem keeps_run {kept : Agent → Prop} (hpersistent : Persistent kept)
    (hprotects : Protects (done ++ rest)) (hkept : kept session.agent) :
    kept (session.run done).2.agent := by
  induction done generalizing session with
  | nil => exact hkept
  | cons instruction later ih =>
      cases hprotects with
      | @cons request target _ _ hlater =>
          have hstep := hpersistent.keeps_operation
            (Operand.keeps_evaluate hpersistent.confined.robust session.registers) request
            session.agent hkept
          rcases hperform : (request.perform (Operand.evaluate session.registers)).perform
            session.agent with ⟨answer, agent⟩
          rw [hperform] at hstep
          have hnext : kept (session.step ⟨.operation request, target⟩).2.agent := by
            rw [(session.step_eq request target hperform).2.1]
            exact hstep
          exact ih hlater hnext

end Session

end ManagedHeap
