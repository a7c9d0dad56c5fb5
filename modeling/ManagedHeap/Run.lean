import ManagedHeap.Operation

/-!
# Runs

A run is what becomes of an agent under a list of operations.  An operation that
faults is a step of the run like any other.  The operands are any values at all,
so a run may use handles that were never given out or that have gone stale.
-/

namespace ManagedHeap

variable {ν : Type}

def ObjectOp.operands : ObjectOp ν → List ν
  | .setProto parent => [parent]
  | .setField _ value => [value]
  | .set _ value => [value]
  | _ => []

/-- The operands of an operation from left to right. -/
def Operation.operands : Operation ν → List ν
  | .value operand => [operand]
  | .literal elements _ => elements
  | .newObject _ parent _ => parent.toList
  | .newClosure env _ => [env]
  | .collect roots => roots
  | .equal first second => [first, second]
  | .distinctArrays values => values
  | .distinctObjects values => values
  | .ask subject _ => [subject]
  | .call closure receiver argument => [closure, receiver, argument]
  | .object subject op => subject :: op.operands
  | .array subject _ argument => subject :: argument.toList
  | .newString _ | .newNumber _ | .newArray _ | .withCapacity _ _ | .strings _ _ | .slotOf _ _ => []

namespace Agent

def step (agent : Agent) (operation : Operation Value) : Outcome Answer :=
  (operation.perform pure).perform agent

def run (agent : Agent) (operations : List (Operation Value)) : Agent :=
  operations.foldl (fun agent operation => (agent.step operation).2) agent

/-- Every handle among the operands names a living entity. -/
def Admits (agent : Agent) (operation : Operation Value) : Prop :=
  ∀ value ∈ operation.operands, ∀ entity, value.entity? = some entity →
    agent.heap.isLive entity = true

/-- A run in which every handle is live when it is used. -/
def AdmitsAll : Agent → List (Operation Value) → Prop
  | _, [] => True
  | agent, operation :: rest =>
      agent.Admits operation ∧ AdmitsAll (agent.step operation).2 rest

instance (agent : Agent) (operation : Operation Value) : Decidable (agent.Admits operation) :=
  inferInstanceAs (Decidable (∀ value ∈ operation.operands, ∀ entity ∈ value.entity?,
    agent.heap.isLive entity = true))

instance decidableAdmitsAll : ∀ (agent : Agent) (operations : List (Operation Value)),
    Decidable (agent.AdmitsAll operations)
  | _, [] => .isTrue trivial
  | agent, operation :: rest =>
      have := decidableAdmitsAll (agent.step operation).2 rest
      inferInstanceAs (Decidable (agent.Admits operation ∧ AdmitsAll _ rest))

@[simp] theorem run_nil (agent : Agent) : agent.run [] = agent := rfl

@[simp] theorem run_cons (agent : Agent) (operation : Operation Value)
    (rest : List (Operation Value)) :
    agent.run (operation :: rest) = (agent.step operation).2.run rest := rfl

theorem run_append (agent : Agent) (first second : List (Operation Value)) :
    agent.run (first ++ second) = (agent.run first).run second := by
  simp [run, List.foldl_append]

end Agent

end ManagedHeap
