import ManagedHeap.Operation
import ManagedHeap.Snapshot

/-!
# Sessions

A session is an agent together with named registers.  A program is a list of
instructions: an operation whose operands are constants and registers, and the
register that takes the answer if it is a value.  A session outlives its agent,
so registers can hold handles that mean nothing to the agent that is there now.
-/

namespace ManagedHeap

inductive Operand where
  | undefined
  | null
  | boolean (b : Bool)
  | integer (n : Int32)
  /-- A new string. -/
  | text (text : String)
  /-- A number, boxed if it has to be. -/
  | number (x : Binary64)
  | register (name : String)
  | method (method : ArrayMethod)
  | arrayPrototype
deriving DecidableEq

/-- A register that was never written is undefined. -/
def Operand.evaluate (registers : Bindings) : Operand → Action Value
  | .undefined => pure .undefined
  | .null => pure .null
  | .boolean b => pure (.boolean b)
  | .integer n => pure (.integer n)
  | .text content => Action.newString content
  | .number x => Action.newNumber x
  | .register name => pure ((registers.get? name).getD .undefined)
  | .method called => pure (.closure called.closure)
  | .arrayPrototype => pure (.object ManagedHeap.arrayPrototype)

inductive Command where
  /-- Goes on with a new agent. -/
  | restart (options : Options)
  | operation (request : Operation Operand)

structure Instruction where
  command : Command
  target : Option String

structure Session where
  agent : Agent
  registers : Bindings

namespace Session

def start (options : Options) : Session where
  agent := .start options
  registers := .empty

/-- Carries out an instruction.  The target stays as it was after a fault and
after an answer that is no value. -/
def step (session : Session) (instruction : Instruction) :
    Except Fault Answer × Session :=
  let registers := session.registers
  let (result, agent) : Except Fault Answer × Agent :=
    match instruction.command with
    | .restart options => (.ok (.value .undefined), .start options)
    | .operation request =>
        (request.perform (Operand.evaluate registers)).perform session.agent
  match instruction.target, result.toOption.bind Answer.value? with
  | some name, some value =>
      (result, { agent := agent, registers := registers.insert name value })
  | _, _ => (result, { agent := agent, registers := registers })

/-- Runs a program and collects the answers. -/
def run (session : Session) : List Instruction → List (Except Fault Answer) × Session
  | [] => ([], session)
  | instruction :: rest =>
      let (result, session) := session.step instruction
      let (results, session) := session.run rest
      (result :: results, session)

end Session

end ManagedHeap
