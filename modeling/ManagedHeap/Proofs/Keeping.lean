import ManagedHeap.Agent

/-!
# What an action keeps

An action keeps a property of the agent if the agent has it afterwards whenever
it had it before, be it that the action answers or that it faults.  The rules
follow the way in which actions are put together.
-/

namespace ManagedHeap

namespace Action

variable {α β : Type} {kept : Agent → Prop}

def Keeps (kept : Agent → Prop) (action : Action α) : Prop :=
  ∀ agent, kept agent → kept (action.perform agent).2

theorem keeps_pure (x : α) : Keeps kept (pure x : Action α) := by
  intro agent hkept
  exact hkept

theorem keeps_throw (cause : Fault) : Keeps kept (throw cause : Action α) := by
  intro agent hkept
  exact hkept

theorem keeps_read (question : Heap → Except Fault α) : Keeps kept (read question) := by
  intro agent hkept
  exact hkept

theorem Keeps.bind {action : Action α} {next : α → Action β} (haction : Keeps kept action)
    (hnext : ∀ x, Keeps kept (next x)) : Keeps kept (action >>= next) := by
  intro agent hkept
  have hafter := haction agent hkept
  rw [perform_bind]
  rcases houtcome : action.perform agent with ⟨answer | answer, after⟩
  · rw [houtcome] at hafter
    exact hafter
  · rw [houtcome] at hafter
    exact hnext answer after hafter

theorem Keeps.map {action : Action α} (haction : Keeps kept action) (f : α → β) :
    Keeps kept (f <$> action) := by
  intro agent hkept
  rw [perform_map]
  exact haction agent hkept

theorem keeps_foldlM {step : β → α → Action β} (hstep : ∀ x y, Keeps kept (step x y))
    (items : List α) (start : β) : Keeps kept (items.foldlM step start) := by
  induction items generalizing start with
  | nil => exact keeps_pure start
  | cons item rest ih =>
      rw [List.foldlM_cons]
      exact (hstep start item).bind ih

theorem keeps_mapM {step : α → Action β} (hstep : ∀ x, Keeps kept (step x))
    (items : List α) : Keeps kept (items.mapM step) := by
  induction items with
  | nil =>
      rw [List.mapM_nil]
      exact keeps_pure []
  | cons item rest ih =>
      rw [List.mapM_cons]
      apply (hstep item).bind
      intro first
      apply ih.bind
      intro others
      exact keeps_pure _

theorem keeps_optionMapM {step : α → Action β} (hstep : ∀ x, Keeps kept (step x))
    (item : Option α) : Keeps kept (item.mapM step) := by
  cases item with
  | none => exact keeps_pure none
  | some x => exact (hstep x).map some

end Action

end ManagedHeap
