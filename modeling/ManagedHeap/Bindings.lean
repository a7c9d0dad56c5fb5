import ManagedHeap.Value

/-!
# Bindings

Named values, oldest name first and each name once.  The properties that an
object keeps outside its map are bindings, and so are the registers of a
session.
-/

namespace ManagedHeap

structure Bindings where
  entries : List (String × Value)
deriving DecidableEq

namespace Bindings

def empty : Bindings := ⟨[]⟩

def get? (bindings : Bindings) (name : String) : Option Value :=
  bindings.entries.lookup name

/-- Writes a name in its old place, or behind all others if it is new. -/
def insertEntry (name : String) (value : Value) :
    List (String × Value) → List (String × Value)
  | [] => [(name, value)]
  | entry :: rest =>
      if entry.1 = name then (name, value) :: rest
      else entry :: insertEntry name value rest

def insert (bindings : Bindings) (name : String) (value : Value) : Bindings :=
  ⟨insertEntry name value bindings.entries⟩

def values (bindings : Bindings) : List Value := bindings.entries.map Prod.snd

@[simp] theorem get?_empty (name : String) : empty.get? name = none := rfl

theorem lookup_cons_eq (name other : String) (value : Value)
    (rest : List (String × Value)) :
    List.lookup other ((name, value) :: rest) =
      if other = name then some value else List.lookup other rest := by
  by_cases hother : other = name
  · simp [hother]
  · simp [List.lookup_cons, hother, beq_false_of_ne hother]

theorem get?_insert (bindings : Bindings) (name other : String) (value : Value) :
    (bindings.insert name value).get? other =
      if other = name then some value else bindings.get? other := by
  obtain ⟨entries⟩ := bindings
  simp only [insert, get?]
  induction entries with
  | nil => exact lookup_cons_eq name other value []
  | cons entry rest ih =>
      obtain ⟨first, stored⟩ := entry
      by_cases hfirst : first = name
      · subst hfirst
        simp only [insertEntry, if_true, lookup_cons_eq]
        split <;> rfl
      · simp only [insertEntry, if_neg hfirst, lookup_cons_eq, ih]
        by_cases hother : other = first
        · simp [hother, hfirst]
        · simp [hother]

end Bindings

end ManagedHeap
