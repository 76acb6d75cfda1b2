import Mathlib.Data.List.Basic

/-!
# Refinement of an abstract machine

An abstract machine takes an operation to a new state and an outcome, and a
concrete system performs operations in its own way, perhaps in many.
`refines_all` lifts a relation between the states that every operation keeps to
sequences of operations: the outcomes coincide, one after the other.
`performs_all` says that every sequence is performed, when in related states every
allowed operation is.
-/

namespace TaskManager.Verified.Refinement

variable {A C Op Out : Type}

/-- The state and the outcomes after a sequence of operations. -/
def applyAll (step : A → Op → A × Out) : A → List Op → A × List Out
  | a, [] => (a, [])
  | a, op :: ops =>
      ((applyAll step (step a op).1 ops).1,
        (step a op).2 :: (applyAll step (step a op).1 ops).2)

/-- Every operation is allowed in the state it is applied in. -/
def AllAllowed (step : A → Op → A × Out) (allowed : A → Op → Prop) : A → List Op → Prop
  | _, [] => True
  | a, op :: ops => allowed a op ∧ AllAllowed step allowed (step a op).1 ops

instance {step : A → Op → A × Out} {allowed : A → Op → Prop}
    [∀ a op, Decidable (allowed a op)] (a : A) (ops : List Op) :
    Decidable (AllAllowed step allowed a ops) := by
  induction ops generalizing a with
  | nil => exact .isTrue trivial
  | cons op ops ih => exact @instDecidableAnd _ _ inferInstance (ih _)

/-- The concrete system performs a sequence of operations. -/
inductive PerformsAll (performs : C → Op → Out → C → Prop) :
    C → List Op → List Out → C → Prop
  | nil (c : C) : PerformsAll performs c [] [] c
  | cons {c c₁ c' : C} {op : Op} {out : Out} {ops : List Op} {outs : List Out}
      (h : performs c op out c₁) (hRest : PerformsAll performs c₁ ops outs c') :
      PerformsAll performs c (op :: ops) (out :: outs) c'

/-- A relation that every operation keeps is kept by all of them, with the same outcomes. -/
theorem refines_all {step : A → Op → A × Out} {allowed : A → Op → Prop}
    {performs : C → Op → Out → C → Prop} (R : A → C → Prop)
    (hStep : ∀ a c op out c', R a c → allowed a op → performs c op out c' →
      out = (step a op).2 ∧ R (step a op).1 c')
    {a : A} {c c' : C} {ops : List Op} {outs : List Out} (hRel : R a c)
    (hAllowed : AllAllowed step allowed a ops) (hRun : PerformsAll performs c ops outs c') :
    outs = (applyAll step a ops).2 ∧ R (applyAll step a ops).1 c' := by
  induction hRun generalizing a with
  | nil c => exact ⟨rfl, hRel⟩
  | @cons c c₁ c' op out ops outs h _ ih =>
      obtain ⟨hOut, hNext⟩ := hStep a c op out c₁ hRel hAllowed.1 h
      obtain ⟨hOuts, hLast⟩ := ih hNext hAllowed.2
      exact ⟨by rw [hOut, hOuts]; rfl, hLast⟩

/-- What can be performed one by one can be performed one after the other. -/
theorem performs_all {step : A → Op → A × Out} {allowed : A → Op → Prop}
    {performs : C → Op → Out → C → Prop} (R : A → C → Prop)
    (hStep : ∀ a c op out c', R a c → allowed a op → performs c op out c' →
      R (step a op).1 c')
    (hSome : ∀ a c op, R a c → allowed a op → ∃ out c', performs c op out c')
    {a : A} {c : C} (ops : List Op) (hRel : R a c) (hAllowed : AllAllowed step allowed a ops) :
    ∃ outs c', PerformsAll performs c ops outs c' := by
  induction ops generalizing a c with
  | nil => exact ⟨[], c, .nil c⟩
  | cons op ops ih =>
      obtain ⟨out, c₁, h⟩ := hSome a c op hRel hAllowed.1
      obtain ⟨outs, c', hRest⟩ := ih (hStep a c op out c₁ hRel hAllowed.1 h) hAllowed.2
      exact ⟨out :: outs, c', .cons h hRest⟩

end TaskManager.Verified.Refinement
