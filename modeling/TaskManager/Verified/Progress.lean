import Mathlib.Algebra.Ring.Nat
import TaskManager.Verified.InOrder
import TaskManager.Verified.Alone

/-!
# Programs that settle

Left alone, a program of `Verified/EventLoop.lean` runs its callbacks, has its requests
performed or refused and runs its continuations, and each continuation may issue more.
`Weights` bounds how much can follow from one request; `work` is then what a state has
left to do.  A `Budget` bounds what one user event and one start of the process can add.

## Main results

* `Weights.work_lt` — every step that the user does not take leaves less to do.
* `Weights.exec_bound` — so a run of such steps is no longer than the work there is.
* `settles` — every state is led to a quiescent one by a store that works in order.
* `Weights.completes` — a handler that runs alone is done at some point.
* `Budget.exec_bound` — in a whole run, the number of those steps is bounded by the
  numbers of user events and of starts.
-/

namespace TaskManager.Verified.EventLoop

variable {D A R U E : Type}

/-! ## Steps that the user does not take -/

/-- The step is one of the program and its store. -/
def Action.isInternal : Action E → Bool
  | .user _ => false
  | .kill => false
  | _ => true

/-- The step is a user event. -/
def Action.isUser : Action E → Bool
  | .user _ => true
  | _ => false

/-- The process is killed. -/
def Action.isKill : Action E → Bool
  | .kill => true
  | _ => false

/-! ## Weights -/

theorem sum_eraseIdx {α : Type} (f : α → Nat) {l : List α} {i : Nat} {a : α}
    (h : l[i]? = some a) : ((l.eraseIdx i).map f).sum + f a = (l.map f).sum := by
  induction l generalizing i with
  | nil => simp at h
  | cons b l ih =>
      cases i with
      | zero =>
          obtain rfl : b = a := by simpa using h
          rw [List.eraseIdx_cons_zero, List.map_cons, List.sum_cons]
          omega
      | succ i =>
          have hRest := ih (by simpa using h)
          rw [List.eraseIdx_cons_succ, List.map_cons, List.map_cons, List.sum_cons, List.sum_cons]
          omega

/-- What a stretch of a handler leaves to do.  A callback has to run before its request
waits. -/
def Issued.weight (await : A → Nat) (out : Issued A) : Nat :=
  (out.effects.map fun a => await a + 1).sum + (out.requests.map await).sum

/-- A bound on what can follow from a request and from a continuation, each less than what
it came from. -/
structure Weights (P : Program D A R U E) where
  await : A → Nat
  ready : R → Nat
  await_pos : ∀ a, 0 < await a
  serve : ∀ a d, ready (P.serve a d).2 < await a
  resume : ∀ r u, (P.resume r u).2.weight await < ready r

namespace Weights

variable {P : Program D A R U E} (w : Weights P)

/-- What the state has left to do. -/
def work (s : State D A R U) : Nat :=
  (s.effects.map fun a => w.await a + 1).sum + (s.pending.map w.await).sum +
    (s.served.map w.ready).sum

/-- What is issued is added to the work. -/
theorem work_issue (s : State D A R U) (out : U × Issued A) :
    w.work (s.issue out) = w.work s + out.2.weight w.await := by
  simp only [work, State.issue, Issued.weight, List.map_append, List.sum_append]
  omega

/-- A fresh process has what it launches. -/
theorem work_boot (d : D) (u : U) :
    w.work (P.boot d u) = (P.launch u).2.weight w.await := by
  simp [work, Program.boot, Issued.weight]

/-- Every step that the user does not take leaves less to do. -/
theorem work_lt {s s' : State D A R U} {x : Action E} (hx : P.Step s x s')
    (hInternal : x.isInternal = true) : w.work s' < w.work s := by
  cases hx with
  | user _ => simp [Action.isInternal] at hInternal
  | @effect i a hAt =>
      have hRest := sum_eraseIdx (fun a => w.await a + 1) hAt
      simp only [work, List.map_append, List.map_cons, List.map_nil, List.sum_append,
        List.sum_cons, List.sum_nil]
      omega
  | @serve i a hAt =>
      have hRest := sum_eraseIdx w.await hAt
      have hServe := w.serve a s.disk
      simp only [work, List.map_append, List.map_cons, List.map_nil, List.sum_append,
        List.sum_cons, List.sum_nil]
      omega
  | @resolve i r hAt =>
      have hRest := sum_eraseIdx w.ready hAt
      have hResume := w.resume r s.ui
      rw [work_issue]
      simp only [work]
      omega
  | @reject i a hAt =>
      have hRest := sum_eraseIdx w.await hAt
      have hPos := w.await_pos a
      simp only [work]
      omega
  | kill => simp [Action.isInternal] at hInternal

/-- **Left alone, the program stops**, in whatever order the store works and whatever it
refuses. -/
theorem exec_bound {s s' : State D A R U} {xs : List (Action E)}
    (hInternal : ∀ x ∈ xs, x.isInternal = true) (hRun : P.exec s xs = some s') :
    xs.length + w.work s' ≤ w.work s := by
  induction xs generalizing s with
  | nil =>
      rw [Program.exec_nil, Option.some.injEq] at hRun
      simp [hRun]
  | cons x xs ih =>
      rw [Program.exec_cons] at hRun
      obtain ⟨m, hStep, hRest⟩ := Option.bind_eq_some_iff.mp hRun
      have hLess := w.work_lt (P.step_iff.mp hStep) (hInternal x List.mem_cons_self)
      have hLater := ih (fun y hy => hInternal y (List.mem_cons_of_mem x hy)) hRest
      rw [List.length_cons]
      omega

end Weights

/-! ## Settling -/

/-- A state that is not quiescent has a step of the program or of its store to take, even
when the store works in order. -/
theorem exists_internal {P : Program D A R U E} {s : State D A R U} (h : ¬ s.Quiescent) :
    ∃ x : Action E, x.isInternal = true ∧ x.InOrder ∧ ∃ s', P.Step s x s' := by
  cases hServed : s.served with
  | cons r rs => exact ⟨.resolve 0, rfl, rfl, _, .resolve (by rw [hServed]; rfl)⟩
  | nil =>
      cases hPending : s.pending with
      | cons a as => exact ⟨.serve 0, rfl, rfl, _, .serve (by rw [hPending]; rfl)⟩
      | nil =>
          cases hEffects : s.effects with
          | cons a as => exact ⟨.effect 0, rfl, trivial, _, .effect (by rw [hEffects]; rfl)⟩
          | nil => exact absurd ⟨hEffects, hPending, hServed⟩ h

/-- **Every state settles.** -/
theorem settles {P : Program D A R U E} (w : Weights P) (s : State D A R U) :
    ∃ xs s', (∀ x ∈ xs, x.isInternal = true ∧ x.InOrder) ∧ P.exec s xs = some s' ∧
      s'.Quiescent := by
  induction hWork : w.work s using Nat.strongRecOn generalizing s with
  | ind n ih =>
      by_cases hQuiet : s.Quiescent
      · exact ⟨[], s, by simp, rfl, hQuiet⟩
      · obtain ⟨x, hInternal, hOrder, m, hx⟩ := exists_internal (P := P) hQuiet
        have hLess := w.work_lt hx hInternal
        obtain ⟨xs, s', hAll, hRun, hDone⟩ := ih (w.work m) (by omega) m rfl
        refine ⟨x :: xs, s', ?_, ?_, hDone⟩
        · intro y hy
          rcases List.mem_cons.mp hy with rfl | hRest
          · exact ⟨hInternal, hOrder⟩
          · exact hAll y hRest
        · rw [Program.exec_cons, P.step_iff.mpr hx]
          exact hRun

/-- A handler that runs alone is done at some point. -/
theorem Weights.completes {P : Program D A R U E} (w : Weights P) (hOne : P.OneAtATime)
    {s : State D A R U} (hPending : s.pending.length ≤ 1) (hServed : s.served = []) :
    ∃ n c, P.Completed s n c := by
  induction hWork : w.work s using Nat.strongRecOn generalizing s with
  | ind k ih =>
      rcases Program.pending_cases hPending with hNone | ⟨a, hAt⟩
      · exact ⟨0, s, .done hNone⟩
      · have hAnswer : P.exec s [.serve 0, .resolve 0] = some (P.answer s a) :=
          Program.exec_answer [] hAt hServed
        have hLess := w.exec_bound (by simp [Action.isInternal]) hAnswer
        rw [List.length_cons, List.length_singleton] at hLess
        obtain ⟨n, c, hRest⟩ :=
          ih (w.work (P.answer s a)) (by omega) (hOne.answer s a) hServed rfl
        exact ⟨n + 1, c, .answer hAt hRest⟩

/-! ## Budgets -/

/-- What a user event and a start of the process can add at most. -/
structure Budget (P : Program D A R U E) extends Weights P where
  user : Nat
  start : Nat
  handle : ∀ e u out, P.handle e u = some out → out.2.weight await ≤ user
  launch : ∀ u, (P.launch u).2.weight await ≤ start

namespace Budget

variable {P : Program D A R U E} (b : Budget P)

/-- What is left to do after a step, with one more for a step of the program itself. -/
theorem step_bound {s s' : State D A R U} {x : Action E} (hx : P.Step s x s') :
    (if x.isInternal then 1 else 0) + b.work s' ≤
      b.work s + b.user * (if x.isUser then 1 else 0) +
        b.start * (if x.isKill then 1 else 0) := by
  by_cases hInternal : x.isInternal = true
  · have hLess := b.work_lt hx hInternal
    rw [if_pos hInternal]
    omega
  · rw [if_neg hInternal]
    cases hx with
    | @user e out hOut =>
        have hAdd := b.handle e s.ui out hOut
        rw [b.work_issue]
        simp only [Action.isUser, Action.isKill, if_true, Bool.false_eq_true, if_false]
        omega
    | kill =>
        have hAdd := b.launch s.ui
        rw [b.work_boot]
        simp only [Action.isUser, Action.isKill, if_true, Bool.false_eq_true, if_false]
        omega
    | effect _ => exact absurd rfl hInternal
    | serve _ => exact absurd rfl hInternal
    | resolve _ => exact absurd rfl hInternal
    | reject _ => exact absurd rfl hInternal

/-- **All activity is accounted for** by the events and the starts of the run. -/
theorem exec_bound {s s' : State D A R U} {xs : List (Action E)} (hRun : P.exec s xs = some s') :
    xs.countP Action.isInternal + b.work s' ≤
      b.work s + b.user * xs.countP Action.isUser + b.start * xs.countP Action.isKill := by
  induction xs generalizing s with
  | nil =>
      rw [Program.exec_nil, Option.some.injEq] at hRun
      simp [hRun]
  | cons x xs ih =>
      rw [Program.exec_cons] at hRun
      obtain ⟨m, hStep, hRest⟩ := Option.bind_eq_some_iff.mp hRun
      have hOne := b.step_bound (P.step_iff.mp hStep)
      have hLater := ih hRest
      rw [List.countP_cons, List.countP_cons, List.countP_cons, Nat.mul_add, Nat.mul_add]
      omega

end Budget

end TaskManager.Verified.EventLoop
