import Mathlib.Data.List.Basic
import TaskManager.Verified.EventLoop

/-!
# Maps between programs

A map from one program to another takes disks, requests, continuations,
interfaces and events across, in such a way that the handlers of both do the
same.  It is used in two ways: from a program to one that keeps its data in
another form, where it is a refinement, and from a program to itself, where what
it forgets has no influence on what it keeps.

## Main results

* `exec_map` — the run of the images is the image of the run.
* `exec_agree` — runs with the same image end in states with the same image.
-/

namespace TaskManager.Verified.EventLoop

variable {D A R U E D' A' R' U' E' : Type}

theorem eraseIdx_map {α β : Type} (f : α → β) (l : List α) (i : Nat) :
    (l.map f).eraseIdx i = (l.eraseIdx i).map f := by
  rw [List.eraseIdx_eq_take_drop_succ, List.eraseIdx_eq_take_drop_succ, List.map_append,
    List.map_take, List.map_drop]

/-- What is issued, request by request. -/
def Issued.map (f : A → A') (out : Issued A) : Issued A' where
  requests := out.requests.map f
  effects := out.effects.map f

theorem Issued.map_id (out : Issued A) : out.map id = out := by
  simp [Issued.map]

/-- An action on other events; positions stay. -/
def Action.map (f : E → E') : Action E → Action E'
  | .user e => .user (f e)
  | .effect i => .effect i
  | .serve i => .serve i
  | .resolve i => .resolve i
  | .reject i => .reject i
  | .kill => .kill

theorem Action.map_id (x : Action E) : x.map id = x := by
  cases x <;> rfl

/-- `keeps` is what the interfaces of the first program have in common. -/
structure Morphism (P : Program D A R U E) (P' : Program D' A' R' U' E') where
  disk : D → D'
  await : A → A'
  ready : R → R'
  ui : U → U'
  event : E → E'
  keeps : U → Prop := fun _ => True
  serve : ∀ a d, P'.serve (await a) (disk d) = (disk (P.serve a d).1, ready (P.serve a d).2)
  resume : ∀ r u, keeps u →
    P'.resume (ready r) (ui u) = (ui (P.resume r u).1, (P.resume r u).2.map await)
  handle : ∀ e u, keeps u →
    P'.handle (event e) (ui u) = (P.handle e u).map fun out => (ui out.1, out.2.map await)
  launch : ∀ u, keeps u → P'.launch (ui u) = (ui (P.launch u).1, (P.launch u).2.map await)
  keeps_resume : ∀ r u, keeps u → keeps (P.resume r u).1 := by exact fun _ _ _ => trivial
  keeps_handle : ∀ e u out, keeps u → P.handle e u = some out → keeps out.1 := by
    exact fun _ _ _ _ _ => trivial
  keeps_launch : ∀ u, keeps u → keeps (P.launch u).1 := by exact fun _ _ => trivial

namespace Morphism

variable {P : Program D A R U E} {P' : Program D' A' R' U' E'} (f : Morphism P P')

/-- The image of a state. -/
def state (s : State D A R U) : State D' A' R' U' where
  disk := f.disk s.disk
  ui := f.ui s.ui
  effects := s.effects.map f.await
  pending := s.pending.map f.await
  served := s.served.map f.ready

/-- The image of an action. -/
def action (x : Action E) : Action E' := x.map f.event

/-- What is issued, in the image. -/
theorem state_issue (s : State D A R U) (out : U × Issued A) :
    f.state (s.issue out) = (f.state s).issue (f.ui out.1, out.2.map f.await) := by
  simp [state, State.issue, Issued.map]

/-- A fresh process, in the image. -/
theorem state_boot (d : D) {u : U} (hKeeps : f.keeps u) :
    f.state (P.boot d u) = P'.boot (f.disk d) (f.ui u) := by
  simp [state, Program.boot, f.launch u hKeeps, Issued.map]

/-- The image of a step is a step of the image, and what cannot happen cannot happen to
the image either. -/
theorem step_map (s : State D A R U) (hKeeps : f.keeps s.ui) (x : Action E) :
    P'.step (f.state s) (f.action x) = (P.step s x).map f.state := by
  cases x with
  | user e =>
      show (P'.handle (f.event e) (f.ui s.ui)).map (f.state s).issue = _
      rw [f.handle e s.ui hKeeps, Program.step, Option.map_map, Option.map_map]
      congr 1
      funext out
      exact (f.state_issue s out).symm
  | effect i =>
      simp only [action, Action.map, Program.step, state, List.getElem?_map, Option.map_map]
      congr 1
      funext a
      simp [state, eraseIdx_map]
  | serve i =>
      simp only [action, Action.map, Program.step, state, List.getElem?_map, Option.map_map]
      congr 1
      funext a
      simp [state, eraseIdx_map, f.serve]
  | resolve i =>
      simp only [action, Action.map, Program.step, state, List.getElem?_map, Option.map_map]
      congr 1
      funext r
      simp [state, State.issue, eraseIdx_map, f.resume r s.ui hKeeps, Issued.map]
  | reject i =>
      simp only [action, Action.map, Program.step, state, List.getElem?_map, Option.map_map]
      congr 1
      funext a
      simp [state, eraseIdx_map]
  | kill => exact congrArg some (f.state_boot s.disk hKeeps).symm

/-- Steps keep what the interfaces have in common. -/
theorem keeps_step {s s' : State D A R U} {x : Action E} (hKeeps : f.keeps s.ui)
    (hx : P.Step s x s') : f.keeps s'.ui := by
  cases hx with
  | user hOut => exact f.keeps_handle _ s.ui _ hKeeps hOut
  | effect _ => exact hKeeps
  | serve _ => exact hKeeps
  | resolve _ => exact f.keeps_resume _ s.ui hKeeps
  | reject _ => exact hKeeps
  | kill => exact f.keeps_launch s.ui hKeeps

/-- **Runs are carried over.** -/
theorem exec_map (s : State D A R U) (hKeeps : f.keeps s.ui) (xs : List (Action E)) :
    P'.exec (f.state s) (xs.map f.action) = (P.exec s xs).map f.state := by
  induction xs generalizing s with
  | nil => rfl
  | cons x xs ih =>
      rw [List.map_cons, P'.exec_cons, P.exec_cons, f.step_map s hKeeps]
      cases hStep : P.step s x with
      | none => rfl
      | some m => exact ih m (f.keeps_step hKeeps (P.step_iff.mp hStep))

/-- What the map forgets about the actions has no influence on what it keeps of the
state. -/
theorem exec_agree (s : State D A R U) (hKeeps : f.keeps s.ui) {xs ys : List (Action E)}
    (h : xs.map f.action = ys.map f.action) :
    (P.exec s xs).map f.state = (P.exec s ys).map f.state := by
  rw [← f.exec_map s hKeeps, h, f.exec_map s hKeeps]

end Morphism

end TaskManager.Verified.EventLoop
