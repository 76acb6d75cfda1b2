import Mathlib.Data.List.Induction

/-!
# Programs that talk to an asynchronous store

A single-threaded user interface talks to a key-value store through requests
that complete later.  A handler runs to its next request without being
interrupted; between two of its requests anything else may happen.  This
module is the transition system of such a program, independently of what the
program is:

* `Program.handle` runs a user event up to its first request;
* `Program.serve` is the store performing one request, and yields the
  continuation of the handler that waits for it, with the value it read;
* `Program.resume` runs that continuation up to the handler's next request;
* `Program.launch` is what a start of the process does.

Requests wait in `pending` until the store performs them, then in `served`
until the program is told.  `effects` holds the requests of mount and focus
callbacks that have been scheduled and have not run yet.  Nothing is assumed
about the order in which the store works: `Action.serve` and `Action.resolve`
name the position they act on, `Action.reject` refuses a request, and
`Action.kill` ends the process at any point.  `Verified/InOrder.lean` adds the
store that works in the order of issue.

## Main results

* `step_iff` — the executable step is the relation `Step`, whose constructors
  say everything one step can do.
* `exec_induction` — the induction rule over runs, with the run in hand.
* `Local.holds` — an invariant that speaks about the disk, each request and
  each continuation separately holds in every run, whatever the order of
  service and wherever requests are refused or the process is killed.
-/

namespace TaskManager.Verified.EventLoop

/-! ## Programs, states and steps -/

/-- What one uninterrupted run of a handler asks for: the requests it issues
and the callbacks its navigation schedules. -/
structure Issued (A : Type) where
  requests : List A := []
  effects : List A := []

/-- A user interface with state `U` and events `E` over a store with contents
`D`.  `A` names the points at which a handler waits for the store and `R` the
continuations that run from there. -/
structure Program (D A R U E : Type) where
  serve : A → D → D × R
  resume : R → U → U × Issued A
  handle : E → U → Option (U × Issued A)
  launch : U → U × Issued A

/-- A program under way: the callbacks that are due, the requests that wait for the store,
and the continuations that wait for their turn. -/
structure State (D A R U : Type) where
  disk : D
  ui : U
  effects : List A
  pending : List A
  served : List R

/-- What can happen next; requests and continuations are picked by their positions. -/
inductive Action (E : Type) where
  | user (e : E)
  | effect (i : Nat)
  | serve (i : Nat)
  | resolve (i : Nat)
  | reject (i : Nat)
  | kill
  deriving DecidableEq, Repr

variable {D A R U E : Type}

/-- The state after a handler has run: its screen changes are made, its
callbacks are scheduled and its requests queue behind the ones before. -/
def State.issue (s : State D A R U) (out : U × Issued A) : State D A R U :=
  { s with
    ui := out.1
    effects := s.effects ++ out.2.effects
    pending := s.pending ++ out.2.requests }

/-- No callback is due and no request is outstanding. -/
structure State.Quiescent (s : State D A R U) : Prop where
  effects : s.effects = []
  pending : s.pending = []
  served : s.served = []

namespace Program

variable (P : Program D A R U E)

/-- A fresh process over the given disk.  The previous interface is passed on
for its supply of identities only. -/
def boot (disk : D) (ui : U) : State D A R U :=
  { disk := disk
    ui := (P.launch ui).1
    effects := (P.launch ui).2.effects
    pending := (P.launch ui).2.requests
    served := [] }

/-- One action, if it can be taken. -/
def step (s : State D A R U) : Action E → Option (State D A R U)
  | .user e => (P.handle e s.ui).map s.issue
  | .effect i => s.effects[i]?.map fun a =>
      { s with effects := s.effects.eraseIdx i, pending := s.pending ++ [a] }
  | .serve i => s.pending[i]?.map fun a =>
      { s with
        disk := (P.serve a s.disk).1
        pending := s.pending.eraseIdx i
        served := s.served ++ [(P.serve a s.disk).2] }
  | .resolve i => s.served[i]?.map fun r =>
      { s with served := s.served.eraseIdx i }.issue (P.resume r s.ui)
  -- No handler of the program catches a rejection: what waits for it ends.
  | .reject i => s.pending[i]?.map fun _ =>
      { s with pending := s.pending.eraseIdx i }
  | .kill => some (P.boot s.disk s.ui)

/-- One step, as a relation: one constructor for each thing that can happen. -/
inductive Step : State D A R U → Action E → State D A R U → Prop
  | user {s e out} (h : P.handle e s.ui = some out) :
      Step s (.user e) (s.issue out)
  | effect {s i a} (h : s.effects[i]? = some a) :
      Step s (.effect i)
        { s with effects := s.effects.eraseIdx i, pending := s.pending ++ [a] }
  | serve {s i a} (h : s.pending[i]? = some a) :
      Step s (.serve i)
        { s with
          disk := (P.serve a s.disk).1
          pending := s.pending.eraseIdx i
          served := s.served ++ [(P.serve a s.disk).2] }
  | resolve {s i r} (h : s.served[i]? = some r) :
      Step s (.resolve i)
        ({ s with served := s.served.eraseIdx i }.issue (P.resume r s.ui))
  | reject {s i a} (h : s.pending[i]? = some a) :
      Step s (.reject i) { s with pending := s.pending.eraseIdx i }
  | kill {s} : Step s .kill (P.boot s.disk s.ui)

/-- What a user event does, by its handler. -/
theorem Step.user_eq {P : Program D A R U E} {s s' : State D A R U} {e : E} {out : U × Issued A}
    (h : P.Step s (.user e) s') (hOut : P.handle e s.ui = some out) : s' = s.issue out := by
  cases h with
  | user hSame =>
      rw [hSame, Option.some.injEq] at hOut
      rw [hOut]

theorem step_iff {s s' : State D A R U} {x : Action E} :
    P.step s x = some s' ↔ P.Step s x s' := by
  constructor
  · intro h
    cases x with
    | user e =>
        simp only [step, Option.map_eq_some_iff] at h
        obtain ⟨out, hOut, rfl⟩ := h
        exact .user hOut
    | effect i =>
        simp only [step, Option.map_eq_some_iff] at h
        obtain ⟨a, hA, rfl⟩ := h
        exact .effect hA
    | serve i =>
        simp only [step, Option.map_eq_some_iff] at h
        obtain ⟨a, hA, rfl⟩ := h
        exact .serve hA
    | resolve i =>
        simp only [step, Option.map_eq_some_iff] at h
        obtain ⟨r, hR, rfl⟩ := h
        exact .resolve hR
    | reject i =>
        simp only [step, Option.map_eq_some_iff] at h
        obtain ⟨a, hA, rfl⟩ := h
        exact .reject hA
    | kill =>
        simp only [step, Option.some.injEq] at h
        subst h
        exact .kill
  · intro h
    cases h <;> simp [step, *]

variable {P} in
theorem Step.unique {s s₁ s₂ : State D A R U} {x : Action E} (h₁ : P.Step s x s₁)
    (h₂ : P.Step s x s₂) : s₁ = s₂ := by
  have hSome := P.step_iff.mpr h₁
  rw [P.step_iff.mpr h₂, Option.some.injEq] at hSome
  exact hSome.symm

/-! ## What a step leaves in the queues -/

theorem mem_eraseIdx_of_ne {α : Type} {l : List α} {a b : α} {i : Nat} (ha : a ∈ l)
    (hb : l[i]? = some b) (hne : a ≠ b) : a ∈ l.eraseIdx i := by
  obtain ⟨j, hj⟩ := List.getElem?_of_mem ha
  rw [List.mem_eraseIdx_iff_getElem?]
  refine ⟨j, ?_, hj⟩
  rintro rfl
  rw [hj, Option.some.injEq] at hb
  exact hne hb

variable {P} in
/-- A callback is due until it runs, or the process ends. -/
theorem Step.mem_effects {s s' : State D A R U} {x : Action E} {a : A}
    (hx : P.Step s x s') (ha : a ∈ s.effects)
    (hEffect : ∀ i, x = .effect i → s.effects[i]? ≠ some a) (hKill : x ≠ .kill) :
    a ∈ s'.effects := by
  cases hx with
  | user _ => exact List.mem_append_left _ ha
  | effect hAt =>
      refine mem_eraseIdx_of_ne ha hAt ?_
      rintro rfl
      exact hEffect _ rfl hAt
  | serve _ => exact ha
  | resolve _ => exact List.mem_append_left _ ha
  | reject _ => exact ha
  | kill => exact absurd rfl hKill

variable {P} in
/-- A request waits until it is performed or refused, or the process ends. -/
theorem Step.mem_pending {s s' : State D A R U} {x : Action E} {a : A}
    (hx : P.Step s x s') (ha : a ∈ s.pending)
    (hServe : ∀ i, x = .serve i → s.pending[i]? ≠ some a)
    (hReject : ∀ i, x = .reject i → s.pending[i]? ≠ some a) (hKill : x ≠ .kill) :
    a ∈ s'.pending := by
  cases hx with
  | user _ => exact List.mem_append_left _ ha
  | effect _ => exact List.mem_append_left _ ha
  | serve hAt =>
      refine mem_eraseIdx_of_ne ha hAt ?_
      rintro rfl
      exact hServe _ rfl hAt
  | resolve _ => exact List.mem_append_left _ ha
  | reject hAt =>
      refine mem_eraseIdx_of_ne ha hAt ?_
      rintro rfl
      exact hReject _ rfl hAt
  | kill => exact absurd rfl hKill

variable {P} in
/-- A continuation waits until it runs, or the process ends. -/
theorem Step.mem_served {s s' : State D A R U} {x : Action E} {r : R}
    (hx : P.Step s x s') (hr : r ∈ s.served)
    (hResolve : ∀ i, x = .resolve i → s.served[i]? ≠ some r) (hKill : x ≠ .kill) :
    r ∈ s'.served := by
  cases hx with
  | user _ => exact hr
  | effect _ => exact hr
  | serve _ => exact List.mem_append_left _ hr
  | resolve hAt =>
      refine mem_eraseIdx_of_ne hr hAt ?_
      rintro rfl
      exact hResolve _ rfl hAt
  | reject _ => exact hr
  | kill => exact absurd rfl hKill

/-! ## Runs -/

/-- The state a list of actions leads to; `none` when one of them cannot
happen. -/
def exec (s : State D A R U) : List (Action E) → Option (State D A R U)
  | [] => some s
  | x :: xs => (P.step s x).bind fun s' => exec s' xs

@[simp] theorem exec_nil (s : State D A R U) : P.exec s [] = some s := rfl

theorem exec_cons (s : State D A R U) (x : Action E) (xs : List (Action E)) :
    P.exec s (x :: xs) = (P.step s x).bind fun s' => P.exec s' xs := rfl

theorem exec_append (s : State D A R U) (xs ys : List (Action E)) :
    P.exec s (xs ++ ys) = (P.exec s xs).bind fun s' => P.exec s' ys := by
  induction xs generalizing s with
  | nil => rfl
  | cons x xs ih =>
      rw [List.cons_append, exec_cons, exec_cons, Option.bind_assoc]
      simp only [ih]

theorem exec_append_some {s s' : State D A R U} {xs ys : List (Action E)}
    (h : P.exec s (xs ++ ys) = some s') :
    ∃ m, P.exec s xs = some m ∧ P.exec m ys = some s' := by
  rw [exec_append] at h
  exact Option.bind_eq_some_iff.mp h

theorem exec_snoc {s m s' : State D A R U} {xs : List (Action E)}
    {x : Action E} (hm : P.exec s xs = some m) (hx : P.Step m x s') :
    P.exec s (xs ++ [x]) = some s' := by
  rw [exec_append, hm, Option.bind_some, exec_cons, (P.step_iff).mpr hx]
  rfl

theorem exec_snoc_some {s s' : State D A R U} {xs : List (Action E)}
    {x : Action E} (h : P.exec s (xs ++ [x]) = some s') :
    ∃ m, P.exec s xs = some m ∧ P.Step m x s' := by
  obtain ⟨m, hm, hx⟩ := P.exec_append_some h
  refine ⟨m, hm, P.step_iff.mp ?_⟩
  rw [exec_cons] at hx
  obtain ⟨m', hStep, hNil⟩ := Option.bind_eq_some_iff.mp hx
  rw [exec_nil, Option.some.injEq] at hNil
  rw [hStep, hNil]

theorem step_of_exec_snoc {s m s' : State D A R U} {xs : List (Action E)} {x : Action E}
    (hm : P.exec s xs = some m) (h : P.exec s (xs ++ [x]) = some s') : P.Step m x s' := by
  obtain ⟨m', hm', hx⟩ := P.exec_snoc_some h
  rw [hm, Option.some.injEq] at hm'
  exact hm' ▸ hx

/-- The youngest request can be performed and reported at once, before all
others: its handler continues, and the rest of the queues is as it was. -/
theorem exec_answer_last {s : State D A R U} {as : List A} {a : A}
    (h : s.pending = as ++ [a]) :
    P.exec s [.serve as.length, .resolve s.served.length] =
      some ({ s with disk := (P.serve a s.disk).1, pending := as }.issue
        (P.resume (P.serve a s.disk).2 s.ui)) := by
  simp [exec, step, h, List.eraseIdx_append_of_length_le]

/-! ## Histories -/

/-- What happened in a run: each action with the state it was taken in, the
earliest first. -/
abbrev History (D A R U E : Type) := List (State D A R U × Action E)

/-- The history of a run, as far as its actions can be taken. -/
def trace (s : State D A R U) : List (Action E) → History D A R U E
  | [] => []
  | x :: xs => (s, x) :: ((P.step s x).map fun s' => trace s' xs).getD []

@[simp] theorem trace_nil (s : State D A R U) : P.trace s [] = [] := rfl

theorem trace_cons {s s' : State D A R U} {x : Action E} (xs : List (Action E))
    (hx : P.Step s x s') : P.trace s (x :: xs) = (s, x) :: P.trace s' xs := by
  rw [trace, (P.step_iff).mpr hx]
  rfl

theorem trace_append {s m : State D A R U} {xs : List (Action E)}
    (ys : List (Action E)) (h : P.exec s xs = some m) :
    P.trace s (xs ++ ys) = P.trace s xs ++ P.trace m ys := by
  induction xs generalizing s with
  | nil =>
      rw [exec_nil, Option.some.injEq] at h
      rw [h]
      rfl
  | cons x xs ih =>
      rw [exec_cons] at h
      obtain ⟨s', hStep, hRest⟩ := Option.bind_eq_some_iff.mp h
      have hx := P.step_iff.mp hStep
      rw [List.cons_append, P.trace_cons _ hx, P.trace_cons _ hx, ih hRest]
      rfl

theorem trace_snoc {s m : State D A R U} {xs : List (Action E)} (x : Action E)
    (h : P.exec s xs = some m) : P.trace s (xs ++ [x]) = P.trace s xs ++ [(m, x)] := by
  rw [P.trace_append [x] h, trace]
  cases P.step m x <;> rfl

theorem mem_trace_of_exec {s m : State D A R U} {xs : List (Action E)}
    (x : Action E) (ys : List (Action E)) (h : P.exec s xs = some m) :
    (m, x) ∈ P.trace s (xs ++ x :: ys) := by
  rw [P.trace_append _ h, trace]
  simp

/-- The actions of a history are the actions of the run. -/
theorem mem_of_mem_trace {s : State D A R U} {xs : List (Action E)}
    {p : State D A R U × Action E} (h : p ∈ P.trace s xs) : p.2 ∈ xs := by
  induction xs generalizing s with
  | nil => simp at h
  | cons x xs ih =>
      rw [trace, List.mem_cons] at h
      rcases h with rfl | hRest
      · exact List.mem_cons_self
      · cases hStep : P.step s x with
        | none => simp [hStep] at hRest
        | some s' =>
            simp only [hStep, Option.map_some, Option.getD_some] at hRest
            exact List.mem_cons_of_mem x (ih hRest)

/-- Every point of a history splits the run there. -/
theorem exec_of_trace_append {s₀ s' : State D A R U} {xs : List (Action E)}
    (hRun : P.exec s₀ xs = some s') {h₁ h₂ : History D A R U E}
    {p : State D A R U × Action E} (h : P.trace s₀ xs = h₁ ++ p :: h₂) :
    ∃ ys m zs, xs = ys ++ p.2 :: zs ∧ P.exec s₀ ys = some p.1 ∧
      P.Step p.1 p.2 m ∧ P.exec m zs = some s' ∧ P.trace s₀ ys = h₁ ∧
      P.trace m zs = h₂ := by
  induction xs generalizing s₀ h₁ with
  | nil => simp at h
  | cons x xs ih =>
      rw [exec_cons] at hRun
      obtain ⟨m, hStep, hRest⟩ := Option.bind_eq_some_iff.mp hRun
      have hx := P.step_iff.mp hStep
      rw [P.trace_cons _ hx] at h
      cases h₁ with
      | nil =>
          rw [List.nil_append, List.cons.injEq] at h
          obtain ⟨rfl, hTrace⟩ := h
          exact ⟨[], m, xs, rfl, rfl, hx, hRest, rfl, hTrace⟩
      | cons q h₁ =>
          rw [List.cons_append, List.cons.injEq] at h
          obtain ⟨rfl, hTrace⟩ := h
          obtain ⟨ys, m', zs, rfl, hPre, hAt, hPost, hT₁, hT₂⟩ := ih hRest hTrace
          refine ⟨x :: ys, m', zs, rfl, ?_, hAt, hPost, ?_, hT₂⟩
          · rw [exec_cons, hStep]
            exact hPre
          · rw [P.trace_cons _ hx, hT₁]

/-- A run from `s₀` with history `h` ends in `s`. -/
def Reached (s₀ : State D A R U) (h : History D A R U E) (s : State D A R U) : Prop :=
  ∃ xs, P.exec s₀ xs = some s ∧ P.trace s₀ xs = h

/-- **Induction over runs.**  The invariant may speak about the history of the
run, `ok` restricts the steps the run is made of, and what is known of every
run is available at each step. -/
theorem exec_induction (ok : State D A R U → Action E → Prop)
    (I : History D A R U E → State D A R U → Prop) {s₀ : State D A R U} (hInit : I [] s₀)
    (hStep : ∀ h s x s', P.Reached s₀ h s → ok s x → I h s → P.Step s x s' →
      I (h ++ [(s, x)]) s')
    {xs : List (Action E)} {s : State D A R U}
    (hOk : ∀ p ∈ P.trace s₀ xs, ok p.1 p.2) (hRun : P.exec s₀ xs = some s) :
    I (P.trace s₀ xs) s := by
  induction xs using List.reverseRecOn generalizing s with
  | nil =>
      rw [exec_nil, Option.some.injEq] at hRun
      exact hRun ▸ hInit
  | append_singleton xs x ih =>
      obtain ⟨m, hm, hx⟩ := P.exec_snoc_some hRun
      rw [P.trace_snoc x hm] at hOk ⊢
      refine hStep _ m x s ⟨xs, hm, rfl⟩ (hOk (m, x) (by simp)) (ih ?_ hm) hx
      exact fun p hp => hOk p (List.mem_append_left _ hp)

/-- Induction over runs, for an invariant of the state alone. -/
theorem exec_invariant (I : State D A R U → Prop) {s₀ : State D A R U}
    (hInit : I s₀) (hStep : ∀ s x s', I s → P.Step s x s' → I s')
    {xs : List (Action E)} {s : State D A R U} (hRun : P.exec s₀ xs = some s) :
    I s :=
  P.exec_induction (fun _ _ => True) (fun _ s => I s) hInit
    (fun _ s x s' _ _ => hStep s x s') (fun _ _ => trivial) hRun

end Program

/-! ## Invariants that are local to a request -/

/-- An invariant stated for the disk, for each request that waits or is
scheduled, and for each continuation that waits.  Every part may speak about
the history, and what it says must survive the next step. -/
structure Local (P : Program D A R U E) (s₀ : State D A R U) where
  disk : Program.History D A R U E → D → Prop
  await : Program.History D A R U E → A → Prop
  ready : Program.History D A R U E → R → Prop
  disk_mono : ∀ h p d, disk h d → disk (h ++ [p]) d
  await_mono : ∀ h p a, await h a → await (h ++ [p]) a
  ready_mono : ∀ h p r, ready h r → ready (h ++ [p]) r
  init_disk : disk [] s₀.disk
  init_await : ∀ a ∈ s₀.effects ++ s₀.pending, await [] a
  init_ready : ∀ r ∈ s₀.served, ready [] r
  serve : ∀ h s i a, P.Reached s₀ h s → s.pending[i]? = some a → disk h s.disk →
    await h a → disk (h ++ [(s, .serve i)]) (P.serve a s.disk).1 ∧
      ready (h ++ [(s, .serve i)]) (P.serve a s.disk).2
  resume : ∀ h s i r, P.Reached s₀ h s → s.served[i]? = some r → ready h r →
    ∀ a ∈ (P.resume r s.ui).2.effects ++ (P.resume r s.ui).2.requests,
      await (h ++ [(s, .resolve i)]) a
  handle : ∀ h s e out, P.Reached s₀ h s → P.handle e s.ui = some out →
    ∀ a ∈ out.2.effects ++ out.2.requests, await (h ++ [(s, .user e)]) a
  launch : ∀ h s, ∀ a ∈ (P.launch s.ui).2.effects ++ (P.launch s.ui).2.requests,
    await (h ++ [(s, .kill)]) a

namespace Local

variable {P : Program D A R U E} {s₀ : State D A R U} (L : Local P s₀)

/-- The three parts together, at one state of a run. -/
structure Holds (h : Program.History D A R U E) (s : State D A R U) : Prop where
  disk : L.disk h s.disk
  await : ∀ a ∈ s.effects ++ s.pending, L.await h a
  ready : ∀ r ∈ s.served, L.ready h r

variable {L}

theorem Holds.of_pending {h s a} (hHolds : L.Holds h s) (ha : a ∈ s.pending) :
    L.await h a := hHolds.await a (List.mem_append_right _ ha)

/-- A state reached by one more step keeps what was said of everything the
step did not touch. -/
theorem Holds.later {h p} {s s' : State D A R U} (hHolds : L.Holds h s)
    (hDisk : L.disk (h ++ [p]) s'.disk)
    (hAwait : ∀ a ∈ s'.effects ++ s'.pending,
      a ∈ s.effects ++ s.pending ∨ L.await (h ++ [p]) a)
    (hReady : ∀ r ∈ s'.served, r ∈ s.served ∨ L.ready (h ++ [p]) r) :
    L.Holds (h ++ [p]) s' where
  disk := hDisk
  await a ha :=
    (hAwait a ha).elim (fun hOld => L.await_mono _ _ _ (hHolds.await a hOld)) id
  ready r hr :=
    (hReady r hr).elim (fun hOld => L.ready_mono _ _ _ (hHolds.ready r hOld)) id

theorem Holds.step {h : Program.History D A R U E} {s s' : State D A R U}
    {x : Action E} (hReached : P.Reached s₀ h s) (hHolds : L.Holds h s)
    (hx : P.Step s x s') : L.Holds (h ++ [(s, x)]) s' := by
  have hDisk := L.disk_mono h (s, x) s.disk hHolds.disk
  cases hx with
  | user hOut =>
      refine hHolds.later hDisk ?_ fun r hr => Or.inl hr
      intro a ha
      have hNew := L.handle h s _ _ hReached hOut a
      simp only [State.issue, List.mem_append] at ha hNew ⊢
      tauto
  | effect hA =>
      refine hHolds.later hDisk ?_ fun r hr => Or.inl hr
      intro a ha
      have hMem := List.mem_of_getElem? hA
      simp only [List.mem_append, List.mem_singleton] at ha ⊢
      rcases ha with hOld | hOld | rfl
      · exact Or.inl (Or.inl (List.mem_of_mem_eraseIdx hOld))
      · exact Or.inl (Or.inr hOld)
      · exact Or.inl (Or.inl hMem)
  | serve hA =>
      obtain ⟨hD, hR⟩ := L.serve h s _ _ hReached hA hHolds.disk
        (hHolds.of_pending (List.mem_of_getElem? hA))
      refine hHolds.later hD ?_ ?_
      · intro a ha
        simp only [List.mem_append] at ha ⊢
        exact Or.inl (ha.imp_right List.mem_of_mem_eraseIdx)
      · intro r hr
        simp only [List.mem_append, List.mem_singleton] at hr
        rcases hr with hOld | rfl
        · exact Or.inl hOld
        · exact Or.inr hR
  | resolve hR =>
      refine hHolds.later hDisk ?_ fun r hr => Or.inl (List.mem_of_mem_eraseIdx hr)
      intro a ha
      have hNew := L.resume h s _ _ hReached hR (hHolds.ready _ (List.mem_of_getElem? hR)) a
      simp only [State.issue, List.mem_append] at ha hNew ⊢
      tauto
  | reject hA =>
      refine hHolds.later hDisk ?_ fun r hr => Or.inl hr
      intro a ha
      simp only [List.mem_append] at ha ⊢
      exact Or.inl (ha.imp_right List.mem_of_mem_eraseIdx)
  | kill =>
      refine hHolds.later hDisk (fun a ha => Or.inr (L.launch h s a ha)) ?_
      intro r hr
      simp [Program.boot] at hr

variable (L)

/-- **Local invariants hold in every run.** -/
theorem holds {xs : List (Action E)} {s : State D A R U}
    (hRun : P.exec s₀ xs = some s) : L.Holds (P.trace s₀ xs) s :=
  P.exec_induction (fun _ _ => True) L.Holds
    ⟨L.init_disk, L.init_await, L.init_ready⟩
    (fun _ _ _ _ hReached _ hHolds hx => hHolds.step hReached hx) (fun _ _ => trivial) hRun

end Local

end TaskManager.Verified.EventLoop
