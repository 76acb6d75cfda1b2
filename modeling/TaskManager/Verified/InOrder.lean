import TaskManager.Verified.Queue

/-!
# A store that works in the order of issue

Here the store performs its requests in the order of issue, reports them in that
order and refuses none: `Action.InOrder` admits exactly those actions.

Under that schedule what the queues will do is known in advance, up to the
requests that are still to be issued: the continuations of `foreseen` run one
after the other.  `settle` applies them to an observation of the interface.
Three facts make it an induction device, and none of them looks at the program:

* `settle_serve` — performing a request changes nothing;
* `settle_resolve` — running a continuation changes nothing when the observation
  follows it;
* `settle_issue` — a request issued now comes last.
-/

namespace TaskManager.Verified.EventLoop

variable {D A R U E X : Type}

/-- The actions of a store that serves and reports in the order of issue and
refuses nothing.  Callbacks still run whenever they like. -/
def Action.InOrder : Action E → Prop
  | .serve i => i = 0
  | .resolve i => i = 0
  | .reject _ => False
  | _ => True

instance : DecidablePred (Action.InOrder (E := E))
  | .user _ => .isTrue trivial
  | .effect _ => .isTrue trivial
  | .serve i => inferInstanceAs (Decidable (i = 0))
  | .resolve i => inferInstanceAs (Decidable (i = 0))
  | .reject _ => .isFalse id
  | .kill => .isTrue trivial

namespace Program

variable (P : Program D A R U E)

/-- An observation once the given requests have been performed and reported in
order. -/
def deliver (absorb : R → X → X) (x : X) (d : D) (as : List A) : X :=
  (P.replies d as).foldl (fun y r => absorb r y) x

/-- What every one of the requests keeps, all of them in order keep. -/
theorem deliver_invariant (absorb : R → X → X) (I : X → D → Prop) {x : X} {d : D}
    {as : List A} (hInit : I x d)
    (hKeep : ∀ a ∈ as, ∀ x d, I x d → I (absorb (P.serve a d).2 x) (P.serve a d).1) :
    I (P.deliver absorb x d as) (P.drain d as) := by
  induction as generalizing x d with
  | nil => exact hInit
  | cons a as ih =>
      have hHead := hKeep a List.mem_cons_self x d hInit
      exact ih hHead fun b hb => hKeep b (List.mem_cons_of_mem a hb)

/-- The observation `x` of state `s`, carried through everything that waits. -/
def settle (absorb : R → X → X) (x : X) (s : State D A R U) : X :=
  (P.foreseen s).foldl (fun y r => absorb r y) x

variable {P}

/-- Nothing waits: the settled observation is the present one. -/
theorem settle_idle {absorb : R → X → X} {x : X} {s : State D A R U}
    (hPending : s.pending = []) (hServed : s.served = []) :
    P.settle absorb x s = x := by
  simp [settle, foreseen, hPending, hServed]

theorem step_serveHead {s : State D A R U} {a : A} {as : List A} (h : s.pending = a :: as) :
    P.Step s (.serve 0) (P.serveHead s a as) := by
  have hAt : s.pending[0]? = some a := by simp [h]
  have hErase : s.pending.eraseIdx 0 = as := by simp [h]
  have hStep := Step.serve (P := P) hAt
  rw [hErase] at hStep
  exact hStep

theorem step_resolveHead {s : State D A R U} {r : R} {rs : List R} (h : s.served = r :: rs) :
    P.Step s (.resolve 0) ({ s with served := rs }.issue (P.resume r s.ui)) := by
  have hAt : s.served[0]? = some r := by simp [h]
  have hErase : s.served.eraseIdx 0 = rs := by simp [h]
  have hStep := Step.resolve (P := P) hAt
  rw [hErase] at hStep
  exact hStep

/-- Performing the first request is settled already. -/
theorem settle_serve {absorb : R → X → X} {x : X} {s : State D A R U} {a : A}
    {as : List A} (h : s.pending = a :: as) :
    P.settle absorb x (P.serveHead s a as) = P.settle absorb x s := by
  simp only [settle, foreseen_serve h]

theorem settle_resolve {absorb : R → X → X} {x : X} {s : State D A R U} {r : R}
    {rs : List R} (h : s.served = r :: rs) :
    P.settle absorb (absorb r x) { s with served := rs } =
      P.settle absorb x s := by
  simp [settle, foreseen, h]

/-- What is issued settles behind what there is. -/
theorem settle_issue {absorb : R → X → X} {x : X} {s : State D A R U}
    {out : U × Issued A} :
    P.settle absorb x (s.issue out) =
      P.deliver absorb (P.settle absorb x s) (P.settleDisk s) out.2.requests := by
  simp only [settle, foreseen_issue, List.foldl_append, deliver]

/-- A continuation that runs, when the observation follows it. -/
theorem settle_continue (absorb : R → X → X) (obs : U → X) {s : State D A R U} {r : R}
    {rs : List R} (h : s.served = r :: rs)
    (hFollow : obs (P.resume r s.ui).1 = absorb r (obs s.ui)) :
    P.settle absorb (obs (P.resume r s.ui).1)
        ({ s with served := rs }.issue (P.resume r s.ui)) =
      P.deliver absorb (P.settle absorb (obs s.ui) s) (P.settleDisk s)
        (P.resume r s.ui).2.requests := by
  rw [hFollow, settle_issue, settle_resolve h]
  rfl

theorem settle_effect {absorb : R → X → X} {x : X} {s : State D A R U} {es : List A}
    {a : A} :
    P.settle absorb x { s with effects := es, pending := s.pending ++ [a] } =
      absorb (P.serve a (P.settleDisk s)).2 (P.settle absorb x s) := by
  simp only [settle, foreseen_effect, List.foldl_append, List.foldl_cons, List.foldl_nil]

/-- One step of the store that works in order, as a relation.  Serving and
resolving act on the heads of their queues. -/
inductive OrderedStep (P : Program D A R U E) :
    State D A R U → Action E → State D A R U → Prop
  | user {s e out} (h : P.handle e s.ui = some out) :
      OrderedStep P s (.user e) (s.issue out)
  | effect {s i a} (h : s.effects[i]? = some a) :
      OrderedStep P s (.effect i)
        { s with effects := s.effects.eraseIdx i, pending := s.pending ++ [a] }
  | serve {s a as} (h : s.pending = a :: as) :
      OrderedStep P s (.serve 0) (P.serveHead s a as)
  | resolve {s r rs} (h : s.served = r :: rs) :
      OrderedStep P s (.resolve 0)
        ({ s with served := rs }.issue (P.resume r s.ui))
  | kill {s} : OrderedStep P s .kill (P.boot s.disk s.ui)

/-- A step in order, in one of five ways. -/
theorem Step.ordered {s s' : State D A R U} {x : Action E} (h : P.Step s x s')
    (hx : x.InOrder) : P.OrderedStep s x s' := by
  cases h with
  | user h => exact .user h
  | effect h => exact .effect h
  | @serve i a h =>
      obtain rfl : i = 0 := hx
      rw [← List.head?_eq_getElem?, List.head?_eq_some_iff] at h
      obtain ⟨as, has⟩ := h
      have hErase : s.pending.eraseIdx 0 = as := by rw [has]; rfl
      rw [hErase]
      exact .serve has
  | @resolve i r h =>
      obtain rfl : i = 0 := hx
      rw [← List.head?_eq_getElem?, List.head?_eq_some_iff] at h
      obtain ⟨rs, hrs⟩ := h
      have hErase : s.served.eraseIdx 0 = rs := by rw [hrs]; rfl
      rw [hErase]
      exact .resolve hrs
  | reject h => exact absurd hx id
  | kill => exact .kill

end Program

end TaskManager.Verified.EventLoop
