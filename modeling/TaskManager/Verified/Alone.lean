import TaskManager.Verified.EventLoop

/-!
# A handler that runs alone

While nothing else happens, a handler goes through its requests one after the
other: at most one waits at a time.  `answer` is one such round, `answers n`
the actions of `n` of them.  The handler runs to its end (`Completed`), or one
of its requests is refused and it stops there (`Refused`), or it is left in the
middle (`Interrupted`).  `completed_iff`, `refused_iff` and `interrupted_of_exec`
say that these are the runs along `answers`.
-/

namespace TaskManager.Verified.EventLoop

variable {D A R U E : Type}

/-- The store answers the oldest request `n` times. -/
def answers (E : Type) : Nat → List (Action E)
  | 0 => []
  | n + 1 => .serve 0 :: .resolve 0 :: answers E n

/-- The store answers `k` requests, and then performs one more without reporting
it when `performed` says so. -/
def interruption (E : Type) (k : Nat) (performed : Bool) : List (Action E) :=
  answers E k ++ if performed then [.serve 0] else []

/-- The store refuses a request after it has answered `k` of them. -/
def refusal (E : Type) (k : Nat) : List (Action E) := answers E k ++ [.reject 0]

namespace Program

variable (P : Program D A R U E)

/-- The state after the one request that waits has been answered. -/
def answer (s : State D A R U) (a : A) : State D A R U :=
  { s with disk := (P.serve a s.disk).1, pending := [] }.issue
    (P.resume (P.serve a s.disk).2 s.ui)

@[simp] theorem disk_answer (s : State D A R U) (a : A) :
    (P.answer s a).disk = (P.serve a s.disk).1 := rfl

@[simp] theorem ui_answer (s : State D A R U) (a : A) :
    (P.answer s a).ui = (P.resume (P.serve a s.disk).2 s.ui).1 := rfl

@[simp] theorem effects_answer (s : State D A R U) (a : A) :
    (P.answer s a).effects = s.effects ++ (P.resume (P.serve a s.disk).2 s.ui).2.effects := rfl

@[simp] theorem pending_answer (s : State D A R U) (a : A) :
    (P.answer s a).pending = (P.resume (P.serve a s.disk).2 s.ui).2.requests := by
  simp [answer, State.issue]

variable {P} in
theorem exec_answer {s : State D A R U} {a : A} (xs : List (Action E))
    (hPending : s.pending = [a]) (hServed : s.served = []) :
    P.exec s (.serve 0 :: .resolve 0 :: xs) = P.exec (P.answer s a) xs := by
  have hAnswer : P.exec s [.serve 0, .resolve 0] = some (P.answer s a) := by
    simp [exec, step, hPending, hServed, answer]
  show P.exec s ([.serve 0, .resolve 0] ++ xs) = _
  rw [P.exec_append, hAnswer]
  rfl

/-- Every handler issues one request at a time. -/
def OneAtATime : Prop := ∀ r ui, (P.resume r ui).2.requests.length ≤ 1

/-- The handler that waits runs to its end, in `n` answers. -/
inductive Completed : State D A R U → Nat → State D A R U → Prop
  | done {s} (h : s.pending = []) : Completed s 0 s
  | answer {s a n s'} (h : s.pending = [a]) (hNext : Completed (P.answer s a) n s') :
      Completed s (n + 1) s'

/-- The handler that waits is refused its request, after `k` answers. -/
inductive Refused : State D A R U → Nat → State D A R U → Prop
  | now {s a} (h : s.pending = [a]) : Refused s 0 { s with pending := [] }
  | later {s a k s'} (h : s.pending = [a]) (hNext : Refused (P.answer s a) k s') :
      Refused s (k + 1) s'

/-- The handler is not done: `j` of its requests have been performed, the last of
them perhaps without being reported. -/
inductive Interrupted : State D A R U → Nat → State D A R U → Prop
  | waiting {s a} (h : s.pending = [a]) : Interrupted s 0 s
  | performed {s a} (h : s.pending = [a]) :
      Interrupted s 1
        { s with
          disk := (P.serve a s.disk).1
          pending := []
          served := s.served ++ [(P.serve a s.disk).2] }
  | later {s a j c} (h : s.pending = [a]) (hNext : Interrupted (P.answer s a) j c) :
      Interrupted s (j + 1) c

/-- The disk after `j` requests of the handler that waits. -/
def diskAfter (s : State D A R U) : Nat → D
  | 0 => s.disk
  | j + 1 =>
      match s.pending with
      | [] => s.disk
      | a :: _ => diskAfter (P.answer s a) j

variable {P}

/-- The handler has one request left, and is done after its answer. -/
theorem Completed.single {s c : State D A R U} {a : A} {n : Nat} (h : P.Completed s n c)
    (hAt : s.pending = [a]) (hNone : (P.answer s a).pending = []) : c = P.answer s a := by
  cases h with
  | done hDone => simp [hAt] at hDone
  | @answer _ b _ _ hAt' hNext =>
      obtain rfl : a = b := by simpa [hAt] using hAt'
      cases hNext with
      | done _ => rfl
      | answer hAt'' _ => exact absurd (hNone.symm.trans hAt'') (by simp)

/-- A handler that runs alone leaves the other continuations. -/
theorem Completed.served {s c : State D A R U} {n : Nat} (h : P.Completed s n c) :
    c.served = s.served := by
  induction h with
  | done _ => rfl
  | answer _ _ ih => exact ih

theorem diskAfter_idle {s : State D A R U} (h : s.pending = []) (j : Nat) :
    P.diskAfter s j = s.disk := by
  cases j with
  | zero => rfl
  | succ j => rw [diskAfter, h]

theorem diskAfter_succ {s : State D A R U} {a : A} (h : s.pending = [a]) (j : Nat) :
    P.diskAfter s (j + 1) = P.diskAfter (P.answer s a) j := by
  rw [diskAfter, h]

/-- What a handler leaves on the disk when it is done. -/
theorem Completed.disk {s c : State D A R U} {n j : Nat} (h : P.Completed s n c)
    (hEnough : n ≤ j) : c.disk = P.diskAfter s j := by
  induction h generalizing j with
  | done hDone => rw [diskAfter_idle hDone]
  | answer hAt _ ih =>
      obtain ⟨j, rfl⟩ : ∃ i, j = i + 1 := ⟨j - 1, by omega⟩
      rw [diskAfter_succ hAt]
      exact ih (by omega)

/-- What a handler leaves on the disk when it is left in the middle. -/
theorem Interrupted.disk {s c : State D A R U} {j : Nat} (h : P.Interrupted s j c) :
    c.disk = P.diskAfter s j := by
  induction h with
  | waiting _ => rfl
  | performed hAt => rw [diskAfter_succ hAt]; rfl
  | later hAt _ ih => rw [diskAfter_succ hAt, ih]

theorem Refused.pending_ne_nil {s s' : State D A R U} {k : Nat} (h : P.Refused s k s') :
    s.pending ≠ [] := by
  cases h with
  | now hAt => simp [hAt]
  | later hAt _ => simp [hAt]

/-- The request that waits is the one refused, or it is answered first. -/
theorem Refused.split {s s' : State D A R U} {a : A} {k : Nat} (h : P.Refused s k s')
    (hAt : s.pending = [a]) :
    (k = 0 ∧ s' = { s with pending := [] }) ∨
      ∃ k', k = k' + 1 ∧ P.Refused (P.answer s a) k' s' := by
  cases h with
  | now _ => exact Or.inl ⟨rfl, rfl⟩
  | @later _ b k' _ hAt' hNext =>
      obtain rfl : a = b := by simpa [hAt] using hAt'
      exact Or.inr ⟨k', rfl, hNext⟩

/-- Nothing waits, or one request does. -/
theorem pending_cases {s : State D A R U} (h : s.pending.length ≤ 1) :
    s.pending = [] ∨ ∃ a, s.pending = [a] := by
  match hPending : s.pending with
  | [] => exact Or.inl rfl
  | [a] => exact Or.inr ⟨a, rfl⟩
  | a :: b :: rest => simp [hPending] at h

theorem exec_answers_succ {s s' : State D A R U} {n : Nat} (xs : List (Action E))
    (hPending : s.pending.length ≤ 1) (hServed : s.served = []) :
    P.exec s (answers E (n + 1) ++ xs) = some s' ↔
      ∃ a, s.pending = [a] ∧ P.exec (P.answer s a) (answers E n ++ xs) = some s' := by
  rw [answers, List.cons_append, List.cons_append]
  constructor
  · intro hRun
    rcases pending_cases hPending with hNone | ⟨a, hAt⟩
    · rw [exec_cons] at hRun
      obtain ⟨m, hStep, -⟩ := Option.bind_eq_some_iff.mp hRun
      cases P.step_iff.mp hStep with
      | serve hAt => simp [hNone] at hAt
    · rw [exec_answer _ hAt hServed] at hRun
      exact ⟨a, hAt, hRun⟩
  · rintro ⟨a, hAt, hRun⟩
    rw [exec_answer _ hAt hServed, hRun]

/-- After an answer, one request waits at most. -/
theorem OneAtATime.answer (hOne : P.OneAtATime) (s : State D A R U) (a : A) :
    (P.answer s a).pending.length ≤ 1 := by
  rw [pending_answer]
  exact hOne _ _

/-- A handler is done along `answers`, with nothing left to wait for. -/
theorem completed_iff (hOne : P.OneAtATime) {s s' : State D A R U} {n : Nat}
    (hPending : s.pending.length ≤ 1) (hServed : s.served = []) :
    P.Completed s n s' ↔ P.exec s (answers E n) = some s' ∧ s'.pending = [] := by
  induction n generalizing s with
  | zero =>
      constructor
      · intro h
        cases h with
        | done hDone => exact ⟨rfl, hDone⟩
      · rintro ⟨hRun, hDone⟩
        rw [answers, exec_nil, Option.some.injEq] at hRun
        exact hRun ▸ .done (hRun ▸ hDone)
  | succ n ih =>
      have hSucc : P.exec s (answers E (n + 1)) = some s' ↔
          ∃ a, s.pending = [a] ∧ P.exec (P.answer s a) (answers E n) = some s' := by
        simpa using exec_answers_succ (P := P) (n := n) [] hPending hServed
      rw [hSucc]
      constructor
      · intro h
        cases h with
        | @answer _ a _ _ hAt hNext =>
            obtain ⟨hRun, hDone⟩ := (ih (hOne.answer s a) hServed).mp hNext
            exact ⟨⟨a, hAt, hRun⟩, hDone⟩
      · rintro ⟨⟨a, hAt, hRun⟩, hDone⟩
        exact .answer hAt ((ih (hOne.answer s a) hServed).mpr ⟨hRun, hDone⟩)

theorem interrupted_of_exec (hOne : P.OneAtATime) {s c : State D A R U} {k : Nat}
    {performed : Bool} (hPending : s.pending.length ≤ 1) (hServed : s.served = [])
    (hRun : P.exec s (interruption E k performed) = some c)
    (hWaits : c.pending ≠ [] ∨ c.served ≠ []) :
    P.Interrupted s (k + performed.toNat) c := by
  induction k generalizing s with
  | zero =>
      cases performed with
      | false =>
          have hSame : s = c := Option.some.inj hRun
          subst hSame
          rcases pending_cases hPending with hNone | ⟨a, hAt⟩
          · simp [hNone, hServed] at hWaits
          · exact .waiting hAt
      | true =>
          have hStep : P.exec s [.serve 0] = P.step s (.serve 0) := by simp [exec_cons]
          rw [show P.exec s [.serve 0] = some c from hRun] at hStep
          cases P.step_iff.mp hStep.symm with
          | @serve _ a hAt =>
              rcases pending_cases hPending with hNone | ⟨b, hSome⟩
              · simp [hNone] at hAt
              · obtain rfl : b = a := by simpa [hSome] using hAt
                have hErase : s.pending.eraseIdx 0 = [] := by simp [hSome]
                rw [hErase]
                exact .performed hSome
  | succ k ih =>
      rw [interruption, exec_answers_succ _ hPending hServed] at hRun
      obtain ⟨a, hAt, hNext⟩ := hRun
      rw [Nat.add_right_comm]
      exact .later hAt (ih (hOne.answer s a) hServed hNext)

/-- A handler that is left in the middle is left so along `interruption`. -/
theorem Interrupted.exec {s c : State D A R U} {j : Nat} (h : P.Interrupted s j c)
    (hServed : s.served = []) :
    ∃ k performed, j = k + performed.toNat ∧
      P.exec s (interruption E k performed) = some c ∧ (c.pending ≠ [] ∨ c.served ≠ []) := by
  induction h with
  | waiting hAt => exact ⟨0, false, rfl, rfl, Or.inl (by simp [hAt])⟩
  | performed hAt =>
      refine ⟨0, true, rfl, ?_, Or.inr (by simp)⟩
      simp [interruption, answers, exec_cons, step, hAt]
  | later hAt _ ih =>
      obtain ⟨k, performed, rfl, hRun, hWaits⟩ := ih hServed
      refine ⟨k + 1, performed, by omega, ?_, hWaits⟩
      rw [interruption, answers, List.cons_append, List.cons_append, exec_answer _ hAt hServed]
      exact hRun

theorem refused_iff (hOne : P.OneAtATime) {s s' : State D A R U} {k : Nat}
    (hPending : s.pending.length ≤ 1) (hServed : s.served = []) :
    P.Refused s k s' ↔ P.exec s (refusal E k) = some s' := by
  induction k generalizing s with
  | zero =>
      have hStep : P.exec s (refusal E 0) = P.step s (.reject 0) := by
        simp [refusal, answers, exec_cons]
      rw [hStep, P.step_iff]
      constructor
      · intro h
        cases h with
        | @now _ a hAt =>
            have hReject := Step.reject (P := P) (s := s) (i := 0) (a := a) (by simp [hAt])
            simpa [hAt] using hReject
      · intro h
        cases h with
        | @reject _ a hAt =>
            rcases pending_cases hPending with hNone | ⟨b, hSome⟩
            · simp [hNone] at hAt
            · have hErase : s.pending.eraseIdx 0 = [] := by simp [hSome]
              rw [hErase]
              exact .now hSome
  | succ k ih =>
      rw [refusal, exec_answers_succ _ hPending hServed]
      constructor
      · intro h
        cases h with
        | @later _ a _ _ hAt hNext => exact ⟨a, hAt, (ih (hOne.answer s a) hServed).mp hNext⟩
      · rintro ⟨a, hAt, hRun⟩
        exact .later hAt ((ih (hOne.answer s a) hServed).mpr hRun)

end Program

end TaskManager.Verified.EventLoop
