import TaskManager.Verified.EventLoop

/-!
# A store that performs in the order of issue

`Verified/EventLoop.lean` lets the store pick any request.  Here it takes the
oldest one, to perform or to refuse it, while what it has performed may be
reported in any order: `Action.Queued` admits those actions, and `QueuedStep` is
one step under that schedule.

Requests and continuations in flight stand in one line, those performed before
those that wait.  `line` shows it through an observation that a request and its
continuation share; `line_serve` says that performing a request leaves it as it
is.  As long as nothing is refused, what the requests will yield is known in
advance, too: `foreseen` lists the continuations that wait and then those to
come, and `settleDisk` is the disk once everything is done.
-/

namespace TaskManager.Verified.EventLoop

variable {D A R U E T X : Type}

/-- The actions of a store that performs and refuses in the order of issue. -/
def Action.Queued : Action E → Prop
  | .serve i => i = 0
  | .reject i => i = 0
  | _ => True

instance : DecidablePred (Action.Queued (E := E))
  | .user _ => .isTrue trivial
  | .effect _ => .isTrue trivial
  | .serve i => inferInstanceAs (Decidable (i = 0))
  | .resolve _ => .isTrue trivial
  | .reject i => inferInstanceAs (Decidable (i = 0))
  | .kill => .isTrue trivial

namespace Program

/-- The state after the store has performed its oldest request. -/
def serveHead (P : Program D A R U E) (s : State D A R U) (a : A) (as : List A) :
    State D A R U :=
  { s with
    disk := (P.serve a s.disk).1
    pending := as
    served := s.served ++ [(P.serve a s.disk).2] }

/-- One step, where the store performs and refuses its oldest request. -/
inductive QueuedStep (P : Program D A R U E) :
    State D A R U → Action E → State D A R U → Prop
  | user {s e out} (h : P.handle e s.ui = some out) : QueuedStep P s (.user e) (s.issue out)
  | effect {s i a} (h : s.effects[i]? = some a) :
      QueuedStep P s (.effect i)
        { s with effects := s.effects.eraseIdx i, pending := s.pending ++ [a] }
  | serve {s a as} (h : s.pending = a :: as) : QueuedStep P s (.serve 0) (P.serveHead s a as)
  | resolve {s : State D A R U} {before r after} (h : s.served = before ++ r :: after) :
      QueuedStep P s (.resolve before.length)
        ({ s with served := before ++ after }.issue (P.resume r s.ui))
  | reject {s a as} (h : s.pending = a :: as) : QueuedStep P s (.reject 0) { s with pending := as }
  | kill {s} : QueuedStep P s .kill (P.boot s.disk s.ui)

/-- A list around one of its positions. -/
theorem eq_append_of_getElem? {α : Type} {l : List α} {a : α} {i : Nat} (h : l[i]? = some a) :
    ∃ before after, l = before ++ a :: after ∧ i = before.length ∧
      l.eraseIdx i = before ++ after := by
  induction l generalizing i with
  | nil => simp at h
  | cons b l ih =>
      cases i with
      | zero =>
          obtain rfl : b = a := by simpa using h
          exact ⟨[], l, rfl, rfl, rfl⟩
      | succ i =>
          obtain ⟨before, after, rfl, rfl, hErase⟩ := ih (by simpa using h)
          exact ⟨b :: before, after, rfl, rfl, congrArg (List.cons b) hErase⟩

/-- A step with the requests in a queue, in one of six ways. -/
theorem Step.queued {P : Program D A R U E} {s s' : State D A R U} {x : Action E}
    (h : P.Step s x s') (hx : x.Queued) : P.QueuedStep s x s' := by
  cases h with
  | user h => exact .user h
  | effect h => exact .effect h
  | @serve i a h =>
      obtain ⟨before, as, hPending, hLength, hErase⟩ := eq_append_of_getElem? h
      obtain rfl : i = 0 := hx
      obtain rfl := List.eq_nil_of_length_eq_zero hLength.symm
      rw [hErase]
      exact .serve hPending
  | @resolve i r h =>
      obtain ⟨before, after, hServed, rfl, hErase⟩ := eq_append_of_getElem? h
      rw [hErase]
      exact .resolve hServed
  | @reject i a h =>
      obtain ⟨before, as, hPending, hLength, hErase⟩ := eq_append_of_getElem? h
      obtain rfl : i = 0 := hx
      obtain rfl := List.eq_nil_of_length_eq_zero hLength.symm
      rw [hErase]
      exact .reject hPending
  | kill => exact .kill

/-- The continuations that wait once one of them has run. -/
theorem served_sublist {s : State D A R U} {before after : List R} {r : R}
    (h : s.served = before ++ r :: after) : (before ++ after).Sublist s.served := by
  rw [h]
  exact (List.sublist_cons_self r after).append_left before

/-! ## The line -/

/-- What is in flight, oldest first. -/
def line (tag : A → T) (tag' : R → T) (s : State D A R U) : List T :=
  s.served.map tag' ++ s.pending.map tag

section Line

variable {P : Program D A R U E} {tag : A → T} {tag' : R → T} {s : State D A R U}

theorem line_issue (out : U × Issued A) :
    line tag tag' (s.issue out) = line tag tag' s ++ out.2.requests.map tag := by
  simp [line, State.issue]

theorem line_effect (es : List A) (a : A) :
    line tag tag' { s with effects := es, pending := s.pending ++ [a] } =
      line tag tag' s ++ [tag a] := by
  simp [line]

/-- Performing the first request keeps the line. -/
theorem line_serve (hTag : ∀ a d, tag' (P.serve a d).2 = tag a) {a : A} {as : List A}
    (h : s.pending = a :: as) : line tag tag' (P.serveHead s a as) = line tag tag' s := by
  simp [line, serveHead, h, hTag]

/-- A continuation leaves the line. -/
theorem line_resolve {before after : List R} {r : R} (h : s.served = before ++ r :: after) :
    (line tag tag' { s with served := before ++ after }).Sublist (line tag tag' s) :=
  ((served_sublist h).map tag').append_right _

theorem line_reject {a : A} {as : List A} (h : s.pending = a :: as) :
    (line tag tag' { s with pending := as }).Sublist (line tag tag' s) := by
  simp only [line, h]
  exact ((List.sublist_cons_self a as).map tag).append_left _

end Line

/-! ## What the requests will yield -/

variable (P : Program D A R U E)

/-- The disk once the given requests have been performed in order. -/
def drain (d : D) : List A → D
  | [] => d
  | a :: as => drain (P.serve a d).1 as

@[simp] theorem drain_nil (d : D) : P.drain d [] = d := rfl

@[simp] theorem drain_cons (d : D) (a : A) (as : List A) :
    P.drain d (a :: as) = P.drain (P.serve a d).1 as := rfl

/-- The queue is drained from the front. -/
theorem drain_append (d : D) (as bs : List A) :
    P.drain d (as ++ bs) = P.drain (P.drain d as) bs := by
  induction as generalizing d with
  | nil => rfl
  | cons a as ih => exact ih _

/-- What every request keeps, the whole queue keeps. -/
theorem drain_invariant (I : D → Prop) {d : D} {as : List A} (hInit : I d)
    (hKeep : ∀ a ∈ as, ∀ d, I d → I (P.serve a d).1) : I (P.drain d as) := by
  induction as generalizing d with
  | nil => exact hInit
  | cons a as ih =>
      have hHead := hKeep a List.mem_cons_self d hInit
      exact ih hHead fun b hb => hKeep b (List.mem_cons_of_mem a hb)

/-- What the given requests yield when they are performed in order. -/
def replies (d : D) : List A → List R
  | [] => []
  | a :: as => (P.serve a d).2 :: replies (P.serve a d).1 as

@[simp] theorem replies_nil (d : D) : P.replies d [] = [] := rfl

@[simp] theorem replies_cons (d : D) (a : A) (as : List A) :
    P.replies d (a :: as) = (P.serve a d).2 :: P.replies (P.serve a d).1 as := rfl

theorem replies_append (d : D) (as bs : List A) :
    P.replies d (as ++ bs) = P.replies d as ++ P.replies (P.drain d as) bs := by
  induction as generalizing d with
  | nil => rfl
  | cons a as ih =>
      rw [List.cons_append, replies_cons, ih]
      rfl

/-- What holds of the reply to every request, at the disks that occur, holds of
all the replies. -/
theorem replies_invariant (I : D → Prop) (Q : R → Prop) {d : D} {as : List A} (hInit : I d)
    (hKeep : ∀ a ∈ as, ∀ d, I d → I (P.serve a d).1 ∧ Q (P.serve a d).2) :
    ∀ r ∈ P.replies d as, Q r := by
  induction as generalizing d with
  | nil => simp
  | cons a as ih =>
      have hHead := hKeep a List.mem_cons_self d hInit
      intro r hr
      rcases List.mem_cons.mp hr with rfl | hRest
      · exact hHead.2
      · exact ih hHead.1 (fun b hb => hKeep b (List.mem_cons_of_mem a hb)) r hRest

/-- The disk of state `s`, carried through everything that waits. -/
def settleDisk (s : State D A R U) : D := P.drain s.disk s.pending

/-- The continuations that wait, and those that will. -/
def foreseen (s : State D A R U) : List R := s.served ++ P.replies s.disk s.pending

/-- What the oldest continuation that `read` looks into will be given. -/
def firstRead (read : R → Option X) (s : State D A R U) : Option X :=
  (P.foreseen s).findSome? read

variable {P} {s : State D A R U}

theorem settleDisk_idle (hPending : s.pending = []) : P.settleDisk s = s.disk := by
  simp [settleDisk, hPending]

/-- Performing the first request is foreseen. -/
theorem settleDisk_serve {a : A} {as : List A} (h : s.pending = a :: as) :
    P.settleDisk (P.serveHead s a as) = P.settleDisk s := by
  simp [settleDisk, serveHead, h]

theorem settleDisk_effect {es : List A} {a : A} :
    P.settleDisk { s with effects := es, pending := s.pending ++ [a] } =
      (P.serve a (P.settleDisk s)).1 := by
  simp [settleDisk, drain_append]

/-- New requests queue behind. -/
theorem settleDisk_issue {out : U × Issued A} :
    P.settleDisk (s.issue out) = P.drain (P.settleDisk s) out.2.requests := by
  simp [settleDisk, State.issue, drain_append]

theorem foreseen_serve {a : A} {as : List A} (h : s.pending = a :: as) :
    P.foreseen (P.serveHead s a as) = P.foreseen s := by
  simp [foreseen, serveHead, h]

theorem foreseen_effect {es : List A} {a : A} :
    P.foreseen { s with effects := es, pending := s.pending ++ [a] } =
      P.foreseen s ++ [(P.serve a (P.settleDisk s)).2] := by
  simp [foreseen, settleDisk, replies_append]

/-- What is issued will be answered last. -/
theorem foreseen_issue {out : U × Issued A} :
    P.foreseen (s.issue out) =
      P.foreseen s ++ P.replies (P.settleDisk s) out.2.requests := by
  simp [foreseen, settleDisk, State.issue, replies_append]

theorem foreseen_resolve {before after : List R} {r : R} (h : s.served = before ++ r :: after) :
    P.foreseen s =
      before ++ r :: (after ++ P.replies s.disk s.pending) ∧
      P.foreseen { s with served := before ++ after } =
        before ++ (after ++ P.replies s.disk s.pending) := by
  simp [foreseen, h]

theorem foreseen_subset {before after : List R} {r : R} (h : s.served = before ++ r :: after) :
    P.foreseen { s with served := before ++ after } ⊆ P.foreseen s :=
  List.append_subset.mpr
    ⟨fun _ hr => List.mem_append_left _ ((served_sublist h).subset hr),
      List.subset_append_right _ _⟩

theorem firstRead_serve {read : R → Option X} {a : A} {as : List A} (h : s.pending = a :: as) :
    P.firstRead read (P.serveHead s a as) = P.firstRead read s := by
  rw [firstRead, foreseen_serve h, firstRead]

theorem firstRead_effect {read : R → Option X} {es : List A} {a : A} :
    P.firstRead read { s with effects := es, pending := s.pending ++ [a] } =
      (P.firstRead read s).or (read (P.serve a (P.settleDisk s)).2) := by
  rw [firstRead, foreseen_effect, List.findSome?_append, List.findSome?_singleton, firstRead]

/-- Requests that `read` does not look into leave the first reading as it is. -/
theorem firstRead_issue {read : R → Option X} {out : U × Issued A}
    (h : ∀ a ∈ out.2.requests, ∀ d, read (P.serve a d).2 = none) :
    P.firstRead read (s.issue out) = P.firstRead read s := by
  have hNone : (P.replies (P.settleDisk s) out.2.requests).findSome? read = none := by
    rw [List.findSome?_eq_none_iff]
    exact P.replies_invariant (fun _ => True) (fun r => read r = none) trivial
      fun a ha d _ => ⟨trivial, h a ha d⟩
  rw [firstRead, foreseen_issue, List.findSome?_append, hNone, Option.or_none, firstRead]

/-- So does a continuation that it does not look into. -/
theorem firstRead_resolve {read : R → Option X} {before after : List R} {r : R}
    (h : s.served = before ++ r :: after) (hRead : read r = none) :
    P.firstRead read { s with served := before ++ after } = P.firstRead read s := by
  obtain ⟨hNow, hNext⟩ := foreseen_resolve (P := P) h
  rw [firstRead, firstRead, hNow, hNext]
  simp [hRead]

/-- The oldest continuation that it looks into is the one that is read. -/
theorem firstRead_of_oldest {read : R → Option X} {before after : List R} {r : R} {x : X}
    (h : s.served = before ++ r :: after) (hBefore : ∀ r' ∈ before, read r' = none)
    (hRead : read r = some x) : P.firstRead read s = some x := by
  rw [firstRead, (foreseen_resolve (P := P) h).1, List.findSome?_append,
    List.findSome?_eq_none_iff.mpr hBefore, Option.none_or, List.findSome?_cons, hRead]

end Program

end TaskManager.Verified.EventLoop
