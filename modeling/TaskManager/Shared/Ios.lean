import TaskManager.Shared.Device
import TaskManager.Shared.MethodQueue

/-!
# A program on iOS

`Ios` is a program over the serial queue of the store's methods: the oldest request is at work
first, and what the callbacks are invoked with goes back to the program in that order.

`Fate` is what becomes of the program: the actions of `EventLoop.Program`, and one more,
`lose`, for a process that ends while a small value takes the place of a large one.

## Main results

* `Sound.exec` — as long as the files work, what happens on iOS is a fate of the program.
* `Sound.exec_of_fate` — every fate without refusals is one on iOS.
-/

namespace TaskManager.Shared

open TaskManager.Verified.EventLoop

variable {K V A R U E : Type} [DecidableEq K]

/-- The requests of a program, as calls of the native methods. -/
structure Calls (P : Program (K → Option V) A R U E) where
  call : A → NativeCall K V
  answer : A → Reply V → R
  serve : ∀ a d, P.serve a d =
    (Function.update d (call a).key ((call a).result (d (call a).key)),
      answer a ((call a).reply (d (call a).key)))

/-! ## What becomes of a program -/

/-- What becomes of a program: one of its own steps, or a kill that takes a value with it. -/
inductive Fate (E : Type) where
  | act (x : Action E)
  | lose
  deriving DecidableEq, Repr

namespace Fate

/-- Its own steps are in the order of issue. -/
def InLine : Fate E → Prop
  | .act x => x.InLine
  | .lose => True

/-- What users and the program itself notice: not when the store works. -/
def seen : Fate E → Option (Action E)
  | .act (.user e) => some (.user e)
  | .act (.effect i) => some (.effect i)
  | .act (.resolve i) => some (.resolve i)
  | .act .kill => some .kill
  | .lose => some .kill
  | .act (.serve _) => none
  | .act (.reject _) => none

section Program

variable {P : Program (K → Option V) A R U E} (C : Calls P) (isInline : V → Bool)

/-- A loss needs a write at work that puts a small value in the place of a large one. -/
def step (s : State (K → Option V) A R U) : Fate E → Option (State (K → Option V) A R U)
  | .act x => P.step s x
  | .lose =>
      match s.pending with
      | [] => none
      | a :: _ =>
          if (C.call a).shrinks isInline (s.disk (C.call a).key) then
            some (P.boot (Function.update s.disk (C.call a).key none) s.ui)
          else none

/-- A run, fate by fate. -/
def exec (s : State (K → Option V) A R U) :
    List (Fate E) → Option (State (K → Option V) A R U)
  | [] => some s
  | y :: ys => (step C isInline s y).bind fun s' => exec s' ys

/-- Runs compose. -/
theorem exec_append (s : State (K → Option V) A R U) (ys zs : List (Fate E)) :
    exec C isInline s (ys ++ zs) =
      (exec C isInline s ys).bind fun s' => exec C isInline s' zs := by
  induction ys generalizing s with
  | nil => rfl
  | cons y ys ih =>
      simp only [List.cons_append, exec, Option.bind_assoc]
      congr 1
      funext s'
      exact ih s'

/-- Without a loss, a fate is a run of the program. -/
theorem exec_act (s : State (K → Option V) A R U) (xs : List (Action E)) :
    exec C isInline s (xs.map .act) = P.exec s xs := by
  induction xs generalizing s with
  | nil => rfl
  | cons x xs ih =>
      simp only [List.map_cons, exec, P.exec_cons, step]
      congr 1
      funext s'
      exact ih s'

end Program

/-- Without a loss, the fates are the own steps of the program. -/
theorem eq_map_act {ys : List (Fate E)} (h : .lose ∉ ys) :
    ∃ xs : List (Action E), ys = xs.map .act := by
  induction ys with
  | nil => exact ⟨[], rfl⟩
  | cons y ys ih =>
      obtain ⟨xs, rfl⟩ := ih fun hMem => h (List.mem_cons_of_mem y hMem)
      cases y with
      | act x => exact ⟨x :: xs, rfl⟩
      | lose => exact absurd List.mem_cons_self h

end Fate

/-! ## The program and its queue -/

/-- The program, its requests and continuations, and the serial queue it works on. -/
structure Ios (K V A R U : Type) where
  queue : MethodQueue K V := {}
  ui : U
  effects : List A
  pending : List A
  served : List R := []

namespace Ios

/-- What can happen next, in the program, on the queue and to the process. -/
inductive Move (K E : Type) where
  | user (e : E)
  | effect (i : Nat)
  | call (io : Io)
  | save (ok : Bool)
  | evict (key : K)
  | callback
  | kill
  deriving DecidableEq, Repr

/-- What users and the program itself notice of a move. -/
def Move.seen : Move K E → Option (Action E)
  | .user e => some (.user e)
  | .effect i => some (.effect i)
  | .callback => some (.resolve 0)
  | .kill => some .kill
  | .call _ | .save _ | .evict _ => none

/-- The requests of a handler are dispatched to the queue. -/
def issue (d : Ios K V A R U) (out : U × Issued A) : Ios K V A R U :=
  { d with
    ui := out.1
    effects := d.effects ++ out.2.effects
    pending := d.pending ++ out.2.requests }

section Program

variable {P : Program (K → Option V) A R U E} (C : Calls P) (isInline : V → Bool)

/-- A reply takes the oldest request with it. -/
def replied (d : Ios K V A R U) (out : List (MethodQueue.Event K V) × MethodQueue K V) :
    Ios K V A R U :=
  match out.1, d.pending with
  -- the promise is rejected
  | .replied _ .failed :: _, _ :: as => { d with queue := out.2, pending := as }
  | .replied _ r :: _, a :: as =>
      { d with queue := out.2, pending := as, served := d.served ++ [C.answer a r] }
  | _, _ => { d with queue := out.2 }

/-- A fresh process over the directory. -/
def boot (queue : MethodQueue K V) (ui : U) : Ios K V A R U :=
  { queue := queue
    ui := (P.launch ui).1
    effects := (P.launch ui).2.effects
    pending := (P.launch ui).2.requests }

/-- One move, if it can be made. -/
def step (d : Ios K V A R U) : Move K E → Option (Ios K V A R U)
  | .user e => (P.handle e d.ui).map d.issue
  | .effect i => d.effects[i]?.map fun a =>
      { d with effects := d.effects.eraseIdx i, pending := d.pending ++ [a] }
  | .call io =>
      match d.pending with
      | [] => none
      | a :: _ => (d.queue.step isInline (.call io (C.call a))).map (d.replied C)
  | .save ok => (d.queue.step isInline (.save ok)).map (d.replied C)
  | .evict key => (d.queue.step isInline (.evict key)).map (d.replied C)
  | .callback =>
      match d.served with
      | [] => none
      | r :: rs => some ({ d with served := rs }.issue (P.resume r d.ui))
  | .kill => (d.queue.step isInline .kill).map fun out => boot (P := P) out.2 d.ui

/-- A run, move by move. -/
def exec (d : Ios K V A R U) : List (Move K E) → Option (Ios K V A R U)
  | [] => some d
  | m :: ms => (step C isInline d m).bind fun d' => exec d' ms

@[simp] theorem replied_failed {d : Ios K V A R U} {a : A} {as : List A}
    (h : d.pending = a :: as) (c : NativeCall K V) (queue : MethodQueue K V) :
    d.replied C ([.replied c .failed], queue) = { d with queue := queue, pending := as } := by
  simp [replied, h]

/-- A reply that is no failure lets the handler go on. -/
theorem replied_answered {d : Ios K V A R U} {a : A} {as : List A} {r : Reply V}
    (h : d.pending = a :: as) (hFailed : r ≠ .failed) (c : NativeCall K V)
    (queue : MethodQueue K V) :
    d.replied C ([.replied c r], queue) =
      { d with queue := queue, pending := as, served := d.served ++ [C.answer a r] } := by
  cases r with
  | failed => exact absurd rfl hFailed
  | value _ => simp [replied, h]
  | done => simp [replied, h]

@[simp] theorem replied_nil (d : Ios K V A R U) (queue : MethodQueue K V) :
    d.replied C ([], queue) = { d with queue := queue } := rfl

end Program

/-- The files work, but a setup or the removal of a file may fail. -/
def Move.Harmless : Move K E → Prop
  | .call io => io.read = true ∧ io.write = true
  | .save ok => ok = true
  | _ => True

/-- The state of the program, over the contents of the directory. -/
def state (d : Ios K V A R U) (disk : K → Option V) : State (K → Option V) A R U where
  disk := disk
  ui := d.ui
  effects := d.effects
  pending := d.pending
  served := d.served

/-! ## What a run on iOS is for the program -/

section Runs

variable {P : Program (K → Option V) A R U E} {C : Calls P} {isInline : V → Bool}
  {disk : K → Option V} {d d' : Ios K V A R U}

/-- The directory is the store of the program, but for what the oldest request has done. -/
structure Sound (C : Calls P) (isInline : V → Bool) (disk : K → Option V)
    (d : Ios K V A R U) : Prop where
  inv : d.queue.Inv isInline true disk
  atWork : ∀ c ∈ d.queue.atWork, ∃ a as, d.pending = a :: as ∧ C.call a = c

/-- With no call at work, what the next process finds is the store. -/
theorem Sound.durable_eq (h : Sound C isInline disk d) (hIdle : d.queue.atWork = none) :
    d.queue.store.durable = disk :=
  h.inv.durable_eq hIdle

/-- Requests go behind the one at work. -/
theorem Sound.later (h : Sound C isInline disk d) {ui : U} {effects more : List A}
    {served : List R} :
    Sound C isInline disk
      { queue := d.queue, ui := ui, effects := effects, pending := d.pending ++ more,
        served := served } where
  inv := h.inv
  atWork c hc := by
    obtain ⟨a, as, hPending, hCall⟩ := h.atWork c hc
    exact ⟨a, as ++ more, by simp [hPending], hCall⟩

/-- What a move is for the program. -/
def Fates (C : Calls P) (isInline : V → Bool) (disk : K → Option V)
    (d : Ios K V A R U) (x : Option (Action E)) (d' : Ios K V A R U) : Prop :=
  ∃ (ys : List (Fate E)) (disk' : K → Option V), (∀ y ∈ ys, y.InLine) ∧
    ys.filterMap Fate.seen = x.toList ∧
    Fate.exec C isInline (d.state disk) ys = some (d'.state disk') ∧ Sound C isInline disk' d'

theorem Fates.none (h : Sound C isInline disk d') (hSame : d'.state disk = d.state disk) :
    Fates C isInline disk d (E := E) none d' :=
  ⟨[], disk, by simp, rfl, congrArg some hSame.symm, h⟩

theorem Fates.one {disk' : K → Option V} {y : Fate E} (hLine : y.InLine)
    (hStep : Fate.step C isInline (d.state disk) y = some (d'.state disk'))
    (h : Sound C isInline disk' d') : Fates C isInline disk d y.seen d' := by
  refine ⟨[y], disk', by simpa using hLine, ?_, ?_, h⟩
  · cases hSeen : y.seen <;> simp [hSeen]
  · simp [Fate.exec, hStep]

/-- The oldest request gets an answer. -/
theorem Sound.replied (h : Sound C isInline disk d) {a : A} {as : List A}
    (hPending : d.pending = a :: as) {r : Reply V} {queue : MethodQueue K V}
    {disk' : K → Option V} (hIdle : queue.atWork = none)
    (hAllows : (MethodQueue.Event.replied (C.call a) r).Allows isInline true disk disk')
    (hInv : queue.Inv isInline true disk') :
    Fates C isInline disk d (E := E) none
      (d.replied C ([.replied (C.call a) r], queue)) := by
  by_cases hFailed : r = .failed
  · subst hFailed
    obtain rfl : disk' = disk := hAllows
    rw [replied_failed C hPending]
    have hSound : Sound C isInline disk' { d with queue := queue, pending := as } :=
      ⟨hInv, fun c hc => absurd hc (by simp [hIdle])⟩
    refine Fates.one (y := .act (.reject 0)) rfl ?_ hSound
    simp [Fate.step, Program.step, state, hPending]
  · obtain ⟨rfl, rfl⟩ := hAllows.replied hFailed
    rw [replied_answered C hPending hFailed]
    have hSound : Sound C isInline
        (Function.update disk (C.call a).key ((C.call a).result (disk (C.call a).key)))
        { d with
          queue := queue
          pending := as
          served := d.served ++ [C.answer a ((C.call a).reply (disk (C.call a).key))] } :=
      ⟨hInv, fun c hc => absurd hc (by simp [hIdle])⟩
    refine Fates.one (y := .act (.serve 0)) rfl ?_ hSound
    simp [Fate.step, Program.step, state, hPending, C.serve]

/-- The process ends: without a call at work, before it, after it, or with its key emptied. -/
theorem Sound.killed (h : Sound C isInline disk d) :
    Fates C isInline disk d (some .kill)
      (boot (P := P) { store := d.queue.store.kill } d.ui) := by
  have hBoot : Sound C isInline d.queue.store.durable
      (boot (P := P) { store := d.queue.store.kill } d.ui) :=
    ⟨h.inv.kill, fun c hc => by simp [boot] at hc⟩
  have hFollows := h.inv.follows_kill
  cases hWork : d.queue.atWork with
  | none =>
      rw [hWork] at hFollows
      have hDisk : d.queue.store.durable = disk := hFollows
      rw [hDisk] at hBoot
      exact Fates.one (y := .act .kill) trivial rfl hBoot
  | some c =>
      obtain ⟨a, as, hPending, rfl⟩ := h.atWork c hWork
      rw [hWork] at hFollows
      obtain ⟨disk₁, ⟨new, hCut, rfl⟩, hDisk⟩ := hFollows
      rw [show d.queue.store.durable = _ from hDisk] at hBoot
      rcases hCut with rfl | rfl | ⟨rfl, hShrinks⟩
      · rw [Function.update_eq_self] at hBoot
        exact Fates.one (y := .act .kill) trivial rfl hBoot
      · refine ⟨[.act (.serve 0), .act .kill], _, by simp [Fate.InLine, Action.InLine], rfl, ?_,
          hBoot⟩
        simp [Fate.exec, Fate.step, Program.step, state, boot, Program.boot, hPending, C.serve]
      · refine Fates.one (y := .lose) trivial ?_ hBoot
        simp [Fate.step, state, boot, Program.boot, hPending, hShrinks]

/-- A move is a fate, or none. -/
theorem Sound.step (h : Sound C isInline disk d) {m : Move K E} (hHarmless : m.Harmless)
    (hStep : step C isInline d m = some d') : Fates C isInline disk d m.seen d' := by
  cases m with
  | user e =>
      simp only [Ios.step, Option.map_eq_some_iff] at hStep
      obtain ⟨out, hOut, rfl⟩ := hStep
      refine Fates.one (y := .act (.user e)) trivial ?_ h.later
      show (P.handle e d.ui).map (d.state disk).issue = _
      rw [hOut]
      rfl
  | effect i =>
      simp only [Ios.step, Option.map_eq_some_iff] at hStep
      obtain ⟨a, hAt, rfl⟩ := hStep
      refine Fates.one (y := .act (.effect i)) trivial ?_ h.later
      simp [Fate.step, Program.step, state, hAt]
  | call io =>
      cases hPending : d.pending with
      | nil => simp [Ios.step, hPending] at hStep
      | cons a as =>
          simp only [Ios.step, hPending, Option.map_eq_some_iff] at hStep
          obtain ⟨⟨es, queue⟩, hQueue, rfl⟩ := hStep
          obtain ⟨disk', hFollows, hInv⟩ :=
            h.inv.step (m := .call io (C.call a)) ⟨hHarmless.1, fun _ => hHarmless.2⟩ hQueue
          obtain ⟨-, ⟨r, rfl, hIdle⟩ | ⟨rfl, hWork⟩⟩ := MethodQueue.step_call hQueue
          · obtain ⟨disk₁, hAllows, hEnd⟩ := hFollows
            obtain rfl : disk' = disk₁ := hEnd
            exact h.replied hPending hIdle hAllows hInv
          · obtain rfl : disk' = disk := hFollows
            refine .none ⟨hInv, fun c hc => ⟨a, as, hPending, ?_⟩⟩ rfl
            exact Option.some.inj (hWork.symm.trans hc)
  | save ok =>
      obtain rfl : ok = true := hHarmless
      simp only [Ios.step, Option.map_eq_some_iff] at hStep
      obtain ⟨⟨es, queue⟩, hQueue, rfl⟩ := hStep
      obtain ⟨disk', hFollows, hInv⟩ := h.inv.step (m := .save true) rfl hQueue
      simp only [MethodQueue.step, Option.map_eq_some_iff, if_true, Prod.mk.injEq] at hQueue
      obtain ⟨c, hWork, rfl, rfl⟩ := hQueue
      obtain ⟨a, as, hPending, rfl⟩ := h.atWork c hWork
      obtain ⟨disk₁, hAllows, hEnd⟩ := hFollows
      obtain rfl : disk' = disk₁ := hEnd
      exact h.replied hPending rfl hAllows hInv
  | evict key =>
      simp only [Ios.step, MethodQueue.step, Option.map_some, Option.some.injEq] at hStep
      subst hStep
      exact .none ⟨h.inv.evict key, h.atWork⟩ rfl
  | callback =>
      cases hServed : d.served with
      | nil => simp [Ios.step, hServed] at hStep
      | cons r rs =>
          simp only [Ios.step, hServed, Option.some.injEq] at hStep
          subst hStep
          refine Fates.one (y := .act (.resolve 0)) rfl ?_ h.later
          simp [Fate.step, Program.step, state, hServed, State.issue, issue]
  | kill =>
      simp only [Ios.step, MethodQueue.step, Option.map_some, Option.some.injEq] at hStep
      subst hStep
      exact h.killed

/-- **A run on iOS is a fate** of the program. -/
theorem Sound.exec (h : Sound C isInline disk d) {ms : List (Move K E)}
    (hHarmless : ∀ m ∈ ms, m.Harmless) (hRun : exec C isInline d ms = some d') :
    ∃ (ys : List (Fate E)) (disk' : K → Option V), (∀ y ∈ ys, y.InLine) ∧
      ys.filterMap Fate.seen = ms.filterMap Move.seen ∧
      Fate.exec C isInline (d.state disk) ys = some (d'.state disk') ∧
      Sound C isInline disk' d' := by
  induction ms generalizing d disk with
  | nil =>
      simp only [Ios.exec, Option.some.injEq] at hRun
      subst hRun
      exact ⟨[], disk, by simp, rfl, rfl, h⟩
  | cons m ms ih =>
      simp only [Ios.exec, Option.bind_eq_some_iff] at hRun
      obtain ⟨d₁, hStep, hRest⟩ := hRun
      obtain ⟨ys, disk₁, hLine, hSeen, hExec, hSound⟩ :=
        h.step (hHarmless m List.mem_cons_self) hStep
      obtain ⟨zs, disk', hLine', hSeen', hExec', hSound'⟩ :=
        ih hSound (fun m' hm' => hHarmless m' (List.mem_cons_of_mem m hm')) hRest
      refine ⟨ys ++ zs, disk', ?_, ?_, ?_, hSound'⟩
      · intro y hy
        rcases List.mem_append.mp hy with hy | hy
        · exact hLine y hy
        · exact hLine' y hy
      · rw [List.filterMap_append, hSeen, hSeen']
        cases hm : m.seen <;> simp [hm]
      · rw [Fate.exec_append, hExec]
        exact hExec'

/-! ## What a program can go through, it can on iOS -/

/-- Runs compose. -/
theorem exec_append (ms ns : List (Move K E)) :
    Ios.exec C isInline d (ms ++ ns) =
      (Ios.exec C isInline d ms).bind fun d₁ => Ios.exec C isInline d₁ ns := by
  induction ms generalizing d with
  | nil => rfl
  | cons m ms ih =>
      simp only [List.cons_append, Ios.exec, Option.bind_assoc]
      congr 1
      funext d₁
      exact ih

/-- The oldest request is performed, at once or in two moves. -/
theorem Sound.serve (h : Sound C isInline disk d) (hIdle : d.queue.atWork = none) {a : A}
    {as : List A} (hPending : d.pending = a :: as) :
    ∃ (ms : List (Move K E)) (queue : MethodQueue K V), (∀ m ∈ ms, m.Harmless) ∧
      ms.filterMap Move.seen = [] ∧ queue.atWork = none ∧
      queue.Inv isInline true (P.serve a disk).1 ∧
      Ios.exec C isInline d ms = some { d with
        queue := queue
        pending := as
        served := d.served ++ [(P.serve a disk).2] } := by
  obtain ⟨queue, hIdle', hInv, hStep⟩ := h.inv.answer hIdle (C.call a)
  have hReply := (C.call a).reply_ne_failed (disk (C.call a).key)
  rw [C.serve]
  rcases hStep with hOnce | ⟨queue₁, hCall, hSave⟩
  · refine ⟨[.call {}], queue, by simp [Move.Harmless], rfl, hIdle', hInv, ?_⟩
    simp [Ios.exec, Ios.step, hPending, hOnce, replied_answered C hPending hReply]
  · refine ⟨[.call {}, .save true], queue, by simp [Move.Harmless], rfl, hIdle', hInv, ?_⟩
    simp only [Ios.exec, Ios.step, hPending, hCall, hSave, Option.map_some, Option.bind_some,
      replied_nil]
    exact congrArg some (replied_answered C (d := { d with queue := queue₁, pending := a :: as })
      rfl hReply (C.call a) queue)

/-- What has to be shown of a fate: moves that look like it and end between two calls. -/
def Happens (C : Calls P) (isInline : V → Bool) (d : Ios K V A R U) (x : Option (Action E))
    (s : State (K → Option V) A R U) : Prop :=
  ∃ (ms : List (Move K E)) (d' : Ios K V A R U), (∀ m ∈ ms, m.Harmless) ∧
    ms.filterMap Move.seen = x.toList ∧ Ios.exec C isInline d ms = some d' ∧
    d'.queue.atWork = none ∧ Sound C isInline s.disk d' ∧ d'.state s.disk = s

theorem Happens.one {m : Move K E} {s : State (K → Option V) A R U}
    (hStep : Ios.step C isInline d m = some d') (hHarmless : m.Harmless)
    (hIdle : d'.queue.atWork = none)
    (hInv : d'.queue.Inv isInline true s.disk) (hState : d'.state s.disk = s) :
    Happens C isInline d m.seen s := by
  refine ⟨[m], d', by simpa using hHarmless, ?_, by simp [Ios.exec, hStep], hIdle, ⟨hInv, ?_⟩,
    hState⟩
  · cases hSeen : m.seen <;> simp [hSeen]
  · intro c hc
    exact absurd hc (by simp [hIdle])

/-- The oldest request is cut off between the file and the manifest. -/
theorem Sound.lost (h : Sound C isInline disk d) (hIdle : d.queue.atWork = none) {a : A}
    {as : List A} (hPending : d.pending = a :: as)
    (hShrinks : (C.call a).shrinks isInline (disk (C.call a).key) = true) :
    Happens C isInline d (E := E) (some .kill)
      (P.boot (Function.update disk (C.call a).key none) d.ui) := by
  obtain ⟨queue, hCall, hWork, hDurable⟩ := h.inv.torn hIdle hShrinks
  have hInv : queue.Inv isInline true disk := by
    obtain ⟨disk₁, hFollows, hInv⟩ :=
      h.inv.step (m := .call {} (C.call a)) ⟨rfl, fun _ => rfl⟩ hCall
    obtain rfl : disk₁ = disk := hFollows
    exact hInv
  have hKilled := hInv.kill
  rw [hDurable] at hKilled
  refine ⟨[.call {}, .kill], boot (P := P) { store := queue.store.kill } d.ui,
    by simp [Move.Harmless], rfl, ?_, rfl, ⟨hKilled, fun c hc => ?_⟩, rfl⟩
  · have hBegun : Ios.step C isInline d (.call {}) = some { d with queue := queue } := by
      simp [Ios.step, hPending, hCall]
    simp only [Ios.exec, hBegun, Option.bind_some]
    rfl
  · simp [boot] at hc

/-- A fate that is not a refusal happens. -/
theorem Sound.happens (h : Sound C isInline disk d) (hIdle : d.queue.atWork = none)
    {y : Fate E} (hLine : y.InLine) (hReject : ∀ i, y ≠ .act (.reject i))
    {s : State (K → Option V) A R U}
    (hStep : Fate.step C isInline (d.state disk) y = some s) :
    Happens C isInline d y.seen s := by
  cases y with
  | act x =>
      have hStep := P.step_iff.mp hStep
      cases hStep with
      | @user e out hOut =>
          refine .one (m := .user e) (congrArg (Option.map d.issue) hOut) trivial hIdle h.inv rfl
      | @effect i a hAt =>
          exact .one (m := .effect i) (congrArg (Option.map _) hAt) trivial hIdle h.inv rfl
      | @serve i a hAt =>
          obtain rfl : i = 0 := hLine
          have hHead : d.pending[0]? = some a := hAt
          rw [← List.head?_eq_getElem?, List.head?_eq_some_iff] at hHead
          obtain ⟨as, hPending⟩ := hHead
          obtain ⟨ms, queue, hHarmless, hSeen, hIdle', hInv, hRun⟩ := h.serve hIdle hPending
          refine ⟨ms, _, hHarmless, hSeen, hRun, hIdle', ⟨hInv, fun c hc => ?_⟩, ?_⟩
          · exact absurd hc (by simp [hIdle'])
          · simp [state, hPending]
      | @resolve i r hAt =>
          obtain rfl : i = 0 := hLine
          have hHead : d.served[0]? = some r := hAt
          rw [← List.head?_eq_getElem?, List.head?_eq_some_iff] at hHead
          obtain ⟨rs, hServed⟩ := hHead
          have hMove : Ios.step C isInline d .callback =
              some ({ d with served := rs }.issue (P.resume r d.ui)) := by
            simp only [Ios.step, hServed]
          refine .one hMove trivial hIdle h.inv ?_
          simp [state, issue, State.issue, hServed]
      | @reject i a hAt => exact absurd rfl (hReject i)
      | kill =>
          refine .one (m := .kill) rfl trivial rfl ?_ rfl
          have hInv := h.inv.kill
          rwa [h.durable_eq hIdle] at hInv
  | lose =>
      cases hPending : d.pending with
      | nil => simp [Fate.step, state, hPending] at hStep
      | cons a as =>
          simp only [Fate.step, state, hPending, Option.ite_none_right_eq_some,
            Option.some.injEq] at hStep
          obtain ⟨hShrinks, rfl⟩ := hStep
          exact h.lost hIdle hPending hShrinks

/-- **Every fate without refusals** is a run on iOS. -/
theorem Sound.exec_of_fate (h : Sound C isInline disk d) (hIdle : d.queue.atWork = none)
    {ys : List (Fate E)} (hLine : ∀ y ∈ ys, y.InLine)
    (hReject : ∀ i, .act (.reject i) ∉ ys) {s : State (K → Option V) A R U}
    (hRun : Fate.exec C isInline (d.state disk) ys = some s) :
    ∃ (ms : List (Move K E)) (d' : Ios K V A R U), (∀ m ∈ ms, m.Harmless) ∧
      ms.filterMap Move.seen = ys.filterMap Fate.seen ∧ Ios.exec C isInline d ms = some d' ∧
      d'.queue.atWork = none ∧ Sound C isInline s.disk d' ∧ d'.state s.disk = s := by
  induction ys generalizing d disk with
  | nil =>
      simp only [Fate.exec, Option.some.injEq] at hRun
      subst hRun
      exact ⟨[], d, by simp, rfl, rfl, hIdle, h, rfl⟩
  | cons y ys ih =>
      simp only [Fate.exec, Option.bind_eq_some_iff] at hRun
      obtain ⟨s₁, hStep, hRest⟩ := hRun
      obtain ⟨ms, d₁, hHarmless, hSeen, hExec, hIdle₁, hSound, hState⟩ :=
        h.happens hIdle (hLine y List.mem_cons_self)
          (fun i hy => hReject i (hy ▸ List.mem_cons_self)) hStep
      obtain ⟨ns, d', hHarmless', hSeen', hExec', hIdle', hSound', hState'⟩ :=
        ih hSound hIdle₁ (fun z hz => hLine z (List.mem_cons_of_mem y hz))
          (fun i hi => hReject i (List.mem_cons_of_mem y hi)) (hState ▸ hRest)
      refine ⟨ms ++ ns, d', ?_, ?_, ?_, hIdle', hSound', hState'⟩
      · intro m hm
        rcases List.mem_append.mp hm with hm | hm
        · exact hHarmless m hm
        · exact hHarmless' m hm
      · rw [List.filterMap_append, hSeen, hSeen']
        cases hy : y.seen <;> simp [hy]
      · rw [exec_append, hExec]
        exact hExec'

end Runs

end Ios

end TaskManager.Shared
