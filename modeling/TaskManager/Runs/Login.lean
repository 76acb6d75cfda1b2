import TaskManager.Runs.Sessions

/-!
# What a Login press opens

`login_sound` has two halves, both for every order of steps.

* In the runs where every Login submit that names a registered email also names
  its password, a session written by Login is that of the email and password
  typed at its press.  The lookup itself never compares passwords:
  `login_ignores_password` opens Ann's session with another password.
* A Login submit with the credentials of a stored account, while no other
  submit is in flight, opens that account's session: until it has, it waits at
  one of four points, each of which leads on to the next.
-/

namespace TaskManager.Runs

open TaskManager.Verified.JsText
open TaskManager.Verified.EventLoop
open TaskManager.Shared
open TaskManager.Pages
open TaskManager.Routes
open TaskManager.App

/-! ## Soundness -/

theorem login_matches {h : History} {s : State} (hReached : app.Reached init h s)
    (hHonest : AllHonest h) {x : Action} {call : Login.Call} {record : Account}
    (hWrites : WritesSession (s, x) (.login call) record) :
    PressedBefore h (.login call) ∧ call.email = record.email ∧
      call.password = record.password := by
  obtain ⟨i, a, -, hAt, hRequest⟩ := hWrites
  obtain ⟨xs, hRun, rfl⟩ := hReached
  cases hRequest with
  | login _ _ =>
      obtain ⟨hPress, hEmail, -, hPass⟩ :=
        (pressLocal.holds hRun).of_pending (List.mem_of_getElem? hAt)
      exact ⟨hPress, hEmail.symm, (hPass hHonest).symm⟩

/-! ## A submit that is left alone -/

/-- The requests of Login and Signup submits. -/
def IsSubmit : Await → Prop
  | .login (.isUserLoggedIn _) => False
  | .login _ => True
  | .signup _ => True
  | _ => False

/-- The continuations of Login and Signup submits. -/
def IsSubmitReady : Ready → Prop
  | .login (.isUserLoggedIn _ _) => False
  | .login _ => True
  | .signup _ => True
  | _ => False

/-- No submit is in flight. -/
def NoSubmit (s : State) : Prop :=
  (∀ a ∈ s.pending, ¬ IsSubmit a) ∧ ∀ r ∈ s.served, ¬ IsSubmitReady r

/-- Nothing disturbs the submit in flight: the process goes on, no other submit
is pressed, and no request of a submit is refused.  Everything else may happen. -/
def Undisturbed (p : State × Action) : Prop :=
  match p.2 with
  | .kill => False
  | .user (.login .handleSubmit) => False
  | .user (.signup .handleSubmit) => False
  | .reject i => ∀ a, p.1.pending[i]? = some a → ¬ IsSubmit a
  | _ => True

/-- Only `call` is in flight, besides requests that are no submit's. -/
structure Alone (call : Login.Call) (s : State) : Prop where
  effects : ∀ a ∈ s.effects, ¬ IsSubmit a
  pending : ∀ a ∈ s.pending, IsSubmit a →
    a = .login (.getUsers call) ∨ ∃ u, a = .login (.setLoggedIn call u)
  served : ∀ r ∈ s.served, IsSubmitReady r →
    (∃ data, r = .login (.getUsers call data)) ∨ ∃ u, r = .login (.setLoggedIn call u)

/-- The points at which a submit waits that is going to write the session of
`u`. -/
inductive Waits (u : Account) (call : Login.Call) (s : State) : Prop
  | reading (hAt : .login (.getUsers call) ∈ s.pending)
      (hIn : u ∈ s.disk.accounts call.isAdmin)
      (hOnly : ∀ v ∈ s.disk.accounts call.isAdmin, v.email = call.email → v = u)
  | read {data} (hAt : .login (.getUsers call data) ∈ s.served)
      (hIn : u ∈ Option.getD data [])
      (hOnly : ∀ v ∈ Option.getD data [], v.email = call.email → v = u)
  | writing (hAt : .login (.setLoggedIn call u) ∈ s.pending)

/-- The submit has written the session of `u` and has not been told yet. -/
def Written (u : Account) (call : Login.Call) (h : History) (s : State) : Prop :=
  (∃ p ∈ h, WritesSession p (.login call) u) ∧ .login (.setLoggedIn call u) ∈ s.served

/-- The submit has written the session of `u` and has then shown `HOME`. -/
def Opens (u : Account) (call : Login.Call) (h : History) : Prop :=
  ∃ h₁ q h₂, h = h₁ ++ q :: h₂ ∧ (∃ p ∈ h₁, WritesSession p (.login call) u) ∧
    (∃ j, q.2 = .resolve j ∧ q.1.served[j]? = some (.login (.setLoggedIn call u))) ∧
    ∀ s', app.Step q.1 q.2 s' → s'.ui.focused.screen.name = .HOME

theorem not_isSubmit_of_isLoad {a : Await} (h : IsLoad a) : ¬ IsSubmit a := by
  cases h <;> simp [IsSubmit]

theorem Alone.accounts_serve {call : Login.Call} {s : State} (hAlone : Alone call s)
    {i : Nat} {a : Await} (hAt : s.pending[i]? = some a) (isAdmin : Bool) :
    (app.serve a s.disk).1.accounts isAdmin = s.disk.accounts isAdmin := by
  obtain hSame | ⟨c, data, rfl, -, -⟩ := accounts_serve_cases a s.disk isAdmin
  · exact hSame
  · have hOwn := hAlone.pending _ (List.mem_of_getElem? hAt) trivial
    simp at hOwn

theorem not_isSubmit_of_pressed {ui : Ui} {e : Event} {a : Await} (ha : Pressed ui e a)
    (hLogin : e ≠ .login .handleSubmit) (hSignup : e ≠ .signup .handleSubmit) :
    ¬ IsSubmit a := by
  cases ha <;> simp_all [IsSubmit]

/-- A submit whose handler continues is the one in flight. -/
theorem Alone.continued {call : Login.Call} {s : State} (hAlone : Alone call s) {r : Ready}
    (hr : r ∈ s.served) {a : Await} (ha : Continued r a) (hSubmit : IsSubmit a) :
    a = .login (.getUsers call) ∨ ∃ u, a = .login (.setLoggedIn call u) := by
  cases ha with
  | @loginUsers c data user _ _ =>
      rcases hAlone.served _ hr trivial with ⟨data', hEq⟩ | ⟨u, hEq⟩
      · cases hEq
        exact Or.inr ⟨user, rfl⟩
      · simp at hEq
  | signupUsers _ => simpa using hAlone.served _ hr trivial
  | signupSession => simpa using hAlone.served _ hr trivial
  | listMembers _ => simp [IsSubmit] at hSubmit

theorem isSubmit_of_isSubmitReady {a : Await} {d : Disk}
    (h : IsSubmitReady (app.serve a d).2) : IsSubmit a := by
  cases a with
  | login a => cases a <;> trivial
  | signup a => trivial
  | home a => exact h
  | create a => exact h
  | list a => exact h

theorem Alone.step {call : Login.Call} {s s' : State} {x : Action}
    (hAlone : Alone call s) (hx : app.Step s x s') (hCalm : Undisturbed (s, x)) :
    Alone call s' := by
  cases hx with
  | @user e out hOut =>
      have hNew : ∀ a ∈ out.2.requests, ¬ IsSubmit a := by
        intro a ha
        refine not_isSubmit_of_pressed (handle_requests hOut ha) ?_ ?_
        · rintro rfl
          exact hCalm
        · rintro rfl
          exact hCalm
      refine ⟨?_, ?_, hAlone.served⟩
      · intro a ha
        rcases List.mem_append.mp ha with hOld | hLoad
        · exact hAlone.effects a hOld
        · exact not_isSubmit_of_isLoad (handle_effects hOut hLoad)
      · intro a ha hSubmit
        rcases List.mem_append.mp ha with hOld | hReq
        · exact hAlone.pending a hOld hSubmit
        · exact absurd hSubmit (hNew a hReq)
  | effect hAt =>
      refine ⟨fun a ha => hAlone.effects a (List.mem_of_mem_eraseIdx ha), ?_, hAlone.served⟩
      intro a ha hSubmit
      rw [List.mem_append, List.mem_singleton] at ha
      rcases ha with hOld | rfl
      · exact hAlone.pending a hOld hSubmit
      · exact absurd hSubmit (hAlone.effects _ (List.mem_of_getElem? hAt))
  | @serve i a hAt =>
      refine ⟨hAlone.effects,
        fun b hb => hAlone.pending b (List.mem_of_mem_eraseIdx hb), ?_⟩
      intro r hr hSubmit
      rw [List.mem_append, List.mem_singleton] at hr
      rcases hr with hOld | rfl
      · exact hAlone.served r hOld hSubmit
      · rcases hAlone.pending a (List.mem_of_getElem? hAt)
          (isSubmit_of_isSubmitReady hSubmit) with rfl | ⟨u, rfl⟩
        · exact Or.inl ⟨_, rfl⟩
        · exact Or.inr ⟨u, rfl⟩
  | @resolve i r hAt =>
      have hMem := List.mem_of_getElem? hAt
      refine ⟨?_, ?_, fun q hq => hAlone.served q (List.mem_of_mem_eraseIdx hq)⟩
      · intro a ha
        rcases List.mem_append.mp ha with hOld | hLoad
        · exact hAlone.effects a hOld
        · exact not_isSubmit_of_isLoad (resume_effects hLoad)
      · intro a ha hSubmit
        rcases List.mem_append.mp ha with hOld | hReq
        · exact hAlone.pending a hOld hSubmit
        · exact hAlone.continued hMem (resume_requests hReq) hSubmit
  | reject _ =>
      exact ⟨hAlone.effects, fun a ha => hAlone.pending a (List.mem_of_mem_eraseIdx ha),
        hAlone.served⟩
  | kill => exact absurd hCalm id

/-- The lookup of a list in which only `u` has the typed email finds `u`. -/
theorem afterUsers_found {u : Account} {call : Login.Call}
    {data : Option (List Account)} (hIn : u ∈ data.getD []) (hEmail : u.email = call.email)
    (hOnly : ∀ v ∈ data.getD [], v.email = call.email → v = u) (ui : Ui) :
    (app.resume (.login (.getUsers call data)) ui).2.requests =
      [.login (.setLoggedIn call u)] := by
  show (Login.afterUsers call data).requests.map Await.login = _
  obtain ⟨hNone, -⟩ | ⟨v, hv, hvEmail, hEff⟩ := Login.afterUsers_cases call data
  · exact absurd hEmail (hNone u hIn)
  · rw [hEff, hOnly v hv hvEmail]
    rfl

/-- One step of a submit that waits before its write. -/
theorem Waits.step {u : Account} {call : Login.Call} {h : History} {s s' : State}
    {x : Action} (hEmail : u.email = call.email) (hAlone : Alone call s)
    (hWaits : Waits u call s) (hx : app.Step s x s') (hCalm : Undisturbed (s, x)) :
    Waits u call s' ∨ Written u call (h ++ [(s, x)]) s' := by
  have hKill : x ≠ .kill := by
    rintro rfl
    exact hCalm
  have hSafe : ∀ a, IsSubmit a → ∀ i, x = .reject i → s.pending[i]? ≠ some a := by
    rintro a hSubmit i rfl hAt
    exact hCalm a hAt hSubmit
  cases hWaits with
  | reading hAt hIn hOnly =>
      by_cases hServed : ∃ i, x = .serve i ∧ s.pending[i]? = some (.login (.getUsers call))
      · -- the read is performed: the list it returns still holds `u` alone
        obtain ⟨i, rfl, hi⟩ := hServed
        cases hx with
        | serve hi' =>
            rw [hi, Option.some.injEq] at hi'
            subst hi'
            exact Or.inl (.read (List.mem_append_right _ (List.mem_singleton_self _)) hIn hOnly)
      · have hStays : .login (.getUsers call) ∈ s'.pending :=
          hx.mem_pending hAt (fun i hi hi' => hServed ⟨i, hi, hi'⟩) (hSafe _ trivial) hKill
        have hSame : s'.disk.accounts call.isAdmin = s.disk.accounts call.isAdmin := by
          cases hx with
          | serve hi => exact hAlone.accounts_serve hi _
          | user _ => rfl
          | effect _ => rfl
          | resolve _ => rfl
          | reject _ => rfl
          | kill => exact absurd rfl hKill
        exact Or.inl (.reading hStays (by rwa [hSame]) (by rwa [hSame]))
  | @read data hAt hIn hOnly =>
      by_cases hResolved :
          ∃ j, x = .resolve j ∧ s.served[j]? = some (.login (.getUsers call data))
      · obtain ⟨j, rfl, hj⟩ := hResolved
        cases hx with
        | resolve hj' =>
            rw [hj, Option.some.injEq] at hj'
            subst hj'
            refine Or.inl (.writing ?_)
            simp only [State.issue]
            rw [afterUsers_found hIn hEmail hOnly]
            exact List.mem_append_right _ (List.mem_singleton_self _)
      · exact Or.inl (.read (hx.mem_served hAt (fun j hj hj' => hResolved ⟨j, hj, hj'⟩) hKill)
          hIn hOnly)
  | writing hAt =>
      by_cases hServed :
          ∃ i, x = .serve i ∧ s.pending[i]? = some (.login (.setLoggedIn call u))
      · obtain ⟨i, rfl, hi⟩ := hServed
        refine Or.inr ⟨⟨(s, .serve i), by simp, i, _, rfl, hi, .login call u⟩, ?_⟩
        cases hx with
        | serve hi' =>
            rw [hi, Option.some.injEq] at hi'
            subst hi'
            exact List.mem_append_right _ (List.mem_singleton_self _)
      · exact Or.inl (.writing (hx.mem_pending hAt
          (fun i hi hi' => hServed ⟨i, hi, hi'⟩) (hSafe _ trivial) hKill))

/-- One step of a submit that has written the session. -/
theorem Written.step {u : Account} {call : Login.Call} {h : History} {s s' : State}
    {x : Action} (hWritten : Written u call h s) (hx : app.Step s x s')
    (hCalm : Undisturbed (s, x)) :
    Written u call (h ++ [(s, x)]) s' ∨ Opens u call (h ++ [(s, x)]) := by
  obtain ⟨⟨p, hp, hWrote⟩, hAt⟩ := hWritten
  have hKill : x ≠ .kill := by
    rintro rfl
    exact hCalm
  by_cases hResolved :
      ∃ j, x = .resolve j ∧ s.served[j]? = some (.login (.setLoggedIn call u))
  · obtain ⟨j, rfl, hj⟩ := hResolved
    refine Or.inr ⟨h, (s, .resolve j), [], rfl, ⟨p, hp, hWrote⟩, ⟨j, rfl, hj⟩, ?_⟩
    intro t ht
    cases ht with
    | resolve hj' =>
        rw [hj, Option.some.injEq] at hj'
        subst hj'
        exact name_focused_setLoggedIn call u _
  · exact Or.inl ⟨⟨p, List.mem_append_left _ hp, hWrote⟩,
      hx.mem_served hAt (fun j hj hj' => hResolved ⟨j, hj, hj'⟩) hKill⟩

theorem Opens.later {u : Account} {call : Login.Call} {h : History}
    (hOpens : Opens u call h) (p : State × Action) : Opens u call (h ++ [p]) := by
  obtain ⟨h₁, q, h₂, rfl, hWrote, hResolve, hHome⟩ := hOpens
  exact ⟨h₁, q, h₂ ++ [p], by simp, hWrote, hResolve, hHome⟩

/-- Whatever happens around it, a submit that is left alone is at one of its
four points, or has opened the session. -/
theorem waits_or_opens {u : Account} {call : Login.Call} {s₁ s₂ : State}
    (hEmail : u.email = call.email) (hAlone : Alone call s₁) (hWaits : Waits u call s₁)
    {ys : List Action} (hRun : app.exec s₁ ys = some s₂)
    (hCalm : ∀ p ∈ app.trace s₁ ys, Undisturbed p) :
    Waits u call s₂ ∨ Written u call (app.trace s₁ ys) s₂ ∨
      Opens u call (app.trace s₁ ys) := by
  have hAll := app.exec_induction (fun s x => Undisturbed (s, x))
    (fun h s => Alone call s ∧
      (Waits u call s ∨ Written u call h s ∨ Opens u call h))
    ⟨hAlone, Or.inl hWaits⟩ ?_ hCalm hRun
  · exact hAll.2
  · rintro h s x s' - hOk ⟨hHere, hPhase⟩ hx
    refine ⟨hHere.step hx hOk, ?_⟩
    rcases hPhase with hWaits | hWritten | hOpens
    · rcases hWaits.step (h := h) hEmail hHere hx hOk with hNext | hNext
      · exact Or.inl hNext
      · exact Or.inr (Or.inl hNext)
    · exact Or.inr (hWritten.step hx hOk)
    · exact Or.inr (Or.inr (hOpens.later _))

/-! ## Left alone, the submit gets there -/

theorem undisturbed_of_serve_or_resolve {p : State × Action} {i : Nat}
    (h : p.2 = .serve i ∨ p.2 = .resolve i) : Undisturbed p := by
  rcases h with h | h <;> simp [Undisturbed, h]

/-- With nothing else happening, four steps take a submit from its press to the
open session. -/
theorem opens_undisturbed {u : Account} {call : Login.Call} {s₁ : State}
    {queue : List Await} (hEmail : u.email = call.email)
    (hPending : s₁.pending = queue ++ [.login (.getUsers call)])
    (hIn : u ∈ s₁.disk.accounts call.isAdmin)
    (hOnly : ∀ v ∈ s₁.disk.accounts call.isAdmin, v.email = call.email → v = u) :
    ∃ ys s₂, app.exec s₁ ys = some s₂ ∧ (∀ p ∈ app.trace s₁ ys, Undisturbed p) ∧
      s₂.disk.userLoggedIn = some u ∧ s₂.ui.focused.screen.name = .HOME := by
  have hRead := app.exec_answer_last hPending
  have hFound := afterUsers_found hIn hEmail hOnly s₁.ui
  -- the state after the read: its continuation has issued the write of `u`
  let s₂ : State := ({ s₁ with pending := queue } : State).issue
    (app.resume (.login (.getUsers call (s₁.disk.getUsers call.isAdmin))) s₁.ui)
  have hPending₂ : s₂.pending = queue ++ [.login (.setLoggedIn call u)] := by
    show queue ++ (app.resume _ s₁.ui).2.requests = _
    rw [hFound]
  have hWrite := app.exec_answer_last hPending₂
  -- and the state after the write
  let s₃ : State := ({ s₂ with
      disk := (app.serve (.login (.setLoggedIn call u)) s₂.disk).1
      pending := queue } : State).issue
    (app.resume (app.serve (.login (.setLoggedIn call u)) s₂.disk).2 s₂.ui)
  refine ⟨[.serve queue.length, .resolve s₁.served.length] ++
    [.serve queue.length, .resolve s₂.served.length], s₃, ?_, ?_, ?_, ?_⟩
  · rw [app.exec_append, hRead, Option.bind_some]
    exact hWrite
  · intro p hp
    have hMem := app.mem_of_mem_trace hp
    simp only [List.cons_append, List.nil_append, List.mem_cons, List.not_mem_nil,
      or_false] at hMem
    rcases hMem with h | h | h | h
    · exact undisturbed_of_serve_or_resolve (Or.inl h)
    · exact undisturbed_of_serve_or_resolve (Or.inr h)
    · exact undisturbed_of_serve_or_resolve (Or.inl h)
    · exact undisturbed_of_serve_or_resolve (Or.inr h)
  · rfl
  · exact name_focused_setLoggedIn call u _

/-- What a press of the button on an accepted form does. -/
theorem press_login {s s₁ : State} {st : Login.State}
    (hs : s.ui.focused.screen = .AUTH (.LOGIN st)) (hAcc : st.accepted = true)
    (hx : app.Step s (.user (.login .handleSubmit)) s₁) :
    s₁.disk = s.disk ∧ s₁.effects = s.effects ∧ s₁.served = s.served ∧
      s₁.pending = s.pending ++
        [.login (.getUsers (st.call s.ui.focused.key s.ui.nextCall))] := by
  cases hx with
  | user hOut =>
      cases handle_cases hOut with
      | login hs' hEff =>
          obtain rfl : st = _ := by simpa [hs] using hs'
          unfold Login.handle at hEff
          split at hEff
          · simp at hEff
          · rw [Option.some.injEq] at hEff
            subst hEff
            rw [Login.handleSubmit_accepted hAcc]
            simp [State.issue, Ui.perform]

/-- A reachable state with no submit in flight, and one press more. -/
theorem alone_of_press {xs : List Action} {s s₁ : State} (hRun : run xs = some s)
    {call : Login.Call} (hNone : NoSubmit s) (hEffects : s₁.effects = s.effects)
    (hServed : s₁.served = s.served)
    (hPending : s₁.pending = s.pending ++ [.login (.getUsers call)]) :
    Alone call s₁ where
  effects a ha := by
    rw [hEffects] at ha
    exact not_isSubmit_of_isLoad (isLoad_of_mem_effects hRun a ha)
  pending a ha hSubmit := by
    rw [hPending, List.mem_append, List.mem_singleton] at ha
    rcases ha with hOld | rfl
    · exact absurd hSubmit (hNone.1 a hOld)
    · exact Or.inl rfl
  served r hr hSubmit := by
    rw [hServed] at hr
    exact absurd hSubmit (hNone.2 r hr)

/-! ## The contract of Login -/

/-- **What a Login press opens.**

First half: in a run in which every Login submit that names a registered email
also names its password, whenever a Login submit writes the session record, it
was pressed with that record's email and password.

Second half, in any run: when no submit is in flight and the form on `LOGIN`
passes the validators and matches a stored account of the chosen role, a press
leads to that account's session.  However the run goes on, with nothing that
disturbs the submit, it is on its way there or has opened the session and shown
`HOME`; and there is a way for it to do so. -/
theorem login_sound (xs : List Action) (s : State) (hRun : run xs = some s) :
    (AllHonest (app.trace init xs) →
      ∀ h₁ p h₂ call record, app.trace init xs = h₁ ++ p :: h₂ →
        WritesSession p (.login call) record →
        (∃ q ∈ h₁, Submits q (.login call)) ∧ call.email = record.email ∧
          call.password = record.password) ∧
    ∀ st u s₁, s.ui.focused.screen = .AUTH (.LOGIN st) → st.accepted = true →
      u ∈ s.disk.accounts st.isAdmin → u.email = st.email.val →
      u.password = st.password.val → NoSubmit s →
      app.Step s (.user (.login .handleSubmit)) s₁ →
      (∀ ys s₂, app.exec s₁ ys = some s₂ → (∀ p ∈ app.trace s₁ ys, Undisturbed p) →
        Waits u (st.call s.ui.focused.key s.ui.nextCall) s₂ ∨
          Written u (st.call s.ui.focused.key s.ui.nextCall) (app.trace s₁ ys) s₂ ∨
          Opens u (st.call s.ui.focused.key s.ui.nextCall) (app.trace s₁ ys)) ∧
      ∃ ys s₂, app.exec s₁ ys = some s₂ ∧ (∀ p ∈ app.trace s₁ ys, Undisturbed p) ∧
        s₂.disk.userLoggedIn = some u ∧ s₂.ui.focused.screen.name = .HOME := by
  refine ⟨?_, ?_⟩
  · intro hHonest h₁ p h₂ call record hSplit hWrites
    obtain ⟨ys, -, -, -, hPre, -, -, hTrace, -⟩ := app.exec_of_trace_append hRun hSplit
    obtain ⟨m, x⟩ := p
    refine login_matches ⟨ys, hPre, hTrace⟩ ?_ hWrites
    intro q hq
    exact hHonest q (by rw [hSplit]; exact List.mem_append_left _ hq)
  · intro st u s₁ hs hAcc hIn hEmail _ hNone hx
    obtain ⟨hDisk, hEffects, hServed, hPending⟩ := press_login hs hAcc hx
    have hOnly : ∀ v ∈ s₁.disk.accounts st.isAdmin, v.email = st.email.val → v = u := by
      intro v hv hvEmail
      rw [hDisk] at hv
      exact (storesOk_run hRun st.isAdmin).eq_of_email hv hIn (hvEmail.trans hEmail.symm)
    have hIn₁ : u ∈ s₁.disk.accounts st.isAdmin := by rwa [hDisk]
    refine ⟨?_, opens_undisturbed hEmail hPending hIn₁ hOnly⟩
    intro ys s₂ hRest hCalm
    refine waits_or_opens hEmail (alone_of_press hRun hNone hEffects hServed hPending)
      (.reading ?_ hIn₁ hOnly) hRest hCalm
    rw [hPending]
    exact List.mem_append_right _ (List.mem_singleton_self _)

/-- Ann has signed up and logged out, and the form of `LOGIN` is filled in with
her email. -/
def annReturns (password : JsString) : List Action :=
  annSignedUp ++ [pressLogout] ++ answered ++ loaded ++ loaded
    ++ fillLogin (js "ann@x.co") password

/-- Ann logs in with her password, up to the point where her session is about
to be written. -/
def annAboutToEnter : List Action := annReturns annCall.password ++ [pressLogin] ++ answered

/-- Ann's press on `LOGIN`. -/
def annLoginCall : Login.Call := ⟨8, 3, annCall.email, annCall.password, false⟩

theorem login_sound_ann :
    (∃ s p, run (annAboutToEnter ++ [.serve 0]) = some s ∧
      p ∈ app.trace init (annAboutToEnter ++ [.serve 0]) ∧
      WritesSession p (.login annLoginCall) annCall.account ∧
      (∃ q ∈ app.trace init annAboutToEnter, Submits q (.login annLoginCall)) ∧
      annLoginCall.password = annCall.account.password) ∧
    ∃ s s₁, run (annReturns annCall.password) = some s ∧
      app.Step s (.user (.login .handleSubmit)) s₁ ∧
      ∃ ys s₂, app.exec s₁ ys = some s₂ ∧ s₂.disk.userLoggedIn = some annCall.account := by
  refine ⟨?_, ?_⟩
  · obtain ⟨m, hm⟩ := Option.isSome_iff_exists.mp
      (show (run annAboutToEnter).isSome = true by decide)
    obtain ⟨s, hRun⟩ := Option.isSome_iff_exists.mp
      (show (run (annAboutToEnter ++ [.serve 0])).isSome = true by decide)
    have hHonest : AllHonest (app.trace init (annAboutToEnter ++ [.serve 0])) :=
      show ∀ p ∈ app.trace init (annAboutToEnter ++ [.serve 0]), HonestLogin p by decide
    have hAt : m.pending[0]? = some (.login (.setLoggedIn annLoginCall annCall.account)) :=
      seen_of_run hm (f := fun s => s.pending[0]?) (by decide)
    have hWrites : WritesSession (m, .serve 0) (.login annLoginCall) annCall.account :=
      ⟨0, _, rfl, hAt, .login annLoginCall annCall.account⟩
    have hSplit := app.trace_snoc (.serve 0) hm
    obtain ⟨hPressed, -, hPassword⟩ :=
      (login_sound _ s hRun).1 hHonest _ (m, .serve 0) [] annLoginCall _ hSplit hWrites
    exact ⟨s, (m, .serve 0), hRun, by rw [hSplit]; simp, hWrites, hPressed, hPassword⟩
  · obtain ⟨s, hRun⟩ := Option.isSome_iff_exists.mp
      (show (run (annReturns annCall.password)).isSome = true by decide)
    obtain ⟨t, hPressed⟩ := Option.isSome_iff_exists.mp
      (show (run (annReturns annCall.password ++ [pressLogin])).isSome = true by decide)
    have hx := app.step_of_exec_snoc hRun hPressed
    have hScreen : s.ui.focused.screen = .AUTH (.LOGIN
        { email := .typed annCall.email, password := .typed annCall.password
          isLoading := false }) :=
      seen_of_run hRun (f := fun s => s.ui.focused.screen) (by decide)
    have hStored : annCall.account ∈ s.disk.accounts false :=
      of_decide_eq_true (seen_of_run hRun
        (f := fun s => decide (annCall.account ∈ s.disk.accounts false)) (by decide))
    have hIdle : (s.pending, s.served) = ([], []) :=
      seen_of_run hRun (f := fun s => (s.pending, s.served)) (by decide)
    rw [Prod.mk.injEq] at hIdle
    obtain ⟨-, ys, s₂, hExec, -, hSession, -⟩ :=
      (login_sound _ s hRun).2 _ annCall.account t hScreen (by decide) hStored rfl rfl
        (by simp [NoSubmit, hIdle.1, hIdle.2]) hx
    exact ⟨s, t, hRun, hx, ys, s₂, hExec, hSession⟩

/-- Someone types Ann's email and another password, and the read of the
accounts has completed. -/
def wrongPassword : List Action := annReturns (js "guess") ++ [pressLogin] ++ answered

/-- The lookup does not compare passwords: Ann's session is written, and `HOME`
is shown. -/
theorem login_ignores_password :
    ¬ ∀ xs s, run xs = some s →
      ∀ h₁ p h₂ call record, app.trace init xs = h₁ ++ p :: h₂ →
        WritesSession p (.login call) record → s.ui.focused.screen.name = .HOME →
        call.password = record.password := by
  intro hSound
  let call : Login.Call := ⟨8, 3, js "ann@x.co", js "guess", false⟩
  obtain ⟨m, hm⟩ := Option.isSome_iff_exists.mp
    (show (run wrongPassword).isSome = true by decide)
  obtain ⟨m', hm'⟩ := Option.isSome_iff_exists.mp
    (show (run (wrongPassword ++ [.serve 0])).isSome = true by decide)
  obtain ⟨s, hRun⟩ := Option.isSome_iff_exists.mp
    (show (run (wrongPassword ++ [.serve 0] ++ [.resolve 0])).isSome = true by decide)
  have hHome : (run (wrongPassword ++ [.serve 0] ++ [.resolve 0])).map
      (fun s => s.ui.focused.screen.name) = some .HOME := by decide
  have hAt : m.pending[0]? = some (.login (.setLoggedIn call annCall.account)) := by
    have hQueue : (run wrongPassword).bind (fun s => s.pending[0]?) =
        some (.login (.setLoggedIn call annCall.account)) := by decide
    simpa [hm] using hQueue
  rw [hRun, Option.map_some, Option.some.injEq] at hHome
  have hSplit : app.trace init (wrongPassword ++ [.serve 0] ++ [.resolve 0]) =
      app.trace init wrongPassword ++ (m, .serve 0) :: [(m', .resolve 0)] := by
    rw [app.trace_snoc _ hm', app.trace_snoc _ hm, List.append_assoc]
    rfl
  have hSame := hSound _ s hRun _ _ _ call annCall.account hSplit
    ⟨0, _, rfl, hAt, .login call annCall.account⟩ hHome
  exact absurd hSame (by decide)

end TaskManager.Runs
