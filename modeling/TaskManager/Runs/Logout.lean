import TaskManager.Runs.Login
import TaskManager.Runs.Screens

/-!
# What a logout ends

A logout removes the session record and then shows `LOGIN`.  A submit that was
pressed before the logout may still be waiting for the store, and nothing stops
it: if it goes on to write the session after the logout was pressed, its write
lies behind the removal and logs the user back in.  `login_survives_logout` is
such a run of two Login presses.

`logout_final` says that there is no other way while the callbacks of logouts
keep their place.  In a run in which no submit goes on to write the session
after a logout pressed later than the submit, a logout ends the session until a
submit pressed after it writes a new one.  The proof follows the line of what is
in flight: behind a logout no session is written, and while a logout waits no
submit can be pressed.
-/

namespace TaskManager.Runs

open TaskManager.Verified.JsText
open TaskManager.Verified.EventLoop
open TaskManager.Shared
open TaskManager.Pages
open TaskManager.Routes
open TaskManager.App

/-! ## The runs in question -/

/-- The store performs in the order of issue, and nobody opens a task. -/
def LogoutStep (x : Action) : Prop := x.Queued ∧ ∀ e, x = .user e → NoTask e

/-- The step is the logout press number `id`. -/
def PressesLogout (p : State × Action) (id : Nat) : Prop :=
  p.2 = .user (.home .logout) ∧ p.1.ui.focused.screen.name = .HOME ∧ p.1.ui.nextCall = id

/-- The step performs the removal of the logout press number `id`. -/
def LogsOut (p : State × Action) (id : Nat) : Prop :=
  ∃ i key, p.2 = .serve i ∧ p.1.pending[i]? = some (.home (.logout id key))

/-- At this step the submit goes on to write the session. -/
def IssuesSession (p : State × Action) (submit : Submit) : Prop :=
  ∃ i r a record, p.2 = .resolve i ∧ p.1.served[i]? = some r ∧
    a ∈ (app.resume r p.1.ui).2.requests ∧ SessionRequest submit record a

/-- A submit goes on to write the session only when no logout has been pressed
since the submit was.  Presses are numbered in the order they are made. -/
def Timely (h : History) (p : State × Action) : Prop :=
  ∀ submit, IssuesSession p submit → ∀ q ∈ h, ∀ id, PressesLogout q id → id < submit.id

/-- Every step of the history is timely. -/
def AllTimely (h : History) : Prop := ∀ h₁ p h₂, h = h₁ ++ p :: h₂ → Timely h₁ p

/-- A point of a history that goes on by one step is the step, or a point before
it. -/
theorem point_of_snoc {h h₁ h₂ : History} {p q : State × Action}
    (hSplit : h ++ [p] = h₁ ++ q :: h₂) :
    (h₂ = [] ∧ h = h₁ ∧ p = q) ∨ ∃ h₃, h₂ = h₃ ++ [p] ∧ h = h₁ ++ q :: h₃ := by
  rcases List.eq_nil_or_concat h₂ with rfl | ⟨h₃, p', rfl⟩
  · obtain ⟨rfl, hEq⟩ := List.append_inj' hSplit rfl
    exact Or.inl ⟨rfl, rfl, by simpa using hEq⟩
  · rw [List.concat_eq_append] at hSplit ⊢
    have hAssoc : h ++ [p] = (h₁ ++ q :: h₃) ++ [p'] := by simpa using hSplit
    obtain ⟨rfl, hEq⟩ := List.append_inj' hAssoc rfl
    obtain rfl : p = p' := by simpa using hEq
    exact Or.inr ⟨h₃, rfl, rfl⟩

/-- A timely step after timely steps. -/
theorem AllTimely.snoc {h : History} {p : State × Action} (hAll : AllTimely h)
    (hLast : Timely h p) : AllTimely (h ++ [p]) := by
  intro h₁ q h₂ hSplit
  rcases point_of_snoc hSplit with ⟨-, rfl, rfl⟩ | ⟨h₃, -, hOld⟩
  · exact hLast
  · exact hAll h₁ q h₃ hOld

theorem AllTimely.init {h : History} {p : State × Action} (hAll : AllTimely (h ++ [p])) :
    AllTimely h := by
  rintro h₁ q h₂ rfl
  exact hAll h₁ q (h₂ ++ [p]) (by simp)

/-- The step takes the root navigator to `HOME` from another route. -/
def MovesHome (p : State × Action) : Prop :=
  p.1.ui.focused.screen.name ≠ .HOME ∧
    ∃ s', app.Step p.1 p.2 s' ∧ s'.ui.focused.screen.name = .HOME

/-! ## What is in flight -/

/-- What a request in flight, and the continuation it turns into, is about. -/
inductive Errand where
  /-- a submit that has not written the session yet -/
  | submit (id : Nat)
  | session
  | logout (id : Nat)
  | check (key : Nat)
  | other
  deriving DecidableEq, Repr

/-- The errand of a request. -/
def errand : Await → Errand
  | .login (.isUserLoggedIn key) => .check key
  | .login (.getUsers call) => .submit call.id
  | .login (.setLoggedIn _ _) => .session
  | .signup (.getUsers call) => .submit call.id
  | .signup (.setUsers call _) => .submit call.id
  | .signup (.setLoggedIn _) => .session
  | .home (.logout id _) => .logout id
  | _ => .other

/-- The errand of a continuation. -/
def readyErrand : Ready → Errand
  | .login (.isUserLoggedIn key _) => .check key
  | .login (.getUsers call _) => .submit call.id
  | .login (.setLoggedIn _ _) => .session
  | .signup (.getUsers call _) => .submit call.id
  | .signup (.setUsers call) => .submit call.id
  | .signup (.setLoggedIn _) => .session
  | .home (.logout id _) => .logout id
  | _ => .other

/-- A served request goes on with its errand. -/
theorem readyErrand_serve (a : Await) (d : Disk) :
    readyErrand (app.serve a d).2 = errand a := by
  rcases a with a | a | a | a | a <;> cases a <;> rfl

/-- The errands in flight, oldest first. -/
abbrev errands (s : State) : List Errand := Program.line errand readyErrand s

/-- A callback keeps its place: none runs ahead of an older logout's, and a
logout's not ahead of an older one that leads to `HOME`. -/
def InPlace (p : State × Action) : Prop :=
  ∀ before r after, p.1.served = before ++ r :: after → p.2 = .resolve before.length →
    ∀ r' ∈ before, (∀ id, readyErrand r' ≠ .logout id) ∧
      ∀ id, readyErrand r = .logout id → opens r' ≠ some .HOME

/-- A logout is among the given errands. -/
def LogoutIn (line : List Errand) : Prop := ∃ id, .logout id ∈ line

/-- The errands `line` in flight, and the number `next` of the next press. -/
structure Fence (h : History) (line : List Errand) (next : Nat) : Prop where
  /-- submits have been numbered -/
  numbered : ∀ n, .submit n ∈ line → n < next
  /-- logouts have been pressed -/
  pressed : ∀ id, .logout id ∈ line → ∃ q ∈ h, PressesLogout q id
  /-- a submit was pressed before every logout in flight with it -/
  early : ∀ n, .submit n ∈ line → ∀ id, .logout id ∈ line → n < id
  /-- behind a logout no session is written -/
  behind : line.Pairwise fun e e' => (∃ id, e = .logout id) → e' ≠ .session

/-- With nothing in flight there is nothing to keep apart. -/
theorem Fence.nil (h : History) (next : Nat) : Fence h [] next := by
  constructor <;> simp

/-- What is left of the errands is fenced in as before. -/
theorem Fence.sublist {h : History} {line rest : List Errand} {next : Nat}
    (hFence : Fence h line next) (hRest : rest.Sublist line) : Fence h rest next where
  numbered n hn := hFence.numbered n (hRest.subset hn)
  pressed id hid := hFence.pressed id (hRest.subset hid)
  early n hn id hid := hFence.early n (hRest.subset hn) id (hRest.subset hid)
  behind := hFence.behind.sublist hRest

/-- The fence stands as the history and the numbers grow. -/
theorem Fence.later {h : History} {line : List Errand} {next next' : Nat}
    (hFence : Fence h line next) (p : State × Action) (hNext : next ≤ next') :
    Fence (h ++ [p]) line next' where
  numbered n hn := Nat.lt_of_lt_of_le (hFence.numbered n hn) hNext
  pressed id hid := by
    obtain ⟨q, hq, hPress⟩ := hFence.pressed id hid
    exact ⟨q, List.mem_append_left _ hq, hPress⟩
  early := hFence.early
  behind := hFence.behind

/-- Requests that are no logout queue up behind.  While a logout is in flight
they write no session and come from submits pressed before it. -/
theorem Fence.append {h : History} {line : List Errand} {next : Nat} {new : List Errand}
    (hFence : Fence h line next) (hPlain : ∀ id, .logout id ∉ new)
    (hSubmit : ∀ n, .submit n ∈ new → n < next ∧ ∀ id, .logout id ∈ line → n < id)
    (hWrite : LogoutIn line → .session ∉ new) : Fence h (line ++ new) next where
  numbered n hn :=
    (List.mem_append.mp hn).elim (hFence.numbered n) fun hNew => (hSubmit n hNew).1
  pressed id hid :=
    (List.mem_append.mp hid).elim (hFence.pressed id) fun hNew => absurd hNew (hPlain id)
  early n hn id hid := by
    have hOld : .logout id ∈ line := (List.mem_append.mp hid).resolve_right (hPlain id)
    rcases List.mem_append.mp hn with hIn | hNew
    · exact hFence.early n hIn id hOld
    · exact (hSubmit n hNew).2 id hOld
  behind := by
    refine List.pairwise_append.mpr ⟨hFence.behind, ?_, ?_⟩
    · refine List.pairwise_of_forall_mem_list fun e he _ _ hOut => ?_
      obtain ⟨id, rfl⟩ := hOut
      exact absurd he (hPlain id)
    · rintro e he e' he' ⟨id, rfl⟩ rfl
      exact hWrite ⟨id, he⟩ he'

/-- A logout that is pressed now queues up behind everything. -/
theorem Fence.logout {h : History} {line : List Errand} {next : Nat}
    (hFence : Fence h line next) {p : State × Action} (hPress : PressesLogout p next) :
    Fence (h ++ [p]) (line ++ [.logout next]) (next + 1) where
  numbered n hn := by
    have hOld : .submit n ∈ line := by simpa using hn
    exact Nat.lt_succ_of_lt (hFence.numbered n hOld)
  pressed id hid := by
    rcases List.mem_append.mp hid with hOld | hNew
    · obtain ⟨q, hq, hOld⟩ := hFence.pressed id hOld
      exact ⟨q, List.mem_append_left _ hq, hOld⟩
    · obtain rfl : id = next := by simpa using hNew
      exact ⟨p, by simp, hPress⟩
  early n hn id hid := by
    have hOld : .submit n ∈ line := by simpa using hn
    rcases List.mem_append.mp hid with hIn | hNew
    · exact hFence.early n hOld id hIn
    · obtain rfl : id = next := by simpa using hNew
      exact hFence.numbered n hOld
  behind := by
    refine List.pairwise_append.mpr ⟨hFence.behind, List.pairwise_singleton _ _, ?_⟩
    intro e _ e' he' _
    simp [List.mem_singleton.mp he']

/-! ## While a logout is in flight -/

/-- Behind the launch check of the screen instance `key` there is no logout. -/
def CheckLast (key : Nat) (line : List Errand) : Prop :=
  line.Pairwise fun e e' => e = .check key → ∀ id, e' ≠ .logout id

/-- A check stays behind the logouts when none is added. -/
theorem CheckLast.append {key : Nat} {line new : List Errand} (h : CheckLast key line)
    (hNew : ∀ id, .logout id ∉ new) : CheckLast key (line ++ new) := by
  have hNone : ∀ e' ∈ new, ∀ id, e' ≠ .logout id := by
    rintro e' he' id rfl
    exact hNew id he'
  refine List.pairwise_append.mpr ⟨h, ?_, fun _ _ e' he' _ => hNone e' he'⟩
  exact List.pairwise_of_forall_mem_list fun _ _ e' he' _ => hNone e' he'

/-- `LOGIN` is shown, and loads until every logout in flight is done. -/
def Locked (s : State) : Prop :=
  ∃ st, s.ui.focused.screen = .AUTH (.LOGIN st) ∧ st.isLoading = true ∧
    CheckLast s.ui.focused.key (errands s)

/-- Nothing in flight leads to `HOME`, and no submit can be pressed. -/
structure Closed (s : State) : Prop where
  session : s.disk.userLoggedIn = none
  served : ∀ r ∈ s.served, opens r ≠ some .HOME
  line : .session ∉ errands s
  locked : Locked s

/-- What a timely run keeps: the fence around the logouts in flight, and nothing behind one
that leads back to `HOME`. -/
structure Fenced (h : History) (s : State) : Prop where
  one : OneScreen s.ui
  fence : Fence h (errands s) s.ui.nextCall
  /-- a logout that has been performed left no session -/
  removed : ∀ r ∈ s.served, ∀ id, readyErrand r = .logout id → s.disk.userLoggedIn = none
  /-- and nothing performed behind it leads to `HOME` -/
  order : s.served.Pairwise fun r r' =>
    (∃ id, readyErrand r = .logout id) → opens r' ≠ some .HOME
  /-- away from `HOME` nothing leads back while a logout is in flight -/
  away : LogoutIn (errands s) → s.ui.focused.screen.name ≠ .HOME → Closed s

/-- The first start has nothing in flight. -/
theorem fenced_init : Fenced [] init where
  one := ⟨rfl, Or.inl rfl⟩
  fence := .nil _ _
  removed := by simp [init]
  order := List.Pairwise.nil
  away := by simp [LogoutIn, Program.line, init]

theorem LogoutIn.mono {line line' : List Errand} (h : LogoutIn line) (hSub : line ⊆ line') :
    LogoutIn line' := by
  obtain ⟨id, hid⟩ := h
  exact ⟨id, hSub hid⟩

theorem LogoutIn.of_append {line new : List Errand} (hNew : ∀ id, .logout id ∉ new)
    (h : LogoutIn (line ++ new)) : LogoutIn line := by
  obtain ⟨id, hid⟩ := h
  exact ⟨id, (List.mem_append.mp hid).resolve_right (hNew id)⟩

/-- A write of a record is on the errand of a session. -/
theorem errand_of_write {a : Await} {record : Account}
    (h : sessionWrite a = some (some record)) : errand a = .session := by
  obtain ⟨submit, hRequest⟩ := sessionWrite_eq_some h
  cases hRequest <;> rfl

/-- Only a session write, or a check that finds a session, leads to `HOME`. -/
theorem serve_closed {a : Await} {d : Disk} (hNone : d.userLoggedIn = none)
    (ha : errand a ≠ .session) :
    (app.serve a d).1.userLoggedIn = none ∧ opens (app.serve a d).2 ≠ some .HOME := by
  constructor
  · rw [userLoggedIn_serve]
    rcases hWrite : sessionWrite a with _ | _ | record
    · exact hNone
    · rfl
    · exact absurd (errand_of_write hWrite) ha
  · cases a with
    | login a =>
        cases a with
        | isUserLoggedIn key =>
            simp [app, App.serve, Login.Await.serve, opens, Login.hasEmail, hNone]
        | getUsers call => simp [app, App.serve, Login.Await.serve, opens]
        | setLoggedIn call record => exact absurd rfl ha
    | signup a =>
        cases a with
        | getUsers call => simp [app, App.serve, Signup.Await.serve, opens]
        | setUsers call data => simp [app, App.serve, Signup.Await.serve, opens]
        | setLoggedIn call => exact absurd rfl ha
    | home a => cases a <;> simp [app, App.serve, Home.Await.serve, opens]
    | create a => cases a <;> simp [app, App.serve, TaskCreation.Await.serve, opens]
    | list a => cases a <;> simp [app, App.serve, MembersList.Await.serve, opens]

/-- A written session opens `HOME`. -/
theorem opens_of_session {r : Ready} (h : readyErrand r = .session) : opens r = some .HOME := by
  unfold readyErrand at h
  split at h <;> first | rfl | simp at h

/-- Only a logout opens `AUTH`. -/
theorem logout_of_opens {r : Ready} (h : opens r = some .AUTH) :
    ∃ id, readyErrand r = .logout id := by
  unfold opens at h
  split at h
  · split at h <;> simp at h
  · simp at h
  · simp at h
  · exact ⟨_, rfl⟩
  · simp at h

/-- A request keeps its place among the errands when it is served. -/
theorem Fenced.serve {h : History} {s : State} {a : Await} {as : List Await}
    (hInv : Fenced h s) (hPending : s.pending = a :: as) :
    Fenced (h ++ [(s, .serve 0)]) (app.serveHead s a as) := by
  have hLine : errands (app.serveHead s a as) = errands s :=
    Program.line_serve readyErrand_serve hPending
  have hMem : errand a ∈ s.pending.map errand := by simp [hPending]
  -- no session is written behind a logout that has been performed
  have hBehind : ∀ r ∈ s.served, ∀ id, readyErrand r = .logout id → errand a ≠ .session := by
    intro r hr id hOut
    exact (List.pairwise_append.mp hInv.fence.behind).2.2 _ (List.mem_map_of_mem hr) _ hMem
      ⟨id, hOut⟩
  refine ⟨hInv.one, ?_, ?_, ?_, ?_⟩
  · rw [hLine]
    exact hInv.fence.later _ (Nat.le_refl _)
  · intro r hr id hOut
    rcases List.mem_append.mp hr with hOld | hNew
    · exact (serve_closed (hInv.removed r hOld id hOut) (hBehind r hOld id hOut)).1
    · rw [List.mem_singleton.mp hNew, readyErrand_serve] at hOut
      cases a with
      | home a =>
          cases a with
          | logout id' key => rfl
          | getUserInfo key => simp [errand] at hOut
      | login a => cases a <;> simp [errand] at hOut
      | signup a => cases a <;> simp [errand] at hOut
      | create a => simp [errand] at hOut
      | list a => simp [errand] at hOut
  · refine List.pairwise_append.mpr ⟨hInv.order, List.pairwise_singleton _ _, ?_⟩
    rintro r hr r' hr' ⟨id, hOut⟩
    rw [List.mem_singleton.mp hr']
    exact (serve_closed (hInv.removed r hr id hOut) (hBehind r hr id hOut)).2
  · intro hIn hName
    rw [hLine] at hIn
    obtain ⟨hSession, hServed, hNone, hLocked⟩ := hInv.away hIn hName
    have hWrite : errand a ≠ .session := by
      intro hEq
      exact hNone (hEq ▸ List.mem_append_right _ hMem)
    obtain ⟨hSession', hNew⟩ := serve_closed hSession hWrite
    refine ⟨hSession', fun r hr => ?_, hLine ▸ hNone, ?_⟩
    · rcases List.mem_append.mp hr with hOld | hHead
      · exact hServed r hOld
      · rw [List.mem_singleton.mp hHead]
        exact hNew
    · unfold Locked
      rw [hLine]
      exact hLocked

/-- A relaunch leaves nothing in flight but its check. -/
theorem Fenced.kill {h : History} {s : State} :
    Fenced (h ++ [(s, .kill)]) (app.boot s.disk s.ui) where
  one := ⟨rfl, Or.inl rfl⟩
  fence := .nil _ _
  removed := by simp [Program.boot]
  order := List.Pairwise.nil
  away := by simp [LogoutIn, Program.line, Program.boot, app, launch]

/-- A refused request is gone from the errands. -/
theorem Fenced.reject {h : History} {s : State} {a : Await} {as : List Await}
    (hInv : Fenced h s) (hPending : s.pending = a :: as) :
    Fenced (h ++ [(s, .reject 0)]) { s with pending := as } := by
  have hLine : (errands { s with pending := as }).Sublist (errands s) :=
    Program.line_reject hPending
  refine ⟨hInv.one, (hInv.fence.sublist hLine).later _ (Nat.le_refl _), hInv.removed, hInv.order,
    fun hIn hName => ?_⟩
  obtain ⟨hSession, hServed, hNone, st, hScreen, hLoading, hCheck⟩ :=
    hInv.away (hIn.mono hLine.subset) hName
  exact ⟨hSession, hServed, fun hMem => hNone (hLine.subset hMem),
    ⟨st, hScreen, hLoading, hCheck.sublist hLine⟩⟩

theorem errand_load {a : Await} (h : IsLoad a) :
    (∃ key, errand a = .check key) ∨ errand a = .other := by
  cases h with
  | login key => exact Or.inl ⟨key, rfl⟩
  | home key => exact Or.inr rfl
  | create key => exact Or.inr rfl
  | list key => exact Or.inr rfl

theorem Fenced.effect {h : History} {s : State} {i : Nat} {a : Await}
    (hInv : Fenced h s) (hLoad : IsLoad a) :
    Fenced (h ++ [(s, .effect i)])
      { s with effects := s.effects.eraseIdx i, pending := s.pending ++ [a] } := by
  have hLine : errands { s with effects := s.effects.eraseIdx i, pending := s.pending ++ [a] } =
      errands s ++ [errand a] := Program.line_effect _ _
  have hPlain : ∀ id, .logout id ∉ [errand a] := by
    intro id hid
    obtain ⟨key, hKey⟩ | hOther := errand_load hLoad <;> simp_all
  have hSession : .session ∉ [errand a] := by
    obtain ⟨key, hKey⟩ | hOther := errand_load hLoad <;> simp_all
  have hSubmit : ∀ n, .submit n ∉ [errand a] := by
    obtain ⟨key, hKey⟩ | hOther := errand_load hLoad <;> simp_all
  refine ⟨hInv.one, ?_, hInv.removed, hInv.order, fun hIn hName => ?_⟩
  · rw [hLine]
    exact (hInv.fence.later _ (Nat.le_refl _)).append hPlain
      (fun n hn => absurd hn (hSubmit n)) fun _ => hSession
  · rw [hLine] at hIn
    obtain ⟨hNone, hServed, hWrite, st, hScreen, hLoading, hCheck⟩ :=
      hInv.away (hIn.of_append hPlain) hName
    refine ⟨hNone, hServed, ?_, st, hScreen, hLoading, ?_⟩
    · rw [hLine]
      exact fun hMem => (List.mem_append.mp hMem).elim hWrite hSession
    · rw [hLine]
      exact hCheck.append hPlain

/-- Nothing can be pressed on a locked screen. -/
theorem Locked.no_requests {s : State} {e : Event} {out : Ui × Issued Await}
    (hOne : OneScreen s.ui) (hLocked : Locked s) (hOut : app.handle e s.ui = some out) :
    out.2.requests = [] ∧ out.1.focused = s.ui.focused := by
  obtain ⟨st, hScreen, hLoading, -⟩ := hLocked
  cases handle_cases hOut with
  | login hs hEff =>
      rw [hScreen, Screen.AUTH.injEq, AuthScreen.LOGIN.injEq] at hs
      subst hs
      simp [Login.handle, hLoading] at hEff
  | signup hs => simp [hScreen] at hs
  | home hs => simp [hScreen] at hs
  | create hs => simp [hScreen] at hs
  | list hs _ => simp [hScreen] at hs
  | systemBack =>
      simp [Ui.navigate, counted, hOne.below]

/-- A logout that is pressed has a later number than the submits in flight. -/
theorem Fenced.press_logout {h : History} {s : State} {out : Ui × Issued Await}
    (hInv : Fenced h s) (hOut : app.handle (.home .logout) s.ui = some out) :
    Fenced (h ++ [(s, .user (.home .logout))]) (s.issue out) := by
  have hOne := hInv.one.handle (e := .home .logout) trivial hOut
  have hName := name_handle hInv.one (e := .home .logout) trivial hOut
  have hNext := nextCall_handle hOut
  cases handle_cases hOut with
  | home hs =>
      have hHome : s.ui.focused.screen.name = .HOME := by rw [hs]; rfl
      refine ⟨hOne, ?_, hInv.removed, hInv.order, fun _ hNot => absurd (hName.trans hHome) hNot⟩
      rw [errands, Program.line_issue]
      simp only [State.issue]
      rw [hNext]
      exact hInv.fence.logout ⟨rfl, hHome, rfl⟩

/-- No other press issues a submit while a logout is in flight. -/
theorem Fenced.user {h : History} {s : State} {e : Event} {out : Ui × Issued Await}
    (hInv : Fenced h s) (hTask : NoTask e) (hOut : app.handle e s.ui = some out)
    (hLogout : e ≠ .home .logout) : Fenced (h ++ [(s, .user e)]) (s.issue out) := by
  have hName := name_handle hInv.one hTask hOut
  have hNext := nextCall_handle hOut
  have hLine : errands (s.issue out) = errands s ++ out.2.requests.map errand :=
    Program.line_issue out
  have hPlain : ∀ id, .logout id ∉ out.2.requests.map errand := by
    intro id hid
    obtain ⟨a, ha, hErrand⟩ := List.mem_map.mp hid
    cases handle_requests hOut ha with
    | logout _ => exact absurd rfl hLogout
    | login _ _ _ => simp [errand] at hErrand
    | signup _ _ => simp [errand] at hErrand
    | handleBack _ => simp [errand] at hErrand
    | save _ => simp [errand] at hErrand
  have hSession : .session ∉ out.2.requests.map errand := by
    intro hMem
    obtain ⟨a, ha, hErrand⟩ := List.mem_map.mp hMem
    cases handle_requests hOut ha <;> simp [errand] at hErrand
  -- a submit is pressed off `HOME`, and there only when no logout is in flight
  have hSubmit : ∀ n, .submit n ∈ out.2.requests.map errand →
      n < out.1.nextCall ∧ ∀ id, .logout id ∈ errands s → n < id := by
    intro n hn
    obtain ⟨a, ha, hErrand⟩ := List.mem_map.mp hn
    have hFree : s.ui.focused.screen.name ≠ .HOME → ∀ id, .logout id ∈ errands s → n < id := by
      intro hNot id hid
      have hLocked := (hInv.away ⟨id, hid⟩ hNot).locked
      rw [(hLocked.no_requests hInv.one hOut).1] at ha
      simp at ha
    cases handle_requests hOut ha with
    | login hs _ _ =>
        obtain rfl : s.ui.nextCall = n := Errand.submit.inj hErrand
        exact ⟨by omega, hFree (by simp [hs, Screen.name])⟩
    | signup hs _ =>
        obtain rfl : s.ui.nextCall = n := Errand.submit.inj hErrand
        exact ⟨by omega, hFree (by simp [hs, Screen.name])⟩
    | logout _ => exact absurd rfl hLogout
    | handleBack _ => simp [errand] at hErrand
    | save _ => simp [errand] at hErrand
  refine ⟨hInv.one.handle hTask hOut, ?_, hInv.removed, hInv.order, fun hIn hNot => ?_⟩
  · show Fence _ _ out.1.nextCall
    rw [hLine]
    exact (hInv.fence.later _ (by omega)).append hPlain hSubmit fun _ => hSession
  · rw [hLine] at hIn
    obtain ⟨hNone, hServed, hWrite, hLocked⟩ := hInv.away (hIn.of_append hPlain) (hName ▸ hNot)
    have hFocus := (hLocked.no_requests hInv.one hOut).2
    obtain ⟨st, hScreen, hLoading, hCheck⟩ := hLocked
    refine ⟨hNone, hServed, ?_, st, hFocus ▸ hScreen, hLoading, ?_⟩
    · rw [hLine]
      exact fun hMem => (List.mem_append.mp hMem).elim hWrite hSession
    · rw [hLine]
      simp only [State.issue, hFocus]
      exact hCheck.append hPlain

/-! ## Continuations -/

/-- The errands a continuation goes on to. -/
theorem errand_continued {r : Ready} {a : Await} (h : Continued r a) :
    (errand a = .session ∧ ∃ n, readyErrand r = .submit n) ∨
      (∃ n, errand a = .submit n ∧ readyErrand r = .submit n) ∨ errand a = .other := by
  cases h with
  | loginUsers _ _ => exact Or.inl ⟨rfl, _, rfl⟩
  | signupUsers _ => exact Or.inr (Or.inl ⟨_, rfl, rfl⟩)
  | signupSession => exact Or.inl ⟨rfl, _, rfl⟩
  | listMembers _ => exact Or.inr (Or.inr rfl)

/-- While a logout is in flight, no submit goes on to write the session. -/
theorem Fenced.no_write {h : History} {s : State} {before after : List Ready} {r : Ready}
    (hInv : Fenced h s) (hTimely : Timely h (s, .resolve before.length))
    (hServed : s.served = before ++ r :: after)
    (hIn : LogoutIn (errands { s with served := before ++ after })) :
    .session ∉ (app.resume r s.ui).2.requests.map errand := by
  intro hMem
  obtain ⟨a, ha, hErrand⟩ := List.mem_map.mp hMem
  obtain ⟨id, hid⟩ := hIn.mono (Program.line_resolve hServed).subset
  obtain ⟨q, hq, hPress⟩ := hInv.fence.pressed id hid
  have hAt : s.served[before.length]? = some r := by simp [hServed]
  -- the submit was pressed before the logout, and the logout before now
  have hAbsurd : ∀ submit record, readyErrand r = .submit submit.id →
      ¬ SessionRequest submit record a := by
    intro submit record hNumber hRequest
    have hSubmit : .submit submit.id ∈ errands s :=
      hNumber ▸ List.mem_append_left _ (List.mem_map_of_mem (by simp [hServed]))
    have hEarly := hInv.fence.early _ hSubmit id hid
    have hLate := hTimely submit ⟨_, r, a, record, rfl, hAt, ha, hRequest⟩ q hq id hPress
    omega
  cases resume_requests ha with
  | @loginUsers call data user _ _ =>
      exact absurd (.login call user) (hAbsurd (.login call) user rfl)
  | signupUsers _ => simp [errand] at hErrand
  | @signupSession call => exact absurd (.signup call) (hAbsurd (.signup call) _ rfl)
  | listMembers _ => simp [errand] at hErrand

/-- A logout's callback locks the screen for the logouts still in flight. -/
theorem Fenced.closed_after_logout {h : History} {s : State} {before after : List Ready}
    {r : Ready} (hInv : Fenced h s) (hPlace : InPlace (s, .resolve before.length))
    (hServed : s.served = before ++ r :: after) {id : Nat} (hOut : readyErrand r = .logout id) :
    s.disk.userLoggedIn = none ∧ (∀ r' ∈ before ++ after, opens r' ≠ some .HOME) ∧
      .session ∉ errands { s with served := before ++ after } := by
  have hOthers : ∀ r' ∈ before ++ after, opens r' ≠ some .HOME := by
    have hOrder := hInv.order
    rw [hServed, List.pairwise_append, List.pairwise_cons] at hOrder
    intro r' hr'
    rcases List.mem_append.mp hr' with hBefore | hAfter
    · exact (hPlace before r after hServed rfl r' hBefore).2 id hOut
    · exact hOrder.2.1.1 r' hAfter ⟨id, hOut⟩
  refine ⟨hInv.removed r (by simp [hServed]) id hOut, hOthers, fun hMem => ?_⟩
  rcases List.mem_append.mp hMem with hDone | hWaits
  · obtain ⟨r', hr', hSession⟩ := List.mem_map.mp hDone
    exact hOthers r' hr' (opens_of_session hSession)
  · have hHead : readyErrand r ∈ s.served.map readyErrand :=
      List.mem_map_of_mem (by simp [hServed])
    exact (List.pairwise_append.mp hInv.fence.behind).2.2 _ hHead _ hWaits ⟨id, hOut⟩ rfl

/-- The check in flight is that of a screen that has been mounted. -/
theorem check_lt {s : State} (hKeys : KeysBelow s) {key : Nat} (h : .check key ∈ errands s) :
    key < s.ui.nextKey := by
  rcases List.mem_append.mp h with hDone | hWaits
  · obtain ⟨r, hr, hCheck⟩ := List.mem_map.mp hDone
    unfold readyErrand at hCheck
    split at hCheck <;> simp at hCheck
    exact hKeys.served _ hr _ (hCheck ▸ rfl)
  · obtain ⟨a, ha, hCheck⟩ := List.mem_map.mp hWaits
    unfold errand at hCheck
    split at hCheck <;> simp at hCheck
    exact hKeys.pending _ ha _ (hCheck ▸ rfl)

/-- While a logout is in flight, the launch check does not get its answer. -/
theorem CheckLast.not_resolved {key : Nat} {s : State} {before after : List Ready} {r : Ready}
    (hCheck : CheckLast key (errands s)) (hPlace : InPlace (s, .resolve before.length))
    (hServed : s.served = before ++ r :: after)
    (hIn : LogoutIn (errands { s with served := before ++ after })) :
    readyErrand r ≠ .check key := by
  intro hKey
  have hLine : errands s = before.map readyErrand ++
      readyErrand r :: (after.map readyErrand ++ s.pending.map errand) := by
    simp [Program.line, hServed]
  rw [CheckLast, hLine, List.pairwise_append, List.pairwise_cons] at hCheck
  obtain ⟨id, hid⟩ := hIn
  have hSplit : .logout id ∈ before.map readyErrand ++
      (after.map readyErrand ++ s.pending.map errand) := by
    simpa [Program.line] using hid
  rcases List.mem_append.mp hSplit with hBefore | hBehind
  · obtain ⟨r', hr', hLogout⟩ := List.mem_map.mp hBefore
    exact (hPlace before r after hServed rfl r' hr').1 id hLogout
  · exact hCheck.2.1.1 _ hBehind hKey id rfl

/-- A timely continuation that keeps its place writes no session behind a logout. -/
theorem Fenced.resolve {h : History} {s : State} {before after : List Ready} {r : Ready}
    (hInv : Fenced h s) (hTimely : Timely h (s, .resolve before.length))
    (hPlace : InPlace (s, .resolve before.length)) (hKeys : KeysBelow s)
    (hServed : s.served = before ++ r :: after) :
    Fenced (h ++ [(s, .resolve before.length)])
      ({ s with served := before ++ after }.issue (app.resume r s.ui)) := by
  have hName := name_resume (r := r) hInv.one.below
  have hSub : (errands { s with served := before ++ after }).Sublist (errands s) :=
    Program.line_resolve hServed
  have hRest : (before ++ after).Sublist s.served :=
    hServed ▸ (List.sublist_cons_self r after).append_left before
  have hLine : errands ({ s with served := before ++ after }.issue (app.resume r s.ui)) =
      errands { s with served := before ++ after } ++
        (app.resume r s.ui).2.requests.map errand := Program.line_issue _
  have hHead : readyErrand r ∈ errands s :=
    List.mem_append_left _ (List.mem_map_of_mem (by simp [hServed]))
  have hPlain : ∀ id, .logout id ∉ (app.resume r s.ui).2.requests.map errand := by
    intro id hid
    obtain ⟨a, ha, hErrand⟩ := List.mem_map.mp hid
    rcases errand_continued (resume_requests ha) with ⟨h, -⟩ | ⟨n, h, -⟩ | h <;> simp [h] at hErrand
  have hSubmit : ∀ n, .submit n ∈ (app.resume r s.ui).2.requests.map errand →
      n < (app.resume r s.ui).1.nextCall ∧
        ∀ id, .logout id ∈ errands { s with served := before ++ after } → n < id := by
    intro n hn
    obtain ⟨a, ha, hErrand⟩ := List.mem_map.mp hn
    -- the submit goes on under its own number
    have hSame : readyErrand r = .submit n := by
      rcases errand_continued (resume_requests ha) with ⟨h, -⟩ | ⟨m, h, hOwn⟩ | h
      · simp [h] at hErrand
      · rwa [← hErrand, h]
      · simp [h] at hErrand
    rw [nextCall_resume]
    exact ⟨hInv.fence.numbered n (hSame ▸ hHead),
      fun id hid => hInv.fence.early n (hSame ▸ hHead) id (hSub.subset hid)⟩
  refine ⟨hInv.one.resume, ?_, ?_, hInv.order.sublist hRest, fun hIn hNot => ?_⟩
  · rw [hLine]
    exact ((hInv.fence.sublist hSub).later _ (nextCall_resume r s.ui).ge).append hPlain hSubmit
      (hInv.no_write hTimely hServed)
  · exact fun r' hr' => hInv.removed r' (hRest.subset hr')
  · rw [hLine] at hIn
    have hOld := hIn.of_append hPlain
    have hNew := hInv.no_write hTimely hServed hOld
    cases hOpens : opens r with
    | none =>
        rw [hOpens, Option.getD_none] at hName
        obtain ⟨hNone, hOthers, hWrite, st, hScreen, hLoading, hCheck⟩ :=
          hInv.away (hOld.mono hSub.subset) (hName ▸ hNot)
        have hStays := resume_stays hInv.one.below hOpens
        have hOther : ∀ info, r ≠ .login (.isUserLoggedIn s.ui.focused.key info) := by
          rintro info rfl
          exact hCheck.not_resolved hPlace hServed hOld rfl
        obtain ⟨st', hTold, hLoading'⟩ := told_login r s.ui.focused.key hLoading hOther
        refine ⟨hNone, fun r' hr' => hOthers r' (hRest.subset hr'), ?_, st', ?_, hLoading', ?_⟩
        · rw [hLine]
          exact fun hMem =>
            (List.mem_append.mp hMem).elim (fun hIn => hWrite (hSub.subset hIn)) hNew
        · rw [← hTold, ← hScreen]
          exact hStays.screen
        · rw [hLine]
          simp only [State.issue, hStays.key]
          exact CheckLast.append (hCheck.sublist hSub) hPlain
    | some name =>
        rw [hOpens] at hName
        rcases opens_cases hOpens with rfl | rfl
        · exact absurd hName hNot
        · obtain ⟨id, hOut⟩ := logout_of_opens hOpens
          obtain ⟨hNone, hOthers, hWrite⟩ := hInv.closed_after_logout hPlace hServed hOut
          have hMount := resume_opens hInv.one.below hOpens
          refine ⟨hNone, hOthers, ?_, {}, ?_, rfl, ?_⟩
          · rw [hLine]
            exact fun hMem => (List.mem_append.mp hMem).elim hWrite hNew
          · simp only [State.issue, hMount.focused]
            rfl
          · rw [hLine]
            simp only [State.issue, hMount.focused]
            refine CheckLast.append ?_ hPlain
            refine List.pairwise_of_forall_mem_list fun e he _ _ hFresh => ?_
            have hKey := check_lt hKeys (hFresh ▸ hSub.subset he)
            exact absurd hKey (Nat.lt_irrefl _)

/-- Every step of a timely run keeps the fence. -/
theorem Fenced.step {h : History} {s s' : State} {x : Action} (hInv : Fenced h s)
    {xs : List Action} (hRun : run xs = some s) (hStep : LogoutStep x)
    (hPlace : InPlace (s, x)) (hTimely : Timely h (s, x)) (hx : app.Step s x s') :
    Fenced (h ++ [(s, x)]) s' := by
  cases hx.queued hStep.1 with
  | @user e out hOut =>
      by_cases hLogout : e = .home .logout
      · subst hLogout
        exact hInv.press_logout hOut
      · exact hInv.user (hStep.2 e rfl) hOut hLogout
  | effect hAt =>
      exact hInv.effect (isLoad_of_mem_effects hRun _ (List.mem_of_getElem? hAt))
  | serve hPending => exact hInv.serve hPending
  | resolve hServed => exact hInv.resolve hTimely hPlace (keysBelow_run hRun) hServed
  | reject hPending => exact hInv.reject hPending
  | kill => exact .kill

/-! ## After the removal -/

/-- The logout press number `id` has ended the session. -/
structure Ended (id : Nat) (h : History) (s : State) : Prop where
  pressed : ∃ q ∈ h, PressesLogout q id
  session : s.disk.userLoggedIn = none
  /-- a session write that waits is that of a submit pressed later -/
  pending : ∀ a ∈ s.pending, ∀ record, sessionWrite a = some (some record) →
    ∃ submit, SessionRequest submit record a ∧ id < submit.id
  /-- what leads to `HOME` finds it shown already -/
  served : ∀ r ∈ s.served, opens r = some .HOME → s.ui.focused.screen.name = .HOME

/-- The removal of the session ends it. -/
theorem Ended.of_removal {h : History} {s : State} {a : Await} {as : List Await}
    {id key : Nat} (hInv : Fenced h s) (hPending : s.pending = a :: as)
    (ha : a = .home (.logout id key)) :
    Ended id (h ++ [(s, .serve 0)]) (app.serveHead s a as) := by
  subst ha
  have hMem : .logout id ∈ errands s := List.mem_append_right _ (by simp [hPending, errand])
  refine ⟨?_, rfl, ?_, ?_⟩
  · obtain ⟨q, hq, hPress⟩ := hInv.fence.pressed id hMem
    exact ⟨q, List.mem_append_left _ hq, hPress⟩
  · intro b hb record hWrite
    have hBehind := (List.pairwise_append.mp hInv.fence.behind).2.1
    rw [hPending, List.map_cons, List.pairwise_cons] at hBehind
    exact absurd (errand_of_write hWrite)
      (hBehind.1 _ (List.mem_map_of_mem hb) ⟨id, rfl⟩)
  · intro r hr hOpens
    rcases List.mem_append.mp hr with hOld | hNew
    · by_contra hNot
      exact (hInv.away ⟨id, hMem⟩ hNot).served r hOld hOpens
    · rw [List.mem_singleton.mp hNew] at hOpens
      simp [app, App.serve, Home.Await.serve, opens] at hOpens

theorem not_movesHome {s s' : State} {x : Action} (hx : app.Step s x s')
    (h : s'.ui.focused.screen.name = .HOME → s.ui.focused.screen.name = .HOME) :
    ¬ MovesHome (s, x) := by
  rintro ⟨hNot, t, ht, hHome⟩
  obtain rfl : s' = t := hx.unique ht
  exact hNot (h hHome)

/-- Whatever leads to `HOME` still finds it shown once another callback has run. -/
theorem Fenced.home_after {h : History} {s : State} {before after : List Ready} {r r' : Ready}
    (hInv : Fenced h s) (hPlace : InPlace (s, .resolve before.length))
    (hServed : s.served = before ++ r :: after) (hr' : r' ∈ before ++ after)
    (hOpens : opens r' = some .HOME) (hHome : s.ui.focused.screen.name = .HOME) :
    (app.resume r s.ui).1.focused.screen.name = .HOME := by
  rw [name_resume hInv.one.below]
  cases hHead : opens r with
  | none => exact hHome
  | some name =>
      rcases opens_cases hHead with rfl | rfl
      · rfl
      · obtain ⟨id, hOut⟩ := logout_of_opens hHead
        exact absurd hOpens ((hInv.closed_after_logout hPlace hServed hOut).2.1 r' hr')

/-- What a logout has ended stays ended until a later submit writes the session. -/
theorem Ended.step {h : History} {s s' : State} {x : Action} {id : Nat}
    (hEnded : Ended id h s) (hInv : Fenced h s) (hStep : LogoutStep x)
    (hPlace : InPlace (s, x)) (hTimely : Timely h (s, x)) (hx : app.Step s x s')
    (hLoads : ∀ a ∈ s.effects, IsLoad a)
    (hNoWrite : ∀ submit record, WritesSession (s, x) submit record → submit.id < id) :
    Ended id (h ++ [(s, x)]) s' ∧ ¬ MovesHome (s, x) := by
  have hPressed : ∃ q ∈ h ++ [(s, x)], PressesLogout q id := by
    obtain ⟨q, hq, hPress⟩ := hEnded.pressed
    exact ⟨q, List.mem_append_left _ hq, hPress⟩
  cases hx.queued hStep.1 with
  | @user e out hOut =>
      have hName := name_handle hInv.one (hStep.2 e rfl) hOut
      refine ⟨⟨hPressed, hEnded.session, ?_, ?_⟩, not_movesHome hx fun hHome => ?_⟩
      · intro a ha record hWrite
        rcases List.mem_append.mp ha with hOld | hNew
        · exact hEnded.pending a hOld record hWrite
        · cases handle_requests hOut hNew <;> simp [sessionWrite] at hWrite
      · intro r hr hOpens
        exact hName.trans (hEnded.served r hr hOpens)
      · exact hName.symm.trans hHome
  | @effect i a hAt =>
      refine ⟨⟨hPressed, hEnded.session, ?_, hEnded.served⟩, not_movesHome hx fun hHome => hHome⟩
      intro b hb record hWrite
      rcases List.mem_append.mp hb with hOld | hNew
      · exact hEnded.pending b hOld record hWrite
      · have hLoad := hLoads a (List.mem_of_getElem? hAt)
        rw [List.mem_singleton.mp hNew] at hWrite
        cases hLoad <;> simp [sessionWrite] at hWrite
  | @serve a as hPending =>
      have hNot : errand a ≠ .session := by
        intro hErrand
        obtain ⟨record, hWrite⟩ : ∃ record, sessionWrite a = some (some record) := by
          unfold errand at hErrand
          split at hErrand <;> first | exact ⟨_, rfl⟩ | simp at hErrand
        obtain ⟨submit, hRequest, hLater⟩ :=
          hEnded.pending a (by simp [hPending]) record hWrite
        have hEarlier := hNoWrite submit record ⟨0, a, rfl, by simp [hPending], hRequest⟩
        omega
      obtain ⟨hNone, hOpens⟩ := serve_closed hEnded.session hNot
      refine ⟨⟨hPressed, hNone, ?_, ?_⟩, not_movesHome hx fun hHome => hHome⟩
      · intro b hb
        exact hEnded.pending b (by rw [hPending]; exact List.mem_cons_of_mem a hb)
      · intro r hr hHome
        rcases List.mem_append.mp hr with hOld | hNew
        · exact hEnded.served r hOld hHome
        · rw [List.mem_singleton.mp hNew] at hHome
          exact absurd hHome hOpens
  | @resolve before r after hServed =>
      have hMem : ∀ r' ∈ before ++ after, r' ∈ s.served := by
        intro r' hr'
        rw [hServed]
        exact (List.sublist_cons_self r after).append_left before |>.subset hr'
      refine ⟨⟨hPressed, hEnded.session, ?_, ?_⟩, not_movesHome hx fun hHome => ?_⟩
      · intro a ha record hWrite
        rcases List.mem_append.mp ha with hOld | hNew
        · exact hEnded.pending a hOld record hWrite
        · obtain ⟨submit, hRequest⟩ := sessionWrite_eq_some hWrite
          obtain ⟨q, hq, hPress⟩ := hEnded.pressed
          exact ⟨submit, hRequest, hTimely submit
            ⟨_, r, a, record, rfl, by simp [hServed], hNew, hRequest⟩ q hq id hPress⟩
      · intro r' hr' hOpens
        exact hInv.home_after hPlace hServed hr' hOpens (hEnded.served r' (hMem r' hr') hOpens)
      · simp only [State.issue] at hHome
        rw [name_resume hInv.one.below] at hHome
        cases hOpens : opens r with
        | none => rwa [hOpens] at hHome
        | some name =>
            rcases opens_cases hOpens with rfl | rfl
            · exact hEnded.served r (by simp [hServed]) hOpens
            · simp [hOpens] at hHome
  | reject hPending =>
      refine ⟨⟨hPressed, hEnded.session, fun b hb => ?_, hEnded.served⟩,
        not_movesHome hx fun hHome => hHome⟩
      exact hEnded.pending b (by rw [hPending]; exact List.mem_cons_of_mem _ hb)
  | kill =>
      refine ⟨⟨hPressed, hEnded.session, ?_, ?_⟩, not_movesHome hx fun hHome => ?_⟩
      · simp [Program.boot, app, launch]
      · simp [Program.boot]
      · exact absurd hHome (by simp [Program.boot, app, launch, Ui.mountOver, Screen.mount,
          Screen.name])

/-- What the logouts of a run have ended. -/
def Final (h : History) (s : State) : Prop :=
  ∀ h₁ p h₂ id, h = h₁ ++ p :: h₂ → LogsOut p id →
    (∀ q ∈ h₂, ∀ submit record, WritesSession q submit record → submit.id < id) →
    Ended id h s ∧ ∀ q ∈ h₂, ¬ MovesHome q

/-- Every step of a timely run keeps what its logouts have ended. -/
theorem Final.step {h : History} {s s' : State} {x : Action} (hFinal : Final h s)
    (hInv : Fenced h s) (hStep : LogoutStep x) (hPlace : InPlace (s, x))
    (hTimely : Timely h (s, x)) (hx : app.Step s x s') (hLoads : ∀ a ∈ s.effects, IsLoad a) :
    Final (h ++ [(s, x)]) s' := by
  intro h₁ p h₂ id hSplit hOut hNoWrite
  rcases point_of_snoc hSplit with ⟨rfl, rfl, rfl⟩ | ⟨h₃, rfl, rfl⟩
  · -- the removal is the step itself
    obtain ⟨i, key, rfl, hAt⟩ := hOut
    refine ⟨?_, by simp⟩
    cases hx.queued hStep.1 with
    | serve hPending =>
        have hHead : s.pending[0]? = some _ := hAt
        rw [hPending] at hHead
        exact Ended.of_removal hInv hPending (Option.some.inj hHead)
  · obtain ⟨hEnded, hStill⟩ := hFinal h₁ p h₃ id rfl hOut
      fun q hq => hNoWrite q (List.mem_append_left _ hq)
    obtain ⟨hNext, hNot⟩ :=
      hEnded.step hInv hStep hPlace hTimely hx hLoads (hNoWrite _ (by simp))
    refine ⟨hNext, fun q hq => ?_⟩
    rcases List.mem_append.mp hq with hOld | hNew
    · exact hStill q hOld
    · rw [List.mem_singleton.mp hNew]
      exact hNot

/-- **A logout ends the session.**  The store performs in the order of issue, may
refuse requests and may report in any order that keeps the callbacks of logouts
in their place.  In a run in which no submit goes on to write the session after a
logout pressed later than the submit: once the removal of a logout has been
performed, and as long as no submit pressed after it has written the session, the
session entry is absent and the root navigator does not move to `HOME`. -/
theorem logout_final (xs : List Action) (s : State) (hRun : run xs = some s)
    (hSteps : ∀ x ∈ xs, LogoutStep x) (hPlace : ∀ p ∈ app.trace init xs, InPlace p)
    (hTimely : ∀ h₁ p h₂, app.trace init xs = h₁ ++ p :: h₂ → Timely h₁ p) :
    ∀ h₁ p h₂ id, app.trace init xs = h₁ ++ p :: h₂ → LogsOut p id →
      (∀ q ∈ h₂, ∀ submit record, WritesSession q submit record → submit.id < id) →
      s.disk.userLoggedIn = none ∧ ∀ q ∈ h₂, ¬ MovesHome q := by
  have hAll := app.exec_induction (fun s x => LogoutStep x ∧ InPlace (s, x))
    (fun h s => AllTimely h → Fenced h s ∧ Final h s) ?_ ?_
    (fun p hp => ⟨hSteps p.2 (app.mem_of_mem_trace hp), hPlace p hp⟩) hRun
  · intro h₁ p h₂ id hSplit hOut hNoWrite
    obtain ⟨hEnded, hStill⟩ := (hAll hTimely).2 h₁ p h₂ id hSplit hOut hNoWrite
    exact ⟨hEnded.session, hStill⟩
  · exact fun _ => ⟨fenced_init, by simp [Final]⟩
  · intro h s x s' hReached hOk hInv hx hAll
    obtain ⟨hFenced, hFinal⟩ := hInv hAll.init
    have hNow : Timely h (s, x) := hAll h (s, x) [] rfl
    obtain ⟨ys, hPre, -⟩ := hReached
    exact ⟨hFenced.step hPre hOk.1 hOk.2 hNow hx,
      hFinal.step hFenced hOk.1 hOk.2 hNow hx (isLoad_of_mem_effects hPre)⟩

/-- A store that reports in the order it performs keeps every callback in place. -/
theorem inPlace_of_inOrder {p : State × Action} (h : p.2.InOrder) : InPlace p := by
  intro before r after _ hResolve r' hr'
  rw [hResolve] at h
  simp [List.eq_nil_of_length_eq_zero h] at hr'

/-- The step performs no session write of a submit, and no submit goes on to
one. -/
def keepsOffSession (p : State × Action) : Bool :=
  match p.2 with
  | .serve i => (p.1.pending[i]?).all fun a => errand a ≠ .session
  | .resolve i => (p.1.served[i]?).all fun r =>
      (app.resume r p.1.ui).2.requests.all fun a => errand a ≠ .session
  | _ => true

theorem errand_of_sessionRequest {submit : Submit} {record : Account} {a : Await}
    (h : SessionRequest submit record a) : errand a = .session := by
  cases h <;> rfl

theorem not_writesSession {p : State × Action} (hOff : keepsOffSession p = true)
    (submit : Submit) (record : Account) : ¬ WritesSession p submit record := by
  rintro ⟨i, a, hServe, hAt, hRequest⟩
  simp [keepsOffSession, hServe, hAt, errand_of_sessionRequest hRequest] at hOff

theorem not_issuesSession {p : State × Action} (hOff : keepsOffSession p = true)
    (submit : Submit) : ¬ IssuesSession p submit := by
  rintro ⟨i, r, a, record, hResolve, hAt, ha, hRequest⟩
  simp only [keepsOffSession, hResolve, hAt, Option.all_some, List.all_eq_true,
    decide_eq_true_eq] at hOff
  exact hOff a ha (errand_of_sessionRequest hRequest)

/-- A run stays timely through steps that keep off the session. -/
theorem AllTimely.append {h h' : History} (hAll : AllTimely h)
    (hOff : ∀ p ∈ h', keepsOffSession p = true) : AllTimely (h ++ h') := by
  induction h' using List.reverseRecOn with
  | nil => rwa [List.append_nil]
  | append_singleton h' p ih =>
      rw [← List.append_assoc]
      refine (ih fun q hq => hOff q (List.mem_append_left _ hq)).snoc ?_
      exact fun submit hIssues => absurd hIssues (not_issuesSession (hOff p (by simp)) submit)

/-- Ann logs out. -/
def annLogsOut : List Action := annAtHome ++ [pressLogout]

/-- The removal has been performed: `LOGIN` is shown and finds no session, and
someone presses its button. -/
def someoneReturns : List Action :=
  .resolve 0 :: loaded ++ fillLogin annCall.email annCall.password ++ [pressLogin]

theorem logout_final_ann :
    ∃ s₃ s, run (annLogsOut ++ [.serve 0]) = some s₃ ∧
      app.exec s₃ someoneReturns = some s ∧ s.disk.userLoggedIn = none ∧
      ∀ q ∈ app.trace s₃ someoneReturns, ¬ MovesHome q := by
  obtain ⟨s₁, hHome⟩ := Option.isSome_iff_exists.mp (show (run annAtHome).isSome = true by decide)
  obtain ⟨s₂, hPress⟩ := Option.isSome_iff_exists.mp
    (show (run annLogsOut).isSome = true by decide)
  obtain ⟨s₃, hRemoved⟩ := Option.isSome_iff_exists.mp
    (show (run (annLogsOut ++ [.serve 0])).isSome = true by decide)
  obtain ⟨s, hRun⟩ := Option.isSome_iff_exists.mp
    (show (run (annLogsOut ++ [.serve 0] ++ someoneReturns)).isSome = true by decide)
  have hSteps : ∀ x ∈ annLogsOut ++ [.serve 0] ++ someoneReturns, LogoutStep x := by
    simp [annLogsOut, annAtHome, annSignedUp, someoneReturns, loaded, answered, fillSignup,
      fillLogin, openSignup, pressSignup, pressLogin, pressLogout, LogoutStep, Action.Queued,
      NoTask]
  have hPlace : ∀ p ∈ app.trace init (annLogsOut ++ [.serve 0] ++ someoneReturns),
      InPlace p := by
    have hOrder : ∀ x ∈ annLogsOut ++ [.serve 0] ++ someoneReturns, x.InOrder := by decide
    exact fun p hp => inPlace_of_inOrder (hOrder p.2 (app.mem_of_mem_trace hp))
  have hTrace : app.trace init (annLogsOut ++ [.serve 0] ++ someoneReturns) =
      app.trace init annLogsOut ++ (s₂, .serve 0) :: app.trace s₃ someoneReturns := by
    rw [app.trace_append _ hRemoved, app.trace_snoc _ hPress, List.append_assoc]
    rfl
  have hAt : s₂.pending[0]? = some (.home (.logout 5 2)) :=
    seen_of_run hPress (f := fun s => s.pending[0]?) (by decide)
  have hOff : ∀ p ∈ app.trace s₃ someoneReturns, keepsOffSession p = true :=
    List.all_eq_true.mp (seen_of_run hRemoved
      (f := fun s => (app.trace s someoneReturns).all keepsOffSession) (by decide))
  have hTimely : AllTimely (app.trace init (annLogsOut ++ [.serve 0] ++ someoneReturns)) := by
    rw [hTrace, annLogsOut, app.trace_snoc _ hHome, List.append_assoc]
    refine AllTimely.append ?_ ?_
    · -- no logout is pressed before
      rintro h₁ p h₂ hSplit submit - q hq id ⟨hLogout, -⟩
      have hMem : q.2 ∈ annAtHome :=
        app.mem_of_mem_trace (by rw [hSplit]; exact List.mem_append_left _ hq)
      rw [hLogout] at hMem
      exact absurd hMem (by decide)
    · rw [List.singleton_append, List.forall_mem_cons, List.forall_mem_cons]
      exact ⟨rfl, by simp [keepsOffSession, hAt, errand], hOff⟩
  obtain ⟨m, hm, hRest⟩ := app.exec_append_some hRun
  obtain rfl : s₃ = m := Option.some.inj (hRemoved.symm.trans hm)
  obtain ⟨hNone, hStays⟩ := logout_final _ s hRun hSteps hPlace hTimely _ _ _ 5 hTrace
    ⟨0, 2, rfl, hAt⟩ fun q hq submit record hWrites =>
      absurd hWrites (not_writesSession (hOff q hq) submit record)
  exact ⟨s₃, s, hRemoved, hRest, hNone, hStays⟩

/-- Ann presses the button of `LOGIN` twice, the first submit shows `HOME`, and
she logs out while the read of the second one is still waiting. -/
def loginTwice : List Action :=
  annReturns annCall.password ++ [pressLogin] ++ answered ++ [pressLogin] ++ answered
    ++ [pressLogout] ++ answered

/-- The second submit writes the session behind the removal. -/
theorem login_survives_logout :
    ¬ ∀ xs s, run xs = some s → (∀ x ∈ xs, SessionStep x) →
      ∀ h₁ p h₂ id, app.trace init xs = h₁ ++ p :: h₂ → LogsOut p id →
        (∀ q ∈ h₂, ∀ submit record, WritesSession q submit record → submit.id < id) →
        s.disk.userLoggedIn = none ∧ ∀ q ∈ h₂, ¬ MovesHome q := by
  intro hFinal
  let call : Login.Call := ⟨9, 3, annCall.email, annCall.password, false⟩
  obtain ⟨m, hm⟩ := Option.isSome_iff_exists.mp (show (run loginTwice).isSome = true by decide)
  obtain ⟨m', hm'⟩ := Option.isSome_iff_exists.mp
    (show (run (loginTwice ++ [.serve 0])).isSome = true by decide)
  obtain ⟨s, hRun⟩ := Option.isSome_iff_exists.mp
    (show (run (loginTwice ++ [.serve 0] ++ [.serve 0])).isSome = true by decide)
  have hSteps : ∀ x ∈ loginTwice ++ [.serve 0] ++ [.serve 0], SessionStep x := by
    simp [loginTwice, annReturns, annSignedUp, loaded, answered, fillSignup, fillLogin,
      openSignup, pressSignup, pressLogin, pressLogout, SessionStep, Action.InOrder, NoTask]
  have hAt : m.pending[0]? = some (.home (.logout 10 4)) := by
    have hQueue : (run loginTwice).bind (fun s => s.pending[0]?) =
        some (.home (.logout 10 4)) := by decide
    simpa [hm] using hQueue
  have hAt' : m'.pending[0]? = some (.login (.setLoggedIn call annCall.account)) := by
    have hQueue : (run (loginTwice ++ [.serve 0])).bind (fun s => s.pending[0]?) =
        some (.login (.setLoggedIn call annCall.account)) := by decide
    simpa [hm'] using hQueue
  have hSplit : app.trace init (loginTwice ++ [.serve 0] ++ [.serve 0]) =
      app.trace init loginTwice ++ (m, .serve 0) :: [(m', .serve 0)] := by
    rw [app.trace_snoc _ hm', app.trace_snoc _ hm, List.append_assoc]
    rfl
  have hBack : (run (loginTwice ++ [.serve 0] ++ [.serve 0])).map
      (fun s => s.disk.userLoggedIn.isSome) = some true := by decide
  rw [hRun, Option.map_some, Option.some.injEq] at hBack
  obtain ⟨hNone, -⟩ := hFinal _ s hRun hSteps _ _ _ 10 hSplit ⟨0, 4, rfl, hAt⟩ (by
    rintro q hq submit record ⟨i, a, hi, ha, hRequest⟩
    obtain rfl := List.mem_singleton.mp hq
    obtain rfl : 0 = i := by simpa using hi
    obtain rfl : _ = a := Option.some.inj (hAt'.symm.trans ha)
    cases hRequest
    decide)
  simp [hNone] at hBack

end TaskManager.Runs
