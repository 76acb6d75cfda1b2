import TaskManager.Verified.Registry
import TaskManager.Verified.Refinement
import TaskManager.App.Operations
import TaskManager.Runs.Screens

/-!
# The stores refine an account registry

Read from outside, the application is a registry of accounts: `Signup` puts an
account if its email is absent, `Login` looks one up, and both log it in; a
process that is killed in between leaves the registry where the calls that were
performed have taken it.  `registry_refined` says that the lists in the store
and the screens do just that, over sequences of operations of any length.

An operation is performed in many ways.  Before the press the user types and
turns from one form to the other as often as he likes; after it the store
answers until the handler is done, or the process is killed at one of its
calls.  `Runs/Performing.lean` shows that what is allowed can be performed.
-/

namespace TaskManager.Runs

open TaskManager.Verified
open TaskManager.Verified.JsText
open TaskManager.Verified.EventLoop
open TaskManager.Verified.Refinement
open TaskManager.Shared
open TaskManager.Pages
open TaskManager.Routes
open TaskManager.App

/-! ## The registry -/

/-- What an account is registered with, under its role and its email. -/
structure Profile where
  password : JsString
  name : JsString
  deriving DecidableEq, Repr

/-- A registry for each role, by emails. -/
abbrev Accounts := Registry Bool JsString Profile

/-- What the registry keeps of an account. -/
def profileOf (a : Account) : Profile := ⟨a.password, a.name⟩

/-- The account that a registered profile belongs to. -/
def accountOf (isAdmin : Bool) (email : JsString) (p : Profile) : Account :=
  ⟨email, p.password, p.name, isAdmin⟩

/-- What an operation comes to on the screen. -/
inductive Outcome where
  | alreadyAdded
  | notFound
  | home
  | login
  | other
  deriving DecidableEq, Repr

/-- `cut` is the number of calls that are performed before the process is killed;
`none` when the operation runs to its end. -/
inductive Op where
  | signup (a : Account) (cut : Option Nat)
  | login (isAdmin : Bool) (email password : JsString) (cut : Option Nat)
  | logout
  | relaunch
  deriving DecidableEq, Repr

/-- What a fresh process shows. -/
def start (g : Accounts) : Outcome := if g.current.isSome then .home else .login

/-- The email is registered in the role. -/
def Taken (g : Accounts) (isAdmin : Bool) (email : JsString) : Prop :=
  (g.lookup isAdmin email).isSome = true

instance (g : Accounts) (isAdmin : Bool) (email : JsString) : Decidable (Taken g isAdmin email) :=
  inferInstanceAs (Decidable (_ = true))

/-- The account is registered with the password. -/
def Knows (g : Accounts) (isAdmin : Bool) (email password : JsString) : Prop :=
  (g.lookup isAdmin email).map Profile.password = some password

instance (g : Accounts) (isAdmin : Bool) (email password : JsString) :
    Decidable (Knows g isAdmin email password) :=
  inferInstanceAs (Decidable (_ = _))

/-- Who is known is registered. -/
theorem Knows.mem {g : Accounts} {isAdmin : Bool} {email password : JsString}
    (h : Knows g isAdmin email password) : email ∈ g.accounts isAdmin := by
  obtain ⟨p, hp, -⟩ := Option.map_eq_some_iff.mp h
  rw [Registry.mem_accounts, hp]
  rfl

/-- Put if absent. -/
def register (g : Accounts) (a : Account) : Accounts := g.put a.isAdmin a.email (profileOf a)

/-- Who has been registered is in the registry. -/
theorem mem_register (g : Accounts) (a : Account) : a.email ∈ (register g a).accounts a.isAdmin :=
  g.mem_put _ _ _

/-- A lookup finds the profile that has been registered. -/
theorem lookup_register {g : Accounts} {a : Account} (hNew : ¬ Taken g a.isAdmin a.email) :
    (register g a).lookup a.isAdmin a.email = some (profileOf a) := by
  have hNone : g.lookup a.isAdmin a.email = none := by simpa [Taken] using hNew
  rw [register, Registry.lookup_put, if_pos ⟨rfl, rfl⟩, hNone]
  rfl

/-- A signup that got through `calls` of its three calls: it reads the accounts,
registers, and logs in. -/
def signupAfter (g : Accounts) (a : Account) (calls : Nat) : Accounts :=
  if Taken g a.isAdmin a.email then g
  else if calls < 2 then g
  else if calls = 2 then register g a
  else (register g a).become a.isAdmin a.email (mem_register g a)

theorem signupAfter_taken {g : Accounts} {a : Account} (h : Taken g a.isAdmin a.email)
    (calls : Nat) : signupAfter g a calls = g := if_pos h

theorem signupAfter_read {g : Accounts} {a : Account} {calls : Nat} (h : calls < 2) :
    signupAfter g a calls = g := by
  rw [signupAfter, if_pos h, ite_self]

theorem signupAfter_stored {g : Accounts} {a : Account} (h : ¬ Taken g a.isAdmin a.email) :
    signupAfter g a 2 = register g a := by
  rw [signupAfter, if_neg h]
  rfl

theorem signupAfter_done {g : Accounts} {a : Account} (h : ¬ Taken g a.isAdmin a.email)
    (calls : Nat) :
    signupAfter g a (calls + 3) =
      (register g a).become a.isAdmin a.email (mem_register g a) := by
  rw [signupAfter, if_neg h, if_neg (by omega), if_neg (by omega)]

/-- A login that got through `calls` of its two calls: it reads the accounts, and
logs in. -/
def loginAfter (g : Accounts) (isAdmin : Bool) (email password : JsString) (calls : Nat) :
    Accounts :=
  if h : Knows g isAdmin email password ∧ 2 ≤ calls then g.become isAdmin email h.1.mem else g

/-- What an operation does to the registry, and what it comes to. -/
def Op.apply (g : Accounts) : Op → Accounts × Outcome
  | .signup a none =>
      (signupAfter g a 3, if Taken g a.isAdmin a.email then .alreadyAdded else .home)
  | .signup a (some calls) => (signupAfter g a calls, start (signupAfter g a calls))
  | .login isAdmin email password none =>
      (loginAfter g isAdmin email password 2,
        if Knows g isAdmin email password then .home else .notFound)
  | .login isAdmin email password (some calls) =>
      (loginAfter g isAdmin email password calls,
        start (loginAfter g isAdmin email password calls))
  | .logout => (g.leave, .login)
  | .relaunch => (g, start g)

/-- A signup passes all three validators; a login presents a registered email
with its password, or an unregistered one that passes the validators. -/
def Op.Allowed (g : Accounts) : Op → Prop
  | .signup a _ =>
      (Signup.handleValidation a.email .EMAIL).isValid = true ∧
        (Signup.handleValidation a.password .PASSWORD).isValid = true ∧
        (Signup.handleValidation a.name .NAME).isValid = true
  | .login isAdmin email password _ =>
      match g.lookup isAdmin email with
      | none => emailValid email = true ∧ password ≠ []
      | some p => password = p.password
  | .logout => True
  | .relaunch => True

instance (g : Accounts) (op : Op) : Decidable (Op.Allowed g op) := by
  unfold Op.Allowed
  split
  · infer_instance
  · split <;> infer_instance
  · infer_instance
  · infer_instance

/-! ## Performing an operation -/

/-- Between two operations the user types, toggles and turns to the other form,
and what is loaded is loaded. -/
def Between (p : State × Action) : Prop :=
  p.2.InOrder ∧
    match p.2 with
    | .user e => NoTask e ∧ ∀ out ∈ app.handle e p.1.ui, out.2.requests = []
    | .kill => False
    | _ => True

instance : DecidablePred Between
  | (s, .user e) => inferInstanceAs (Decidable (Action.InOrder (.user e) ∧
      (NoTask e ∧ ∀ out ∈ app.handle e s.ui, out.2.requests = [])))
  | (_, .effect i) => inferInstanceAs (Decidable (Action.InOrder (E := Event) (.effect i) ∧ True))
  | (_, .serve i) => inferInstanceAs (Decidable (Action.InOrder (E := Event) (.serve i) ∧ True))
  | (_, .resolve i) => inferInstanceAs (Decidable (Action.InOrder (E := Event) (.resolve i) ∧ True))
  | (_, .reject i) => inferInstanceAs (Decidable (Action.InOrder (E := Event) (.reject i) ∧ True))
  | (_, .kill) => .isFalse And.right

/-- The user finds his way to another screen, with nothing written. -/
def Browses (s m : State) : Prop :=
  ∃ xs, app.exec s xs = some m ∧ ∀ p ∈ app.trace s xs, Between p

/-- A step of the store, or of a callback. -/
def StoreStep (x : Action) : Prop := x.InOrder ∧ (∀ e, x ≠ .user e) ∧ x ≠ .kill

/-- What is due is done, and the user does nothing. -/
def Settles (c s : State) : Prop :=
  ∃ xs, app.exec c xs = some s ∧ (∀ x ∈ xs, StoreStep x) ∧ s.Quiescent

/-- The press is answered until its handler is done. -/
def Completes (m : State) (press : Action) (c : State) : Prop :=
  ∃ n, app.exec m (press :: answers Event n) = some c ∧ c.pending = []

/-- The handler of the press is not done, and `calls` of its calls have been
performed. -/
def CutShort (m : State) (press : Action) (calls : Nat) (c : State) : Prop :=
  ∃ k performed, calls = k + performed.toNat ∧
    app.exec m (press :: interruption Event k performed) = some c ∧
    (c.pending ≠ [] ∨ c.served ≠ [])

/-- `SIGNUP` is filled in with `a`. -/
def SignupForm (m : State) (a : Account) : Prop :=
  ∃ st, m.ui.focused.screen = .AUTH (.SIGNUP st) ∧
    a = ⟨st.email.val, st.password.val, st.name.val, st.isAdmin⟩

/-- `LOGIN` is filled in. -/
def LoginForm (m : State) (isAdmin : Bool) (email password : JsString) : Prop :=
  ∃ st, m.ui.focused.screen = .AUTH (.LOGIN st) ∧ st.isAdmin = isAdmin ∧
    st.email.val = email ∧ st.password.val = password

/-- The application performs an operation, and comes to rest. -/
inductive Performs (s : State) : Op → State → Prop
  | signup {m c s' a} (hBrowse : Browses s m) (hIdle : m.Quiescent) (hForm : SignupForm m a)
      (hRun : Completes m pressSignup c) (hSettles : Settles c s') :
      Performs s (.signup a none) s'
  | signupCut {m c s' a calls} (hBrowse : Browses s m) (hIdle : m.Quiescent)
      (hForm : SignupForm m a) (hRun : CutShort m pressSignup calls c)
      (hSettles : Settles (app.boot c.disk c.ui) s') :
      Performs s (.signup a (some calls)) s'
  | login {m c s' isAdmin email password} (hBrowse : Browses s m) (hIdle : m.Quiescent)
      (hForm : LoginForm m isAdmin email password) (hRun : Completes m pressLogin c)
      (hSettles : Settles c s') :
      Performs s (.login isAdmin email password none) s'
  | loginCut {m c s' isAdmin email password calls} (hBrowse : Browses s m) (hIdle : m.Quiescent)
      (hForm : LoginForm m isAdmin email password) (hRun : CutShort m pressLogin calls c)
      (hSettles : Settles (app.boot c.disk c.ui) s') :
      Performs s (.login isAdmin email password (some calls)) s'
  | logout {m c s'} (hBrowse : Browses s m) (hIdle : m.Quiescent)
      (hHome : m.ui.focused.screen.name = .HOME) (hRun : Completes m pressLogout c)
      (hSettles : Settles c s') :
      Performs s .logout s'
  | relaunch {c s'} (hBrowse : Browses s c) (hSettles : Settles (app.boot c.disk c.ui) s') :
      Performs s .relaunch s'

/-- What the screen shows. -/
def shown (s : State) : Outcome :=
  match s.ui.focused.screen with
  | .HOME _ => .home
  | .AUTH (.LOGIN st) => if st.error = "User not found" then .notFound else .login
  | .AUTH (.SIGNUP st) => if st.error = "User already added" then .alreadyAdded else .other
  | _ => .other

/-! ## The relation -/

/-- The sets of accounts and the session coincide. -/
structure Matches (g : Accounts) (d : Disk) : Prop where
  accounts : ∀ isAdmin a, a ∈ d.accounts isAdmin ↔
    a.isAdmin = isAdmin ∧ g.lookup isAdmin a.email = some (profileOf a)
  session : d.userLoggedIn = g.session.map fun c => accountOf c.1.1 c.1.2 c.2

/-- Empty storage holds the empty registry. -/
theorem matches_init : Matches Registry.empty init.disk where
  accounts isAdmin a := by cases isAdmin <;> simp [init, Disk.accounts, Disk.getUsers]
  session := rfl

/-- A signup that is new to the registry is new to the store. -/
theorem Matches.taken_iff {g : Accounts} {d : Disk} (h : Matches g d) {isAdmin : Bool}
    {email : JsString} :
    Taken g isAdmin email ↔ ∃ u ∈ d.accounts isAdmin, u.email = email := by
  constructor
  · intro hTaken
    obtain ⟨p, hp⟩ := Option.isSome_iff_exists.mp hTaken
    exact ⟨accountOf isAdmin email p, (h.accounts isAdmin _).mpr ⟨rfl, hp⟩, rfl⟩
  · rintro ⟨u, hu, rfl⟩
    rw [Taken, ((h.accounts isAdmin u).mp hu).2]
    rfl

/-- The search of `LOGIN` is the lookup. -/
theorem Matches.find {g : Accounts} {d : Disk} (h : Matches g d) (isAdmin : Bool)
    (email : JsString) :
    ((d.accounts isAdmin).find? fun u => u.email = email) =
      (g.lookup isAdmin email).map (accountOf isAdmin email) := by
  cases hFind : (d.accounts isAdmin).find? fun u => u.email = email with
  | none =>
      have hNot : ¬ Taken g isAdmin email := by
        rw [h.taken_iff]
        rintro ⟨u, hu, hEmail⟩
        rw [List.find?_eq_none] at hFind
        simpa [hEmail] using hFind u hu
      rw [Taken, Bool.not_eq_true, Option.isSome_eq_false_iff, Option.isNone_iff_eq_none] at hNot
      rw [hNot]
      rfl
  | some u =>
      have hEmail : u.email = email := by simpa using List.find?_some hFind
      obtain ⟨hRole, hLookup⟩ := (h.accounts isAdmin u).mp (List.mem_of_find?_eq_some hFind)
      rw [← hEmail, hLookup, ← hRole]
      rfl

/-- A list with the account in front holds the registry with the account added. -/
theorem Matches.register {g : Accounts} {d : Disk} (h : Matches g d) {a : Account}
    (hNew : ¬ Taken g a.isAdmin a.email) :
    Matches (register g a) (d.setUsers a.isAdmin (a :: d.accounts a.isAdmin)) where
  accounts isAdmin u := by
    have hNone : g.lookup a.isAdmin a.email = none := by
      simpa [Taken] using hNew
    rw [Runs.register, Registry.lookup_put, hNone]
    by_cases hRole : isAdmin = a.isAdmin
    · subst hRole
      rw [Disk.accounts_setUsers_self, List.mem_cons, h.accounts]
      by_cases hEmail : u.email = a.email
      · rw [if_pos ⟨rfl, hEmail⟩]
        constructor
        · rintro (rfl | ⟨hOwn, hLookup⟩)
          · exact ⟨rfl, rfl⟩
          · rw [hEmail, hNone] at hLookup
            simp at hLookup
        · rintro ⟨hOwn, hSame⟩
          left
          have hProfile : profileOf a = profileOf u := Option.some.inj hSame
          rw [profileOf, profileOf, Profile.mk.injEq] at hProfile
          cases u
          cases a
          simp_all
      · rw [if_neg fun hBoth => hEmail hBoth.2]
        refine or_iff_right ?_
        rintro rfl
        exact hEmail rfl
    · rw [Disk.accounts_setUsers_ne _ _ hRole, h.accounts, if_neg fun hBoth => hRole hBoth.1]
  session := by
    rw [Disk.userLoggedIn_setUsers, h.session, Runs.register, Registry.session_put]

/-- A session that is the registered record of an account is its session. -/
theorem Matches.become {g : Accounts} {d : Disk} (h : Matches g d) {isAdmin : Bool}
    {email : JsString} {p : Profile} (hMem : email ∈ g.accounts isAdmin)
    (hLookup : g.lookup isAdmin email = some p) :
    Matches (g.become isAdmin email hMem)
      { d with userLoggedIn := some (accountOf isAdmin email p) } where
  accounts := h.accounts
  session := by rw [Registry.session_become hMem hLookup]; rfl

/-- Without the stored session nobody is logged in. -/
theorem Matches.leave {g : Accounts} {d : Disk} (h : Matches g d) :
    Matches g.leave { d with userLoggedIn := none } where
  accounts := h.accounts
  session := rfl

/-! ## Between operations -/

/-- The requests that only read, and lead to no write. -/
inductive ReadsOnly : Await → Prop
  | load {a} (h : IsLoad a) : ReadsOnly a
  | members (key : Nat) : ReadsOnly (.list (.getMembers key))

/-- Such requests change nothing in storage. -/
theorem ReadsOnly.serve {a : Await} (h : ReadsOnly a) (d : Disk) : (app.serve a d).1 = d := by
  cases h with
  | load h => cases h <;> rfl
  | members key => rfl

/-- And what comes of them does not either. -/
theorem ReadsOnly.continued {a b : Await} {d : Disk} (h : ReadsOnly a)
    (hNext : Continued (app.serve a d).2 b) : ReadsOnly b := by
  cases h with
  | load h =>
      cases h with
      | login key => cases hNext
      | home key => cases hNext
      | create key => cases hNext
      | list key =>
          cases hNext with
          | listMembers _ => exact .members key
  | members key => cases hNext

/-- Only reads wait. -/
structure Calm (s : State) : Prop where
  awaits : ∀ a ∈ s.effects ++ s.pending, ReadsOnly a
  served : ∀ r ∈ s.served, ∃ a d, ReadsOnly a ∧ r = (app.serve a d).2

/-- A step between operations keeps the screens calm, and storage as it is. -/
theorem Calm.step {s s' : State} {x : Action} (hCalm : Calm s) (hBetween : Between (s, x))
    (hx : app.Step s x s') : Calm s' ∧ s'.disk = s.disk := by
  cases hx with
  | @user e out hOut =>
      have hNone : out.2.requests = [] := hBetween.2.2 out hOut
      refine ⟨⟨fun a ha => ?_, hCalm.served⟩, rfl⟩
      simp only [State.issue, hNone, List.append_nil, List.mem_append] at ha
      rcases ha with (hOld | hNew) | hOld
      · exact hCalm.awaits a (List.mem_append_left _ hOld)
      · exact .load (handle_effects hOut hNew)
      · exact hCalm.awaits a (List.mem_append_right _ hOld)
  | @effect i a hAt =>
      refine ⟨⟨fun b hb => ?_, hCalm.served⟩, rfl⟩
      simp only [List.mem_append, List.mem_singleton] at hb
      rcases hb with hOld | hOld | rfl
      · exact hCalm.awaits b (List.mem_append_left _ (List.mem_of_mem_eraseIdx hOld))
      · exact hCalm.awaits b (List.mem_append_right _ hOld)
      · exact hCalm.awaits b (List.mem_append_left _ (List.mem_of_getElem? hAt))
  | @serve i a hAt =>
      have hRead := hCalm.awaits a (List.mem_append_right _ (List.mem_of_getElem? hAt))
      refine ⟨⟨fun b hb => ?_, fun r hr => ?_⟩, hRead.serve s.disk⟩
      · rcases List.mem_append.mp hb with hOld | hOld
        · exact hCalm.awaits b (List.mem_append_left _ hOld)
        · exact hCalm.awaits b (List.mem_append_right _ (List.mem_of_mem_eraseIdx hOld))
      · rcases List.mem_append.mp hr with hOld | hNew
        · exact hCalm.served r hOld
        · exact ⟨a, s.disk, hRead, List.mem_singleton.mp hNew⟩
  | @resolve i r hAt =>
      obtain ⟨a, d, hRead, rfl⟩ := hCalm.served r (List.mem_of_getElem? hAt)
      refine ⟨⟨fun b hb => ?_, fun q hq => hCalm.served q (List.mem_of_mem_eraseIdx hq)⟩, rfl⟩
      simp only [State.issue, List.mem_append] at hb
      rcases hb with (hOld | hNew) | (hOld | hNew)
      · exact hCalm.awaits b (List.mem_append_left _ hOld)
      · exact .load (resume_effects hNew)
      · exact hCalm.awaits b (List.mem_append_right _ hOld)
      · exact hRead.continued (resume_requests hNew)
  | reject _ => exact absurd hBetween.1 id
  | kill => exact absurd hBetween.2 id

/-- A relaunch only reads. -/
theorem calm_boot (d : Disk) (ui : Ui) : Calm (app.boot d ui) where
  awaits a ha := .load (isLoad_of_mem_launch ha)
  served r hr := by simp [Program.boot] at hr

theorem between_of_storeStep {s : State} {x : Action} (h : StoreStep x) : Between (s, x) := by
  obtain ⟨hOrder, hUser, hKill⟩ := h
  refine ⟨hOrder, ?_⟩
  cases x with
  | user e => exact absurd rfl (hUser e)
  | kill => exact absurd rfl hKill
  | effect i => trivial
  | serve i => trivial
  | resolve i => trivial
  | reject i => trivial

/-! ## Runs without tasks -/

/-- The state is reached in order, and nobody has opened a task. -/
def SessionRun (s : State) : Prop := ∃ xs, run xs = some s ∧ ∀ x ∈ xs, SessionStep x

/-- Runs of steps that open no task go on as such. -/
theorem SessionRun.exec {s s' : State} {xs : List Action} (h : SessionRun s)
    (hRun : app.exec s xs = some s') (hSteps : ∀ x ∈ xs, SessionStep x) : SessionRun s' := by
  obtain ⟨ys, hPre, hBefore⟩ := h
  refine ⟨ys ++ xs, ?_, fun x hx => ?_⟩
  · show app.exec init (ys ++ xs) = some s'
    rw [app.exec_append, show app.exec init ys = some s from hPre]
    exact hRun
  · exact (List.mem_append.mp hx).elim (hBefore x) (hSteps x)

theorem SessionRun.step {s s' : State} {x : Action} (h : SessionRun s) (hStep : SessionStep x)
    (hx : app.Step s x s') : SessionRun s' :=
  h.exec (app.exec_snoc (app.exec_nil s) hx) (by simpa using hStep)

theorem sessionStep_of_between {p : State × Action} (h : Between p) : SessionStep p.2 := by
  refine ⟨h.1, fun e he => ?_⟩
  have hRest := h.2
  rw [he] at hRest
  exact hRest.1

/-- Between operations nothing is written. -/
theorem Browses.keeps {s m : State} (h : Browses s m) (hRun : SessionRun s) (hCalm : Calm s) :
    SessionRun m ∧ Calm m ∧ m.disk = s.disk := by
  obtain ⟨xs, hExec, hBetween⟩ := h
  refine app.exec_induction (fun s x => Between (s, x))
    (fun _ m => SessionRun m ∧ Calm m ∧ m.disk = s.disk) ⟨hRun, hCalm, rfl⟩ ?_ hBetween hExec
  intro _ m x m' _ hStep hInv hx
  obtain ⟨hNext, hDisk⟩ := hInv.2.1.step hStep hx
  exact ⟨hInv.1.step (sessionStep_of_between hStep) hx, hNext, hDisk.trans hInv.2.2⟩

/-- To settle is to browse until nothing is left. -/
theorem Settles.browses {c s : State} (h : Settles c s) : Browses c s ∧ s.Quiescent := by
  obtain ⟨xs, hExec, hSteps, hQuiet⟩ := h
  exact ⟨⟨xs, hExec, fun p hp => between_of_storeStep (hSteps p.2 (app.mem_of_mem_trace hp))⟩,
    hQuiet⟩

/-- With nothing to wait for, nothing happens. -/
theorem Settles.eq {c s : State} (h : Settles c s) (hQuiet : c.Quiescent) : s = c := by
  obtain ⟨xs, hExec, hSteps, -⟩ := h
  cases xs with
  | nil => exact (Option.some.inj hExec).symm
  | cons x xs =>
      obtain ⟨-, hUser, hKill⟩ := hSteps x List.mem_cons_self
      rw [app.exec_cons] at hExec
      obtain ⟨m, hStep, -⟩ := Option.bind_eq_some_iff.mp hExec
      cases app.step_iff.mp hStep with
      | user _ => exact absurd rfl (hUser _)
      | effect hAt => simp [hQuiet.effects] at hAt
      | serve hAt => simp [hQuiet.pending] at hAt
      | resolve hAt => simp [hQuiet.served] at hAt
      | reject hAt => simp [hQuiet.pending] at hAt
      | kill => exact absurd rfl hKill

/-! ## What a fresh process shows -/

/-- `LOGIN` without a message, or `HOME`. -/
def Bare (screen : Screen) : Prop :=
  screen.name = .HOME ∨ ∃ st, screen = .AUTH (.LOGIN st) ∧ st.error = ""

/-- A load leaves no message. -/
theorem Bare.told {a : Await} {screen : Screen} (h : Bare screen) (hRead : ReadsOnly a)
    (d : Disk) (key : Nat) : Bare (told (app.serve a d).2 key screen) := by
  rcases h with hHome | ⟨st, rfl, hError⟩
  · exact Or.inl ((name_told _ _ _).trans hHome)
  · right
    cases hRead with
    | members key' => exact ⟨st, by simp [App.told, app, App.serve, Screen.onList], hError⟩
    | load hLoad =>
        cases hLoad with
        | login key' =>
            by_cases hOwn : key = key'
            · refine ⟨{ st with isLoading := false }, ?_, hError⟩
              simp [App.told, app, App.serve, Login.Await.serve, Login.Ready.key,
                Login.Ready.resume, hOwn, Screen.onLogin]
            · refine ⟨st, ?_, hError⟩
              simp [App.told, app, App.serve, Login.Await.serve, Login.Ready.key, hOwn]
        | home key' => exact ⟨st, by simp [App.told, app, App.serve, Screen.onHome], hError⟩
        | create key' =>
            refine ⟨st, ?_, hError⟩
            simp [App.told, app, App.serve, TaskCreation.Await.serve, Screen.onCreate]
        | list key' => exact ⟨st, by simp [App.told, app, App.serve, Screen.onList], hError⟩

theorem Bare.resume {a : Await} {ui : Ui} (h : Bare ui.focused.screen) (hOne : OneScreen ui)
    (hRead : ReadsOnly a) (d : Disk) :
    Bare (app.resume (app.serve a d).2 ui).1.focused.screen := by
  cases hOpens : opens (app.serve a d).2 with
  | some name =>
      rw [(resume_opens hOne.below hOpens).focused]
      rcases opens_cases hOpens with rfl | rfl
      · exact Or.inl rfl
      · exact Or.inr ⟨{}, rfl, rfl⟩
  | none =>
      rw [(resume_stays hOne.below hOpens).screen]
      exact h.told hRead d _

/-- While the user does nothing, the screen stays bare. -/
theorem Settles.bare {c s : State} (h : Settles c s) (hCalm : Calm c) (hOne : OneScreen c.ui)
    (hBare : Bare c.ui.focused.screen) : Bare s.ui.focused.screen := by
  obtain ⟨xs, hExec, hSteps, -⟩ := h
  have hAll : Calm s ∧ OneScreen s.ui ∧ Bare s.ui.focused.screen := by
    refine app.exec_induction (fun _ x => StoreStep x)
      (fun _ s => Calm s ∧ OneScreen s.ui ∧ Bare s.ui.focused.screen) ⟨hCalm, hOne, hBare⟩ ?_
      (fun p hp => hSteps p.2 (app.mem_of_mem_trace hp)) hExec
    rintro _ m x m' - hStep ⟨hCalm, hOne, hBare⟩ hx
    have hNext := (hCalm.step (between_of_storeStep hStep) hx).1
    cases hx with
    | user _ => exact absurd rfl (hStep.2.1 _)
    | effect _ => exact ⟨hNext, hOne, hBare⟩
    | serve _ => exact ⟨hNext, hOne, hBare⟩
    | @resolve i r hAt =>
        obtain ⟨a, d, hRead, rfl⟩ := hCalm.served r (List.mem_of_getElem? hAt)
        exact ⟨hNext, hOne.resume, hBare.resume hOne hRead d⟩
    | reject _ => exact absurd hStep.1 id
    | kill => exact absurd rfl hStep.2.2
  exact hAll.2.2

/-! ## The relation between the states -/

/-- The registry is what the store and the screen amount to. -/
structure Refines (g : Accounts) (s : State) : Prop where
  run : SessionRun s
  calm : Calm s
  matching : Matches g s.disk

/-- Browsing keeps the registry. -/
theorem Refines.browses {g : Accounts} {s m : State} (h : Refines g s) (hBrowse : Browses s m) :
    Refines g m := by
  obtain ⟨hRun, hCalm, hDisk⟩ := hBrowse.keeps h.run h.calm
  exact ⟨hRun, hCalm, hDisk ▸ h.matching⟩

/-- With nothing to wait for, `HOME` is shown exactly when someone is logged in. -/
theorem Refines.home_iff {g : Accounts} {s : State} (h : Refines g s) (hQuiet : s.Quiescent) :
    s.ui.focused.screen.name = .HOME ↔ g.current.isSome = true := by
  obtain ⟨xs, hRun, hSteps⟩ := h.run
  rw [(settling_run hRun hSteps).home_iff hQuiet, h.matching.session, Option.isSome_map,
    Registry.session_isSome]

theorem shown_of_home {s : State} (h : s.ui.focused.screen.name = .HOME) : shown s = .home := by
  unfold shown
  cases hScreen : s.ui.focused.screen <;> simp_all [Screen.name]

/-- A fresh process shows what the registry says. -/
theorem Refines.start {g : Accounts} {c s : State} (h : Refines g c) (hOne : OneScreen c.ui)
    (hBare : Bare c.ui.focused.screen) (hSettles : Settles c s) :
    shown s = start g ∧ Refines g s := by
  obtain ⟨hBrowse, hQuiet⟩ := hSettles.browses
  have hNext := h.browses hBrowse
  refine ⟨?_, hNext⟩
  rcases hSettles.bare h.calm hOne hBare with hHome | ⟨st, hLogin, hError⟩
  · rw [shown_of_home hHome, Runs.start, if_pos ((hNext.home_iff hQuiet).mp hHome)]
  · have hNobody : ¬ g.current.isSome = true := by
      rw [← hNext.home_iff hQuiet, hLogin]
      simp [Screen.name]
    rw [Runs.start, if_neg hNobody]
    simp [shown, hLogin, hError]

/-- The process is killed: what is in the store decides. -/
theorem refines_boot {g : Accounts} {c s : State} (hRun : SessionRun c)
    (hMatch : Matches g c.disk) (hSettles : Settles (app.boot c.disk c.ui) s) :
    shown s = start g ∧ Refines g s := by
  have hKill : SessionStep .kill := ⟨trivial, by simp⟩
  have hBoot : Refines g (app.boot c.disk c.ui) :=
    ⟨hRun.step hKill .kill, calm_boot c.disk c.ui, hMatch⟩
  exact hBoot.start ⟨rfl, Or.inl rfl⟩ (Or.inr ⟨{}, rfl, rfl⟩) hSettles

/-! ## Presses -/

/-- Nothing waits but callbacks. -/
theorem Calm.of_idle {s : State} (hRun : SessionRun s) (hPending : s.pending = [])
    (hServed : s.served = []) : Calm s where
  awaits a ha := by
    obtain ⟨xs, hExec, -⟩ := hRun
    rw [hPending, List.append_nil] at ha
    exact .load (isLoad_of_mem_effects hExec a ha)
  served r hr := by simp [hServed] at hr

theorem sessionStep_answers (n : Nat) : ∀ x ∈ answers Event n, SessionStep x := by
  induction n with
  | zero => simp [answers]
  | succ n ih =>
      intro x hx
      simp only [answers, List.mem_cons] at hx
      rcases hx with rfl | rfl | hRest
      · exact ⟨rfl, by simp⟩
      · exact ⟨rfl, by simp⟩
      · exact ih x hRest

theorem sessionStep_interruption (k : Nat) (performed : Bool) :
    ∀ x ∈ interruption Event k performed, SessionStep x := by
  intro x hx
  rcases List.mem_append.mp hx with hAnswer | hLast
  · exact sessionStep_answers k x hAnswer
  · cases performed with
    | false => simp at hLast
    | true =>
        rw [List.mem_singleton.mp hLast]
        exact ⟨rfl, by simp⟩

/-- The handler of the press runs to its end. -/
theorem Completes.completed {m c : State} {e : Event} {a : Await} (h : Completes m (.user e) c)
    (hIdle : m.Quiescent) (hPress : Pressed m.ui e a) (hBack : e ≠ .create .handleBack) :
    ∃ n, app.Completed (begun m a) n c := by
  obtain ⟨n, hRun, hDone⟩ := h
  rw [exec_pressed hPress hBack] at hRun
  have hOne : (begun m a).pending.length ≤ 1 := by simp [pending_begun hIdle.pending]
  exact ⟨n, (Program.completed_iff oneAtATime hOne hIdle.served).mpr ⟨hRun, hDone⟩⟩

/-- The handler of the press is left in the middle. -/
theorem CutShort.interrupted {m c : State} {e : Event} {a : Await} {calls : Nat}
    (h : CutShort m (.user e) calls c) (hIdle : m.Quiescent) (hPress : Pressed m.ui e a)
    (hBack : e ≠ .create .handleBack) : app.Interrupted (begun m a) calls c := by
  obtain ⟨k, performed, rfl, hRun, hWaits⟩ := h
  rw [exec_pressed hPress hBack] at hRun
  have hOne : (begun m a).pending.length ≤ 1 := by simp [pending_begun hIdle.pending]
  exact Program.interrupted_of_exec oneAtATime hOne hIdle.served hRun hWaits

/-- A completed operation opens no task. -/
theorem SessionRun.completes {m c : State} {e : Event} (h : SessionRun m)
    (hTask : NoTask e) (hRun : Completes m (.user e) c) : SessionRun c := by
  obtain ⟨n, hExec, -⟩ := hRun
  refine h.exec hExec fun x hx => ?_
  rcases List.mem_cons.mp hx with rfl | hAnswer
  · exact ⟨trivial, fun e' he => Action.user.inj he ▸ hTask⟩
  · exact sessionStep_answers n x hAnswer

/-- An interrupted operation opens no task either. -/
theorem SessionRun.cutShort {m c : State} {e : Event} {calls : Nat} (h : SessionRun m)
    (hTask : NoTask e) (hRun : CutShort m (.user e) calls c) : SessionRun c := by
  obtain ⟨k, performed, -, hExec, -⟩ := hRun
  refine h.exec hExec fun x hx => ?_
  rcases List.mem_cons.mp hx with rfl | hAnswer
  · exact ⟨trivial, fun e' he => Action.user.inj he ▸ hTask⟩
  · exact sessionStep_interruption k performed x hAnswer

/-- The end of an operation: only callbacks wait, and the store decides. -/
theorem Refines.ended {g : Accounts} {m c : State} {e : Event} {a : Await} {n : Nat}
    (hRun : SessionRun m) (hIdle : m.Quiescent) (hTask : NoTask e)
    (hRuns : Completes m (.user e) c) (hEnd : app.Completed (begun m a) n c)
    (hMatch : Matches g c.disk) : Refines g c := by
  have hSession := hRun.completes hTask hRuns
  obtain ⟨_, -, hPending⟩ := hRuns
  exact ⟨hSession, .of_idle hSession hPending (hEnd.served.trans hIdle.served), hMatch⟩

/-- Someone is logged in at the end. -/
theorem Refines.shows_home {g : Accounts} {c s : State} (h : Refines g c) (hSettles : Settles c s)
    (hSome : g.current.isSome = true) : shown s = .home ∧ Refines g s := by
  obtain ⟨hBrowse, hQuiet⟩ := hSettles.browses
  have hNext := h.browses hBrowse
  exact ⟨shown_of_home ((hNext.home_iff hQuiet).mpr hSome), hNext⟩

/-! ## Signup -/

/-- What a signup that got through `calls` of its calls leaves in the store. -/
theorem Matches.signup {g : Accounts} {m : State} (hMatch : Matches g m.disk)
    (hIdle : m.Quiescent) (call : Signup.Call) (calls : Nat) :
    Matches (signupAfter g call.account calls)
      (app.diskAfter (begun m (.signup (.getUsers call))) calls) := by
  have hFirst := pending_begun hIdle.pending (.signup (.getUsers call))
  by_cases hTaken : Taken g call.account.isAdmin call.account.email
  · rw [signupAfter_taken hTaken]
    cases calls with
    | zero => exact hMatch
    | succ calls =>
        rw [Program.diskAfter_succ hFirst, signup_refused (hMatch.taken_iff.mp hTaken),
          Program.diskAfter_idle rfl]
        exact hMatch
  · have hNew : ∀ u ∈ m.disk.accounts call.isAdmin, u.email ≠ call.email := by
      intro u hu hEmail
      exact hTaken (hMatch.taken_iff.mpr ⟨u, hu, hEmail⟩)
    have hRegistered := hMatch.register hTaken
    have hRead :=
      GoesOn.answer (s := begun m (.signup (.getUsers call))) (goesOn_signup hNew)
    match calls with
    | 0 =>
        rw [signupAfter_read (by omega)]
        exact hMatch
    | 1 =>
        rw [signupAfter_read (by omega), Program.diskAfter_succ hFirst]
        exact hMatch
    | 2 =>
        rw [signupAfter_stored hTaken, Program.diskAfter_succ hFirst, hRead,
          Program.diskAfter_succ rfl]
        exact hRegistered
    | calls + 3 =>
        rw [signupAfter_done hTaken, Program.diskAfter_succ hFirst, hRead,
          Program.diskAfter_succ rfl, Program.diskAfter_succ rfl, Program.diskAfter_idle rfl]
        exact hRegistered.become (mem_register g call.account) (lookup_register hTaken)

/-- A filled-in form that passes is accepted. -/
theorem SignupForm.pressed {m : State} {a : Account} {cut : Option Nat} {g : Accounts}
    (h : SignupForm m a) (hAllowed : Op.Allowed g (.signup a cut)) :
    ∃ call, call.account = a ∧ call.key = m.ui.focused.key ∧
      Pressed m.ui (.signup .handleSubmit) (.signup (.getUsers call)) := by
  obtain ⟨st, hScreen, rfl⟩ := h
  have hAcc : st.accepted = true := by
    simp only [Signup.State.accepted, Bool.and_eq_true]
    exact ⟨hAllowed.1, hAllowed.2.1⟩
  exact ⟨st.call m.ui.focused.key m.ui.nextCall, rfl, rfl, .signup hScreen hAcc⟩

/-- A signup that is refused says so, and leaves everything else as it was. -/
theorem shown_signup_refused {m c s : State} {call : Signup.Call} {n : Nat}
    (hIdle : m.Quiescent)
    (hPress : Pressed m.ui (.signup .handleSubmit) (.signup (.getUsers call)))
    (hTaken : ∃ u ∈ m.disk.accounts call.isAdmin, u.email = call.email)
    (hEnd : app.Completed (begun m (.signup (.getUsers call))) n c) (hSettles : Settles c s) :
    shown s = .alreadyAdded := by
  have hRefused := signup_refused hTaken
  have hFirst := pending_begun hIdle.pending (.signup (.getUsers call))
  have hLast := hEnd.single hFirst (by rw [hRefused])
  rw [hRefused] at hLast
  rw [hSettles.eq (by rw [hLast]; exact ⟨hIdle.effects, rfl, hIdle.served⟩), hLast]
  cases hPress with
  | signup hs _ => simp [shown, Ui.modify, counted, hs, Screen.onSignup, Signup.State.call]

/-- A Signup on a state that refines a registry does what the registry does, and shows what
it says. -/
theorem signup_refines {g : Accounts} {m c s : State} {a : Account} (h : Refines g m)
    (hIdle : m.Quiescent) (hForm : SignupForm m a) (hAllowed : Op.Allowed g (.signup a none))
    (hRun : Completes m pressSignup c) (hSettles : Settles c s) :
    shown s = (Op.apply g (.signup a none)).2 ∧ Refines (Op.apply g (.signup a none)).1 s := by
  obtain ⟨call, rfl, -, hPress⟩ := hForm.pressed hAllowed
  obtain ⟨n, hEnd⟩ := hRun.completed hIdle hPress (by simp)
  have hMatch := h.matching.signup hIdle call (n + 3)
  rw [← hEnd.disk (Nat.le_add_right n 3)] at hMatch
  have hDone := Refines.ended (e := .signup .handleSubmit) h.run hIdle trivial hRun hEnd hMatch
  by_cases hTaken : Taken g call.account.isAdmin call.account.email
  · rw [signupAfter_taken hTaken] at hDone
    simp only [Op.apply, signupAfter_taken hTaken, if_pos hTaken]
    exact ⟨shown_signup_refused hIdle hPress (h.matching.taken_iff.mp hTaken) hEnd hSettles,
      hDone.browses hSettles.browses.1⟩
  · rw [signupAfter_done hTaken] at hDone
    simp only [Op.apply, signupAfter_done hTaken 0, if_neg hTaken]
    exact hDone.shows_home hSettles rfl

/-- So does a Signup that is cut off, with the relaunch after it. -/
theorem signup_cut_refines {g : Accounts} {m c s : State} {a : Account} {calls : Nat}
    (h : Refines g m) (hIdle : m.Quiescent) (hForm : SignupForm m a)
    (hAllowed : Op.Allowed g (.signup a (some calls))) (hRun : CutShort m pressSignup calls c)
    (hSettles : Settles (app.boot c.disk c.ui) s) :
    shown s = (Op.apply g (.signup a (some calls))).2 ∧
      Refines (Op.apply g (.signup a (some calls))).1 s := by
  obtain ⟨call, rfl, -, hPress⟩ := hForm.pressed hAllowed
  have hMatch := h.matching.signup hIdle call calls
  rw [← (hRun.interrupted hIdle hPress (by simp)).disk] at hMatch
  exact refines_boot (h.run.cutShort (e := .signup .handleSubmit) trivial hRun) hMatch hSettles

/-! ## Login -/

theorem loginAfter_read {g : Accounts} {isAdmin : Bool} {email password : JsString} {calls : Nat}
    (h : calls < 2) : loginAfter g isAdmin email password calls = g :=
  dif_neg fun hBoth => by omega

theorem loginAfter_unknown {g : Accounts} {isAdmin : Bool} {email password : JsString}
    (h : ¬ Knows g isAdmin email password) (calls : Nat) :
    loginAfter g isAdmin email password calls = g :=
  dif_neg fun hBoth => h hBoth.1

theorem loginAfter_done {g : Accounts} {isAdmin : Bool} {email password : JsString}
    (h : Knows g isAdmin email password) (calls : Nat) :
    loginAfter g isAdmin email password (calls + 2) = g.become isAdmin email h.mem :=
  dif_pos ⟨h, by omega⟩

/-- A registered account is known by the password it presents. -/
theorem knows_of_lookup {g : Accounts} {isAdmin : Bool} {email password : JsString}
    {cut : Option Nat} {p : Profile}
    (hAllowed : Op.Allowed g (.login isAdmin email password cut))
    (hLookup : g.lookup isAdmin email = some p) : Knows g isAdmin email password := by
  have hSame : password = p.password := by simpa [Op.Allowed, hLookup] using hAllowed
  rw [Knows, hLookup, hSame]
  rfl

/-- Nobody is known under an email that a lookup does not find. -/
theorem not_knows_of_lookup {g : Accounts} {isAdmin : Bool} {email password : JsString}
    (hLookup : g.lookup isAdmin email = none) : ¬ Knows g isAdmin email password := by
  simp [Knows, hLookup]

/-- A login with an email that is not registered ends at the answer to its read. -/
theorem login_refused {m : State} {call : Login.Call}
    (hNone : (m.disk.accounts call.isAdmin).find? (fun e => e.email = call.email) = none) :
    app.answer (begun m (.login (.getUsers call))) (.login (.getUsers call)) =
      { m with
        ui := (counted m.ui).modify call.key
          (Screen.onLogin fun st => { st with error := "User not found" })
        pending := [] } := by
  have hAnswer := resume_login_users call m.disk (counted m.ui)
  rw [hNone] at hAnswer
  have hServe : app.serve (.login (.getUsers call)) m.disk =
      (m.disk, .login (.getUsers call (m.disk.getUsers call.isAdmin))) := rfl
  simp [Program.answer, begun, State.issue, hServe, hAnswer]

/-- What a login that got through `calls` of its calls leaves in the store. -/
theorem Matches.login {g : Accounts} {m : State} (hMatch : Matches g m.disk)
    (hIdle : m.Quiescent) {call : Login.Call} {password : JsString} {cut : Option Nat}
    (hAllowed : Op.Allowed g (.login call.isAdmin call.email password cut)) (calls : Nat) :
    Matches (loginAfter g call.isAdmin call.email password calls)
      (app.diskAfter (begun m (.login (.getUsers call))) calls) := by
  have hFirst := pending_begun hIdle.pending (.login (.getUsers call))
  have hFind := hMatch.find call.isAdmin call.email
  match calls with
  | 0 =>
      rw [loginAfter_read (by omega)]
      exact hMatch
  | 1 =>
      rw [loginAfter_read (by omega), Program.diskAfter_succ hFirst]
      exact hMatch
  | calls + 2 =>
      cases hLookup : g.lookup call.isAdmin call.email with
      | none =>
          rw [hLookup] at hFind
          rw [loginAfter_unknown (not_knows_of_lookup hLookup), Program.diskAfter_succ hFirst,
            login_refused hFind, Program.diskAfter_idle rfl]
          exact hMatch
      | some p =>
          rw [hLookup] at hFind
          have hKnows := knows_of_lookup hAllowed hLookup
          have hRead := GoesOn.answer (s := begun m (.login (.getUsers call))) (goesOn_login hFind)
          rw [loginAfter_done hKnows, Program.diskAfter_succ hFirst, hRead,
            Program.diskAfter_succ rfl, Program.diskAfter_idle rfl]
          exact hMatch.become hKnows.mem hLookup

/-- What is registered has passed the validators of `SIGNUP`, and so passes
those of `LOGIN`. -/
theorem Refines.accepted {g : Accounts} {m : State} (h : Refines g m) {st : Login.State}
    {cut : Option Nat}
    (hAllowed : Op.Allowed g (.login st.isAdmin st.email.val st.password.val cut)) :
    st.accepted = true := by
  have hBoth : emailValid st.email.val = true ∧ st.password.val ≠ [] := by
    cases hLookup : g.lookup st.isAdmin st.email.val with
    | none => simpa [Op.Allowed, hLookup] using hAllowed
    | some p =>
        have hSame : st.password.val = p.password := by
          simpa [Op.Allowed, hLookup] using hAllowed
        obtain ⟨xs, hExec, -⟩ := h.run
        have hStored : accountOf st.isAdmin st.email.val p ∈ m.disk.accounts st.isAdmin :=
          (h.matching.accounts _ _).mpr ⟨rfl, hLookup⟩
        have hOk := storesOk_run hExec st.isAdmin
        exact ⟨hOk.email _ hStored, hSame ▸ hOk.password _ hStored⟩
  exact (Login.accepted_iff st).mpr ⟨emailValid_ne_nil hBoth.1, hBoth⟩

/-- An allowed Login with the form filled in is a press of the button. -/
theorem LoginForm.pressed {g : Accounts} {m : State} {isAdmin : Bool} {email password : JsString}
    {cut : Option Nat} (hForm : LoginForm m isAdmin email password) (h : Refines g m)
    (hIdle : m.Quiescent) (hAllowed : Op.Allowed g (.login isAdmin email password cut)) :
    ∃ call : Login.Call, call.isAdmin = isAdmin ∧ call.email = email ∧
      Pressed m.ui (.login .handleSubmit) (.login (.getUsers call)) := by
  obtain ⟨st, hScreen, rfl, rfl, rfl⟩ := hForm
  obtain ⟨xs, hExec, hSteps⟩ := h.run
  have hLoaded := (settling_run hExec hSteps).isLoading hIdle hScreen
  exact ⟨st.call m.ui.focused.key m.ui.nextCall, rfl, rfl,
    .login hScreen hLoaded (h.accepted hAllowed)⟩

/-- A Login whose email is on no account leaves LOGIN on the screen. -/
theorem shown_login_refused {m c s : State} {call : Login.Call} {n : Nat} (hIdle : m.Quiescent)
    (hPress : Pressed m.ui (.login .handleSubmit) (.login (.getUsers call)))
    (hNone : (m.disk.accounts call.isAdmin).find? (fun e => e.email = call.email) = none)
    (hEnd : app.Completed (begun m (.login (.getUsers call))) n c) (hSettles : Settles c s) :
    shown s = .notFound := by
  have hRefused := login_refused hNone
  have hFirst := pending_begun hIdle.pending (.login (.getUsers call))
  have hLast := hEnd.single hFirst (by rw [hRefused])
  rw [hRefused] at hLast
  rw [hSettles.eq (by rw [hLast]; exact ⟨hIdle.effects, rfl, hIdle.served⟩), hLast]
  cases hPress with
  | login hs _ _ => simp [shown, Ui.modify, counted, hs, Screen.onLogin, Login.State.call]

/-- A Login on a state that refines a registry does what the registry does, and shows what
it says. -/
theorem login_refines {g : Accounts} {m c s : State} {isAdmin : Bool}
    {email password : JsString} (h : Refines g m) (hIdle : m.Quiescent)
    (hForm : LoginForm m isAdmin email password)
    (hAllowed : Op.Allowed g (.login isAdmin email password none))
    (hRun : Completes m pressLogin c) (hSettles : Settles c s) :
    shown s = (Op.apply g (.login isAdmin email password none)).2 ∧
      Refines (Op.apply g (.login isAdmin email password none)).1 s := by
  obtain ⟨call, rfl, rfl, hPress⟩ := hForm.pressed h hIdle hAllowed
  obtain ⟨n, hEnd⟩ := hRun.completed hIdle hPress (by simp)
  have hMatch := h.matching.login hIdle hAllowed (n + 2)
  rw [← hEnd.disk (Nat.le_add_right n 2)] at hMatch
  have hDone := Refines.ended (e := .login .handleSubmit) h.run hIdle trivial hRun hEnd hMatch
  have hFind := h.matching.find call.isAdmin call.email
  cases hLookup : g.lookup call.isAdmin call.email with
  | none =>
      rw [hLookup] at hFind
      have hUnknown : ¬ Knows g call.isAdmin call.email password := not_knows_of_lookup hLookup
      rw [loginAfter_unknown hUnknown] at hDone
      simp only [Op.apply, loginAfter_unknown hUnknown, if_neg hUnknown]
      exact ⟨shown_login_refused hIdle hPress hFind hEnd hSettles,
        hDone.browses hSettles.browses.1⟩
  | some p =>
      have hKnows := knows_of_lookup hAllowed hLookup
      rw [loginAfter_done hKnows] at hDone
      simp only [Op.apply, loginAfter_done hKnows 0, if_pos hKnows]
      exact hDone.shows_home hSettles rfl

/-- So does a Login that is cut off, with the relaunch after it. -/
theorem login_cut_refines {g : Accounts} {m c s : State} {isAdmin : Bool}
    {email password : JsString} {calls : Nat} (h : Refines g m) (hIdle : m.Quiescent)
    (hForm : LoginForm m isAdmin email password)
    (hAllowed : Op.Allowed g (.login isAdmin email password (some calls)))
    (hRun : CutShort m pressLogin calls c) (hSettles : Settles (app.boot c.disk c.ui) s) :
    shown s = (Op.apply g (.login isAdmin email password (some calls))).2 ∧
      Refines (Op.apply g (.login isAdmin email password (some calls))).1 s := by
  obtain ⟨call, rfl, rfl, hPress⟩ := hForm.pressed h hIdle hAllowed
  have hMatch := h.matching.login hIdle hAllowed calls
  rw [← (hRun.interrupted hIdle hPress (by simp)).disk] at hMatch
  exact refines_boot (h.run.cutShort (e := .login .handleSubmit) trivial hRun) hMatch hSettles

/-! ## Logout -/

/-- A logout on a state that refines a registry leaves it. -/
theorem logout_refines {g : Accounts} {m c s : State} (h : Refines g m) (hIdle : m.Quiescent)
    (hHome : m.ui.focused.screen.name = .HOME) (hRun : Completes m pressLogout c)
    (hSettles : Settles c s) :
    shown s = (Op.apply g .logout).2 ∧ Refines (Op.apply g .logout).1 s := by
  obtain ⟨st, hScreen⟩ : ∃ st, m.ui.focused.screen = .HOME st := by
    cases hs : m.ui.focused.screen <;> simp_all [Screen.name]
  obtain ⟨xs, hExec, hSteps⟩ := h.run
  have hOne := (settling_run hExec hSteps).one
  have hPress := Pressed.logout hScreen
  obtain ⟨n, hEnd⟩ := hRun.completed hIdle hPress (by simp)
  have hFirst := pending_begun hIdle.pending (.home (.logout m.ui.nextCall m.ui.focused.key))
  have hLast := hEnd.single hFirst rfl
  have hBelow : (counted m.ui).below = [] := hOne.below
  have hMount : Mounted m.ui.nextKey .AUTH
      (app.resume (.home (.logout m.ui.nextCall m.ui.focused.key)) (counted m.ui)) :=
    resume_opens hBelow rfl
  have hFocused : c.ui.focused = ⟨m.ui.nextKey, .AUTH (.LOGIN {})⟩ := by
    rw [hLast]
    exact hMount.focused
  have hAlone : c.ui.below = [] := by
    rw [hLast]
    exact hMount.below
  have hDisk : c.disk = { m.disk with userLoggedIn := none } := by
    rw [hLast]
    rfl
  have hDone := Refines.ended (e := .home .logout) h.run hIdle trivial hRun hEnd
    (hDisk ▸ h.matching.leave)
  exact hDone.start ⟨hAlone, Or.inl (by rw [hFocused]; rfl)⟩
    (Or.inr ⟨{}, by rw [hFocused], rfl⟩) hSettles

/-! ## Sequences of operations -/

/-- One operation: the screen shows what the registry says, and the store
follows it. -/
theorem performs_refines {g : Accounts} {s s' : State} {op : Op} (h : Refines g s)
    (hAllowed : Op.Allowed g op) (hRun : Performs s op s') :
    shown s' = (Op.apply g op).2 ∧ Refines (Op.apply g op).1 s' := by
  cases hRun with
  | signup hBrowse hIdle hForm hRun hSettles =>
      exact signup_refines (h.browses hBrowse) hIdle hForm hAllowed hRun hSettles
  | signupCut hBrowse hIdle hForm hRun hSettles =>
      exact signup_cut_refines (h.browses hBrowse) hIdle hForm hAllowed hRun hSettles
  | login hBrowse hIdle hForm hRun hSettles =>
      exact login_refines (h.browses hBrowse) hIdle hForm hAllowed hRun hSettles
  | loginCut hBrowse hIdle hForm hRun hSettles =>
      exact login_cut_refines (h.browses hBrowse) hIdle hForm hAllowed hRun hSettles
  | logout hBrowse hIdle hHome hRun hSettles =>
      exact logout_refines (h.browses hBrowse) hIdle hHome hRun hSettles
  | relaunch hBrowse hSettles =>
      have hBefore := h.browses hBrowse
      exact refines_boot hBefore.run hBefore.matching hSettles

/-- The first start refines the empty registry. -/
theorem refines_init : Refines Registry.empty init where
  run := ⟨[], rfl, by simp⟩
  calm :=
    { awaits := fun a ha => by
        simp only [init, List.append_nil, List.mem_singleton] at ha
        exact ha ▸ .load (.login 0)
      served := by simp [init] }
  matching := matches_init

/-- The application performs an operation, and its screen then shows `out`. -/
def PerformsShowing (s : State) (op : Op) (out : Outcome) (s' : State) : Prop :=
  Performs s op s' ∧ shown s' = out

/-- **The store is a registry.**  Over every sequence of operations, with kills at
any call of a submit: each outcome is the registry's, and at the end the accounts
of each role and the session are the registry's too. -/
theorem registry_refined (ops : List Op) (outs : List Outcome) (s : State)
    (hAllowed : AllAllowed Op.apply Op.Allowed Registry.empty ops)
    (hRun : PerformsAll PerformsShowing init ops outs s) :
    outs = (applyAll Op.apply Registry.empty ops).2 ∧
      Matches (applyAll Op.apply Registry.empty ops).1 s.disk := by
  obtain ⟨hOuts, hLast⟩ := refines_all Refines (fun g s op out s' h hOk hPerforms => by
    obtain ⟨hShown, hNext⟩ := performs_refines h hOk hPerforms.1
    exact ⟨hPerforms.2.symm.trans hShown, hNext⟩) refines_init hAllowed hRun
  exact ⟨hOuts, hLast.matching⟩

/-- Ann, a member. -/
def ann : Account := ⟨js "ann@x.co", js "pw", js "Ann", false⟩

/-- Ann's signup is killed between its two writes, and she logs in. -/
def annOps : List Op :=
  [.signup ann (some 2), .login false ann.email ann.password none]

/-- Ann has filled in `SIGNUP`. -/
def annFilled : List Action :=
  loaded ++ [openSignup] ++ fillSignup ann.email ann.password ann.name

/-- Her account is written, and her session is not. -/
def annKilled : List Action := annFilled ++ pressSignup :: interruption Event 1 true

/-- A new process has looked for a session. -/
def annReturned : List Action := annKilled ++ [.kill] ++ loaded

/-- Ann has filled in `LOGIN`. -/
def annTyped : List Action := annReturned ++ fillLogin ann.email ann.password

/-- Her session is written. -/
def annBack : List Action := annTyped ++ pressLogin :: answers Event 2

/-- Where a run ends. -/
def after (xs : List Action) : State := (run xs).getD init

theorem exec_after (xs ys : List Action) (h : (run (xs ++ ys)).isSome = true) :
    app.exec (after xs) ys = some (after (xs ++ ys)) := by
  obtain ⟨s, hBoth⟩ := Option.isSome_iff_exists.mp h
  obtain ⟨m, hFirst, hRest⟩ := app.exec_append_some hBoth
  rw [after, after, hBoth, show run xs = some m from hFirst]
  exact hRest

theorem boot_after (xs : List Action) (h : (run (xs ++ [.kill])).isSome = true) :
    app.boot (after xs).disk (after xs).ui = after (xs ++ [.kill]) :=
  Option.some.inj (exec_after xs [.kill] h)

theorem settles_loaded (xs : List Action) (h : (run (xs ++ loaded)).isSome = true)
    (hQuiet : (after (xs ++ loaded)).Quiescent) : Settles (after xs) (after (xs ++ loaded)) :=
  ⟨loaded, exec_after xs loaded h, by simp [loaded, answered, StoreStep, Action.InOrder], hQuiet⟩

/-- Ann signs up and is cut off after the list write; then she logs in. -/
theorem annOps_performed : PerformsAll PerformsShowing init annOps [.login, .home]
    (after (annBack ++ loaded)) := by
  have hSignup : Performs init (.signup ann (some 2)) (after annReturned) := by
    have hBrowse : Browses init (after annFilled) :=
      ⟨annFilled, exec_after [] annFilled (by decide), by decide +kernel⟩
    have hCut : CutShort (after annFilled) pressSignup 2 (after annKilled) :=
      ⟨1, true, rfl, exec_after annFilled _ (by decide), by decide⟩
    have hSettles : Settles (app.boot (after annKilled).disk (after annKilled).ui)
        (after annReturned) := by
      rw [boot_after annKilled (by decide)]
      exact settles_loaded _ (by decide) ⟨by decide, by decide, by decide⟩
    exact .signupCut hBrowse ⟨by decide, by decide, by decide⟩ ⟨_, rfl, by decide⟩ hCut hSettles
  have hLogin : Performs (after annReturned) (.login false ann.email ann.password none)
      (after (annBack ++ loaded)) := by
    have hBrowse : Browses (after annReturned) (after annTyped) :=
      ⟨_, exec_after annReturned _ (by decide), by decide +kernel⟩
    have hRun : Completes (after annTyped) pressLogin (after annBack) :=
      ⟨2, exec_after annTyped _ (by decide), by decide⟩
    exact .login hBrowse ⟨by decide, by decide, by decide⟩ ⟨_, rfl, rfl, by decide, by decide⟩
      hRun (settles_loaded annBack (by decide) ⟨by decide, by decide, by decide⟩)
  have hCutShows : shown (after annReturned) = .login := by decide
  have hShows : shown (after (annBack ++ loaded)) = .home := by decide
  exact .cons ⟨hSignup, hCutShows⟩ (.cons ⟨hLogin, hShows⟩ (.nil _))

/-- What the registry says of the run of both operations. -/
theorem registry_refined_ann :
    [Outcome.login, .home] = (applyAll Op.apply Registry.empty annOps).2 ∧
      Matches (applyAll Op.apply Registry.empty annOps).1 (after (annBack ++ loaded)).disk :=
  registry_refined annOps _ _ (by decide +kernel) annOps_performed
end TaskManager.Runs
