import TaskManager.App.Operations
import TaskManager.Runs.AccountStores
import TaskManager.Verified.InFlight

/-!
# When an account stays stored

A Signup submit writes back the list it has read, so what another submit
stores in between is lost.  Whether that happens is decided by the order in
which the reads and writes of the lists are served, which `listSteps` reads off
a run:

* `accounts_kept_iff` — an account that was stored stays stored exactly in
  those runs in which no submit is interrupted: between its read and its write
  no list write of its role stores an account that is neither its own nor
  stored before the read;
* `accounts_lost` — a run of two presses in which the second press is
  interrupted by the write of the first.

Reads and writes are matched by `read_once`: a submit reads its list once, so
the list it writes back is the one its role had at that step
(`snapshotLocal`).
-/

namespace TaskManager.Runs

open TaskManager.Verified.JsText
open TaskManager.Verified.EventLoop
open TaskManager.Shared
open TaskManager.Pages
open TaskManager.Routes
open TaskManager.App

/-! ## The steps on the lists -/

/-- The store serves a Signup submit's read of its role's list, or its write
of it. -/
inductive ListStep where
  | read (call : Signup.Call)
  | write (call : Signup.Call)
  deriving DecidableEq, Repr

/-- The step on a list that an action performs, if it performs one. -/
def listStep (p : State × Action) : Option ListStep :=
  match p.2 with
  | .serve i =>
      match p.1.pending[i]? with
      | some (.signup (.getUsers call)) => some (.read call)
      | some (.signup (.setUsers call _)) => some (.write call)
      | _ => none
  | _ => none

/-- The reads and writes of the lists in a run, in the order they are served. -/
def listSteps (xs : List Action) : List ListStep :=
  (app.trace init xs).filterMap listStep

/-- Between a submit's read and its write, no list write of the same role
stores an account that is neither the submit's own nor stored by a list write
before the read. -/
def Uninterrupted (steps : List ListStep) : Prop :=
  ∀ l₁ call l₂ l₃, steps = l₁ ++ .read call :: l₂ ++ .write call :: l₃ →
    ∀ other, .write other ∈ l₂ → other.isAdmin = call.isAdmin →
      other.account = call.account ∨
        ∃ before, .write before ∈ l₁ ∧ before.account = other.account

/-- The steps up to any point are uninterrupted when all of them are. -/
theorem Uninterrupted.of_append {l l' : List ListStep} (h : Uninterrupted (l ++ l')) :
    Uninterrupted l := by
  rintro l₁ call l₂ l₃ rfl
  exact h l₁ call l₂ (l₃ ++ l') (by simp)

/-- Submits that are served one after the other are not interrupted. -/
theorem uninterrupted_of_nodup {calls : List Signup.Call} (h : calls.Nodup) :
    Uninterrupted (calls.flatMap fun call => [.read call, .write call]) := by
  induction calls with
  | nil =>
      intro l₁ call l₂ l₃ hSteps
      simp at hSteps
  | cons first calls ih =>
      rw [List.nodup_cons] at h
      intro l₁ call l₂ l₃ hSteps other hOther hRole
      simp only [List.flatMap_cons, List.append_assoc, List.cons_append,
        List.nil_append] at hSteps
      rcases l₁ with _ | ⟨b, _ | ⟨c, l₁⟩⟩
      · simp only [List.nil_append, List.cons.injEq, ListStep.read.injEq] at hSteps
        obtain ⟨rfl, hSteps⟩ := hSteps
        rcases l₂ with _ | ⟨b, l₂⟩
        · simp at hOther
        · -- the write of `first` would come again among those of the later submits
          simp only [List.cons_append, List.cons.injEq] at hSteps
          have hAgain : .write first ∈ l₂ ++ .write first :: l₃ := by simp
          rw [← hSteps.2] at hAgain
          simp [h.1] at hAgain
      · simp at hSteps
      · simp only [List.cons_append, List.cons.injEq] at hSteps
        obtain ⟨rfl, rfl, hSteps⟩ := hSteps
        refine (ih h.2 l₁ call l₂ l₃ (by simp [hSteps]) other hOther hRole).imp_right ?_
        rintro ⟨before, hBefore, hSame⟩
        exact ⟨before, by simp [hBefore], hSame⟩

/-- A list write in the log is a step that stores an account. -/
theorem listStep_eq_write {p : State × Action} {call : Signup.Call} :
    listStep p = some (.write call) ↔ StoresAccount p call := by
  constructor
  · intro h
    unfold listStep at h
    split at h
    · rename_i i hServe
      split at h
      · simp at h
      · rename_i call' data hAt
        obtain rfl : call' = call := by simpa using h
        exact ⟨i, data, hServe, hAt⟩
      · simp at h
    · simp at h
  · rintro ⟨i, data, hServe, hAt⟩
    simp [listStep, hServe, hAt]

/-- An account is stored in a history when its write is in the log. -/
theorem mem_listSteps {h : History} {call : Signup.Call} :
    .write call ∈ h.filterMap listStep ↔ ∃ p ∈ h, StoresAccount p call := by
  simp only [List.mem_filterMap, listStep_eq_write]

/-! ## A submit reads once -/

/-- The request is the submit's read. -/
def isGetUsers (call : Signup.Call) : Await → Bool
  | .signup (.getUsers call') => decide (call' = call)
  | _ => false

/-- The step serves the submit's read. -/
def isReadOf (call : Signup.Call) (p : State × Action) : Bool :=
  decide (listStep p = some (.read call))

/-- The reads of a submit that have been served, and those that wait. -/
def readsOf (call : Signup.Call) (h : History) (s : State) : Nat :=
  h.countP (isReadOf call) + s.pending.countP (isGetUsers call)

/-- A submit has one read, and none before its press. -/
def ReadsOnce (h : History) (s : State) : Prop :=
  ∀ call, readsOf call h s ≤ if call.id < s.ui.nextCall then 1 else 0

theorem isGetUsers_of_isLoad {a : Await} (h : IsLoad a) (call : Signup.Call) :
    isGetUsers call a = false := by
  cases h <;> rfl

/-- No continuation reads a list. -/
theorem isGetUsers_of_continued {r : Ready} {a : Await} (h : Continued r a)
    (call : Signup.Call) : isGetUsers call a = false := by
  cases h <;> rfl

/-- A press issues the read of its own number. -/
theorem id_of_pressed {ui : Ui} {e : Event} {a : Await} (h : Pressed ui e a)
    {call : Signup.Call} (ha : isGetUsers call a = true) : call.id = ui.nextCall := by
  cases h with
  | signup hs hAcc =>
      obtain rfl := of_decide_eq_true ha
      rfl
  | login _ _ _ => simp [isGetUsers] at ha
  | logout _ => simp [isGetUsers] at ha
  | handleBack _ => simp [isGetUsers] at ha
  | save _ => simp [isGetUsers] at ha

theorem isReadOf_eq_false {s : State} {x : Action} (h : ∀ i, x ≠ .serve i)
    (call : Signup.Call) : isReadOf call (s, x) = false := by
  cases x <;> simp_all [isReadOf, listStep]

/-- The step that serves a request is a read of a list when the request is one. -/
theorem isReadOf_serve {s : State} {i : Nat} {a : Await} (hAt : s.pending[i]? = some a)
    (call : Signup.Call) : isReadOf call (s, .serve i) = isGetUsers call a := by
  unfold isReadOf listStep isGetUsers
  simp only [hAt]
  cases a with
  | signup a => cases a <;> simp
  | login a => simp
  | home a => simp
  | create a => simp
  | list a => simp

theorem countP_isGetUsers {as : List Await} {call : Signup.Call}
    (h : ∀ a ∈ as, isGetUsers call a = false) : as.countP (isGetUsers call) = 0 := by
  rw [List.countP_eq_zero]
  intro a ha
  simp [h a ha]

/-- The reads an event issues: at most one, of the submit it numbers. -/
theorem countP_handle {ui : Ui} {e : Event} {out : Ui × Issued Await}
    (h : app.handle e ui = some out) (call : Signup.Call) :
    out.2.requests.countP (isGetUsers call) ≤ if call.id = ui.nextCall then 1 else 0 := by
  by_cases hNumber : call.id = ui.nextCall
  · rw [if_pos hNumber]
    exact (List.countP_le_length).trans (handle_oneAtATime h)
  · rw [if_neg hNumber, countP_isGetUsers]
    intro a ha
    by_contra hRead
    rw [Bool.not_eq_false] at hRead
    exact hNumber (id_of_pressed (handle_requests h ha) hRead)

/-- A step that serves nothing changes only the reads that wait. -/
theorem readsOf_snoc {call : Signup.Call} {h : History} {s s' : State} {x : Action}
    (hNoRead : ∀ i, x ≠ .serve i) :
    readsOf call (h ++ [(s, x)]) s' =
      h.countP (isReadOf call) + s'.pending.countP (isGetUsers call) := by
  simp [readsOf, isReadOf_eq_false hNoRead]

/-- Every step keeps the reads of a submit down to one. -/
theorem ReadsOnce.step {h : History} {s s' : State} {x : Action}
    (hLoads : ∀ a ∈ s.effects, IsLoad a) (hOnce : ReadsOnce h s) (hx : app.Step s x s') :
    ReadsOnce (h ++ [(s, x)]) s' := by
  intro call
  have hOld := hOnce call
  unfold readsOf at hOld
  cases hx with
  | user hOut =>
      rw [readsOf_snoc (by simp)]
      have hNew := countP_handle hOut call
      simp only [State.issue, List.countP_append, nextCall_handle hOut]
      split at hOld <;> split at hNew <;> split <;> omega
  | effect hAt =>
      have hLoad := isGetUsers_of_isLoad (hLoads _ (List.mem_of_getElem? hAt)) call
      rw [readsOf_snoc (by simp), List.countP_append, List.countP_singleton, hLoad]
      exact hOld
  | serve hAt =>
      have hMoved := countP_eraseIdx (isGetUsers call) hAt
      simp only [readsOf, List.countP_append, List.countP_singleton, isReadOf_serve hAt]
      omega
  | @resolve i r hAt =>
      have hNone : (app.resume r s.ui).2.requests.countP (isGetUsers call) = 0 :=
        countP_isGetUsers fun a ha => isGetUsers_of_continued (resume_requests ha) call
      rw [readsOf_snoc (by simp)]
      simp only [State.issue, List.countP_append, hNone, nextCall_resume]
      exact hOld
  | reject hAt =>
      have hTaken := countP_eraseIdx (isGetUsers call) hAt
      rw [readsOf_snoc (by simp)]
      show _ + (s.pending.eraseIdx _).countP _ ≤ if call.id < s.ui.nextCall then 1 else 0
      omega
  | kill =>
      rw [readsOf_snoc (by simp), Program.boot]
      have hNone : (app.launch s.ui).2.requests.countP (isGetUsers call) = 0 :=
        countP_isGetUsers fun a ha =>
          isGetUsers_of_isLoad (isLoad_of_mem_launch (List.mem_append_right _ ha)) call
      rw [hNone]
      show _ ≤ if call.id < s.ui.nextCall then 1 else 0
      omega

theorem readsOnce_run {xs : List Action} {s : State} (hRun : run xs = some s) :
    ReadsOnce (app.trace init xs) s :=
  app.exec_induction (fun _ _ => True) ReadsOnce
    (by intro call; simp [readsOf, init])
    (fun _ _ _ _ hReached _ hOnce hx =>
      hOnce.step (isLoad_of_mem_effects hReached.choose_spec.1) hx)
    (fun _ _ => trivial) hRun

/-- The read of a submit is served at most once in a run. -/
theorem read_once {xs : List Action} {s : State} (hRun : run xs = some s)
    (call : Signup.Call) : (app.trace init xs).countP (isReadOf call) ≤ 1 := by
  have hOnce := readsOnce_run hRun call
  unfold readsOf at hOnce
  split at hOnce <;> omega

/-! ## The list a submit carries -/

/-- The submit's read was served in the history, and its role's list was then
`data`. -/
def ReadAt (h : History) (call : Signup.Call) (data : List Account) : Prop :=
  ∃ h₁ p h₂, h = h₁ ++ p :: h₂ ∧ listStep p = some (.read call) ∧
    p.1.disk.accounts call.isAdmin = data

/-- A read in the history stays there. -/
theorem ReadAt.mono {h : History} {call : Signup.Call} {data : List Account}
    (hRead : ReadAt h call data) (p : State × Action) : ReadAt (h ++ [p]) call data := by
  obtain ⟨h₁, q, h₂, rfl, hStep, hData⟩ := hRead
  exact ⟨h₁, q, h₂ ++ [p], by simp, hStep, hData⟩

/-- A list write carries what its submit's read returned. -/
def AwaitRead (h : History) : Await → Prop
  | .signup (.setUsers call data) => ReadAt h call data
  | _ => True

/-- A read that is to be reported carries what it found. -/
def ReadyRead (h : History) : Ready → Prop
  | .signup (.getUsers call data) => ReadAt h call (data.getD [])
  | _ => True

theorem awaitRead_of_isLoad {h : History} {a : Await} (ha : IsLoad a) : AwaitRead h a := by
  cases ha <;> trivial

theorem awaitRead_of_pressed {h : History} {ui : Ui} {e : Event} {a : Await}
    (ha : Pressed ui e a) : AwaitRead h a := by
  cases ha <;> trivial

/-- A continuation writes back the list that was reported to it. -/
theorem awaitRead_of_continued {h : History} {r : Ready} {a : Await}
    (hNext : Continued r a) (hr : ReadyRead h r) : AwaitRead h a := by
  cases hNext with
  | signupUsers _ => exact hr
  | loginUsers _ _ => trivial
  | signupSession => trivial
  | listMembers _ => trivial

theorem AwaitRead.mono {h : History} {a : Await} (p : State × Action) (ha : AwaitRead h a) :
    AwaitRead (h ++ [p]) a := by
  unfold AwaitRead at ha ⊢
  split
  · exact ha.mono p
  · trivial

theorem ReadyRead.mono {h : History} {r : Ready} (p : State × Action) (hr : ReadyRead h r) :
    ReadyRead (h ++ [p]) r := by
  unfold ReadyRead at hr ⊢
  split
  · exact hr.mono p
  · trivial

/-- A served read reports the list of that step. -/
theorem readyRead_serve {h : History} {s : State} {i : Nat} {a : Await}
    (hAt : s.pending[i]? = some a) :
    ReadyRead (h ++ [(s, .serve i)]) (app.serve a s.disk).2 := by
  cases a with
  | signup a =>
      cases a with
      | getUsers call =>
          exact ⟨h, (s, .serve i), [], rfl, by simp [listStep, hAt], rfl⟩
      | setUsers call data => trivial
      | setLoggedIn call => trivial
  | login a => trivial
  | home a => trivial
  | create a => trivial
  | list a => trivial

/-- A submit carries the list its role had when its read was served. -/
def snapshotLocal : Local app init where
  disk _ _ := True
  await := AwaitRead
  ready := ReadyRead
  disk_mono _ _ _ _ := trivial
  await_mono _ p _ ha := ha.mono p
  ready_mono _ p _ hr := hr.mono p
  init_disk := trivial
  init_await := by simp [init, AwaitRead]
  init_ready := by simp [init]
  serve _ _ _ _ _ hAt _ _ := ⟨trivial, readyRead_serve hAt⟩
  resume _ _ _ _ _ _ hr a ha :=
    (resume_awaits ha).elim awaitRead_of_isLoad
      fun hNext => (awaitRead_of_continued hNext hr).mono _
  handle _ _ _ _ _ hOut a ha :=
    (handle_awaits hOut ha).elim awaitRead_of_isLoad awaitRead_of_pressed
  launch _ _ a ha := awaitRead_of_isLoad (isLoad_of_mem_launch ha)

/-! ## When an account stays stored -/

/-- Once the store write of a Signup press has completed, its account is in
the store of its role at every later point of the run. -/
def KeepsAccounts (xs : List Action) : Prop :=
  ∀ ys zs s call, xs = ys ++ zs → run ys = some s →
    (∃ p ∈ app.trace init ys, StoresAccount p call) →
    call.account ∈ s.disk.accounts call.isAdmin

/-- A list write that loses nothing: every account then in the store is the one
being written, or is on the list the submit carries. -/
def NoStaleWrite (p : State × Action) : Prop :=
  ∀ i call data, p.2 = .serve i →
    p.1.pending[i]? = some (.signup (.setUsers call data)) →
    ∀ u ∈ p.1.disk.accounts call.isAdmin, u = call.account ∨ u ∈ data

/-- What has been stored is in the store. -/
def Kept (h : History) (s : State) : Prop :=
  ∀ call, (∃ p ∈ h, StoresAccount p call) →
    call.account ∈ s.disk.accounts call.isAdmin

/-- A step that leaves the stores alone keeps what is in them. -/
theorem Kept.of_accounts_eq {h : History} {s s' : State} {x : Action} (hKept : Kept h s)
    (hSame : ∀ isAdmin, s'.disk.accounts isAdmin = s.disk.accounts isAdmin)
    (hNew : ∀ call, ¬ StoresAccount (s, x) call) : Kept (h ++ [(s, x)]) s' := by
  rintro call ⟨p, hp, hWrote⟩
  rw [hSame]
  rw [List.mem_append, List.mem_singleton] at hp
  rcases hp with hOld | rfl
  · exact hKept call ⟨p, hOld, hWrote⟩
  · exact absurd hWrote (hNew call)

/-- A write that is not stale keeps what is stored. -/
theorem Kept.serve {h : History} {s : State} {i : Nat} {a : Await} (hKept : Kept h s)
    (hAt : s.pending[i]? = some a) (hFresh : NoStaleWrite (s, .serve i)) :
    ∀ s' : State, s'.disk = (app.serve a s.disk).1 → Kept (h ++ [(s, .serve i)]) s' := by
  rintro s' hDisk call ⟨p, hp, hStores⟩
  rw [hDisk]
  rw [List.mem_append, List.mem_singleton] at hp
  rcases hp with hOld | rfl
  · have hIn := hKept call ⟨p, hOld, hStores⟩
    obtain hSame | ⟨call', data, rfl, hRole, hList⟩ :=
      accounts_serve_cases a s.disk call.isAdmin
    · rw [hSame]
      exact hIn
    · rw [hList, List.mem_cons]
      rw [← hRole] at hIn
      exact hFresh i call' data rfl hAt _ hIn
  · obtain ⟨j, data, hServe, hCall⟩ := hStores
    obtain rfl : i = j := Action.serve.inj hServe
    obtain rfl := Option.some.inj (hAt.symm.trans hCall)
    simp [accounts_serve, storeWrite]

/-- A step that is not a stale write keeps what is stored. -/
theorem Kept.step {h : History} {s s' : State} {x : Action}
    (hFresh : NoStaleWrite (s, x)) (hKept : Kept h s) (hx : app.Step s x s') :
    Kept (h ++ [(s, x)]) s' := by
  cases hx with
  | serve hAt => exact hKept.serve hAt hFresh _ rfl
  | user _ => exact hKept.of_accounts_eq (fun _ => rfl) (by simp [StoresAccount])
  | effect _ => exact hKept.of_accounts_eq (fun _ => rfl) (by simp [StoresAccount])
  | resolve _ => exact hKept.of_accounts_eq (fun _ => rfl) (by simp [StoresAccount])
  | reject _ => exact hKept.of_accounts_eq (fun _ => rfl) (by simp [StoresAccount])
  | kill => exact hKept.of_accounts_eq (fun _ => rfl) (by simp [StoresAccount])

/-- Without stale writes, every account stays. -/
theorem keepsAccounts_of_noStaleWrite {xs : List Action}
    (hFresh : ∀ p ∈ app.trace init xs, NoStaleWrite p) : KeepsAccounts xs := by
  rintro ys zs m call rfl hm hWrote
  have hPrefix : ∀ p ∈ app.trace init ys, NoStaleWrite p := by
    intro p hp
    refine hFresh p ?_
    rw [app.trace_append zs hm]
    exact List.mem_append_left _ hp
  have hKept : Kept (app.trace init ys) m :=
    app.exec_induction (fun s x => NoStaleWrite (s, x)) Kept
      (by rintro call ⟨p, hp, -⟩; simp at hp)
      (fun _ _ _ _ _ hOk hKept hx => hKept.step hOk hx) hPrefix hm
  exact hKept call hWrote

/-- A stale write would lose an account. -/
theorem noStaleWrite_of_keepsAccounts {xs : List Action} {s : State}
    (hRun : run xs = some s) (hKeeps : KeepsAccounts xs) :
    ∀ p ∈ app.trace init xs, NoStaleWrite p := by
  intro p hp i call data hServe hAt u hu
  obtain ⟨h₁, h₂, hSplit⟩ := List.append_of_mem hp
  obtain ⟨ys, m, zs, rfl, hPre, hx, -, -, -⟩ := app.exec_of_trace_append hRun hSplit
  -- `u` was itself stored by a press, so it must survive this write.
  obtain ⟨q, hq, c, hStores, rfl⟩ := (provenanceLocal.holds hPre).disk call.isAdmin u hu
  have hRole : c.isAdmin = call.isAdmin :=
    (storesOk_run hPre call.isAdmin).role c.account hu
  have hStays := hKeeps (ys ++ [p.2]) zs m c (by simp) (app.exec_snoc hPre hx)
    ⟨q, by rw [app.trace_snoc p.2 hPre]; exact List.mem_append_left _ hq, hStores⟩
  rw [hServe] at hx
  cases hx with
  | serve hAt' =>
      rw [hAt, Option.some.injEq] at hAt'
      subst hAt'
      rw [accounts_serve] at hStays
      simpa [storeWrite, hRole] using hStays

/-- In a run that keeps its accounts, what was stored before a step is in the
store at the step. -/
theorem KeepsAccounts.mem_accounts {xs : List Action} {s : State} (hKeeps : KeepsAccounts xs)
    (hRun : run xs = some s) {h₁ h₂ : History} {p q : State × Action}
    (hSplit : app.trace init xs = h₁ ++ p :: h₂) (hq : q ∈ h₁) {call : Signup.Call}
    (hStores : StoresAccount q call) : call.account ∈ p.1.disk.accounts call.isAdmin := by
  obtain ⟨ys, m, zs, rfl, hPre, -, -, hTrace, -⟩ := app.exec_of_trace_append hRun hSplit
  exact hKeeps ys (p.2 :: zs) p.1 call rfl hPre ⟨q, hTrace ▸ hq, hStores⟩

/-- A submit that is not interrupted writes over nothing it does not carry. -/
theorem noStaleWrite_of_uninterrupted {ys : List Action} {m : State} {x : Action}
    (hRun : run ys = some m) (hKeeps : KeepsAccounts ys)
    (hSteps : Uninterrupted (listSteps (ys ++ [x]))) : NoStaleWrite (m, x) := by
  intro i call data hServe hAt u hu
  obtain ⟨h₁, r, h₂, hSplit, hRead, rfl⟩ : ReadAt (app.trace init ys) call data :=
    (snapshotLocal.holds hRun).of_pending (List.mem_of_getElem? hAt)
  obtain ⟨q, hq, other, hStores, rfl⟩ := (provenanceLocal.holds hRun).disk call.isAdmin u hu
  have hRole : other.isAdmin = call.isAdmin :=
    (storesOk_run hRun call.isAdmin).role other.account hu
  have hKept : ∀ p ∈ h₁, ∀ c, StoresAccount p c → c.account = other.account →
      other.account ∈ r.1.disk.accounts call.isAdmin := by
    intro p hp c hWrote hSame
    have hIn := hKeeps.mem_accounts hRun hSplit hp hWrote
    rw [hSame, show c.isAdmin = other.isAdmin from congrArg Account.isAdmin hSame, hRole] at hIn
    exact hIn
  rw [hSplit, List.mem_append, List.mem_cons] at hq
  rcases hq with hBefore | rfl | hBetween
  · exact Or.inr (hKept q hBefore other hStores rfl)
  · rw [listStep_eq_write.mpr hStores] at hRead
    simp at hRead
  · have hOther : .write other ∈ h₂.filterMap listStep :=
      mem_listSteps.mpr ⟨q, hBetween, hStores⟩
    have hLog : listSteps (ys ++ [x]) = h₁.filterMap listStep
        ++ .read call :: h₂.filterMap listStep ++ .write call :: [] := by
      rw [listSteps, app.trace_snoc x hRun, hSplit, List.filterMap_append, List.filterMap_append,
        List.filterMap_cons_some hRead, List.filterMap_cons_some
          (listStep_eq_write.mpr ⟨i, _, hServe, hAt⟩), List.filterMap_nil]
    refine (hSteps _ call _ _ hLog other hOther hRole).imp_right ?_
    rintro ⟨c, hc, hSame⟩
    obtain ⟨p, hp, hWrote⟩ := mem_listSteps.mp hc
    exact hKept p hp c hWrote hSame

/-- By induction on the run: submits that were not interrupted so far have lost nothing, so
that what a read found is still all there is. -/
theorem keepsAccounts_of_uninterrupted {xs : List Action} {s : State} (hRun : run xs = some s)
    (hSteps : Uninterrupted (listSteps xs)) : KeepsAccounts xs := by
  refine keepsAccounts_of_noStaleWrite ?_
  induction xs using List.reverseRecOn generalizing s with
  | nil => simp
  | append_singleton ys x ih =>
      obtain ⟨m, hm, -⟩ := app.exec_snoc_some hRun
      have hPrefix : Uninterrupted (listSteps ys) := by
        rw [listSteps, app.trace_snoc x hm, List.filterMap_append] at hSteps
        exact hSteps.of_append
      have hFresh := ih hm hPrefix
      rw [app.trace_snoc x hm]
      exact forall_mem_snoc hFresh
        (noStaleWrite_of_uninterrupted hm (keepsAccounts_of_noStaleWrite hFresh) hSteps)

/-- An account stored in between, by another submit and not before the read, is not on the
list that the write puts back. -/
theorem uninterrupted_of_keepsAccounts {xs : List Action} {s : State} (hRun : run xs = some s)
    (hKeeps : KeepsAccounts xs) : Uninterrupted (listSteps xs) := by
  intro l₁ call l₂ l₃ hLog other hOther hRole
  obtain ⟨h₁, w, h₃, hSplit, hFirst, hWrite, -⟩ := filterMap_eq_append_cons hLog
  obtain ⟨g₁, r, g₂, rfl, rfl, hRead, rfl⟩ := filterMap_eq_append_cons hFirst
  obtain ⟨ys, m, zs, rfl, hPre, -, -, hTrace, -⟩ := app.exec_of_trace_append hRun hSplit
  obtain ⟨q, hq, hStores⟩ := mem_listSteps.mp hOther
  have hIn : other.account ∈ w.1.disk.accounts call.isAdmin :=
    hRole ▸ hKeeps.mem_accounts hRun hSplit (by simp [hq]) hStores
  -- the list that is written back is the one the submit's only read returned
  obtain ⟨i, data, hServe, hAt⟩ := listStep_eq_write.mp hWrite
  obtain ⟨k₁, r', k₂, hSplit', hRead', rfl⟩ : ReadAt (app.trace init ys) call data :=
    (snapshotLocal.holds hPre).of_pending (List.mem_of_getElem? hAt)
  have hOnce := read_once hPre call
  rw [hTrace] at hSplit' hOnce
  obtain ⟨rfl, rfl, rfl⟩ :=
    split_unique hSplit' (decide_eq_true hRead) (decide_eq_true hRead') hOnce
  have hFresh := noStaleWrite_of_keepsAccounts hRun hKeeps w (by rw [hSplit]; simp)
  refine (hFresh i call _ hServe hAt other.account hIn).imp_right ?_
  intro hData
  obtain ⟨ys', m', zs', rfl, hPre', -, -, rfl, -⟩ := app.exec_of_trace_append hPre hTrace
  obtain ⟨p, hp, c, hWrote, hSame⟩ :=
    (provenanceLocal.holds hPre').disk call.isAdmin other.account hData
  exact ⟨c, mem_listSteps.mpr ⟨p, hp, hWrote⟩, hSame⟩

/-- **When no account is lost.**  A run keeps every account it has stored if
and only if no submit is interrupted: between the step that serves its read and
the step that serves its write, no list write of its role stores an account
other than its own that had not been stored before the read. -/
theorem accounts_kept_iff (xs : List Action) (s : State) (hRun : run xs = some s) :
    KeepsAccounts xs ↔ Uninterrupted (listSteps xs) :=
  ⟨uninterrupted_of_keepsAccounts hRun, keepsAccounts_of_uninterrupted hRun⟩

/-- Bob presses while Ann's submit is in flight, but his read comes after her
write, and both stay stored. -/
theorem accounts_kept_iff_ann :
    ∃ s, run annThenBob = some s ∧
      listSteps annThenBob = [.read annCall, .write annCall, .read bobCall, .write bobCall] ∧
      KeepsAccounts annThenBob ∧
      annCall.account ∈ s.disk.accounts false ∧ bobCall.account ∈ s.disk.accounts false := by
  obtain ⟨s, hRun⟩ := Option.isSome_iff_exists.mp
    (show (run annThenBob).isSome = true by decide)
  have hSteps : listSteps annThenBob =
      [.read annCall, .write annCall, .read bobCall, .write bobCall] := by decide
  have hCalls : [annCall, bobCall].Nodup := by decide
  have hKeeps : KeepsAccounts annThenBob := by
    rw [accounts_kept_iff annThenBob s hRun, hSteps]
    exact uninterrupted_of_nodup hCalls
  have hStored : ∀ call, .write call ∈ listSteps annThenBob →
      call.account ∈ s.disk.accounts call.isAdmin := fun call hWrite =>
    hKeeps annThenBob [] s call (by simp) hRun (mem_listSteps.mp hWrite)
  refine ⟨s, hRun, hSteps, hKeeps, ?_, ?_⟩
  · exact hStored annCall (by simp [hSteps])
  · exact hStored bobCall (by simp [hSteps])

/-- Ann presses the button, and Bob takes over the form and presses it before
her first request has completed.  Both presses read the empty list. -/
def overlappingSignups : List Action :=
  loaded ++ [openSignup] ++ fillSignup (js "ann@x.co") (js "pw") (js "Ann")
    ++ [pressSignup] ++ fillSignup (js "bob@x.co") (js "pw") (js "Bob")
    ++ [pressSignup] ++ answered ++ answered

/-- Both writes complete in the order of issue, and Bob's leaves a list
without Ann. -/
theorem accounts_lost :
    ¬ ∀ xs, (∀ x ∈ xs, x.InOrder) → (run xs).isSome → KeepsAccounts xs := by
  intro hKeeps
  have hKept := hKeeps (overlappingSignups ++ [.serve 0] ++ [.serve 0]) (by decide)
    (by decide)
  obtain ⟨m, hm⟩ := Option.isSome_iff_exists.mp
    (show (run overlappingSignups).isSome = true by decide)
  obtain ⟨s, hRun⟩ := Option.isSome_iff_exists.mp
    (show (run (overlappingSignups ++ [.serve 0] ++ [.serve 0])).isSome = true by decide)
  have hAt : m.pending[0]? = some (.signup (.setUsers annCall [])) := by
    have hQueue : (run overlappingSignups).bind (fun s => s.pending[0]?) =
        some (.signup (.setUsers annCall [])) := by decide
    simpa [hm] using hQueue
  have hGone : (run (overlappingSignups ++ [.serve 0] ++ [.serve 0])).map
      (fun s => decide (annCall.account ∈ s.disk.accounts false)) = some false := by
    decide
  rw [hRun, Option.map_some, Option.some.injEq, decide_eq_false_iff_not] at hGone
  refine hGone (hKept _ [] s annCall (by simp) hRun ⟨(m, .serve 0), ?_, 0, [], rfl, hAt⟩)
  rw [List.append_assoc]
  exact app.mem_trace_of_exec _ _ hm

end TaskManager.Runs
