import TaskManager.App.ScreenInvariants
import TaskManager.App.Openings
import TaskManager.App.Views
import TaskManager.Runs.ShownDraft

/-!
# Who gets to tasks, and who gets them

A member that `CREATE` or `LIST` shows has come a long way: from the form of `SIGNUP` to the
account store, with the load to `LIST`, with Save to the draft and from there to `CREATE`.
`origins` follows every record on all of these ways, in every run: it is one that a Signup
press has stored, under the role it names.

## Main results

* `tasks_go_to_registered_members` — the members of a task are registered as members.
* `only_admins_open_tasks` — a task screen was opened from a `HOME` that shows a registered
  admin, if the `Create` text is what opens it.
* `no_task_is_ever_opened` — with the view `Home` has, there are no task screens.
-/

namespace TaskManager.Runs

open TaskManager.Verified.JsText
open TaskManager.Verified.EventLoop
open TaskManager.Shared
open TaskManager.Pages
open TaskManager.Routes
open TaskManager.App

/-! ## Origins -/

/-- A Signup press has stored the account, under the role. -/
structure RegisteredAs (h : History) (isAdmin : Bool) (u : Account) : Prop where
  registered : Registered h u
  role : u.isAdmin = isAdmin

/-- A registration in the history stays there. -/
theorem RegisteredAs.mono {h : History} {isAdmin : Bool} {u : Account}
    (hu : RegisteredAs h isAdmin u) (p : State × Action) : RegisteredAs (h ++ [p]) isAdmin u :=
  ⟨hu.registered.mono p, hu.role⟩

/-- All of the list are registered as members. -/
def AllMembers (h : History) (list : List Member) : Prop :=
  ∀ m ∈ list, RegisteredAs h false m.toAccount

theorem AllMembers.mono {h : History} {list : List Member} (hList : AllMembers h list)
    (p : State × Action) : AllMembers (h ++ [p]) list := fun m hm => (hList m hm).mono p

/-- Every record in the store was registered, those of the draft as members. -/
structure DiskOrigins (h : History) (d : Disk) : Prop where
  accounts : ∀ isAdmin, ∀ u ∈ d.accounts isAdmin, RegisteredAs h isAdmin u
  session : ∀ u ∈ d.userLoggedIn, Registered h u
  draft : AllMembers h (d.tempMembers.getD [])

/-- So was every record that waits to be written. -/
def AwaitOrigins (h : History) : Await → Prop
  | .login (.setLoggedIn _ record) => Registered h record
  | .signup (.setUsers call data) => ∀ u ∈ data, RegisteredAs h call.isAdmin u
  | .signup (.setLoggedIn call) => Registered h call.account
  | .list (.handleSubmit _ list) => AllMembers h list
  | _ => True

/-- So was every record that has been read. -/
def ReadyOrigins (h : History) : Ready → Prop
  | .login (.getUsers call data) => ∀ u ∈ data.getD [], RegisteredAs h call.isAdmin u
  | .signup (.getUsers call data) => ∀ u ∈ data.getD [], RegisteredAs h call.isAdmin u
  | .signup (.setUsers call) => Registered h call.account
  | .home (.getUserInfo _ info) => ∀ u ∈ info, Registered h u
  | .create (.fetchMembers _ list) => AllMembers h (list.getD [])
  | .list (.getDraft _ list) => AllMembers h (list.getD [])
  | .list (.getMembers _ list) => ∀ u ∈ list.getD [], RegisteredAs h false u
  | _ => True

/-- So is every record on a screen. -/
def ScreenOrigins (h : History) : Screen → Prop
  | .HOME s => ∀ u, s.userInfo = .loaded (some u) → Registered h u
  | .CREATE s => AllMembers h s.membersList
  | .LIST s => AllMembers h s.heap
  | .AUTH _ => True

/-- What has an origin keeps it as the history grows. -/
theorem DiskOrigins.mono {h : History} {d : Disk} (hd : DiskOrigins h d) (p : State × Action) :
    DiskOrigins (h ++ [p]) d where
  accounts isAdmin u hu := (hd.accounts isAdmin u hu).mono p
  session u hu := (hd.session u hu).mono p
  draft := hd.draft.mono p

theorem AwaitOrigins.mono {h : History} {a : Await} (ha : AwaitOrigins h a)
    (p : State × Action) : AwaitOrigins (h ++ [p]) a := by
  unfold AwaitOrigins at ha ⊢
  split
  · exact ha.mono p
  · exact fun u hu => (ha u hu).mono p
  · exact ha.mono p
  · exact ha.mono p
  · trivial

theorem ReadyOrigins.mono {h : History} {r : Ready} (hr : ReadyOrigins h r)
    (p : State × Action) : ReadyOrigins (h ++ [p]) r := by
  unfold ReadyOrigins at hr ⊢
  split
  · exact fun u hu => (hr u hu).mono p
  · exact fun u hu => (hr u hu).mono p
  · exact hr.mono p
  · exact fun u hu => (hr u hu).mono p
  · exact hr.mono p
  · exact hr.mono p
  · exact fun u hu => (hr u hu).mono p
  · trivial

theorem ScreenOrigins.mono {h : History} {sc : Screen} (hsc : ScreenOrigins h sc)
    (p : State × Action) : ScreenOrigins (h ++ [p]) sc := by
  cases sc with
  | AUTH s => trivial
  | HOME s => exact fun u hu => (hsc u hu).mono p
  | CREATE s => exact AllMembers.mono hsc p
  | LIST s => exact AllMembers.mono hsc p

/-! ## The store -/

section Serve

variable {h : History} {s : State} {i : Nat} {a : Await}

/-- A write puts only records with an origin into storage. -/
theorem DiskOrigins.serve (hAt : s.pending[i]? = some a) (hd : DiskOrigins h s.disk)
    (ha : AwaitOrigins h a) : DiskOrigins (h ++ [(s, .serve i)]) (app.serve a s.disk).1 := by
  have hLater := hd.mono (s, .serve i)
  have haLater := ha.mono (s, .serve i)
  refine ⟨fun isAdmin u hu => ?_, fun u hu => ?_, fun m hm => ?_⟩
  · obtain hSame | ⟨call, data, rfl, rfl, hList⟩ := accounts_serve_cases a s.disk isAdmin
    · rw [hSame] at hu
      exact hLater.accounts isAdmin u hu
    · rw [hList, List.mem_cons] at hu
      rcases hu with rfl | hOld
      · exact ⟨⟨(s, .serve i), by simp, call, ⟨i, data, rfl, hAt⟩, rfl⟩, rfl⟩
      · exact haLater u hOld
  · rw [userLoggedIn_serve] at hu
    cases hWrite : sessionWrite a with
    | none =>
        rw [hWrite] at hu
        exact hLater.session u hu
    | some w =>
        rw [hWrite] at hu
        unfold sessionWrite at hWrite
        split at hWrite
        · obtain rfl := Option.some.inj hWrite
          exact Option.some.inj hu ▸ haLater
        · obtain rfl := Option.some.inj hWrite
          exact Option.some.inj hu ▸ haLater
        · obtain rfl := Option.some.inj hWrite
          simp at hu
        · simp at hWrite
  · rw [tempMembers_serve] at hm
    cases hWrite : draftWrite a with
    | none =>
        rw [hWrite] at hm
        exact hLater.draft m hm
    | some w =>
        rw [hWrite] at hm
        unfold draftWrite at hWrite
        split at hWrite
        · obtain rfl := Option.some.inj hWrite
          exact haLater m hm
        · obtain rfl := Option.some.inj hWrite
          simp at hm
        · simp at hWrite

/-- What is read from storage has the origins of what was there. -/
theorem readyOrigins_serve (hAt : s.pending[i]? = some a) (hd : DiskOrigins h s.disk) :
    ReadyOrigins (h ++ [(s, .serve i)]) (app.serve a s.disk).2 := by
  have hLater := hd.mono (s, .serve i)
  cases a with
  | login a =>
      cases a with
      | getUsers call => exact hLater.accounts call.isAdmin
      | isUserLoggedIn key => trivial
      | setLoggedIn call record => trivial
  | signup a =>
      cases a with
      | getUsers call => exact hLater.accounts call.isAdmin
      | setUsers call data =>
          exact ⟨(s, .serve i), by simp, call, ⟨i, data, rfl, hAt⟩, rfl⟩
      | setLoggedIn call => trivial
  | home a =>
      cases a with
      | getUserInfo key => exact hLater.session
      | logout id key => trivial
  | create a =>
      cases a with
      | fetchMembers key => exact hLater.draft
      | handleBack => trivial
  | list a =>
      cases a with
      | getDraft key => exact hLater.draft
      | getMembers key => exact hLater.accounts false
      | handleSubmit key list => trivial

end Serve

/-! ## The screens -/

section Screens

variable {h : History}

/-- Selecting a member leaves all of them who they are. -/
theorem AllMembers.edit {s : MembersList.State} (hHeap : AllMembers h s.heap)
    (members : List MembersList.Ref) (email : JsString) {f : Member → Member}
    (hf : ∀ m, (f m).toAccount = m.toAccount) :
    AllMembers h (s.edit members email f).heap := by
  unfold MembersList.State.edit
  split
  · exact hHeap
  · rename_i r _
    intro m hm
    obtain ⟨i, hi⟩ := List.getElem?_of_mem hm
    rw [List.getElem?_modify] at hi
    obtain ⟨old, hOld, hSome⟩ := Option.map_eq_some_iff.mp hi
    have hMember := hHeap old (List.mem_of_getElem? hOld)
    split at hSome
    · rw [← hSome, hf]
      exact hMember
    · rw [← hSome]
      exact hMember

/-- Fresh records of members are of members. -/
theorem AllMembers.setFresh {s : MembersList.State} (hHeap : AllMembers h s.heap)
    {list : List Member} (hList : AllMembers h list) : AllMembers h (s.setFresh list).heap := by
  intro m hm
  rcases List.mem_append.mp hm with hOld | hNew
  · exact hHeap m hOld
  · exact hList m hNew

/-- The rows show records of the heap. -/
theorem AllMembers.shown {s : MembersList.State} (hHeap : AllMembers h s.heap) :
    AllMembers h s.shown := by
  intro m hm
  obtain ⟨r, -, hAt⟩ := List.mem_filterMap.mp hm
  exact hHeap m (List.mem_of_getElem? hAt)

/-- An event of the list changes no account. -/
theorem AllMembers.handle {key : Nat} {s s' : MembersList.State} {e : MembersList.Event}
    {eff : Effect MembersList.State MembersList.Await}
    (hEff : MembersList.handle key s e = some eff) (hHeap : AllMembers h s'.heap) :
    AllMembers h (eff.update s').heap := by
  cases e with
  | arrow =>
      rw [MembersList.handle, Option.some.injEq] at hEff
      exact hEff ▸ hHeap
  | handleSubmit =>
      rw [MembersList.handle, Option.some.injEq] at hEff
      exact hEff ▸ hHeap
  | memberPress i =>
      rw [MembersList.handle, Option.map_eq_some_iff] at hEff
      obtain ⟨item, -, rfl⟩ := hEff
      exact hHeap.edit _ _ fun _ => rfl
  | memberValChange i val =>
      rw [MembersList.handle, Option.map_eq_some_iff] at hEff
      obtain ⟨item, -, rfl⟩ := hEff
      exact hHeap.edit _ _ fun _ => rfl

/-- What the load leaves on `LIST` comes from what it has read. -/
theorem AllMembers.resume {r : MembersList.Ready} (hr : ReadyOrigins h (.list r))
    {s : MembersList.State} (hHeap : AllMembers h s.heap) :
    AllMembers h (r.resume.update s).heap := by
  cases r with
  | getDraft key list =>
      rcases list with _ | _ | ⟨m, ms⟩
      · exact hHeap
      · exact hHeap
      · refine hHeap.setFresh fun x hx => ?_
        rw [List.map_map] at hx
        obtain ⟨y, hy, rfl⟩ := List.mem_map.mp hx
        exact hr y hy
  | getMembers key list =>
      refine hHeap.setFresh fun x hx => ?_
      rw [List.map_map] at hx
      obtain ⟨u, hu, rfl⟩ := List.mem_map.mp hx
      exact hr u hu
  | handleSubmit key => exact hHeap

/-- A screen starts with no members. -/
theorem ScreenOrigins.mount (dates : Nat × Nat) (name : RouteName) :
    ScreenOrigins h (Screen.mount dates name) := by
  cases name <;> simp [Screen.mount, ScreenOrigins, TaskCreation.State.init, AllMembers]

theorem ScreenOrigins.onLogin {sc : Screen} (hsc : ScreenOrigins h sc)
    (f : Login.State → Login.State) : ScreenOrigins h (sc.onLogin f) := by
  unfold Screen.onLogin
  split
  · trivial
  · exact hsc

theorem ScreenOrigins.onSignup {sc : Screen} (hsc : ScreenOrigins h sc)
    (f : Signup.State → Signup.State) : ScreenOrigins h (sc.onSignup f) := by
  unfold Screen.onSignup
  split
  · trivial
  · exact hsc

theorem ScreenOrigins.onList {sc : Screen} (hsc : ScreenOrigins h sc)
    {f : MembersList.State → MembersList.State}
    (hf : ∀ s, AllMembers h s.heap → AllMembers h (f s).heap) :
    ScreenOrigins h (sc.onList f) := by
  unfold Screen.onList
  split
  · exact hf _ hsc
  · exact hsc

theorem ScreenOrigins.onCreate {sc : Screen} (hsc : ScreenOrigins h sc)
    {f : TaskCreation.State → TaskCreation.State}
    (hf : ∀ s, AllMembers h s.membersList → AllMembers h (f s).membersList) :
    ScreenOrigins h (sc.onCreate f) := by
  unfold Screen.onCreate
  split
  · exact hf _ hsc
  · exact hsc

/-- A touched screen keeps the members that it has. -/
theorem ScreenOrigins.set {ui : Ui} {e : Event} {f : Screen → Screen} (hSets : Sets ui e f)
    {sc : Screen} (hsc : ScreenOrigins h sc) : ScreenOrigins h (f sc) := by
  cases hSets with
  | login _ _ => exact hsc.onLogin _
  | signup _ => exact hsc.onSignup _
  | create _ =>
      refine hsc.onCreate fun s hs => ?_
      rename_i e _
      have hSame : ((TaskCreation.handle e).update s).membersList = s.membersList := by
        cases e with
        | pressLabel p => cases p <;> rfl
        | pressDate p => cases p <;> rfl
        | confirm p date => cases p <;> rfl
        | cancel p => cases p <;> rfl
        | changeName val => rfl
        | changeDesc val => rfl
        | addMembers => rfl
        | handleBack => rfl
      exact hSame ▸ hs
  | list _ hEff => exact hsc.onList fun s hs => hs.handle hEff
  | nothing => exact hsc

/-- A screen takes members only from what is reported to it. -/
theorem ScreenOrigins.told {r : Ready} (hr : ReadyOrigins h r) (key : Nat) {sc : Screen}
    (hsc : ScreenOrigins h sc) : ScreenOrigins h (told r key sc) := by
  unfold App.told
  cases r with
  | login r =>
      dsimp only
      split
      · exact hsc.onLogin _
      · exact hsc
  | signup r =>
      dsimp only
      split
      · exact hsc.onSignup _
      · exact hsc
  | home r =>
      dsimp only
      split
      · unfold Screen.onHome
        split
        · cases r with
          | getUserInfo key info =>
              intro u hu
              exact hr u (Home.UserInfo.loaded.inj hu)
          | logout id key => exact hsc
        · exact hsc
      · exact hsc
  | create r =>
      cases r with
      | fetchMembers key' list =>
          dsimp only
          split
          · exact hsc.onCreate fun s _ m hm => hr m (List.mem_filter.mp hm).1
          · exact hsc
      | handleBack => exact hsc
  | list r =>
      dsimp only
      split
      · exact hsc.onList fun s hs => AllMembers.resume hr hs
      · exact hsc

end Screens

/-- **Every record comes from a Signup press**, wherever it is. -/
def origins : Everywhere where
  disk := DiskOrigins
  await := AwaitOrigins
  ready := ReadyOrigins
  screen := ScreenOrigins
  disk_mono _ p _ hd := hd.mono p
  await_mono _ p _ ha := ha.mono p
  ready_mono _ p _ hr := hr.mono p
  screen_mono _ p _ hsc := hsc.mono p
  init := by
    refine ⟨fun isAdmin u hu => ?_, fun u hu => ?_, fun m hm => ?_⟩
    · cases isAdmin <;> nomatch hu
    · nomatch hu
    · nomatch hm
  load h a ha := by cases ha <;> trivial
  mount _ := ScreenOrigins.mount
  press h ui e a hsc ha := by
    cases ha with
    | save hs =>
        rw [hs] at hsc
        exact AllMembers.shown hsc
    | login _ _ _ => trivial
    | signup _ _ => trivial
    | logout _ => trivial
    | handleBack _ => trivial
  proceed h r a hr ha := by
    cases ha with
    | loginUsers hUser _ => exact (hr _ hUser).registered
    | signupUsers _ => exact hr
    | signupSession => exact hr
    | listMembers _ => trivial
  serve _ _ _ _ hAt hd ha := ⟨hd.serve hAt ha, readyOrigins_serve hAt hd⟩
  set _ _ _ _ _ hSets _ hsc := hsc.set hSets
  tell _ _ key hr _ hsc := hsc.told hr key

/-! ## Members of tasks -/

/-- The members that a screen shows. -/
def shownMembers : Screen → List Member
  | .CREATE s => s.membersList
  | .LIST s => s.shown
  | _ => []

/-- **Tasks go to registered members.**  Whoever is in the draft, or on any `CREATE` or `LIST`
that is mounted, is no admin and has signed up: some Signup press has stored the same email,
password, name and role. -/
theorem tasks_go_to_registered_members (xs : List Action) (s : State) (hRun : run xs = some s)
    (m : Member)
    (hm : m ∈ s.disk.tempMembers.getD [] ∨ ∃ r ∈ s.ui.stack, m ∈ shownMembers r.screen) :
    m.isAdmin = false ∧
      ∃ p ∈ app.trace init xs, ∃ call, StoresAccount p call ∧ call.account = m.toAccount := by
  have hHolds := origins.holds hRun
  have hMember : RegisteredAs (app.trace init xs) false m.toAccount := by
    rcases hm with hDraft | ⟨r, hr, hShown⟩
    · exact hHolds.disk.draft m hDraft
    · have hScreen : ScreenOrigins (app.trace init xs) r.screen := hHolds.screens r hr
      cases hs : r.screen with
      | AUTH st =>
          rw [hs] at hShown
          nomatch hShown
      | HOME st =>
          rw [hs] at hShown
          nomatch hShown
      | CREATE st =>
          rw [hs] at hScreen hShown
          exact hScreen m hShown
      | LIST st =>
          rw [hs] at hScreen hShown
          exact AllMembers.shown hScreen m hShown
  exact ⟨hMember.role, hMember.registered⟩

/-- Ann has been selected for a task, and has been registered. -/
theorem tasks_go_to_registered_members_ann :
    ∃ s, run annSelected = some s ∧
      ∃ m ∈ s.disk.tempMembers.getD [], m.isAdmin = false ∧
        ∃ p ∈ app.trace init annSelected, ∃ call,
          StoresAccount p call ∧ call.account = m.toAccount := by
  obtain ⟨s, hRun⟩ := Option.isSome_iff_exists.mp
    (show (run annSelected).isSome = true by decide)
  have hDraft : (run annSelected).map (fun s => s.disk.tempMembers) =
      some (some [{ annCall.account with isSelected := true, value := js "5" }]) := by
    decide
  rw [hRun, Option.map_some, Option.some.injEq] at hDraft
  refine ⟨s, hRun, { annCall.account with isSelected := true, value := js "5" }, ?_, ?_⟩
  · simp [hDraft]
  · exact tasks_go_to_registered_members annSelected s hRun _ (Or.inl (by simp [hDraft]))

/-! ## Opening tasks -/

/-- The press that mounts a task screen under the key. -/
def OpensTask (p : State × Action) (key : Nat) : Prop :=
  p.1.ui.nextKey = key ∧ ∃ dates, p.2 = .user (.home (.createTask dates))

/-- A CREATE screen on the stack was opened by a press with its key. -/
theorem opened_of_mem_labels {xs : List Action} {s : State} (hRun : run xs = some s) :
    ∀ key, (key, .CREATE) ∈ labels s.ui → ∃ p ∈ app.trace init xs, OpensTask p key := by
  refine app.exec_induction (fun _ _ => True)
    (fun h s => ∀ key, (key, .CREATE) ∈ labels s.ui → ∃ p ∈ h, OpensTask p key) ?_ ?_
    (fun _ _ => trivial) hRun
  · intro key hKey
    nomatch congrArg Prod.snd (List.mem_singleton.mp hKey)
  intro h s x s' _ _ hInv hx key hKey
  by_cases hOld : (key, .CREATE) ∈ labels s.ui
  · obtain ⟨p, hp, hOpens⟩ := hInv key hOld
    exact ⟨p, List.mem_append_left _ hp, hOpens⟩
  cases hx with
  | @user e out hOut =>
      obtain ⟨nav, hFollows, hAsks⟩ := handle_asks hOut
      obtain ⟨hNext, dates, rfl⟩ := hFollows.opened hKey hOld
      cases hAsks with
      | createTask _ hEvent => exact ⟨(s, .user e), by simp, hNext.symm, dates, congrArg _ hEvent⟩
  | effect _ => exact absurd hKey hOld
  | serve _ => exact absurd hKey hOld
  | @resolve i r _ =>
      obtain ⟨-, dates, hNav⟩ := (resume_follows r s.ui).opened hKey hOld
      have hAsks := navOf_asksLater r
      rw [hNav] at hAsks
      nomatch hAsks
  | reject _ => exact absurd hKey hOld
  | kill => nomatch congrArg Prod.snd (List.mem_singleton.mp hKey)

/-- The user touches nothing but what is shown, with the given view of `Home`. -/
def UsesViews (home : Home.State → List (Element Home.Event)) (xs : List Action) : Prop :=
  ∀ p ∈ app.trace init xs, ∀ e, p.2 = .user e → Offered home p.1.ui e

/-- What is checked of a step to see that it only uses the views. -/
def usesView (home : Home.State → List (Element Home.Event)) (p : State × Action) : Bool :=
  match p.2 with
  | .user e => e ∈ events home (touchOf e) p.1.ui
  | _ => true

theorem UsesViews.of_check {home : Home.State → List (Element Home.Event)} {xs : List Action}
    (h : (app.trace init xs).all (usesView home) = true) : UsesViews home xs := by
  rintro ⟨s, x⟩ hp e rfl
  have hUses := List.all_eq_true.mp h _ hp
  exact ⟨touchOf e, of_decide_eq_true hUses⟩

/-- **Only admins open tasks**, were the second `return` of `Home` the one that is reached: the
press that mounted a `CREATE` was made on a `HOME` that showed an admin, who had signed up as
one; and `LIST` is there only over a `CREATE`. -/
theorem only_admins_open_tasks (xs : List Action) (s : State) (hRun : run xs = some s)
    (hViews : UsesViews Home.taskView xs) :
    (∀ r ∈ s.ui.stack, r.screen.name = .CREATE →
      ∃ before m dates after u, xs = before ++ .user (.home (.createTask dates)) :: after ∧
        run before = some m ∧ m.ui.nextKey = r.key ∧
        m.ui.focused.screen = .HOME { userInfo := .loaded (some u) } ∧ u.isAdmin = true ∧
        Registered (app.trace init before) u) ∧
      (.LIST ∈ s.ui.names → .CREATE ∈ s.ui.names) := by
  constructor
  · intro r hr hCreate
    have hLabel : (r.key, .CREATE) ∈ labels s.ui :=
      List.mem_map.mpr ⟨r, hr, congrArg (Prod.mk r.key) hCreate⟩
    obtain ⟨p, hp, hNext, dates, hEvent⟩ := opened_of_mem_labels hRun r.key hLabel
    obtain ⟨u, hHome, hAdmin⟩ := isAdmin_of_offered (hViews p hp _ hEvent)
    obtain ⟨h₁, h₂, hSplit⟩ := List.append_of_mem hp
    obtain ⟨before, m, after, hXs, hBefore, -, -, -, -⟩ := app.exec_of_trace_append hRun hSplit
    have hScreen := (origins.holds hBefore).screens.focused
    rw [hHome] at hScreen
    exact ⟨before, p.1, dates, after, u, hEvent ▸ hXs, hBefore, hNext, hHome, hAdmin,
      hScreen u rfl⟩
  · intro hList
    obtain ⟨above, below, hSplit⟩ := List.append_of_mem hList
    rw [hSplit]
    exact List.mem_append_right _ (List.mem_cons_of_mem _
      ((grounded_run hRun).nested above below hSplit))

/-- Bob signs up as an admin, and opens a task. -/
def bobOpensTask : List Action :=
  loaded ++ signUp (js "bob@x.co") (js "pw") (js "Bob") true ++ openTask

/-- Bob opens a task, and is an admin. -/
theorem only_admins_open_tasks_bob :
    ∃ s, run bobOpensTask = some s ∧ s.ui.names = [.CREATE, .HOME] ∧
      ∀ r ∈ s.ui.stack, r.screen.name = .CREATE →
        ∃ before m dates after u,
          bobOpensTask = before ++ .user (.home (.createTask dates)) :: after ∧
          run before = some m ∧ m.ui.nextKey = r.key ∧
          m.ui.focused.screen = .HOME { userInfo := .loaded (some u) } ∧ u.isAdmin = true ∧
          Registered (app.trace init before) u := by
  obtain ⟨s, hRun⟩ := Option.isSome_iff_exists.mp
    (show (run bobOpensTask).isSome = true by decide)
  have hNames : (run bobOpensTask).map (fun s => s.ui.names) = some [.CREATE, .HOME] := by decide
  rw [hRun, Option.map_some, Option.some.injEq] at hNames
  have hViews : UsesViews Home.taskView bobOpensTask := .of_check (by decide +kernel)
  exact ⟨s, hRun, hNames, (only_admins_open_tasks bobOpensTask s hRun hViews).1⟩

/-! ## No tasks -/

/-- A request of `CREATE` or `LIST`. -/
def isTask : Await → Bool
  | .create _ => true
  | .list _ => true
  | _ => false

/-- A continuation of `CREATE` or `LIST`. -/
def isTaskReady : Ready → Bool
  | .create _ => true
  | .list _ => true
  | _ => false

/-- Nothing about a task is mounted, in flight or stored. -/
structure NoTasks (s : State) : Prop where
  one : OneScreen s.ui
  effects : ∀ a ∈ s.effects, isTask a = false
  pending : ∀ a ∈ s.pending, isTask a = false
  served : ∀ r ∈ s.served, isTaskReady r = false
  draft : s.disk.tempMembers = none

theorem isTask_of_continued {r : Ready} {a : Await} (h : Continued r a)
    (hr : isTaskReady r = false) : isTask a = false := by
  cases h with
  | listMembers _ => nomatch hr
  | loginUsers _ _ => rfl
  | signupUsers _ => rfl
  | signupSession => rfl

theorem isTask_of_mounted {key : Nat} {name : RouteName} {out : Ui × Issued Await}
    (h : Mounted key name out) (hName : name ≠ .CREATE ∧ name ≠ .LIST) :
    ∀ a ∈ out.2.effects, isTask a = false := by
  intro a ha
  rw [h.effects, h.focused] at ha
  cases name with
  | AUTH => rw [List.mem_singleton.mp ha]; rfl
  | LOGIN => rw [List.mem_singleton.mp ha]; rfl
  | SIGNUP => nomatch ha
  | HOME => rw [List.mem_singleton.mp ha]; rfl
  | CREATE => exact absurd rfl hName.1
  | LIST => exact absurd rfl hName.2

/-- A press that is not for a task issues nothing for one. -/
theorem isTask_handle {ui : Ui} {e : Event} {out : Ui × Issued Await} (hOne : OneScreen ui)
    (hNoTask : NoTask e) (h : app.handle e ui = some out) :
    (∀ a ∈ out.2.effects, isTask a = false) ∧ ∀ a ∈ out.2.requests, isTask a = false := by
  refine ⟨?_, fun a ha => ?_⟩
  · rcases handle_remains_or_mounts hOne hNoTask h with hSame | ⟨-, hMount | hMount⟩
    · rw [hSame.effects]
      simp
    · exact isTask_of_mounted hMount (by decide)
    · exact isTask_of_mounted hMount (by decide)
  · cases handle_requests h ha with
    | login _ _ _ => rfl
    | signup _ _ => rfl
    | logout _ => rfl
    | handleBack hs => exact absurd hOne.name (by simp [hs, Screen.name])
    | save hs => exact absurd hOne.name (by simp [hs, Screen.name])

/-- Nor does a continuation that is not of a task. -/
theorem isTask_resume {r : Ready} {ui : Ui} (hOne : OneScreen ui) (hr : isTaskReady r = false) :
    (∀ a ∈ (app.resume r ui).2.effects, isTask a = false) ∧
      ∀ a ∈ (app.resume r ui).2.requests, isTask a = false := by
  refine ⟨?_, fun a ha => isTask_of_continued (resume_requests ha) hr⟩
  cases hOpens : opens r with
  | none =>
      rw [(resume_stays hOne.below hOpens).effects]
      simp
  | some name =>
      refine isTask_of_mounted (resume_opens hOne.below hOpens) ?_
      rcases opens_cases hOpens with rfl | rfl <;> decide

theorem isTaskReady_serve (a : Await) (d : Disk) :
    isTaskReady (app.serve a d).2 = isTask a := by
  cases a <;> rfl

/-- Where nothing is under way for a task, a step that opens none starts nothing for one. -/
theorem NoTasks.step {s s' : State} {x : Action} (h : NoTasks s)
    (hNoTask : ∀ e, x = .user e → NoTask e) (hx : app.Step s x s') : NoTasks s' := by
  cases hx with
  | user hOut =>
      obtain ⟨hEffects, hRequests⟩ := isTask_handle h.one (hNoTask _ rfl) hOut
      refine ⟨h.one.handle (hNoTask _ rfl) hOut, ?_, ?_, h.served, h.draft⟩
      · exact fun a ha => (List.mem_append.mp ha).elim (h.effects a) (hEffects a)
      · exact fun a ha => (List.mem_append.mp ha).elim (h.pending a) (hRequests a)
  | @effect i a hAt =>
      refine ⟨h.one, fun b hb => h.effects b (List.mem_of_mem_eraseIdx hb), ?_, h.served, h.draft⟩
      intro b hb
      rcases List.mem_append.mp hb with hOld | hNew
      · exact h.pending b hOld
      · rw [List.mem_singleton.mp hNew]
        exact h.effects a (List.mem_of_getElem? hAt)
  | @serve i a hAt =>
      have hTask := h.pending a (List.mem_of_getElem? hAt)
      refine ⟨h.one, h.effects, fun b hb => h.pending b (List.mem_of_mem_eraseIdx hb), ?_, ?_⟩
      · intro r hr
        rcases List.mem_append.mp hr with hOld | hNew
        · exact h.served r hOld
        · rw [List.mem_singleton.mp hNew, isTaskReady_serve]
          exact hTask
      · rw [tempMembers_serve, h.draft]
        cases a with
        | create a => nomatch hTask
        | list a => nomatch hTask
        | login a => rfl
        | signup a => rfl
        | home a => rfl
  | @resolve i r hAt =>
      obtain ⟨hEffects, hRequests⟩ :=
        isTask_resume h.one (h.served r (List.mem_of_getElem? hAt))
      refine ⟨h.one.resume, ?_, ?_, fun q hq => h.served q (List.mem_of_mem_eraseIdx hq), h.draft⟩
      · exact fun a ha => (List.mem_append.mp ha).elim (h.effects a) (hEffects a)
      · exact fun a ha => (List.mem_append.mp ha).elim (h.pending a) (hRequests a)
  | reject hAt =>
      exact { h with pending := fun b hb => h.pending b (List.mem_of_mem_eraseIdx hb) }
  | kill =>
      refine ⟨⟨rfl, Or.inl rfl⟩, ?_, ?_, ?_, h.draft⟩
      · intro a ha
        rw [List.mem_singleton.mp ha]
        rfl
      · simp [Program.boot, app, launch]
      · simp [Program.boot]

/-- **No task is ever opened** in the application as it is: the stack is one route, `AUTH` or
`HOME`, nothing of `CREATE` or `LIST` is ever asked of the store, and there is never a draft. -/
theorem no_task_is_ever_opened (xs : List Action) (s : State) (hRun : run xs = some s)
    (hViews : UsesViews Home.view xs) :
    (s.ui.names = [.AUTH] ∨ s.ui.names = [.HOME]) ∧ s.disk.tempMembers = none ∧
      ∀ a ∈ s.effects ++ s.pending, isTask a = false := by
  have hNone : NoTasks s := by
    refine app.exec_induction (fun s x => ∀ e, x = .user e → Offered Home.view s.ui e)
      (fun _ s => NoTasks s) ?_ ?_ hViews hRun
    · refine ⟨⟨rfl, Or.inl rfl⟩, ?_, by simp [init], by simp [init], rfl⟩
      intro a ha
      rw [List.mem_singleton.mp ha]
      rfl
    · exact fun _ s x s' _ hOffered hInv hx =>
        hInv.step (fun e hE => noTask_of_offered (hOffered e hE)) hx
  refine ⟨?_, hNone.draft, fun a ha => ?_⟩
  · have hNames : s.ui.names = [s.ui.focused.screen.name] := by
      rw [Ui.names, Ui.stack, hNone.one.below]
      rfl
    rw [hNames]
    exact hNone.one.name.imp (congrArg (fun name => [name])) (congrArg fun name => [name])
  · exact (List.mem_append.mp ha).elim (hNone.effects a) (hNone.pending a)

/-- Ann signs up and logs out again. -/
def annComesAndGoes : List Action := annSignedUp ++ loaded ++ [pressLogout] ++ answered

/-- Ann comes and goes, and no task is opened. -/
theorem no_task_is_ever_opened_ann :
    ∃ s, run annComesAndGoes = some s ∧ (s.ui.names = [.AUTH] ∨ s.ui.names = [.HOME]) ∧
      s.disk.tempMembers = none ∧ ∀ a ∈ s.effects ++ s.pending, isTask a = false := by
  obtain ⟨s, hRun⟩ := Option.isSome_iff_exists.mp
    (show (run annComesAndGoes).isSome = true by decide)
  have hViews : UsesViews Home.view annComesAndGoes := .of_check (by decide +kernel)
  exact ⟨s, hRun, no_task_is_ever_opened annComesAndGoes s hRun hViews⟩

end TaskManager.Runs
