import TaskManager.Runs.Screens

/-!
# What `TaskCreation` shows

`TaskCreation` loads the draft whenever it gains focus, and the two requests
that write the draft are issued when it does not have the focus: Save on
`MembersList`, and the arrow, which gives the focus away first.  So, with a
store that works in the order of issue, a load that is still due comes after
every write that waits.  The main result is `draft_shown`: with nothing left to
wait for, the list it shows is the stored draft, filtered.
-/

namespace TaskManager.Runs

open TaskManager.Verified.JsText
open TaskManager.Verified.EventLoop
open TaskManager.Shared
open TaskManager.Pages
open TaskManager.Routes
open TaskManager.App

/-! ## Gaining the focus -/

/-- `CREATE` is focused because it was, or its load has been scheduled. -/
theorem moved_create {ui : Ui} {nav : Option Nav}
    (hName : (moved ui nav).1.focused.screen.name = .CREATE) :
    moved ui nav = (ui, []) ∨
      .create (.fetchMembers (moved ui nav).1.focused.key) ∈ (moved ui nav).2 := by
  have hLoad : ∀ r : Route, r.screen.name = .CREATE →
      .create (.fetchMembers r.key) ∈ r.focusEffects ∧
        .create (.fetchMembers r.key) ∈ r.mountEffects := by
    rintro ⟨key, screen⟩ hCreate
    cases screen <;> simp_all [Screen.name, Route.focusEffects, Route.mountEffects]
  have hMoves := moved_moves ui nav
  generalize moved ui nav = out at hName hMoves ⊢
  cases hMoves with
  | stays => exact Or.inl rfl
  | back _ => exact Or.inr (hLoad _ hName).1
  | replaces name => exact Or.inr (hLoad _ hName).2
  | resets name => exact Or.inr (hLoad _ hName).2
  | pushes name dates _ => exact Or.inr (hLoad _ hName).2

theorem perform_create {σ α : Type} {lift : (σ → σ) → Screen → Screen}
    (hLift : ∀ f screen, (lift f screen).name = screen.name) (wrap : α → Await) (key : Nat)
    (eff : Effect σ α) (ui : Ui)
    (hName : (ui.perform lift wrap key eff).1.focused.screen.name = .CREATE) :
    (moved ui eff.navigate = (ui, []) ∧ ui.focused.screen.name = .CREATE) ∨
      .create (.fetchMembers (ui.perform lift wrap key eff).1.focused.key) ∈
        (ui.perform lift wrap key eff).2.effects := by
  rw [name_focused_perform hLift] at hName
  rcases moved_create hName with hStays | hDue
  · rw [hStays] at hName
    exact Or.inl ⟨hStays, hName⟩
  · right
    rw [perform_eq, key_focused_modify]
    exact hDue

/-! ## Following the list on the screen -/

/-- The list that the `CREATE` instance `key` shows, carried through a
continuation. -/
def showMembers (key : Nat) (r : Ready) (shown : List Member) : List Member :=
  match r with
  | .create (.fetchMembers key' list) =>
      if key = key' then TaskCreation.requiredMembers list else shown
  | _ => shown

theorem told_create (r : Ready) (key : Nat) (st : TaskCreation.State) :
    ∃ st', told r key (.CREATE st) = .CREATE st' ∧
      st'.membersList = showMembers key r st.membersList := by
  cases r with
  | login r => exact ⟨st, by simp [told, Screen.onLogin], rfl⟩
  | signup r => exact ⟨st, by simp [told, Screen.onSignup], rfl⟩
  | home r => exact ⟨st, by simp [told, Screen.onHome], rfl⟩
  | create r =>
      cases r with
      | fetchMembers key' list =>
          by_cases hKey : key = key'
          · exact ⟨{ st with membersList := TaskCreation.requiredMembers list },
              by simp [told, hKey, Screen.onCreate, TaskCreation.Ready.resume],
              by simp [showMembers, hKey]⟩
          · exact ⟨st, by simp [told, hKey], by simp [showMembers, hKey]⟩
      | handleBack => exact ⟨st, rfl, rfl⟩
  | list r => exact ⟨st, by simp [told, Screen.onList], rfl⟩

/-- A request that does not write the draft keeps the list on the screen equal to
the draft, filtered. -/
theorem showMembers_serve {key : Nat} {a : Await} {d : Disk} {shown : List Member}
    (hWrite : draftWrite a = none)
    (hShown : shown = TaskCreation.requiredMembers d.tempMembers) :
    showMembers key (app.serve a d).2 shown =
      TaskCreation.requiredMembers (app.serve a d).1.tempMembers := by
  have hSame : (app.serve a d).1.tempMembers = d.tempMembers := by
    rw [tempMembers_serve, hWrite]
    rfl
  rw [hSame]
  by_cases hLoad : a = .create (.fetchMembers key)
  · subst hLoad
    simp [app, App.serve, TaskCreation.Await.serve, showMembers]
  · rw [← hShown]
    rcases a with a | a | a | a | a <;> cases a <;>
      simp_all [app, App.serve, showMembers, TaskCreation.Await.serve, eq_comm]

theorem deliver_members {key : Nat} {d : Disk} {shown : List Member} {as : List Await}
    (hWrite : ∀ a ∈ as, draftWrite a = none)
    (hShown : shown = TaskCreation.requiredMembers d.tempMembers) :
    app.deliver (showMembers key) shown d as =
      TaskCreation.requiredMembers (app.drain d as).tempMembers :=
  app.deliver_invariant (showMembers key)
    (fun shown d => shown = TaskCreation.requiredMembers d.tempMembers) hShown
    fun a ha _ _ hInv => showMembers_serve (hWrite a ha) hInv

/-! ## The invariant -/

/-- What `CREATE` shows is the draft, once everything that waits is done; or
its load is still due. -/
def Current (s : State) : Prop :=
  ∀ st, s.ui.focused.screen = .CREATE st →
    .create (.fetchMembers s.ui.focused.key) ∈ s.effects ∨
      app.settle (showMembers s.ui.focused.key) st.membersList s =
        TaskCreation.requiredMembers (app.settleDisk s).tempMembers

/-- An event that leaves the focused route in place and issues nothing leaves the
list as current as it was. -/
theorem Current.still {s : State} {out : Ui × Issued Await} (hInv : Current s)
    (hKey : out.1.focused.key = s.ui.focused.key)
    (hList : ∀ st, out.1.focused.screen = .CREATE st →
      ∃ st₀, s.ui.focused.screen = .CREATE st₀ ∧ st.membersList = st₀.membersList)
    (hRequests : out.2.requests = []) : Current (s.issue out) := by
  intro st hScreen
  obtain ⟨st₀, hOld, hSame⟩ := hList st hScreen
  rw [Program.settle_issue, Program.settleDisk_issue, hRequests]
  simp only [State.issue]
  rw [hKey, hSame]
  exact (hInv st₀ hOld).imp (List.mem_append_left _) id

/-- No event of the form touches the list. -/
theorem handle_membersList (e : TaskCreation.Event) (st : TaskCreation.State) :
    ((TaskCreation.handle e).update st).membersList = st.membersList := by
  cases e with
  | pressLabel p => cases p <;> rfl
  | pressDate p => cases p <;> rfl
  | confirm p date => cases p <;> rfl
  | cancel p => cases p <;> rfl
  | changeName val => rfl
  | changeDesc val => rfl
  | addMembers => rfl
  | handleBack => rfl

theorem Current.user {s : State} {e : Event} {out : Ui × Issued Await} (hInv : Current s)
    (hGround : Grounded s.ui.names) (hOut : app.handle e s.ui = some out) :
    Current (s.issue out) := by
  intro st hScreen
  have hName : out.1.focused.screen.name = .CREATE := congrArg Screen.name hScreen
  -- off `CREATE`, the focus has been gained and the load is due
  have hGained : ∀ {σ α : Type} {lift : (σ → σ) → Screen → Screen} (wrap : α → Await) eff,
      (∀ f screen, (lift f screen).name = screen.name) →
      out = (counted s.ui).perform lift wrap s.ui.focused.key eff →
      s.ui.focused.screen.name ≠ .CREATE →
      .create (.fetchMembers out.1.focused.key) ∈ out.2.effects := by
    rintro σ α lift wrap eff hLift rfl hOff
    exact (perform_create hLift _ _ _ _ hName).resolve_left fun hSame => hOff hSame.2
  cases handle_cases hOut with
  | login hs _ =>
      exact Or.inl (List.mem_append_right _
        (hGained _ _ name_onLogin rfl (by simp [hs, Screen.name])))
  | signup hs =>
      exact Or.inl (List.mem_append_right _
        (hGained _ _ name_onSignup rfl (by simp [hs, Screen.name])))
  | home hs =>
      exact Or.inl (List.mem_append_right _
        (hGained _ _ name_onHome rfl (by simp [hs, Screen.name])))
  | list hs _ =>
      exact Or.inl (List.mem_append_right _
        (hGained _ _ name_onList rfl (by simp [hs, Screen.name])))
  | @create st₀ e hs =>
      rcases perform_create name_onCreate _ _ _ _ hName with ⟨hStays, hCreate⟩ | hDue
      · have hNotBack : e ≠ .handleBack := by
          rintro rfl
          have hLeaves : labels (moved (counted s.ui) (some .goBack)).1 ≠ labels (counted s.ui) :=
            goBack_leaves hGround hCreate
          exact hLeaves (congrArg (fun out => labels out.1) hStays)
        have hUi : ((counted s.ui).perform Screen.onCreate Await.create s.ui.focused.key
              (TaskCreation.handle e)).1.focused =
            ⟨s.ui.focused.key, .CREATE ((TaskCreation.handle e).update st₀)⟩ := by
          rw [perform_eq, hStays]
          simp [Ui.modify, counted, hs, Screen.onCreate]
        refine hInv.still (by rw [hUi]) (fun st hSt => ?_) ?_ st hScreen
        · rw [hUi, Screen.CREATE.injEq] at hSt
          exact ⟨st₀, hs, by rw [← hSt, handle_membersList]⟩
        · rw [requests_perform, List.map_eq_nil_iff, List.eq_nil_iff_forall_not_mem]
          exact fun a ha => hNotBack (TaskCreation.handle_requests ha).1
      · exact Or.inl (List.mem_append_right _ hDue)
  | systemBack =>
      have hMoved : (moved (counted s.ui) (some .goBack)).1.focused.screen.name = .CREATE := hName
      rcases moved_create hMoved with hStays | hDue
      · have hUi : ((counted s.ui).navigate .goBack).1 = counted s.ui := congrArg Prod.fst hStays
        refine hInv.still (by rw [hUi]; rfl) (fun st hSt => ?_) rfl st hScreen
        rw [hUi] at hSt
        exact ⟨st, hSt, rfl⟩
      · exact Or.inl (List.mem_append_right _ hDue)

theorem Current.effect {s : State} {i : Nat} {a : Await} (hInv : Current s)
    (hAt : s.effects[i]? = some a) (hLoad : IsLoad a) :
    Current { s with effects := s.effects.eraseIdx i, pending := s.pending ++ [a] } := by
  intro st hScreen
  rw [Program.settle_effect, Program.settleDisk_effect]
  by_cases hOwn : a = .create (.fetchMembers s.ui.focused.key)
  · subst hOwn
    right
    simp [app, App.serve, TaskCreation.Await.serve, showMembers]
  · rcases hInv st hScreen with hDue | hShown
    · exact Or.inl (Program.mem_eraseIdx_of_ne hDue hAt (Ne.symm hOwn))
    · right
      exact showMembers_serve (by cases hLoad <;> rfl) hShown

theorem Current.serve {s : State} {a : Await} {as : List Await} (hInv : Current s)
    (hPending : s.pending = a :: as) : Current (app.serveHead s a as) := by
  intro st hScreen
  rw [Program.settle_serve hPending, Program.settleDisk_serve hPending]
  exact hInv st hScreen

theorem Current.resolve {s : State} {r : Ready} {rs : List Ready} (hInv : Current s)
    (hServed : s.served = r :: rs) :
    Current ({ s with served := rs }.issue (app.resume r s.ui)) := by
  intro st hScreen
  obtain ⟨hUi, hEffects⟩ := resume_shape r s.ui
  simp only [State.issue] at hScreen ⊢
  rw [hUi] at hScreen ⊢
  rw [hEffects]
  have hName : (moved s.ui (navOf r)).1.focused.screen.name = .CREATE := by
    rw [← name_told r (moved s.ui (navOf r)).1.focused.key]
    exact congrArg Screen.name hScreen
  rcases moved_create hName with hStays | hDue
  · rw [hStays] at hScreen hName ⊢
    cases hOld : s.ui.focused.screen with
    | CREATE st₀ =>
        obtain ⟨st', hTold, hList⟩ := told_create r s.ui.focused.key st₀
        have hSt : st' = st := by
          have hBoth : told r s.ui.focused.key s.ui.focused.screen = .CREATE st := hScreen
          rw [hOld, hTold] at hBoth
          exact Screen.CREATE.inj hBoth
        subst hSt
        rcases hInv st₀ hOld with hDue | hShown
        · exact Or.inl (List.mem_append_left _ hDue)
        · right
          have hNext : app.settle (showMembers s.ui.focused.key) st'.membersList
                ({ s with served := rs }.issue (app.resume r s.ui)) =
              TaskCreation.requiredMembers
                (app.settleDisk
                  ({ s with served := rs }.issue (app.resume r s.ui))).tempMembers := by
            rw [hList, Program.settle_issue, Program.settle_resolve hServed,
              Program.settleDisk_issue]
            refine deliver_members (fun a ha => ?_) hShown
            cases resume_requests ha <;> rfl
          rw [State.issue, hUi, hStays] at hNext
          exact hNext
    | AUTH st₀ => simp [hOld, Screen.name] at hName
    | HOME st₀ => simp [hOld, Screen.name] at hName
    | LIST st₀ => simp [hOld, Screen.name] at hName
  · exact Or.inl (List.mem_append_right _ hDue)

theorem Current.kill {s : State} : Current (app.boot s.disk s.ui) := by
  intro st hScreen
  simp [Program.boot, app, launch, Ui.mountOver, Screen.mount] at hScreen

/-- What keeps the list current, step after step. -/
structure Live (s : State) : Prop where
  current : Current s
  grounded : Grounded s.ui.names
  loads : ∀ a ∈ s.effects, IsLoad a

theorem Live.step {s s' : State} {x : Action} (h : Live s) (hOrder : x.InOrder)
    (hx : app.Step s x s') : Live s' := by
  refine ⟨?_, h.grounded.step hx, isLoad_of_step h.loads hx⟩
  cases hx.ordered hOrder with
  | user hOut => exact h.current.user h.grounded hOut
  | effect hAt => exact h.current.effect hAt (h.loads _ (List.mem_of_getElem? hAt))
  | serve hPending => exact h.current.serve hPending
  | resolve hServed => exact h.current.resolve hServed
  | kill => exact .kill

theorem Live.exec {s s' : State} {xs : List Action} (h : Live s) (hRun : app.exec s xs = some s')
    (hOrder : ∀ x ∈ xs, x.InOrder) : Live s' :=
  app.exec_induction (fun _ x => x.InOrder) (fun _ s => Live s) h
    (fun _ _ _ _ _ hx hInv hStep => hInv.step hx hStep)
    (fun p hp => hOrder p.2 (app.mem_of_mem_trace hp)) hRun

theorem live_run {xs : List Action} {s : State} (hRun : run xs = some s)
    (hOrder : ∀ x ∈ xs, x.InOrder) : Live s := by
  refine Live.exec ⟨?_, grounded_run (app.exec_nil init), ?_⟩ hRun hOrder
  · intro st hScreen
    simp [init, Ui.first] at hScreen
  · exact isLoad_of_mem_effects (app.exec_nil init)

/-- With nothing left to wait for, the list on the screen is the stored one. -/
theorem Current.shown {s : State} (hInv : Current s) (hQuiet : s.Quiescent)
    {st : TaskCreation.State} (hScreen : s.ui.focused.screen = .CREATE st) :
    st.membersList = TaskCreation.requiredMembers s.disk.tempMembers := by
  rcases hInv st hScreen with hDue | hShown
  · simp [hQuiet.effects] at hDue
  · rwa [Program.settle_idle hQuiet.pending hQuiet.served,
      Program.settleDisk_idle hQuiet.pending] at hShown

/-- **`TaskCreation` never shows a stale draft.**  Whatever was pressed and
wherever the process was killed: when nothing waits any more and `CREATE` is
focused, the list it shows is the stored draft, empty when absent, without the
members that are not selected with a positive value. -/
theorem draft_shown (xs : List Action) (s : State) (hRun : run xs = some s)
    (hOrder : ∀ x ∈ xs, x.InOrder) (hQuiet : s.Quiescent) (st : TaskCreation.State)
    (hScreen : s.ui.focused.screen = .CREATE st) :
    st.membersList =
      (s.disk.tempMembers.getD []).filter fun m => m.isSelected && isPositive m.value := by
  exact (live_run hRun hOrder).current.shown hQuiet hScreen

/-- Cat opens a task, selects the one member there is, Ann, and saves. -/
def annSelected : List Action :=
  catAtHome ++ openTask ++ openMembers ++ [pressMember 0] ++ saveMembers

theorem draft_shown_ann :
    ∃ s st, run annSelected = some s ∧ s.ui.focused.screen = .CREATE st ∧
      st.membersList ≠ [] ∧ st.membersList = (s.disk.tempMembers.getD []).filter
        fun m => m.isSelected && isPositive m.value := by
  obtain ⟨s, hRun⟩ := Option.isSome_iff_exists.mp
    (show (run annSelected).isSome = true by decide)
  have hQueues : (run annSelected).map (fun s => (s.effects, s.pending, s.served)) =
      some ([], [], []) := by decide
  let selected : Member := { annCall.account with isSelected := true, value := js "5" }
  let st : TaskCreation.State := { createdDate := 0, endDate := 0, membersList := [selected] }
  have hScreen : (run annSelected).map (fun s => s.ui.focused.screen) = some (.CREATE st) := by
    decide
  rw [hRun, Option.map_some, Option.some.injEq] at hQueues hScreen
  simp only [Prod.mk.injEq] at hQueues
  have hShown := draft_shown annSelected s hRun (by decide)
    ⟨hQueues.1, hQueues.2.1, hQueues.2.2⟩ st hScreen
  exact ⟨s, st, hRun, hScreen, by simp [st], hShown⟩

end TaskManager.Runs
