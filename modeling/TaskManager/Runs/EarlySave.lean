import TaskManager.App.VisitStages
import TaskManager.Runs.ShownDraft

/-!
# A Save without edits

`MembersList` renders its Save button before its records are loaded, and the
handler closes over the list of its render, which is empty until then.  A Save
pressed too early therefore writes an empty draft.  The main result is
`unharmed_iff`: a Save without edits is harmless exactly when the load has
completed or the draft has nothing to lose.
-/

namespace TaskManager.Runs

open TaskManager.Verified.JsText
open TaskManager.Verified.EventLoop
open TaskManager.Shared
open TaskManager.Pages
open TaskManager.Routes
open TaskManager.App

/-! ## What a Save may not change -/

/-- Whoever is selected in the draft still is, with the same value. -/
def KeepsSelected (old new : Option (List Member)) : Prop :=
  ∀ u ∈ old.getD [], u.isSelected = true →
    ∃ u' ∈ new.getD [], u'.email = u.email ∧ u'.isSelected = true ∧ u'.value = u.value

/-- `TaskCreation` shows what it showed before, and the draft keeps the selected. -/
def Unharmed (s s' : State) (st st' : TaskCreation.State) : Prop :=
  st'.membersList = st.membersList ∧ KeepsSelected s.disk.tempMembers s'.disk.tempMembers

/-- The draft that is saved is the one that was loaded. -/
theorem harmless_loaded (d : Disk) :
    TaskCreation.requiredMembers (some (listLoaded d)) =
        TaskCreation.requiredMembers d.tempMembers ∧
      KeepsSelected d.tempMembers (some (listLoaded d)) := by
  rcases hDraft : d.tempMembers.getD [] with _ | ⟨u, us⟩
  · have hLoaded : listLoaded d = (d.userMember.getD []).map MembersList.unselected := by
      simp [listLoaded, hDraft]
    refine ⟨?_, fun u hu => by simp [hDraft] at hu⟩
    simp [TaskCreation.requiredMembers, hLoaded, hDraft, MembersList.unselected]
  · have hLoaded : listLoaded d = u :: us := by simp [listLoaded, hDraft]
    refine ⟨by simp [TaskCreation.requiredMembers, hLoaded, hDraft], fun v hv hSelected => ?_⟩
    rw [hDraft] at hv
    exact ⟨v, hLoaded ▸ hv, rfl, hSelected, rfl⟩

/-- An empty draft is harmless when nobody was selected. -/
theorem harmless_empty (draft : Option (List Member)) :
    (TaskCreation.requiredMembers (some []) = TaskCreation.requiredMembers draft ∧
      KeepsSelected draft (some [])) ↔ ∀ u ∈ draft.getD [], u.isSelected = false := by
  constructor
  · rintro ⟨-, hKeeps⟩ u hu
    by_contra hSelected
    obtain ⟨u', hIn, -⟩ := hKeeps u hu (by simpa using hSelected)
    simp at hIn
  · intro hNone
    refine ⟨?_, fun u hu hSelected => ?_⟩
    · rw [TaskCreation.requiredMembers, TaskCreation.requiredMembers, eq_comm,
        Option.getD_some, List.filter_nil, List.filter_eq_nil_iff]
      intro u hu
      simp [hNone u hu]
    · rw [hNone u hu] at hSelected
      exact Bool.noConfusion hSelected

/-! ## From the press to the return -/

theorem fetches_opened {s m : State} {st : TaskCreation.State} (hAt : AtCreate s st)
    (hOpen : app.Step s (.user (.create .addMembers)) m) : fetches s m = fetches s s := by
  rw [list_opened hAt.screen hAt.alone hOpen]
  simp [fetches, State.outstanding, State.inFlight, isFetch]

theorem fetches_settled {s : State} {st : TaskCreation.State} (h : Settled s st) :
    fetches s s = 0 := by
  refine Program.outstanding_eq_zero_iff.mpr ⟨fun a ha => ?_, fun r hr => ?_⟩
  · by_contra hFetch
    have hOwn : a = .create (.fetchMembers s.ui.focused.key) := by
      unfold isFetch at hFetch
      split at hFetch
      · simp only [Bool.not_eq_false, decide_eq_true_eq] at hFetch
        rw [hFetch]
      · simp at hFetch
    exact h.awaits (hOwn ▸ ha)
  · by_contra hFetched
    have hOwn : ∃ list, r = .create (.fetchMembers s.ui.focused.key list) := by
      unfold isFetched at hFetched
      split at hFetched
      · simp only [Bool.not_eq_false, decide_eq_true_eq] at hFetched
        exact ⟨_, by rw [hFetched]⟩
      · simp at hFetched
    obtain ⟨list, rfl⟩ := hOwn
    exact h.served list hr

/-- A Save that nothing is added to ends with its list as the draft, on the disk and on
the screen. -/
theorem saved_shown {s m s' : State} {st st' : TaskCreation.State} {ls : MembersList.State}
    {zs : List Action} (hAt : AtCreate s st) (hList : OnList s st ls m)
    (hNone : fetches s m = 0) (hRun : app.exec m (.user (.list .handleSubmit) :: zs) = some s')
    (hProceeds : ∀ z ∈ zs, Proceeds z) (hEnd : Settled s' st') :
    st'.membersList = TaskCreation.requiredMembers (some ls.shown) ∧
      s'.disk.tempMembers = some ls.shown := by
  obtain ⟨t, hPress, hRest⟩ := Option.bind_eq_some_iff.mp hRun
  rw [app.step_iff] at hPress
  have hStages : (Saving s st ls.shown s' ∧ fetches s s' = 0) ∨
      (Back s st (some ls.shown) s' ∧ Fetching s (some ls.shown) s') := by
    refine advance_exec (fun t => (Saving s st ls.shown t ∧ fetches s t = 0) ∨
      (Back s st (some ls.shown) t ∧ Fetching s (some ls.shown) t)) ?_
      (Or.inl ⟨hList.save hPress, (hList.save_reads hPress).1.trans hNone⟩) hRest hProceeds
    rintro t t' (⟨hSaving, hFetches⟩ | ⟨hBack, hFetching⟩) hx
    · rcases hSaving.advance hAt.fresh hx with ⟨hNext, hLe⟩ | ⟨hBack, hDue, hServed⟩
      · exact Or.inl ⟨hNext, Nat.eq_zero_of_le_zero (hFetches ▸ hLe)⟩
      · exact Or.inr ⟨hBack, .due hDue hServed hFetches⟩
    · exact Or.inr ⟨hBack.advance hAt.fresh hx, hFetching.advance hBack hAt.fresh hx⟩
  rcases hStages with ⟨hSaving, -⟩ | ⟨hBack, hFetching⟩
  · obtain ⟨_, ls', n, -, hUi⟩ := hSaving.ui
    have hScreen := hEnd.screen
    rw [hUi] at hScreen
    exact Screen.noConfusion hScreen
  · exact ⟨hFetching.settled hBack hEnd, by rw [hBack.disk]⟩

/-- **When a Save without edits is harmless.**  `TaskCreation` shows the stored draft, the
list is opened, and Save is pressed at some point of its load; whatever the order of the
answers, the Save is harmless if and only if the load had completed by then, or nobody is
selected in the draft. -/
theorem unharmed_iff {s t m s' : State} {st st' : TaskCreation.State} {ys zs : List Action}
    (hAt : AtCreate s st) (hStart : Settled s st)
    (hShown : st.membersList = TaskCreation.requiredMembers s.disk.tempMembers)
    (hOpen : app.Step s (.user (.create .addMembers)) t)
    (hLoad : app.exec t ys = some m) (hLoading : ∀ y ∈ ys, Proceeds y)
    (hSave : app.exec m (.user (.list .handleSubmit) :: zs) = some s')
    (hSaving : ∀ z ∈ zs, Proceeds z) (hEnd : Settled s' st') :
    Unharmed s s' st st' ↔
      LoadDone m ∨ ∀ u ∈ s.disk.tempMembers.getD [], u.isSelected = false := by
  obtain ⟨ls, hList, hLe⟩ := loading_exec hAt hOpen hLoad hLoading
  have hNone : fetches s m = 0 := by
    rw [fetches_opened hAt hOpen, fetches_settled hStart] at hLe
    exact Nat.eq_zero_of_le_zero hLe
  obtain ⟨hMembers, hDraft⟩ := saved_shown hAt hList.onList hNone hSave hSaving hEnd
  rw [Unharmed, hMembers, hDraft, hShown, loadDone_iff hList.onList]
  rcases hList.list with ⟨hOne, rfl⟩ | ⟨hZero, rfl⟩
  · rw [hOne]
    show _ ∧ KeepsSelected _ (some []) ↔ _
    rw [show ({} : MembersList.State).shown = [] from rfl, harmless_empty]
    simp
  · rw [MembersList.shown_setFresh]
    exact ⟨fun _ => Or.inl hZero, fun _ => harmless_loaded s.disk⟩

/-! ## Runs of the application -/

theorem settled_of_quiescent {s : State} {st : TaskCreation.State} (hQuiet : s.Quiescent)
    (hScreen : s.ui.focused.screen = .CREATE st) : Settled s st where
  screen := hScreen
  awaits := by simp [hQuiet.effects, hQuiet.pending]
  served := by simp [hQuiet.served]

/-- Where a run with nothing left to wait for has `TaskCreation` focused, a visit can
begin. -/
theorem atCreate_of_run {xs : List Action} {s : State} {st : TaskCreation.State}
    (hRun : run xs = some s) (hOrder : ∀ x ∈ xs, x.InOrder) (hQuiet : s.Quiescent)
    (hScreen : s.ui.focused.screen = .CREATE st) :
    AtCreate s st ∧ Settled s st ∧
      st.membersList = TaskCreation.requiredMembers s.disk.tempMembers := by
  have hName : s.ui.focused.screen.name = .CREATE := congrArg Screen.name hScreen
  refine ⟨⟨hScreen, list_notMem_names hRun hName, (keysBelow_run hRun).fresh, ?_, ?_⟩,
    settled_of_quiescent hQuiet hScreen, (live_run hRun hOrder).current.shown hQuiet hScreen⟩
  · simp [hQuiet.effects, hQuiet.pending]
  · simp [hQuiet.served]

/-- What `TaskCreation` shows, once nothing is left to wait for. -/
def settledList (s : State) : Option (List Member) :=
  match s.effects, s.pending, s.served, s.ui.focused.screen with
  | [], [], [], .CREATE st => some st.membersList
  | _, _, _, _ => none

theorem settledList_eq_some {s : State} {list : List Member} (h : settledList s = some list) :
    ∃ st, s.Quiescent ∧ s.ui.focused.screen = .CREATE st ∧ st.membersList = list := by
  unfold settledList at h
  split at h
  · rename_i st hEffects hPending hServed hScreen
    exact ⟨st, ⟨hEffects, hPending, hServed⟩, hScreen, Option.some.inj h⟩
  · simp at h

/-- Ann is selected; the list is opened again, and Save is pressed after `ys`. -/
def annSavesAgain (ys zs : List Action) (list : List Member) : Bool :=
  (run annSelected).any fun s =>
    (settledList s).isSome &&
      (app.step s (.user (.create .addMembers))).any fun t =>
        (app.exec t ys).any fun m =>
          (app.exec m (.user (.list .handleSubmit) :: zs)).any fun s' =>
            settledList s' = some list

theorem annSavesAgain_spec {ys zs : List Action} {list : List Member}
    (h : annSavesAgain ys zs list = true) :
    ∃ s t m s' st st', AtCreate s st ∧ Settled s st ∧
      st.membersList = TaskCreation.requiredMembers s.disk.tempMembers ∧
      app.Step s (.user (.create .addMembers)) t ∧ app.exec t ys = some m ∧
      app.exec m (.user (.list .handleSubmit) :: zs) = some s' ∧ Settled s' st' ∧
      run annSelected = some s ∧ st'.membersList = list := by
  simp only [annSavesAgain, Option.any_eq_true, Bool.and_eq_true, decide_eq_true_eq] at h
  obtain ⟨s, hRun, hStart, t, hOpen, m, hLoad, s', hSave, hEnd⟩ := h
  obtain ⟨shown, hShown⟩ := Option.isSome_iff_exists.mp hStart
  obtain ⟨st, hQuiet, hScreen, -⟩ := settledList_eq_some hShown
  obtain ⟨st', hQuiet', hScreen', hList⟩ := settledList_eq_some hEnd
  obtain ⟨hAt, hSettled, hDraft⟩ := atCreate_of_run hRun (by decide) hQuiet hScreen
  exact ⟨s, t, m, s', st, st', hAt, hSettled, hDraft, app.step_iff.mp hOpen, hLoad, hSave,
    settled_of_quiescent hQuiet' hScreen', hRun, hList⟩

/-- Ann, as she is after she was selected. -/
def annChosen : Member := { annCall.account with isSelected := true, value := js "5" }

theorem annSelected_draft {s : State} (hRun : run annSelected = some s) :
    s.disk.tempMembers = some [annChosen] :=
  seen_of_run (f := fun s => s.disk.tempMembers) hRun (by decide)

/-- A Save after the load. -/
theorem unharmed_ann :
    ∃ s m s' st st', s.disk.tempMembers = some [annChosen] ∧ LoadDone m ∧
      Unharmed s s' st st' := by
  obtain ⟨s, t, m, s', st, st', hAt, hStart, hShown, hOpen, hLoad, hSave, hEnd, hRun, -⟩ :=
    annSavesAgain_spec
      (show annSavesAgain loaded (answered ++ loaded) [annChosen] = true by decide)
  have hDone : LoadDone m := by
    have hRunM : run (annSelected ++ .user (.create .addMembers) :: loaded) = some m := by
      show app.exec init (annSelected ++ .user (.create .addMembers) :: loaded) = some m
      rw [app.exec_append, show app.exec init annSelected = some s from hRun, Option.bind_some,
        app.exec_cons, app.step_iff.mpr hOpen, Option.bind_some, hLoad]
    have hQueues : (m.effects, m.pending, m.served) = ([], [], []) :=
      seen_of_run (f := fun m => (m.effects, m.pending, m.served)) hRunM (by decide)
    rw [Prod.mk.injEq, Prod.mk.injEq] at hQueues
    simp [LoadDone, hQueues]
  exact ⟨s, m, s', st, st', annSelected_draft hRun, hDone,
    (unharmed_iff hAt hStart hShown hOpen hLoad (by decide) hSave (by decide) hEnd).mpr
      (Or.inl hDone)⟩

/-- Save is pressed while the draft is being read: it writes an empty list, and Ann is
no longer selected. -/
theorem early_save_deselects :
    ¬ ∀ (s t m s' : State) (st st' : TaskCreation.State) (ys zs : List Action),
      AtCreate s st → Settled s st →
      st.membersList = TaskCreation.requiredMembers s.disk.tempMembers →
      app.Step s (.user (.create .addMembers)) t →
      app.exec t ys = some m → (∀ y ∈ ys, Proceeds y) →
      app.exec m (.user (.list .handleSubmit) :: zs) = some s' → (∀ z ∈ zs, Proceeds z) →
      Settled s' st' → Unharmed s s' st st' := by
  intro h
  obtain ⟨s, t, m, s', st, st', hAt, hStart, hShown, hOpen, hLoad, hSave, hEnd, hRun, hList⟩ :=
    annSavesAgain_spec
      (show annSavesAgain [.effect 0] (answered ++ answered ++ loaded) [] = true by decide)
  have hSame := (h s t m s' st st' _ _ hAt hStart hShown hOpen hLoad (by decide) hSave
    (by decide) hEnd).1
  rw [hList, hShown, annSelected_draft hRun] at hSame
  exact absurd hSame (by decide)

end TaskManager.Runs
