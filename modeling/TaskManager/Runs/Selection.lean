import TaskManager.App.Choices
import TaskManager.Runs.EarlySave

/-!
# Selecting members over visits

The list is opened from `TaskCreation` any number of times.  Each visit loads the
list, members are chosen through the handlers of any of its renders, and the list
is saved or left.  The main result is `selection_shown`: `TaskCreation` ends up
showing exactly the members that the saved visits together select.
-/

namespace TaskManager.Runs

open TaskManager.Verified.JsText
open TaskManager.Verified.EventLoop
open TaskManager.Shared
open TaskManager.Pages
open TaskManager.Routes
open TaskManager.App

/-! ## Visits -/

/-- Callbacks run, and the store answers in the order of issue. -/
def Goes (t t' : State) : Prop :=
  ∃ xs, app.exec t xs = some t' ∧ ∀ x ∈ xs, Proceeds x ∧ x.InOrder

/-- Members are chosen, each through the handler of one of the renders since `m`,
and things may go on in between. -/
inductive Choosing (m : State) : List MembersList.State → List Choice → State → Prop
  | loaded {ls} (hScreen : m.ui.focused.screen = .LIST ls) : Choosing m [ls] [] m
  | chooses {renders cs t t' old c ls} (h : Choosing m renders cs t) (hOld : old ∈ renders)
      (hStep : ChoiceStep old t c t') (hScreen : t'.ui.focused.screen = .LIST ls) :
      Choosing m (ls :: renders) (cs ++ [c]) t'
  | goes {renders cs t t'} (h : Choosing m renders cs t) (hGoes : Goes t t') :
      Choosing m renders cs t'

/-- One visit of the list, with the choices that it saves. -/
inductive Visit (s : State) : List Choice → State → Prop
  | saved {t m u u' s' renders cs} (hOpen : app.Step s (.user (.create .addMembers)) t)
      (hLoad : Goes t m) (hDone : LoadDone m) (hChoosing : Choosing m renders cs u)
      (hPress : app.Step u (.user (.list .handleSubmit)) u') (hSave : Goes u' s')
      (hBack : s'.ui.focused.screen.name = .CREATE) : Visit s cs s'
  | left {t m u u' s' renders cs e} (hOpen : app.Step s (.user (.create .addMembers)) t)
      (hLoad : Goes t m) (hDone : LoadDone m) (hChoosing : Choosing m renders cs u)
      (hLeave : e = .list .arrow ∨ e = .systemBack) (hPress : app.Step u (.user e) u')
      (hGoes : Goes u' s') : Visit s [] s'

/-- Any number of visits, with the choices that were saved. -/
inductive Visits (s : State) : List Choice → State → Prop
  | none : Visits s [] s
  | visit {saved t cs t'} (h : Visits s saved t) (hVisit : Visit t cs t') :
      Visits s (saved ++ cs) t'

/-- `TaskCreation` is focused without a draft; only its fetch may be outstanding. -/
structure WithoutDraft (s : State) (st : TaskCreation.State) : Prop where
  atCreate : AtCreate s st
  grounded : Grounded s.ui.names
  draft : s.disk.tempMembers = none
  shown : st.membersList = []
  fetched : ∀ list, .create (.fetchMembers s.ui.focused.key list) ∈ s.served → list = none

/-! ## Things going on -/

/-- What a step of these keeps, all of them keep. -/
theorem Goes.keeps {t t' : State} (h : Goes t t') (I : State → Prop)
    (hStep : ∀ m m', I m → Advance m m' → I m') (hStart : I t) : I t' := by
  obtain ⟨xs, hRun, hAll⟩ := h
  exact advance_exec I hStep hStart hRun fun x hx => (hAll x hx).1

theorem Goes.live {t t' : State} (h : Goes t t') (hLive : Live t) : Live t' := by
  obtain ⟨xs, hRun, hAll⟩ := h
  exact hLive.exec hRun fun x hx => (hAll x hx).2

/-- The list that `TaskCreation` has opened is loading. -/
theorem Goes.loading {s t m : State} {st : TaskCreation.State} (h : Goes t m)
    (hAt : AtCreate s st) (hOpen : app.Step s (.user (.create .addMembers)) t) :
    ∃ ls, Loading s st ls m := by
  obtain ⟨xs, hRun, hAll⟩ := h
  obtain ⟨ls, hLoading, -⟩ := loading_exec hAt hOpen hRun fun x hx => (hAll x hx).1
  exact ⟨ls, hLoading⟩

theorem WithoutDraft.live {s : State} {st : TaskCreation.State} (h : WithoutDraft s st) :
    Live s where
  current st' hScreen := by
    right
    rw [h.atCreate.screen, Screen.CREATE.injEq] at hScreen
    subst hScreen
    have hServed : ∀ rs : List Ready, (∀ r ∈ rs, r ∈ s.served) →
        rs.foldl (fun shown r => showMembers s.ui.focused.key r shown) [] = [] := by
      intro rs hIn
      induction rs with
      | nil => rfl
      | cons r rs ih =>
          have hMem := hIn r List.mem_cons_self
          obtain ⟨list, rfl⟩ := h.atCreate.served r hMem
          obtain rfl := h.fetched list hMem
          have hHead : showMembers s.ui.focused.key
              (.create (.fetchMembers s.ui.focused.key none)) [] = [] := by
            simp [showMembers]
          rw [List.foldl_cons, hHead]
          exact ih fun r hr => hIn r (List.mem_cons_of_mem _ hr)
    rw [h.shown, Program.settle, Program.foreseen, List.foldl_append, hServed _ fun r hr => hr]
    refine deliver_members (fun a ha => ?_) (by rw [h.draft]; rfl)
    rw [h.atCreate.awaits a (List.mem_append_right _ ha)]
    rfl
  grounded := h.grounded
  loads a ha := by
    rw [h.atCreate.awaits a (List.mem_append_left _ ha)]
    exact .create _

/-! ## One visit -/

section

variable {s t t' m u : State} {st : TaskCreation.State} {ls : MembersList.State}
  {renders : List MembersList.State} {cs : List Choice}

/-- What holds of the list while members are chosen: it shows what was loaded with all
the choices made, and every render since the load has its rows. -/
structure ChosenFrom (t : State) (st : TaskCreation.State) (list : List Member)
    (renders : List MembersList.State) (cs : List Choice) (u : State) : Prop where
  list : ∃ ls, OnList t st ls u ∧ ls.shown = list.map (choose cs) ∧ ls.rows.Nodup ∧
    ∀ old ∈ renders, MembersList.SameRows old ls
  done : listReads t u = 0
  live : Live u

/-- By induction on the choices: each is made from rows that are still those of the list. -/
theorem Choosing.chosenFrom (h : Choosing m renders cs u) (hFresh : Ui.Fresh t.ui)
    (hList : OnList t st ls m) (hDone : listReads t m = 0) (hDistinct : ls.rows.Nodup)
    (hLive : Live m) : ChosenFrom t st ls.shown renders cs u := by
  induction h with
  | loaded hScreen =>
      refine ⟨⟨ls, hList, (List.map_id ls.shown).symm, hDistinct, fun old hOld => ?_⟩, hDone,
        hLive⟩
      rw [hList.focused, Screen.LIST.injEq] at hScreen
      rw [List.mem_singleton.mp hOld, ← hScreen]
      exact .refl ls
  | @chooses renders cs u u' old c ls'' _ hOld hStep hScreen ih =>
      obtain ⟨⟨ls', hOn, hShown, hRows, hSame⟩, hReads, hLive'⟩ := ih
      have hOldRows := hSame old hOld
      have hEdited := MembersList.sameRows_edit ls' c.email (email_change c)
      obtain ⟨hOn', hReads'⟩ := hOn.choose hFresh hStep hOldRows
      obtain ⟨e, hUser⟩ := hStep.step (congrArg Route.screen hOn.focused) hOldRows
      refine ⟨⟨edited ls' c, hOn', ?_, hEdited.rows ▸ hRows, ?_⟩, hReads'.trans hReads,
        hLive'.step (x := .user (.list e)) trivial hUser⟩
      · rw [edited, MembersList.shown_edit hRows, hShown, List.map_map]
        refine List.map_congr_left fun member _ => ?_
        rw [choose_snoc]
        rfl
      · intro r hr
        rcases List.mem_cons.mp hr with rfl | hOlder
        · rw [hOn'.focused, Screen.LIST.injEq] at hScreen
          rw [← hScreen]
          exact .refl _
        · exact (hSame r hOlder).trans hEdited
  | goes _ hGoes ih =>
      obtain ⟨⟨ls', hOn, hRest⟩, hReads, hLive'⟩ := ih
      obtain ⟨hOn', hReads'⟩ := hGoes.keeps
        (fun u => OnList t st ls' u ∧ listReads t u = 0)
        (fun _ _ hInv hx => hInv.1.advance hFresh hInv.2 hx) ⟨hOn, hReads⟩
      exact ⟨⟨ls', hOn', hRest⟩, hReads', hGoes.live hLive'⟩

end

/-- What a member becomes by the choices of all saved visits. -/
def selection (d : Disk) (saved : List Choice) : List Member :=
  (d.userMember.getD []).map fun u => choose saved (MembersList.unselected u)

/-- Between two visits the draft holds what the visits so far have saved. -/
structure AfterVisits (s : State) (saved : List Choice) (t : State) : Prop where
  live : Live t
  create : ∃ st, AtCreate t st
  disk : ∃ draft, t.disk = { s.disk with tempMembers := draft } ∧
    ((draft = none ∧ saved = []) ∨ draft = some (selection s.disk saved))

theorem AfterVisits.listLoaded_eq {s t : State} {saved : List Choice} (h : AfterVisits s saved t) :
    listLoaded t.disk = selection s.disk saved := by
  obtain ⟨draft, hDisk, ⟨rfl, rfl⟩ | rfl⟩ := h.disk
  · rw [hDisk]
    rfl
  · rw [hDisk]
    cases hSelection : selection s.disk saved with
    | nil =>
        have hNone : s.disk.userMember.getD [] = [] := by
          simpa [selection] using hSelection
        simp [listLoaded, hNone]
    | cons u us => rfl

/-- A selection is of the stored members, by their emails. -/
theorem emails_selection (d : Disk) (saved : List Choice) :
    (selection d saved).map (fun m => m.email) =
      (d.userMember.getD []).map fun u => u.email := by
  rw [selection, List.map_map]
  refine List.map_congr_left fun u _ => ?_
  rw [Function.comp_apply, choose_unselected]

/-- The choices of a visit come after those of the visits before it. -/
theorem selection_append (d : Disk) (saved cs : List Choice) :
    (selection d saved).map (choose cs) = selection d (saved ++ cs) := by
  rw [selection, selection, List.map_map]
  exact List.map_congr_left fun u _ => (choose_append saved cs _).symm

section

variable {s t t' m u u' : State} {saved cs : List Choice} {renders : List MembersList.State}

/-- A visit until it is saved or left. -/
theorem AfterVisits.chosen (h : AfterVisits s saved t)
    (hDistinct : ((s.disk.userMember.getD []).map fun u => u.email).Nodup)
    (hOpen : app.Step t (.user (.create .addMembers)) t') (hLoad : Goes t' m)
    (hDone : LoadDone m) (hChoosing : Choosing m renders cs u) :
    ∃ st, AtCreate t st ∧ ChosenFrom t st (selection s.disk saved) renders cs u := by
  obtain ⟨st, hAt⟩ := h.create
  obtain ⟨ls, hLoading⟩ := hLoad.loading hAt hOpen
  have hReads : listReads t m = 0 := (loadDone_iff hLoading.onList).mp hDone
  obtain rfl : ls = ({} : MembersList.State).setFresh (selection s.disk saved) := by
    rcases hLoading.list with ⟨hOne, -⟩ | ⟨-, hLoaded⟩
    · omega
    · rw [hLoaded, h.listLoaded_eq]
  have hRows : (({} : MembersList.State).setFresh (selection s.disk saved)).rows.Nodup := by
    rw [MembersList.rows_setFresh, emails_selection]
    exact hDistinct.map fun _ _ hSame => Option.some.inj hSame
  have hLive : Live m := hLoad.live (h.live.step (x := .user (.create .addMembers)) trivial hOpen)
  have hChosen := hChoosing.chosenFrom hAt.fresh hLoading.onList hReads hRows hLive
  rw [MembersList.shown_setFresh] at hChosen
  exact ⟨st, hAt, hChosen⟩

/-- Back on `TaskCreation` after a visit. -/
theorem AfterVisits.back (h : AfterVisits s saved t) {st : TaskCreation.State}
    {draft : Option (List Member)} (hAt : AtCreate t st) (hBack : Back t st draft t')
    (hDone : listReads t t' = 0) (hLive : Live t') {saved' : List Choice}
    (hDraft : (draft = none ∧ saved' = []) ∨ draft = some (selection s.disk saved')) :
    AfterVisits s saved' t' where
  live := hLive
  create := by
    obtain ⟨st', hNext, -⟩ := hBack.atCreate hAt hDone
    exact ⟨st', hNext⟩
  disk := by
    obtain ⟨old, hDisk, -⟩ := h.disk
    exact ⟨draft, by rw [hBack.disk, hDisk], hDraft⟩

/-- A visit that is saved adds its choices. -/
theorem AfterVisits.save (h : AfterVisits s saved t) {st : TaskCreation.State} (hAt : AtCreate t st)
    (hChosen : ChosenFrom t st (selection s.disk saved) renders cs u)
    (hPress : app.Step u (.user (.list .handleSubmit)) u') (hSave : Goes u' t')
    (hFocus : t'.ui.focused.screen.name = .CREATE) : AfterVisits s (saved ++ cs) t' := by
  obtain ⟨⟨ls, hOn, hShown, -⟩, hReads, hLive⟩ := hChosen
  rw [selection_append] at hShown
  have hStages : (Saving t st ls.shown t' ∨ Back t st (some ls.shown) t') ∧
      listReads t t' = 0 := by
    refine hSave.keeps (fun u => (Saving t st ls.shown u ∨ Back t st (some ls.shown) u) ∧
      listReads t u = 0) ?_ ⟨Or.inl (hOn.save hPress), (hOn.save_reads hPress).2.trans hReads⟩
    rintro w w' ⟨hSaving | hBack, hNone⟩ hx
    · refine ⟨?_, hSaving.listReads_eq hAt.fresh hNone hx⟩
      exact (hSaving.advance hAt.fresh hx).imp And.left And.left
    · exact ⟨Or.inr (hBack.advance hAt.fresh hx), hBack.listReads_eq hNone hx⟩
  have hBack : Back t st (some ls.shown) t' := by
    refine hStages.1.resolve_left fun hSaving => ?_
    obtain ⟨_, ls', n, -, hUi⟩ := hSaving.ui
    rw [hUi] at hFocus
    exact RouteName.noConfusion hFocus
  exact h.back hAt hBack hStages.2
    (hSave.live (hLive.step (x := .user (.list .handleSubmit)) trivial hPress))
    (Or.inr (by rw [hShown]))

/-- A visit that is left without a Save adds none. -/
theorem AfterVisits.leave (h : AfterVisits s saved t) {st : TaskCreation.State}
    (hAt : AtCreate t st)
    (hChosen : ChosenFrom t st (selection s.disk saved) renders cs u) {e : Event}
    (hLeave : e = .list .arrow ∨ e = .systemBack) (hPress : app.Step u (.user e) u')
    (hGoes : Goes u' t') : AfterVisits s saved t' := by
  obtain ⟨⟨ls, hOn, -⟩, hReads, hLive⟩ := hChosen
  obtain ⟨hLeft, hSame⟩ := hOn.leave hLeave hPress
  obtain ⟨hBack, hNone⟩ := hGoes.keeps
    (fun u => Back t st t.disk.tempMembers u ∧ listReads t u = 0)
    (fun _ _ hInv hx => ⟨hInv.1.advance hAt.fresh hx, hInv.1.listReads_eq hInv.2 hx⟩)
    ⟨hLeft, hSame.trans hReads⟩
  have hDraft : (t.disk.tempMembers = none ∧ saved = []) ∨
      t.disk.tempMembers = some (selection s.disk saved) := by
    obtain ⟨draft, hDisk, hDraft⟩ := h.disk
    rw [hDisk]
    exact hDraft
  exact h.back hAt hBack hNone (hGoes.live (hLive.step (x := .user e) trivial hPress)) hDraft

/-- Every visit adds what it has saved. -/
theorem AfterVisits.visit (h : AfterVisits s saved t)
    (hDistinct : ((s.disk.userMember.getD []).map fun u => u.email).Nodup)
    (hVisit : Visit t cs t') : AfterVisits s (saved ++ cs) t' := by
  cases hVisit with
  | saved hOpen hLoad hDone hChoosing hPress hSave hFocus =>
      obtain ⟨st, hAt, hChosen⟩ := h.chosen hDistinct hOpen hLoad hDone hChoosing
      exact h.save hAt hChosen hPress hSave hFocus
  | left hOpen hLoad hDone hChoosing hLeave hPress hGoes =>
      obtain ⟨st, hAt, hChosen⟩ := h.chosen hDistinct hOpen hLoad hDone hChoosing
      rw [List.append_nil]
      exact h.leave hAt hChosen hLeave hPress hGoes

end

/-! ## Any number of visits -/

/-- Any number of visits add up to the choices of those that were saved. -/
theorem Visits.between {s t : State} {st : TaskCreation.State} {saved : List Choice}
    (h : Visits s saved t) (hStart : WithoutDraft s st)
    (hDistinct : ((s.disk.userMember.getD []).map fun u => u.email).Nodup) :
    AfterVisits s saved t := by
  induction h with
  | none =>
      exact ⟨hStart.live, ⟨st, hStart.atCreate⟩, Option.none, by rw [← hStart.draft],
        Or.inl ⟨rfl, rfl⟩⟩
  | visit _ hVisit ih => exact ih.visit hDistinct hVisit

/-- The members that the choices select, with the values they leave. -/
def selected (d : Disk) (saved : List Choice) : List Member :=
  ((d.userMember.getD []).filter fun u =>
    pressed saved u.email % 2 = 1 && isPositive (lastTyped saved u.email)).map fun u =>
      { u with isSelected := true, value := lastTyped saved u.email }

/-- `TaskCreation` shows those of a selection that are selected, with a value. -/
theorem requiredMembers_selection (d : Disk) (saved : List Choice) :
    TaskCreation.requiredMembers (some (selection d saved)) = selected d saved := by
  rw [TaskCreation.requiredMembers, Option.getD_some, selection, List.filter_map, selected]
  have hCond : ((fun e : Member => e.isSelected && isPositive e.value) ∘
        fun u => choose saved (MembersList.unselected u)) =
      fun u : Account =>
        decide (pressed saved u.email % 2 = 1) && isPositive (lastTyped saved u.email) := by
    funext u
    simp only [Function.comp_apply, choose_unselected]
  rw [hCond]
  refine List.map_congr_left fun u hu => ?_
  rw [choose_unselected]
  have hOdd : pressed saved u.email % 2 = 1 := by
    have hBoth := (List.mem_filter.mp hu).2
    simp only [Bool.and_eq_true, decide_eq_true_eq] at hBoth
    exact hBoth.1
  simp only [hOdd, decide_true]

/-- Nobody is selected before anything is chosen. -/
theorem selected_nil (d : Disk) : selected d [] = [] := by
  simp [selected, pressed]

theorem quiescent_of_settled {s : State} {st st' : TaskCreation.State} (h : AtCreate s st)
    (hEnd : Settled s st') : s.Quiescent := by
  have hAwaits : s.effects ++ s.pending = [] := List.eq_nil_iff_forall_not_mem.mpr
    fun a ha => hEnd.awaits (h.awaits a ha ▸ ha)
  have hServed : s.served = [] := List.eq_nil_iff_forall_not_mem.mpr fun r hr => by
    obtain ⟨list, rfl⟩ := h.served r hr
    exact hEnd.served list hr
  exact ⟨(List.append_eq_nil_iff.mp hAwaits).1, (List.append_eq_nil_iff.mp hAwaits).2, hServed⟩

/-- **Selection over any number of visits.**  From a `TaskCreation` without a draft, and a
store of members with distinct emails: once its last fetch is done, `TaskCreation` shows, in
the order of the store and each once, the members with an odd number of presses and a
positive last value over the saved visits, with that value; and the draft is the store with
choices added to it. -/
theorem selection_shown {s s' : State} {st st' : TaskCreation.State} {saved : List Choice}
    (hStart : WithoutDraft s st)
    (hDistinct : ((s.disk.userMember.getD []).map fun u => u.email).Nodup)
    (hVisits : Visits s saved s') (hEnd : Settled s' st') :
    st'.membersList = selected s.disk saved ∧
      (st'.membersList.map fun m => m.email).Nodup ∧
      ∀ draft, s'.disk.tempMembers = some draft →
        draft.map Member.toAccount = s.disk.userMember.getD [] := by
  have hBetween := hVisits.between hStart hDistinct
  obtain ⟨st'', hAt⟩ := hBetween.create
  obtain ⟨draft, hDisk, hDraft⟩ := hBetween.disk
  have hShown := hBetween.live.current.shown (quiescent_of_settled hAt hEnd) hEnd.screen
  have hList : st'.membersList = selected s.disk saved := by
    rw [hShown, hDisk]
    rcases hDraft with ⟨rfl, rfl⟩ | rfl
    · exact (selected_nil s.disk).symm
    · exact requiredMembers_selection s.disk saved
  refine ⟨hList, ?_, fun list hList => ?_⟩
  · rw [hList, selected, List.map_map]
    exact hDistinct.sublist (List.filter_sublist.map _)
  · rw [hDisk] at hList
    rcases hDraft with ⟨rfl, -⟩ | rfl
    · simp at hList
    · rw [← Option.some.inj hList, selection, List.map_map]
      refine List.map_congr_left (g := id) (fun u _ => ?_) |>.trans (List.map_id _)
      rw [Function.comp_apply, choose_unselected]
      rfl

/-- Runs of the application end in such a start. -/
theorem withoutDraft_of_run {xs : List Action} {s : State} {st : TaskCreation.State}
    (hRun : run xs = some s) (hOrder : ∀ x ∈ xs, x.InOrder) (hQuiet : s.Quiescent)
    (hScreen : s.ui.focused.screen = .CREATE st) (hDraft : s.disk.tempMembers = none) :
    WithoutDraft s st := by
  obtain ⟨hAt, -, hShown⟩ := atCreate_of_run hRun hOrder hQuiet hScreen
  refine ⟨hAt, grounded_run hRun, hDraft, ?_, ?_⟩
  · rw [hShown, hDraft]
    rfl
  · simp [hQuiet.served]

/-! ## Two visits -/

/-- Ann and Bob have signed up as members, and Cat, an administrator, opens a
task. -/
def catOpensTask : List Action :=
  annAtHome ++ logOut ++ signUp (js "bob@x.co") (js "pw") (js "Bob") false ++ logOut
    ++ signUp (js "cat@x.co") (js "pw") (js "Cat") true ++ openTask

/-- The button of `CREATE` that opens `LIST`. -/
def addMembers : Action := .user (.create .addMembers)

/-- A value is typed into the `i`-th row. -/
def typeValue (i : Nat) (val : JsString) : Action := .user (.list (.memberValChange i val))

/-- She selects Ann, types a value for her and saves. -/
def catSavesAnn : List Action :=
  catOpensTask ++ [addMembers] ++ (loaded ++ answered) ++ [pressMember 1]
    ++ [typeValue 1 (js "7")] ++ [.user (.list .handleSubmit)] ++ (answered ++ loaded)

/-- She opens the list again, selects Bob and leaves it. -/
def catLeavesBob : List Action :=
  catSavesAnn ++ [addMembers] ++ loaded ++ [pressMember 0] ++ [.user (.list .arrow)] ++ loaded

/-- Ann, selected with the value `7`. -/
def annWithSeven : Member := { annCall.account with isSelected := true, value := js "7" }

/-- The list of the two members. -/
def listOf (bob ann : Member) : MembersList.State := { heap := [bob, ann], members := [0, 1] }

/-- The value is typed through a handler of the render before the press. -/
theorem catSavesAnn_visit {s s' : State} (hStart : run catOpensTask = some s)
    (hRun : run catSavesAnn = some s') :
    Visit s [.press (js "ann@x.co"), .typed (js "ann@x.co") (js "7")] s' := by
  obtain ⟨u', hRun₅, hSave⟩ := app.exec_append_some hRun
  obtain ⟨u, hRun₄, hPress⟩ := app.exec_snoc_some hRun₅
  obtain ⟨w, hRun₃, hType⟩ := app.exec_snoc_some hRun₄
  obtain ⟨m, hRun₂, hSelect⟩ := app.exec_snoc_some hRun₃
  obtain ⟨t, hRun₁, hLoad⟩ := app.exec_append_some hRun₂
  have hOpen := app.step_of_exec_snoc hStart hRun₁
  let bob := MembersList.unselected bobCall.account
  let before := listOf bob (MembersList.unselected annCall.account)
  let after := listOf bob annChosen
  have hLoaded : (m.effects, m.pending, m.served, m.ui.focused.screen) =
      ([], [], [], .LIST before) :=
    seen_of_run (f := fun s => (s.effects, s.pending, s.served, s.ui.focused.screen)) hRun₂
      (by decide)
  have hSelected : w.ui.focused.screen = .LIST after :=
    seen_of_run (f := fun s => s.ui.focused.screen) hRun₃ (by decide)
  have hTyped : u.ui.focused.screen = .LIST (listOf bob annWithSeven) :=
    seen_of_run (f := fun s => s.ui.focused.screen) hRun₄ (by decide)
  have hBack : s'.ui.focused.screen.name = .CREATE :=
    seen_of_run (f := fun s => s.ui.focused.screen.name) hRun (by decide)
  simp only [Prod.mk.injEq] at hLoaded
  have hFirst : Choosing m [after, before] [.press (js "ann@x.co")] w :=
    .chooses (.loaded hLoaded.2.2.2) List.mem_cons_self
      (choiceStep_of_step hSelect hLoaded.2.2.2 (.refl _) rfl) hSelected
  have hChoosing : Choosing m [listOf bob annWithSeven, after, before]
      [.press (js "ann@x.co"), .typed (js "ann@x.co") (js "7")] u :=
    .chooses hFirst (List.mem_cons_of_mem _ List.mem_cons_self)
      (choiceStep_of_step hType hSelected ⟨rfl, rfl⟩ rfl) hTyped
  exact .saved hOpen ⟨_, hLoad, by decide⟩ (by simp [LoadDone, hLoaded]) hChoosing hPress
    ⟨_, hSave, by decide⟩ hBack

theorem catLeavesBob_visit {s s' : State} (hStart : run catSavesAnn = some s)
    (hRun : run catLeavesBob = some s') : Visit s [] s' := by
  obtain ⟨u', hRun₄, hGoes⟩ := app.exec_append_some hRun
  obtain ⟨u, hRun₃, hPress⟩ := app.exec_snoc_some hRun₄
  obtain ⟨m, hRun₂, hSelect⟩ := app.exec_snoc_some hRun₃
  obtain ⟨t, hRun₁, hLoad⟩ := app.exec_append_some hRun₂
  have hOpen := app.step_of_exec_snoc hStart hRun₁
  have hLoaded : (m.effects, m.pending, m.served, m.ui.focused.screen) =
      ([], [], [], .LIST (listOf (MembersList.unselected bobCall.account) annWithSeven)) :=
    seen_of_run (f := fun s => (s.effects, s.pending, s.served, s.ui.focused.screen)) hRun₂
      (by decide)
  have hSelected : u.ui.focused.screen = .LIST (listOf
      { MembersList.unselected bobCall.account with isSelected := true } annWithSeven) :=
    seen_of_run (f := fun s => s.ui.focused.screen) hRun₃ (by decide)
  simp only [Prod.mk.injEq] at hLoaded
  have hChoosing := Choosing.chooses (.loaded hLoaded.2.2.2) List.mem_cons_self
    (choiceStep_of_step (c := .press (js "bob@x.co")) hSelect hLoaded.2.2.2 (.refl _) rfl) hSelected
  exact .left hOpen ⟨_, hLoad, by decide⟩ (by simp [LoadDone, hLoaded]) hChoosing (Or.inl rfl)
    hPress ⟨_, hGoes, by decide⟩

/-- The visit that was left has no influence. -/
theorem selection_shown_ann :
    ∃ s s' st st', WithoutDraft s st ∧ s.disk.userMember = some [bobCall.account, annCall.account] ∧
      Visits s [.press (js "ann@x.co"), .typed (js "ann@x.co") (js "7")] s' ∧
      Settled s' st' ∧ st'.membersList = [annWithSeven] := by
  obtain ⟨s, hStart⟩ := Option.isSome_iff_exists.mp
    (show (run catOpensTask).isSome = true by decide)
  obtain ⟨s₁, hSaved⟩ := Option.isSome_iff_exists.mp
    (show (run catSavesAnn).isSome = true by decide)
  obtain ⟨s', hRun⟩ := Option.isSome_iff_exists.mp
    (show (run catLeavesBob).isSome = true by decide)
  let st : TaskCreation.State := { createdDate := 0, endDate := 0 }
  have hQueues : (s.effects, s.pending, s.served) = ([], [], []) :=
    seen_of_run (f := fun s => (s.effects, s.pending, s.served)) hStart (by decide)
  have hScreen : s.ui.focused.screen = .CREATE st :=
    seen_of_run (f := fun s => s.ui.focused.screen) hStart (by decide)
  have hDisk : (s.disk.tempMembers, s.disk.userMember) =
      (none, some [bobCall.account, annCall.account]) :=
    seen_of_run (f := fun s => (s.disk.tempMembers, s.disk.userMember)) hStart (by decide)
  have hEnd : settledList s' = some [annWithSeven] :=
    seen_of_run (f := settledList) hRun (by decide)
  simp only [Prod.mk.injEq] at hQueues hDisk
  obtain ⟨st', hQuiet', hScreen', -⟩ := settledList_eq_some hEnd
  have hDraftless : WithoutDraft s st :=
    withoutDraft_of_run hStart (by decide) ⟨hQueues.1, hQueues.2.1, hQueues.2.2⟩ hScreen hDisk.1
  have hVisits : Visits s [.press (js "ann@x.co"), .typed (js "ann@x.co") (js "7")] s' := by
    have hBoth := Visits.visit (.visit .none (catSavesAnn_visit hStart hSaved))
      (catLeavesBob_visit hSaved hRun)
    simpa using hBoth
  have hSettled := settled_of_quiescent hQuiet' hScreen'
  refine ⟨s, s', st, st', hDraftless, hDisk.2, hVisits, hSettled, ?_⟩
  rw [(selection_shown hDraftless (by rw [hDisk.2]; decide) hVisits hSettled).1, selected, hDisk.2]
  decide

end TaskManager.Runs
