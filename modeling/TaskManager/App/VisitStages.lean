import TaskManager.App.Visits

/-!
# The stages of a visit

A visit of `MembersList` begins and ends on `TaskCreation` (`AtCreate`).  In
between the list loads (`Loading`), is used (`OnList`), and is left, directly or
by a Save that is first written (`Saving`); then `TaskCreation` has the focus
again (`Back`) and fetches the draft (`Fetching`).  Each stage is kept by every
step that is not the user's, or gives way to the next, in whatever order the
store answers; what `TaskCreation` fetches may still be outstanding in each.
-/

namespace TaskManager.App

open TaskManager.Shared
open TaskManager.Pages
open TaskManager.Routes
open TaskManager.Verified.EventLoop

/-- A callback runs, or the store performs or reports a request. -/
def Proceeds : Action → Prop
  | .effect _ => True
  | .serve _ => True
  | .resolve _ => True
  | _ => False

instance : DecidablePred Proceeds
  | .user _ => .isFalse id
  | .effect _ => .isTrue trivial
  | .serve _ => .isTrue trivial
  | .resolve _ => .isTrue trivial
  | .reject _ => .isFalse id
  | .kill => .isFalse id

/-- One such step. -/
inductive Advance (m : State) : State → Prop
  | effect {i a} (h : m.effects[i]? = some a) :
      Advance m { m with effects := m.effects.eraseIdx i, pending := m.pending ++ [a] }
  | serve {i a} (h : m.pending[i]? = some a) :
      Advance m
        { m with
          disk := (app.serve a m.disk).1
          pending := m.pending.eraseIdx i
          served := m.served ++ [(app.serve a m.disk).2] }
  | resolve {i r} (h : m.served[i]? = some r) :
      Advance m ({ m with served := m.served.eraseIdx i }.issue (app.resume r m.ui))

/-- These are the steps of the application that proceed. -/
theorem advance_of_step {m m' : State} {x : Action} (hx : app.Step m x m')
    (hProceeds : Proceeds x) : Advance m m' := by
  cases hx with
  | effect hAt => exact .effect hAt
  | serve hAt => exact .serve hAt
  | resolve hAt => exact .resolve hAt
  | user _ => exact hProceeds.elim
  | reject _ => exact hProceeds.elim
  | kill => exact hProceeds.elim

/-- What such a step keeps, a run of them keeps. -/
theorem advance_exec (I : State → Prop) (hStep : ∀ m m', I m → Advance m m' → I m')
    {m m' : State} {xs : List Action} (hStart : I m) (hRun : app.exec m xs = some m')
    (hProceeds : ∀ x ∈ xs, Proceeds x) : I m' :=
  app.exec_induction (fun _ x => Proceeds x) (fun _ m => I m) hStart
    (fun _ m _ m' _ hOk hInv hx => hStep m m' hInv (advance_of_step hx hOk))
    (fun p hp => hProceeds p.2 (app.mem_of_mem_trace hp)) hRun

/-! ## The reads of the two screens -/

/-- A read of the list `key`. -/
def isListLoad (key : Nat) : Await → Bool
  | .list (.getDraft key') => key' = key
  | .list (.getMembers key') => key' = key
  | _ => false

/-- A read of the list `key` that has been performed. -/
def isListLoaded (key : Nat) : Ready → Bool
  | .list (.getDraft key' _) => key' = key
  | .list (.getMembers key' _) => key' = key
  | _ => false

/-- A served request is a read of the list when it was one before. -/
theorem isListLoaded_serve (key : Nat) (a : Await) (d : Disk) :
    isListLoaded key (app.serve a d).2 = isListLoad key a := by
  rcases a with a | a | a | a | a <;> cases a <;> rfl

/-- The read of the screen `key` of `CREATE`. -/
def isFetch (key : Nat) : Await → Bool
  | .create (.fetchMembers key') => key' = key
  | _ => false

/-- That read, performed. -/
def isFetched (key : Nat) : Ready → Bool
  | .create (.fetchMembers key' _) => key' = key
  | _ => false

theorem isFetched_serve (key : Nat) (a : Await) (d : Disk) :
    isFetched key (app.serve a d).2 = isFetch key a := by
  rcases a with a | a | a | a | a <;> cases a <;> rfl

/-- What `TaskCreation` and the list opened over it read. -/
inductive Reads (s : State) : Await → Prop
  | fetch : Reads s (.create (.fetchMembers s.ui.focused.key))
  | draft : Reads s (.list (.getDraft s.ui.nextKey))
  | users : Reads s (.list (.getMembers s.ui.nextKey))

/-- Those reads, performed. -/
inductive ReadsDone (s : State) : Ready → Prop
  | fetch (list) : ReadsDone s (.create (.fetchMembers s.ui.focused.key list))
  | draft (list) : ReadsDone s (.list (.getDraft s.ui.nextKey list))
  | users (list) : ReadsDone s (.list (.getMembers s.ui.nextKey list))

/-- Reads leave the store as it is. -/
theorem Reads.serve {s : State} {a : Await} (h : Reads s a) (d : Disk) :
    (app.serve a d).1 = d ∧ ReadsDone s (app.serve a d).2 := by
  cases h with
  | fetch => exact ⟨rfl, .fetch _⟩
  | draft => exact ⟨rfl, .draft _⟩
  | users => exact ⟨rfl, .users _⟩

/-- No read is a Save. -/
theorem Reads.isSave_eq {s : State} {key : Nat} {a : Await} (h : Reads s a) :
    isSave key a = false := by
  cases h <;> rfl

theorem ReadsDone.isSaved_eq {s : State} {key : Nat} {r : Ready} (h : ReadsDone s r) :
    isSaved key r = false := by
  cases h <;> rfl

/-! ## The screens of a visit -/

/-- The list is over `TaskCreation`. -/
def listShowing (ui : Ui) (st : TaskCreation.State) (ls : MembersList.State) (n : Nat) : Ui where
  focused := ⟨ui.nextKey, .LIST ls⟩
  below := ⟨ui.focused.key, .CREATE st⟩ :: ui.below
  nextKey := ui.nextKey + 1
  nextCall := n

/-- The list has been left. -/
def createShowing (ui : Ui) (st : TaskCreation.State) (n : Nat) : Ui where
  focused := ⟨ui.focused.key, .CREATE st⟩
  below := ui.below
  nextKey := ui.nextKey + 1
  nextCall := n

section

variable {ui : Ui} (hFresh : Ui.Fresh ui) (st : TaskCreation.State) (ls : MembersList.State)
  (n : Nat)
include hFresh

/-- The next key is on no screen of the stack. -/
theorem Ui.Fresh.key_ne {r : Route} (hr : r ∈ ui.stack) : r.key ≠ ui.nextKey :=
  Nat.ne_of_lt (hFresh.below r hr)

theorem Ui.Fresh.focused_ne : ui.focused.key ≠ ui.nextKey := hFresh.key_ne List.mem_cons_self

theorem Ui.Fresh.below_ne {r : Route} (hr : r ∈ ui.below) : r.key ≠ ui.focused.key := by
  have hNodup := hFresh.nodup
  rw [Ui.stack, List.map_cons, List.nodup_cons] at hNodup
  exact fun hKey => hNodup.1 (hKey ▸ List.mem_map_of_mem hr)

/-- Nothing below the two screens is told anything. -/
theorem modify_below {key : Nat} (hKey : key = ui.nextKey ∨ key = ui.focused.key)
    (f : Screen → Screen) :
    ui.below.map (fun r => if r.key = key then { r with screen := f r.screen } else r) =
      ui.below := by
  have hOther : ∀ r ∈ ui.below, r.key ≠ key := by
    rcases hKey with rfl | rfl
    · exact fun r hr => hFresh.key_ne (List.mem_cons_of_mem _ hr)
    · exact fun r hr => hFresh.below_ne hr
  rw [List.map_congr_left fun r hr => if_neg (hOther r hr), List.map_id']

/-- An update of the list under the focus changes its state. -/
theorem modify_listShowing (f : MembersList.State → MembersList.State) :
    (listShowing ui st ls n).modify ui.nextKey (Screen.onList f) =
      listShowing ui st (f ls) n := by
  have hTop : Screen.onList f (.LIST ls) = .LIST (f ls) := rfl
  simp [Ui.modify, listShowing, hTop, hFresh.focused_ne, modify_below hFresh (Or.inl rfl)]

/-- An update of `TaskCreation` reaches it under the list. -/
theorem modify_under_list (f : TaskCreation.State → TaskCreation.State) :
    (listShowing ui st ls n).modify ui.focused.key (Screen.onCreate f) =
      listShowing ui (f st) ls n := by
  have hTop : Screen.onCreate f (.CREATE st) = .CREATE (f st) := rfl
  simp [Ui.modify, listShowing, hTop, hFresh.focused_ne.symm, modify_below hFresh (Or.inr rfl)]

theorem modify_createShowing (f : TaskCreation.State → TaskCreation.State) :
    (createShowing ui st n).modify ui.focused.key (Screen.onCreate f) =
      createShowing ui (f st) n := by
  have hTop : Screen.onCreate f (.CREATE st) = .CREATE (f st) := rfl
  simp [Ui.modify, createShowing, hTop, modify_below hFresh (Or.inr rfl)]

/-- An update of a list that is gone changes nothing. -/
theorem modify_list_gone (f : Screen → Screen) :
    (createShowing ui st n).modify ui.nextKey f = createShowing ui st n := by
  simp [Ui.modify, createShowing, hFresh.focused_ne, modify_below hFresh (Or.inl rfl)]

end

/-- Leaving the list gives the focus back to `TaskCreation`, which is to fetch. -/
theorem goBack_listShowing (ui : Ui) (st : TaskCreation.State) (ls : MembersList.State) (n : Nat) :
    moved (listShowing ui st ls n) (some .goBack) =
      (createShowing ui st n, [.create (.fetchMembers ui.focused.key)]) := rfl

/-! ## What the answers do -/

/-- `TaskCreation` after an answer: its own fetch sets the list it shows. -/
def fetched (r : Ready) (st : TaskCreation.State) : TaskCreation.State :=
  match r with
  | .create (.fetchMembers _ list) =>
      { st with membersList := TaskCreation.requiredMembers list }
  | _ => st

/-- A fetch leaves the form of `TaskCreation`. -/
theorem sameForm_fetched (r : Ready) (st : TaskCreation.State) : SameForm st (fetched r st) := by
  unfold fetched
  split
  · exact ⟨rfl, rfl, rfl, rfl⟩
  · exact .refl st

section

variable {s : State} (hFresh : Ui.Fresh s.ui) (st : TaskCreation.State)
  (ls : MembersList.State) (n : Nat) (list : Option (List Member))
include hFresh

/-- A fetch reports to `TaskCreation` while the list is over it. -/
theorem resume_fetch_under :
    app.resume (.create (.fetchMembers s.ui.focused.key list)) (listShowing s.ui st ls n) =
      (listShowing s.ui { st with membersList := TaskCreation.requiredMembers list } ls n,
        {}) := by
  rw [resume_fetchMembers, perform_eq]
  exact Prod.ext (modify_under_list hFresh st ls n _) rfl

theorem resume_fetch :
    app.resume (.create (.fetchMembers s.ui.focused.key list)) (createShowing s.ui st n) =
      (createShowing s.ui { st with membersList := TaskCreation.requiredMembers list } n,
        {}) := by
  rw [resume_fetchMembers, perform_eq]
  exact Prod.ext (modify_createShowing hFresh st n _) rfl

/-- The report of a Save goes back, and `TaskCreation` fetches again. -/
theorem resume_saved :
    app.resume (.list (.handleSubmit s.ui.nextKey)) (listShowing s.ui st ls n) =
      (createShowing s.ui st n, { effects := [.create (.fetchMembers s.ui.focused.key)] }) := by
  have hEff : (MembersList.Ready.handleSubmit s.ui.nextKey).resume =
      { navigate := some .goBack } := rfl
  rw [resume_list, perform_eq, hEff, goBack_listShowing]
  exact Prod.ext (modify_list_gone hFresh st n _) rfl

/-- Without a draft, the load of the list goes on to the member accounts. -/
theorem resume_getDraft_empty (hEmpty : list.getD [] = []) :
    app.resume (.list (.getDraft s.ui.nextKey list)) (listShowing s.ui st ls n) =
      (listShowing s.ui st ls n, { requests := [.list (.getMembers s.ui.nextKey)] }) := by
  have hEff : (MembersList.Ready.getDraft s.ui.nextKey list).resume =
      { requests := [.getMembers s.ui.nextKey] } := by
    rcases list with _ | _ | ⟨m, ms⟩
    · rfl
    · rfl
    · simp at hEmpty
  rw [resume_list, perform_eq, hEff]
  exact Prod.ext (modify_listShowing hFresh st ls n _) rfl

/-- A list that finds a draft shows it. -/
theorem resume_getDraft (m : Member) (ms : List Member) :
    app.resume (.list (.getDraft s.ui.nextKey (some (m :: ms)))) (listShowing s.ui st ls n) =
      (listShowing s.ui st (ls.setFresh (m :: ms)) n, {}) := by
  have hList : ((m :: ms).map MembersList.Item.ofMember).map MembersList.withDefaults =
      m :: ms := by
    have hSame : MembersList.withDefaults ∘ MembersList.Item.ofMember = id := rfl
    rw [List.map_map, hSame, List.map_id]
  have hEff : (MembersList.Ready.getDraft s.ui.nextKey (some (m :: ms))).resume =
      MembersList.finish ((m :: ms).map MembersList.Item.ofMember) := rfl
  rw [resume_list, perform_eq, hEff, MembersList.finish, hList]
  exact Prod.ext (modify_listShowing hFresh st ls n _) rfl

/-- Without a draft the list shows the members, none of them selected. -/
theorem resume_getMembers (users : Option (List Account)) :
    app.resume (.list (.getMembers s.ui.nextKey users)) (listShowing s.ui st ls n) =
      (listShowing s.ui st (ls.setFresh ((users.getD []).map MembersList.unselected)) n, {}) := by
  have hList : ((users.getD []).map MembersList.Item.ofAccount).map MembersList.withDefaults =
      (users.getD []).map MembersList.unselected := by
    have hSame : MembersList.withDefaults ∘ MembersList.Item.ofAccount =
        MembersList.unselected := rfl
    rw [List.map_map, hSame]
  have hEff : (MembersList.Ready.getMembers s.ui.nextKey users).resume =
      MembersList.finish ((users.getD []).map MembersList.Item.ofAccount) := rfl
  rw [resume_list, perform_eq, hEff, MembersList.finish, hList]
  exact Prod.ext (modify_listShowing hFresh st ls n _) rfl

/-- A read that is reported under the list changes one of the two screens. -/
theorem ReadsDone.under_list {r : Ready} (h : ReadsDone s r) :
    ∃ ls', (app.resume r (listShowing s.ui st ls n)).1 =
      listShowing s.ui (fetched r st) ls' n := by
  cases h with
  | fetch list => exact ⟨ls, congrArg Prod.fst (resume_fetch_under hFresh st ls n list)⟩
  | draft list =>
      rcases list with _ | _ | ⟨m, ms⟩
      · exact ⟨ls, congrArg Prod.fst (resume_getDraft_empty hFresh st ls n none rfl)⟩
      · exact ⟨ls, congrArg Prod.fst (resume_getDraft_empty hFresh st ls n (some []) rfl)⟩
      · exact ⟨_, congrArg Prod.fst (resume_getDraft hFresh st ls n m ms)⟩
  | users users => exact ⟨_, congrArg Prod.fst (resume_getMembers hFresh st ls n users)⟩

/-- After the list has been left, `TaskCreation` alone changes. -/
theorem ReadsDone.on_create {r : Ready} (h : ReadsDone s r) :
    (app.resume r (createShowing s.ui st n)).1 = createShowing s.ui (fetched r st) n := by
  have hList : ∀ r : MembersList.Ready, r.key = s.ui.nextKey → r.resume.navigate = none →
      (app.resume (.list r) (createShowing s.ui st n)).1 = createShowing s.ui st n := by
    intro r hKey hStays
    rw [resume_list, perform_eq, hStays, hKey]
    exact modify_list_gone hFresh st n _
  cases h with
  | fetch list => exact congrArg Prod.fst (resume_fetch hFresh st n list)
  | draft list => rcases list with _ | _ | ⟨m, ms⟩ <;> exact hList _ rfl rfl
  | users users => exact hList _ rfl rfl

end

/-- A read issues nothing when it is reported, or the read of the accounts. -/
theorem ReadsDone.issued {s : State} {r : Ready} (h : ReadsDone s r) (ui : Ui) :
    (app.resume r ui).2.effects = [] ∧
      ∀ a ∈ (app.resume r ui).2.requests, a = .list (.getMembers s.ui.nextKey) ∧
        isListLoaded s.ui.nextKey r = true := by
  cases h with
  | fetch list => exact ⟨rfl, fun a ha => nomatch ha⟩
  | draft list =>
      have hOwn : isListLoaded s.ui.nextKey (.list (.getDraft s.ui.nextKey list)) = true := by
        simp [isListLoaded]
      rcases list with _ | _ | ⟨m, ms⟩
      · exact ⟨rfl, fun a ha => ⟨List.mem_singleton.mp ha, hOwn⟩⟩
      · exact ⟨rfl, fun a ha => ⟨List.mem_singleton.mp ha, hOwn⟩⟩
      · exact ⟨rfl, fun a ha => nomatch ha⟩
  | users users => exact ⟨rfl, fun a ha => nomatch ha⟩

/-! ## The load of the list -/

/-- `TaskCreation` is focused, and nothing is outstanding but its own fetches. -/
structure AtCreate (s : State) (st : TaskCreation.State) : Prop where
  screen : s.ui.focused.screen = .CREATE st
  alone : .LIST ∉ s.ui.names
  fresh : Ui.Fresh s.ui
  awaits : ∀ a ∈ s.effects ++ s.pending, a = .create (.fetchMembers s.ui.focused.key)
  served : ∀ r ∈ s.served, ∃ list, r = .create (.fetchMembers s.ui.focused.key list)

/-- The list has the focus, with the state `ls`. -/
structure OnList (s : State) (st : TaskCreation.State) (ls : MembersList.State) (m : State) :
    Prop where
  ui : ∃ st' n, SameForm st st' ∧ m.ui = listShowing s.ui st' ls n
  disk : m.disk = s.disk
  awaits : ∀ a ∈ m.effects ++ m.pending, Reads s a
  served : ∀ r ∈ m.served, ReadsDone s r

/-- The reads of the list's load that have not been reported. -/
def listReads (s m : State) : Nat :=
  m.outstanding (isListLoad s.ui.nextKey) (isListLoaded s.ui.nextKey)

/-- The records that the load of the list settles on. -/
def listLoaded (d : Disk) : List Member :=
  match d.tempMembers.getD [] with
  | [] => (d.userMember.getD []).map MembersList.unselected
  | m :: ms => m :: ms

/-- What is read while the list loads: the accounts only without a draft. -/
inductive Loads (s : State) : Await → Prop
  | fetch : Loads s (.create (.fetchMembers s.ui.focused.key))
  | draft : Loads s (.list (.getDraft s.ui.nextKey))
  | users (hEmpty : s.disk.tempMembers.getD [] = []) : Loads s (.list (.getMembers s.ui.nextKey))

/-- Those reads, performed on the store as it is. -/
inductive LoadsDone (s : State) : Ready → Prop
  | fetch (list) : LoadsDone s (.create (.fetchMembers s.ui.focused.key list))
  | draft : LoadsDone s (.list (.getDraft s.ui.nextKey s.disk.tempMembers))
  | users (hEmpty : s.disk.tempMembers.getD [] = []) :
      LoadsDone s (.list (.getMembers s.ui.nextKey s.disk.userMember))

/-- The loads leave the store as it is, and report what is in it. -/
theorem Loads.serve {s : State} {a : Await} (h : Loads s a) :
    (app.serve a s.disk).1 = s.disk ∧ LoadsDone s (app.serve a s.disk).2 := by
  cases h with
  | fetch => exact ⟨rfl, .fetch _⟩
  | draft => exact ⟨rfl, .draft⟩
  | users hEmpty => exact ⟨rfl, .users hEmpty⟩

/-- The list is loading, or shows what it has loaded. -/
structure Loading (s : State) (st : TaskCreation.State) (ls : MembersList.State) (m : State) :
    Prop where
  ui : ∃ st' n, SameForm st st' ∧ m.ui = listShowing s.ui st' ls n
  disk : m.disk = s.disk
  awaits : ∀ a ∈ m.effects ++ m.pending, Loads s a
  served : ∀ r ∈ m.served, LoadsDone s r
  list : (listReads s m = 1 ∧ ls = {}) ∨
    (listReads s m = 0 ∧ ls = ({} : MembersList.State).setFresh (listLoaded s.disk))

/-- A list that loads has the focus. -/
theorem Loading.onList {s m : State} {st : TaskCreation.State} {ls : MembersList.State}
    (h : Loading s st ls m) : OnList s st ls m where
  ui := h.ui
  disk := h.disk
  awaits a ha := by
    cases h.awaits a ha with
    | fetch => exact .fetch
    | draft => exact .draft
    | users _ => exact .users
  served r hr := by
    cases h.served r hr with
    | fetch list => exact .fetch list
    | draft => exact .draft _
    | users _ => exact .users _

section

variable {s m m' : State} {st : TaskCreation.State} {ls : MembersList.State}

/-- An answer while the list loads, with what it issues. -/
theorem Loading.answered (h : Loading s st ls m) {i : Nat} {r : Ready}
    (hAt : m.served[i]? = some r) {st' : TaskCreation.State} {ls' : MembersList.State} {n : Nat}
    {requests : List Await} (hForm : SameForm st st')
    (hResume : app.resume r m.ui = (listShowing s.ui st' ls' n, { requests := requests }))
    (hRequests : ∀ a ∈ requests, Loads s a)
    (hList : ∀ k, k + (if isListLoaded s.ui.nextKey r then 1 else 0) =
        listReads s m + requests.countP (isListLoad s.ui.nextKey) →
      (k = 1 ∧ ls' = {}) ∨ (k = 0 ∧ ls' = ({} : MembersList.State).setFresh (listLoaded s.disk))) :
    Loading s st ls'
      ({ m with served := m.served.eraseIdx i }.issue (app.resume r m.ui)) := by
  have hCount := Program.outstanding_resolve (p := isListLoad s.ui.nextKey)
    (q := isListLoaded s.ui.nextKey) hAt (app.resume r m.ui)
  rw [hResume] at hCount ⊢
  refine ⟨⟨st', n, hForm, rfl⟩, h.disk, fun a ha => ?_,
    fun q hq => h.served q (List.mem_of_mem_eraseIdx hq), hList _ ?_⟩
  · simp only [State.issue, List.append_nil, ← List.append_assoc] at ha
    rcases List.mem_append.mp ha with hOld | hNew
    · exact h.awaits a hOld
    · exact hRequests a hNew
  · simpa [listReads] using hCount

/-- A read of the list's load is reported before the list shows anything. -/
theorem Loading.blank (h : Loading s st ls m) {i : Nat} {r : Ready}
    (hAt : m.served[i]? = some r) (hOwn : isListLoaded s.ui.nextKey r = true) :
    listReads s m = 1 ∧ ls = {} := by
  refine h.list.resolve_right fun hDone => ?_
  have hNone := (Program.outstanding_eq_zero_iff.mp hDone.1).2 r (List.mem_of_getElem? hAt)
  rw [hOwn] at hNone
  exact Bool.noConfusion hNone

/-- A report takes the load further or ends it, or is of the fetch under the list. -/
theorem Loading.resolve (h : Loading s st ls m) (hFresh : Ui.Fresh s.ui) {i : Nat} {r : Ready}
    (hAt : m.served[i]? = some r) :
    ∃ ls', Loading s st ls'
      ({ m with served := m.served.eraseIdx i }.issue (app.resume r m.ui)) := by
  obtain ⟨st', n, hForm, hUi⟩ := h.ui
  cases h.served r (List.mem_of_getElem? hAt) with
  | fetch list =>
      have hResume := resume_fetch_under hFresh st' ls n list
      rw [← hUi] at hResume
      have hForm' : SameForm st { st' with membersList := TaskCreation.requiredMembers list } :=
        ⟨hForm.name, hForm.desc, hForm.createdDate, hForm.endDate⟩
      refine ⟨ls, h.answered hAt hForm' hResume (by simp) fun k hk => ?_⟩
      have hSame : k = listReads s m := hk
      rw [hSame]
      exact h.list
  | draft =>
      obtain ⟨hOne, rfl⟩ := h.blank hAt (by simp [isListLoaded])
      by_cases hEmpty : s.disk.tempMembers.getD [] = []
      · have hResume : app.resume (.list (.getDraft s.ui.nextKey s.disk.tempMembers)) m.ui =
            (listShowing s.ui st' {} n, { requests := [.list (.getMembers s.ui.nextKey)] }) := by
          rw [hUi]
          exact resume_getDraft_empty hFresh st' {} n _ hEmpty
        refine ⟨{}, h.answered hAt hForm hResume (by simp [Loads.users hEmpty])
          fun k hk => Or.inl ⟨?_, rfl⟩⟩
        simp [isListLoaded, isListLoad, hOne] at hk
        exact hk
      · obtain ⟨u, us, hDraft⟩ : ∃ u us, s.disk.tempMembers = some (u :: us) := by
          rcases hDraft : s.disk.tempMembers with _ | _ | ⟨u, us⟩
          · simp [hDraft] at hEmpty
          · simp [hDraft] at hEmpty
          · exact ⟨u, us, rfl⟩
        have hLoaded : listLoaded s.disk = u :: us := by simp [listLoaded, hDraft]
        have hResume := resume_getDraft hFresh st' {} n u us
        rw [← hUi, ← hDraft, ← hLoaded] at hResume
        refine ⟨_, h.answered hAt hForm hResume (by simp) fun k hk => Or.inr ⟨?_, rfl⟩⟩
        simp [isListLoaded, hOne] at hk
        exact hk
  | users hEmpty =>
      obtain ⟨hOne, rfl⟩ := h.blank hAt (by simp [isListLoaded])
      have hLoaded : listLoaded s.disk =
          (s.disk.userMember.getD []).map MembersList.unselected := by simp [listLoaded, hEmpty]
      have hResume := resume_getMembers hFresh st' {} n s.disk.userMember
      rw [← hUi, ← hLoaded] at hResume
      refine ⟨_, h.answered hAt hForm hResume (by simp) fun k hk => Or.inr ⟨?_, rfl⟩⟩
      simp [isListLoaded, hOne] at hk
      exact hk

/-- A list that loads goes on loading, or shows what it has loaded. -/
theorem Loading.advance (h : Loading s st ls m) (hFresh : Ui.Fresh s.ui) (hx : Advance m m') :
    ∃ ls', Loading s st ls' m' := by
  cases hx with
  | effect hAt =>
      refine ⟨ls, h.ui, h.disk, fun b hb => h.awaits b ((Program.mem_effect hAt b).mp hb),
        h.served, ?_⟩
      rw [listReads, Program.outstanding_effect hAt]
      exact h.list
  | @serve i a hAt =>
      have hLoad := h.awaits a (List.mem_append_right _ (List.mem_of_getElem? hAt))
      obtain ⟨hDisk, hDone⟩ := hLoad.serve
      rw [← h.disk] at hDisk hDone
      refine ⟨ls, h.ui, hDisk.trans h.disk, fun b hb => h.awaits b (Program.mem_erase_pending hb),
        forall_mem_snoc h.served hDone, ?_⟩
      rw [listReads, Program.outstanding_serve (P := app) (isListLoaded_serve _) hAt]
      exact h.list
  | resolve hAt => exact h.resolve hFresh hAt

/-- Opening the list starts its load. -/
theorem loading_opened (h : AtCreate s st) (hOpen : app.Step s (.user (.create .addMembers)) m) :
    Loading s st {} m := by
  have hFocus : s.ui.focused = ⟨s.ui.focused.key, .CREATE st⟩ := by rw [← h.screen]
  rw [list_opened h.screen h.alone hOpen]
  refine ⟨⟨st, s.ui.nextCall + 1, .refl st, ?_⟩, rfl, fun a ha => ?_, fun r hr => ?_,
    Or.inl ⟨?_, rfl⟩⟩
  · simp only [listOver, listShowing, counted, Ui.stack]
    rw [← hFocus]
  · simp only [List.append_assoc, List.mem_append, List.mem_singleton] at ha
    have hFetch : ∀ b ∈ s.effects ++ s.pending, Loads s b := fun b hb => by
      rw [h.awaits b hb]
      exact .fetch
    rcases ha with hOld | rfl | hOld
    · exact hFetch a (List.mem_append_left _ hOld)
    · exact .draft
    · exact hFetch a (List.mem_append_right _ hOld)
  · obtain ⟨list, rfl⟩ := h.served r hr
    exact .fetch list
  · have hNone : s.outstanding (isListLoad s.ui.nextKey) (isListLoaded s.ui.nextKey) = 0 := by
      refine Program.outstanding_eq_zero_iff.mpr ⟨fun a ha => ?_, fun r hr => ?_⟩
      · rw [h.awaits a ha]
        rfl
      · obtain ⟨list, rfl⟩ := h.served r hr
        rfl
    have hNew : [Await.list (.getDraft s.ui.nextKey)].countP (isListLoad s.ui.nextKey) = 1 := by
      simp [isListLoad]
    simp only [State.outstanding, State.inFlight] at hNone
    simp only [listReads, State.outstanding, State.inFlight, List.countP_append, hNew]
    omega

end

/-! ## Reads that are left over -/

/-- The fetches of `TaskCreation` that have not been reported. -/
def fetches (s t : State) : Nat :=
  t.outstanding (isFetch s.ui.focused.key) (isFetched s.ui.focused.key)

section

variable {s t t' : State} {st : TaskCreation.State} {ls : MembersList.State}

/-- Of the reads, none issues a fetch. -/
theorem ReadsDone.fetches_le {i : Nat} {r : Ready} (h : ReadsDone s r)
    (hAt : t.served[i]? = some r) :
    fetches s ({ t with served := t.served.eraseIdx i }.issue (app.resume r t.ui)) ≤
      fetches s t := by
  obtain ⟨hEffects, hRequests⟩ := h.issued t.ui
  have hNone : (app.resume r t.ui).2.requests.countP (isFetch s.ui.focused.key) = 0 := by
    rw [List.countP_eq_zero]
    intro a ha
    rw [(hRequests a ha).1]
    exact Bool.false_ne_true
  have hCount := Program.outstanding_resolve (p := isFetch s.ui.focused.key)
    (q := isFetched s.ui.focused.key) hAt (app.resume r t.ui)
  rw [hEffects, hNone, List.countP_nil] at hCount
  rw [fetches, fetches]
  omega

/-- Under the list no fetch of `TaskCreation` is issued. -/
theorem OnList.fetches_le (h : OnList s st ls t) (hx : Advance t t') :
    fetches s t' ≤ fetches s t := by
  cases hx with
  | effect hAt => exact Nat.le_of_eq (Program.outstanding_effect hAt)
  | serve hAt =>
      exact Nat.le_of_eq (Program.outstanding_serve (P := app) (isFetched_serve _) hAt)
  | resolve hAt => exact (h.served _ (List.mem_of_getElem? hAt)).fetches_le hAt

/-- Once the load of the list is done, nothing starts it again. -/
theorem listReads_advance (hDone : listReads s t = 0)
    (hServed : ∀ r ∈ t.served, ReadsDone s r ∨
      (app.resume r t.ui).2 = { effects := [.create (.fetchMembers s.ui.focused.key)] })
    (hx : Advance t t') : listReads s t' = 0 := by
  cases hx with
  | effect hAt => rw [listReads, Program.outstanding_effect hAt, ← listReads, hDone]
  | serve hAt =>
      rw [listReads, Program.outstanding_serve (P := app) (isListLoaded_serve _) hAt,
        ← listReads, hDone]
  | @resolve i r hAt =>
      have hMem := List.mem_of_getElem? hAt
      have hOther := (Program.outstanding_eq_zero_iff.mp hDone).2 r hMem
      have hNew : (app.resume r t.ui).2.effects.countP (isListLoad s.ui.nextKey) = 0 ∧
          (app.resume r t.ui).2.requests = [] := by
        rcases hServed r hMem with hRead | hBack
        · obtain ⟨hEffects, hRequests⟩ := hRead.issued t.ui
          refine ⟨by rw [hEffects, List.countP_nil], List.eq_nil_iff_forall_not_mem.mpr ?_⟩
          intro a ha
          rw [(hRequests a ha).2] at hOther
          exact Bool.noConfusion hOther
        · rw [hBack]
          exact ⟨rfl, rfl⟩
      have hCount := Program.outstanding_resolve (p := isListLoad s.ui.nextKey)
        (q := isListLoaded s.ui.nextKey) hAt (app.resume r t.ui)
      rw [hNew.1, hNew.2, List.countP_nil] at hCount
      rw [listReads] at hDone ⊢
      omega

end

/-! ## Saving, and back -/

/-- The Save of `list` has been pressed and has not gone back yet. -/
structure Saving (s : State) (st : TaskCreation.State) (list : List Member) (t : State) :
    Prop where
  ui : ∃ st' ls n, SameForm st st' ∧ t.ui = listShowing s.ui st' ls n
  effects : ∀ a ∈ t.effects, Reads s a
  pending : ∀ a ∈ t.pending, Reads s a ∨ a = .list (.handleSubmit s.ui.nextKey list)
  served : ∀ r ∈ t.served, ReadsDone s r ∨
    (r = .list (.handleSubmit s.ui.nextKey) ∧ t.disk.tempMembers = some list)
  disk : ∃ draft, t.disk = { s.disk with tempMembers := draft }
  one : t.inFlight (isSave s.ui.nextKey) (isSaved s.ui.nextKey) = 1

/-- `TaskCreation` has the focus again. -/
structure Back (s : State) (st : TaskCreation.State) (draft : Option (List Member))
    (t : State) : Prop where
  ui : ∃ st' n, SameForm st st' ∧ t.ui = createShowing s.ui st' n
  awaits : ∀ a ∈ t.effects ++ t.pending, Reads s a
  served : ∀ r ∈ t.served, ReadsDone s r
  disk : t.disk = { s.disk with tempMembers := draft }

section

variable {s t t' : State} {st : TaskCreation.State} {ls : MembersList.State}
  {list : List Member} {draft : Option (List Member)}

theorem OnList.focused (h : OnList s st ls t) : t.ui.focused = ⟨s.ui.nextKey, .LIST ls⟩ := by
  obtain ⟨st', n, -, hUi⟩ := h.ui
  rw [hUi]
  rfl

/-- No read of the focused list's load is outstanding. -/
def LoadDone (m : State) : Prop :=
  (∀ a ∈ m.effects ++ m.pending, isListLoad m.ui.focused.key a = false) ∧
    ∀ r ∈ m.served, isListLoaded m.ui.focused.key r = false

/-- A load is done when none of its reads is outstanding. -/
theorem loadDone_iff {s m : State} {st : TaskCreation.State} {ls : MembersList.State}
    (h : OnList s st ls m) : LoadDone m ↔ listReads s m = 0 := by
  rw [LoadDone, h.focused, listReads, Program.outstanding_eq_zero_iff]

/-- Once it has loaded, the list changes by its user's hands only. -/
theorem OnList.advance (h : OnList s st ls t) (hFresh : Ui.Fresh s.ui)
    (hDone : listReads s t = 0) (hx : Advance t t') :
    OnList s st ls t' ∧ listReads s t' = 0 := by
  refine ⟨?_, listReads_advance hDone (fun r hr => Or.inl (h.served r hr)) hx⟩
  cases hx with
  | effect hAt =>
      exact ⟨h.ui, h.disk, fun b hb => h.awaits b ((Program.mem_effect hAt b).mp hb), h.served⟩
  | @serve i a hAt =>
      obtain ⟨hSame, hRead⟩ :=
        (h.awaits a (List.mem_append_right _ (List.mem_of_getElem? hAt))).serve t.disk
      exact ⟨h.ui, hSame.trans h.disk, fun b hb => h.awaits b (Program.mem_erase_pending hb),
        forall_mem_snoc h.served hRead⟩
  | @resolve i r hAt =>
      obtain ⟨st', n, hForm, hUi⟩ := h.ui
      have hMem := List.mem_of_getElem? hAt
      have hOther := (Program.outstanding_eq_zero_iff.mp hDone).2 r hMem
      have hOut : app.resume r t.ui = (listShowing s.ui (fetched r st') ls n, {}) := by
        rw [hUi]
        cases h.served r hMem with
        | fetch list => exact resume_fetch_under hFresh st' ls n list
        | draft list => simp [isListLoaded] at hOther
        | users list => simp [isListLoaded] at hOther
      rw [hOut]
      refine ⟨⟨_, n, hForm.trans (sameForm_fetched r st'), rfl⟩, h.disk, ?_,
        fun q hq => h.served q (List.mem_of_mem_eraseIdx hq)⟩
      simpa [State.issue] using h.awaits

/-- The press of Save issues its request, and nothing else happens. -/
theorem OnList.begun (h : OnList s st ls t)
    (hPress : app.Step t (.user (.list .handleSubmit)) t') :
    t' = begun t (.list (.handleSubmit s.ui.nextKey ls.shown)) := by
  have hPressed : Pressed t.ui (.list .handleSubmit)
      (.list (.handleSubmit t.ui.focused.key ls.shown)) := .save (by rw [h.focused])
  have hHandle := handle_of_pressed hPressed (by simp)
  rw [hPress.user_eq hHandle, h.focused]
  rfl

/-- The press of Save issues one write, of what the list shows. -/
theorem OnList.save (h : OnList s st ls t)
    (hPress : app.Step t (.user (.list .handleSubmit)) t') : Saving s st ls.shown t' := by
  obtain ⟨st', n, hForm, hUi⟩ := h.ui
  rw [h.begun hPress]
  refine ⟨⟨st', ls, n + 1, hForm, ?_⟩, fun a ha => ?_, fun a ha => ?_,
    fun r hr => Or.inl (h.served r hr), ⟨s.disk.tempMembers, h.disk⟩, ?_⟩
  · simp [App.begun, State.issue, hUi, counted, listShowing]
  · rw [App.begun, State.issue, List.append_nil] at ha
    exact h.awaits a (List.mem_append_left _ ha)
  · rcases List.mem_append.mp ha with hOld | hNew
    · exact Or.inl (h.awaits a (List.mem_append_right _ hOld))
    · exact Or.inr (List.mem_singleton.mp hNew)
  · have hNone : t.inFlight (isSave s.ui.nextKey) (isSaved s.ui.nextKey) = 0 :=
      Program.inFlight_eq_zero_iff.mpr
        ⟨fun a ha => (h.awaits a (List.mem_append_right _ ha)).isSave_eq,
          fun r hr => (h.served r hr).isSaved_eq⟩
    rw [App.begun, Program.inFlight_issue, hNone]
    simp [isSave]

/-- A Save is no read. -/
theorem OnList.save_reads (h : OnList s st ls t)
    (hPress : app.Step t (.user (.list .handleSubmit)) t') :
    fetches s t' = fetches s t ∧ listReads s t' = listReads s t := by
  rw [h.begun hPress, App.begun, fetches, fetches, listReads, listReads]
  exact ⟨Program.outstanding_issue _, Program.outstanding_issue _⟩

/-- A Save that is under way stays so, until its report goes back to `TaskCreation`. -/
theorem Saving.advance (h : Saving s st list t) (hFresh : Ui.Fresh s.ui) (hx : Advance t t') :
    (Saving s st list t' ∧ fetches s t' ≤ fetches s t) ∨
      (Back s st (some list) t' ∧ .create (.fetchMembers s.ui.focused.key) ∈ t'.effects ∧
        t'.served ⊆ t.served) := by
  obtain ⟨st', ls, n, hForm, hUi⟩ := h.ui
  obtain ⟨draft, hDisk⟩ := h.disk
  cases hx with
  | @effect i a hAt =>
      left
      have hRead := h.effects a (List.mem_of_getElem? hAt)
      refine ⟨⟨h.ui, fun b hb => h.effects b (List.mem_of_mem_eraseIdx hb),
        forall_mem_snoc h.pending (Or.inl hRead), h.served, h.disk, ?_⟩,
        Nat.le_of_eq (Program.outstanding_effect hAt)⟩
      rw [Program.inFlight_effect, hRead.isSave_eq]
      exact h.one
  | @serve i a hAt =>
      left
      have hOne := h.one
      rw [← Program.inFlight_serve (P := app) (isSaved_serve s.ui.nextKey) hAt] at hOne
      have hPending : ∀ b ∈ t.pending.eraseIdx i,
          Reads s b ∨ b = .list (.handleSubmit s.ui.nextKey list) :=
        fun b hb => h.pending b (List.mem_of_mem_eraseIdx hb)
      refine ⟨?_, Nat.le_of_eq (Program.outstanding_serve (P := app) (isFetched_serve _) hAt)⟩
      rcases h.pending a (List.mem_of_getElem? hAt) with hRead | rfl
      · obtain ⟨hSame, hDone⟩ := hRead.serve t.disk
        refine ⟨h.ui, h.effects, hPending, ?_, ?_, hOne⟩
        · rw [hSame]
          exact forall_mem_snoc h.served (Or.inl hDone)
        · rw [hSame]
          exact h.disk
      · refine ⟨h.ui, h.effects, hPending, ?_, ⟨some list, by rw [hDisk]; rfl⟩, hOne⟩
        refine forall_mem_snoc (fun r hr => ?_) (Or.inr ⟨rfl, rfl⟩)
        exact (h.served r hr).imp_right fun hSaved => ⟨hSaved.1, rfl⟩
  | @resolve i r hAt =>
      have hRest := Program.inFlight_resolve (p := isSave s.ui.nextKey)
        (q := isSaved s.ui.nextKey) hAt
      rw [h.one] at hRest
      rcases h.served r (List.mem_of_getElem? hAt) with hRead | ⟨rfl, hWritten⟩
      · left
        refine ⟨?_, hRead.fetches_le hAt⟩
        obtain ⟨ls', hOut⟩ := hRead.under_list hFresh st' ls n
        obtain ⟨hEffects, hRequests⟩ := hRead.issued t.ui
        rw [← hUi] at hOut
        refine ⟨⟨_, ls', n, hForm.trans (sameForm_fetched r st'), hOut⟩, ?_, ?_,
          fun q hq => h.served q (List.mem_of_mem_eraseIdx hq), h.disk, ?_⟩
        · intro a ha
          rw [State.issue, hEffects, List.append_nil] at ha
          exact h.effects a ha
        · intro a ha
          rcases List.mem_append.mp ha with hOld | hNew
          · exact h.pending a hOld
          · rw [(hRequests a hNew).1]
            exact Or.inl .users
        · have hNone : (app.resume r t.ui).2.requests.countP (isSave s.ui.nextKey) = 0 := by
            rw [List.countP_eq_zero]
            intro a ha
            rw [(hRequests a ha).1]
            exact Bool.false_ne_true
          rw [hRead.isSaved_eq, if_neg Bool.false_ne_true, Nat.add_zero] at hRest
          rw [Program.inFlight_issue, hNone]
          exact hRest
      · right
        have hZero : State.inFlight (isSave s.ui.nextKey) (isSaved s.ui.nextKey)
            { t with served := t.served.eraseIdx i } = 0 := by
          rw [isSaved, decide_eq_true rfl, if_pos rfl] at hRest
          omega
        rw [Program.inFlight_eq_zero_iff] at hZero
        rw [hUi, resume_saved hFresh]
        refine ⟨⟨⟨st', n, hForm, rfl⟩, ?_, ?_, ?_⟩, ?_, fun q hq => List.mem_of_mem_eraseIdx hq⟩
        · intro a ha
          simp only [State.issue, List.append_nil, List.mem_append, List.mem_singleton] at ha
          rcases ha with (hOld | rfl) | hOld
          · exact h.effects a hOld
          · exact .fetch
          · refine (h.pending a hOld).resolve_right ?_
            rintro rfl
            have hNot := hZero.1 _ hOld
            simp [isSave] at hNot
        · intro r hr
          refine (h.served r (List.mem_of_mem_eraseIdx hr)).resolve_right ?_
          rintro ⟨rfl, -⟩
          have hNot := hZero.2 _ hr
          simp [isSaved] at hNot
        · show t.disk = { s.disk with tempMembers := some list }
          rw [hDisk] at hWritten ⊢
          have hDraft : draft = some list := hWritten
          rw [hDraft]
        · simp [State.issue]

/-- Back at `TaskCreation`, what proceeds are its fetches. -/
theorem Back.advance (h : Back s st draft t) (hFresh : Ui.Fresh s.ui) (hx : Advance t t') :
    Back s st draft t' := by
  cases hx with
  | effect hAt =>
      exact ⟨h.ui, fun b hb => h.awaits b ((Program.mem_effect hAt b).mp hb), h.served, h.disk⟩
  | @serve i a hAt =>
      obtain ⟨hSame, hDone⟩ :=
        (h.awaits a (List.mem_append_right _ (List.mem_of_getElem? hAt))).serve t.disk
      exact ⟨h.ui, fun b hb => h.awaits b (Program.mem_erase_pending hb),
        forall_mem_snoc h.served hDone, hSame.trans h.disk⟩
  | @resolve i r hAt =>
      obtain ⟨st', n, hForm, hUi⟩ := h.ui
      have hRead := h.served r (List.mem_of_getElem? hAt)
      have hOut := hRead.on_create hFresh st' n
      obtain ⟨hEffects, hRequests⟩ := hRead.issued t.ui
      rw [← hUi] at hOut
      refine ⟨⟨_, n, hForm.trans (sameForm_fetched r st'), hOut⟩, fun a ha => ?_,
        fun q hq => h.served q (List.mem_of_mem_eraseIdx hq), h.disk⟩
      simp only [State.issue, hEffects, List.append_nil, ← List.append_assoc] at ha
      rcases List.mem_append.mp ha with hOld | hNew
      · exact h.awaits a hOld
      · rw [(hRequests a hNew).1]
        exact .users

theorem Saving.listReads_eq (h : Saving s st list t) (hFresh : Ui.Fresh s.ui)
    (hDone : listReads s t = 0) (hx : Advance t t') : listReads s t' = 0 := by
  refine listReads_advance hDone (fun r hr => (h.served r hr).imp_right ?_) hx
  rintro ⟨rfl, -⟩
  obtain ⟨st', ls, n, -, hUi⟩ := h.ui
  rw [hUi, resume_saved hFresh]

theorem Back.listReads_eq (h : Back s st draft t) (hDone : listReads s t = 0)
    (hx : Advance t t') : listReads s t' = 0 :=
  listReads_advance hDone (fun r hr => Or.inl (h.served r hr)) hx

/-- Leaving by the arrow, or by the back action of the system. -/
theorem OnList.leave (h : OnList s st ls t) {e : Event} (he : e = .list .arrow ∨ e = .systemBack)
    (hPress : app.Step t (.user e) t') :
    Back s st s.disk.tempMembers t' ∧ listReads s t' = listReads s t := by
  obtain ⟨st', n, hForm, hUi⟩ := h.ui
  have hMoved : moved (counted t.ui) (some .goBack) =
      (createShowing s.ui st' (n + 1), [.create (.fetchMembers s.ui.focused.key)]) := by
    rw [hUi]
    exact goBack_listShowing s.ui st' ls (n + 1)
  have hHandle : app.handle e t.ui = some (createShowing s.ui st' (n + 1),
      { effects := [.create (.fetchMembers s.ui.focused.key)] }) := by
    rcases he with rfl | rfl
    · have hArrow : MembersList.handle s.ui.nextKey ls .arrow =
          some { navigate := some .goBack } := rfl
      simp only [app, App.handle, h.focused, hArrow, Option.map_some]
      rw [perform_eq, hMoved, onList_id, modify_id]
      rfl
    · show some (((counted t.ui).navigate .goBack).1,
        ({ effects := ((counted t.ui).navigate .goBack).2 } : Issued Await)) = _
      rw [show (counted t.ui).navigate .goBack = _ from hMoved]
  rw [hPress.user_eq hHandle]
  refine ⟨⟨⟨st', n + 1, hForm, rfl⟩, fun a ha => ?_, h.served, h.disk⟩, ?_⟩
  · simp only [State.issue, List.append_nil, List.mem_append, List.mem_singleton] at ha
    rcases ha with (hOld | rfl) | hOld
    · exact h.awaits a (List.mem_append_left _ hOld)
    · exact .fetch
    · exact h.awaits a (List.mem_append_right _ hOld)
  · rw [listReads, listReads, Program.outstanding_issue]
    rfl

/-- The next visit can begin. -/
theorem Back.atCreate (h : Back s st draft t) (hAt : AtCreate s st) (hDone : listReads s t = 0) :
    ∃ st', AtCreate t st' ∧ SameForm st st' ∧ t.ui.focused.key = s.ui.focused.key := by
  obtain ⟨st', n, hForm, hUi⟩ := h.ui
  rw [listReads, Program.outstanding_eq_zero_iff] at hDone
  have hNames : t.ui.names = s.ui.names := by
    rw [hUi, Ui.names, Ui.names, Ui.stack, Ui.stack, List.map_cons, List.map_cons, hAt.screen]
    rfl
  have hKeys : t.ui.stack.map Route.key = s.ui.stack.map Route.key := by
    rw [hUi]
    rfl
  have hKey : t.ui.focused.key = s.ui.focused.key := by
    rw [hUi]
    rfl
  refine ⟨st', ⟨by rw [hUi]; rfl, by rw [hNames]; exact hAt.alone, ⟨?_, ?_⟩, ?_, ?_⟩, hForm, hKey⟩
  · rw [hKeys]
    exact hAt.fresh.nodup
  · intro r hr
    have hIn : r.key ∈ s.ui.stack.map Route.key := hKeys ▸ List.mem_map_of_mem hr
    obtain ⟨old, hOld, hSame⟩ := List.mem_map.mp hIn
    have hLt := hAt.fresh.below old hOld
    rw [hUi]
    show r.key < s.ui.nextKey + 1
    omega
  · intro a ha
    have hNot := hDone.1 a ha
    rw [hKey]
    cases h.awaits a ha with
    | fetch => rfl
    | draft => simp [isListLoad] at hNot
    | users => simp [isListLoad] at hNot
  · intro r hr
    have hNot := hDone.2 r hr
    rw [hKey]
    cases h.served r hr with
    | fetch list => exact ⟨list, rfl⟩
    | draft list => simp [isListLoaded] at hNot
    | users list => simp [isListLoaded] at hNot

/-! ## Fetching the draft -/

/-- What `TaskCreation` shows is the draft, or will be, as all of its fetches bring it. -/
structure Fetching (s : State) (draft : Option (List Member)) (t : State) : Prop where
  served : ∀ list, .create (.fetchMembers s.ui.focused.key list) ∈ t.served → list = draft
  shown : .create (.fetchMembers s.ui.focused.key) ∈ t.effects ++ t.pending ∨
    .create (.fetchMembers s.ui.focused.key draft) ∈ t.served ∨
    ∃ st', t.ui.focused.screen = .CREATE st' ∧
      st'.membersList = TaskCreation.requiredMembers draft

/-- The first fetch is due, and nothing older is left. -/
theorem Fetching.due (hDue : .create (.fetchMembers s.ui.focused.key) ∈ t'.effects)
    (hServed : t'.served ⊆ t.served) (hNone : fetches s t = 0) : Fetching s draft t' where
  served list hIn := by
    have hNot := (Program.outstanding_eq_zero_iff.mp hNone).2 _ (hServed hIn)
    simp [isFetched] at hNot
  shown := Or.inl (List.mem_append_left _ hDue)

/-- The fetch that is due brings the draft, and so do all that come after it. -/
theorem Fetching.advance (h : Fetching s draft t) (hBack : Back s st draft t)
    (hFresh : Ui.Fresh s.ui) (hx : Advance t t') : Fetching s draft t' := by
  cases hx with
  | effect hAt => exact ⟨h.served, h.shown.imp_left (Program.mem_effect hAt _).mpr⟩
  | @serve i a hAt =>
      have hReply : app.serve (.create (.fetchMembers s.ui.focused.key)) t.disk =
          (t.disk, .create (.fetchMembers s.ui.focused.key draft)) := by
        rw [hBack.disk]
        rfl
      have hRead := hBack.awaits a (List.mem_append_right _ (List.mem_of_getElem? hAt))
      refine ⟨fun list hIn => ?_, ?_⟩
      · rcases List.mem_append.mp hIn with hOld | hNew
        · exact h.served list hOld
        · have hThis := List.mem_singleton.mp hNew
          cases hRead with
          | fetch =>
              rw [hReply] at hThis
              simpa using hThis
          | draft => cases hThis
          | users => cases hThis
      · by_cases hOwn : a = .create (.fetchMembers s.ui.focused.key)
        · subst hOwn
          rw [hReply]
          exact Or.inr (Or.inl (List.mem_append_right _ (List.mem_singleton.mpr rfl)))
        · rcases h.shown with hDue | hDone | hShows
          · left
            rw [List.mem_append] at hDue ⊢
            exact hDue.imp_right fun hIn => Program.mem_eraseIdx_of_ne hIn hAt (Ne.symm hOwn)
          · exact Or.inr (Or.inl (List.mem_append_left _ hDone))
          · exact Or.inr (Or.inr hShows)
  | @resolve i r hAt =>
      obtain ⟨st', n, -, hUi⟩ := hBack.ui
      have hMem := List.mem_of_getElem? hAt
      have hRead := hBack.served r hMem
      have hOut := hRead.on_create hFresh st' n
      rw [← hUi] at hOut
      refine ⟨fun list hIn => h.served list (List.mem_of_mem_eraseIdx hIn), ?_⟩
      by_cases hOwn : r = .create (.fetchMembers s.ui.focused.key draft)
      · subst hOwn
        refine Or.inr (Or.inr
          ⟨{ st' with membersList := TaskCreation.requiredMembers draft }, ?_, rfl⟩)
        show (app.resume _ t.ui).1.focused.screen = _
        rw [hOut]
        rfl
      · rcases h.shown with hDue | hDone | ⟨st₁, hScreen, hShows⟩
        · left
          simp only [State.issue, hRead.issued t.ui, List.append_nil, ← List.append_assoc]
          exact List.mem_append_left _ hDue
        · exact Or.inr (Or.inl (Program.mem_eraseIdx_of_ne hDone hAt (Ne.symm hOwn)))
        · refine Or.inr (Or.inr ⟨st₁, ?_, hShows⟩)
          have hSame : fetched r st' = st' := by
            cases hRead with
            | fetch list => exact absurd (by rw [h.served list hMem]) hOwn
            | draft list => rfl
            | users list => rfl
          show (app.resume r t.ui).1.focused.screen = _
          rw [hOut, hSame, ← hScreen, hUi]

/-- Nothing of `TaskCreation` is outstanding, and it has the focus. -/
structure Settled (t : State) (st' : TaskCreation.State) : Prop where
  screen : t.ui.focused.screen = .CREATE st'
  awaits : .create (.fetchMembers t.ui.focused.key) ∉ t.effects ++ t.pending
  served : ∀ list, .create (.fetchMembers t.ui.focused.key list) ∉ t.served

/-- With nothing outstanding `TaskCreation` shows the draft. -/
theorem Fetching.settled (h : Fetching s draft t) (hBack : Back s st draft t)
    {st' : TaskCreation.State} (hEnd : Settled t st') :
    st'.membersList = TaskCreation.requiredMembers draft := by
  have hKey : t.ui.focused.key = s.ui.focused.key := by
    obtain ⟨_, _, -, hUi⟩ := hBack.ui
    rw [hUi]
    rfl
  rcases h.shown with hDue | hDone | ⟨st₁, hScreen, hShows⟩
  · exact absurd (hKey ▸ hDue) hEnd.awaits
  · exact absurd (hKey ▸ hDone) (hEnd.served draft)
  · rw [hEnd.screen, Screen.CREATE.injEq] at hScreen
    rw [hScreen, hShows]

/-! ## Runs -/

/-- The list loads, while only callbacks, the store and its answers go on. -/
theorem loading_exec {m : State} {xs : List Action} (hAt : AtCreate s st)
    (hOpen : app.Step s (.user (.create .addMembers)) t) (hRun : app.exec t xs = some m)
    (hProceeds : ∀ x ∈ xs, Proceeds x) :
    ∃ ls, Loading s st ls m ∧ fetches s m ≤ fetches s t := by
  refine advance_exec (fun m => ∃ ls, Loading s st ls m ∧ fetches s m ≤ fetches s t) ?_
    ⟨{}, loading_opened hAt hOpen, Nat.le_refl _⟩ hRun hProceeds
  rintro m m' ⟨ls, hLoading, hFetches⟩ hx
  obtain ⟨ls', hNext⟩ := hLoading.advance hAt.fresh hx
  exact ⟨ls', hNext, Nat.le_trans (hLoading.onList.fetches_le hx) hFetches⟩

end

end TaskManager.App
