import TaskManager.Runs.ShownDraft

/-!
# A new task starts without a draft

The draft of a task lives in one entry of the store.  The arrow of
`TaskCreation` clears it; the other ways out of the screen do not, and then the
next task starts with it: `draft_leaks` leaves by the back action of the system.

`draft_does_not_leak` says that there is nothing else to it.  In the runs where
no draft is held when `TaskCreation` leaves the stack in another way than by
its arrow, and none is stored when the process is killed, every new
`TaskCreation` starts empty, and the first `MembersList` opened from it lists
the stored members as they are, unselected.
-/

namespace TaskManager.Runs

open TaskManager.Verified.JsText
open TaskManager.Verified.EventLoop
open TaskManager.Shared
open TaskManager.Pages
open TaskManager.Routes
open TaskManager.App

/-! ## The runs in question -/

/-- The draft, once everything that waits is done. -/
def heldDraft (s : State) : List Member := (app.settleDisk s).tempMembers.getD []

/-- The step takes `CREATE` off the stack. -/
def LeavesTask (p : State × Action) : Prop :=
  .CREATE ∈ p.1.ui.names ∧ ∃ s', app.Step p.1 p.2 s' ∧ .CREATE ∉ s'.ui.names

/-- No draft is left behind: none is stored when the process is killed, and none
is held when `CREATE` is left in another way than by its arrow. -/
def LeavesNoDraft (p : State × Action) : Prop :=
  match p.2 with
  | .kill => p.1.disk.tempMembers.getD [] = []
  | .user (.create .handleBack) => True
  | _ => LeavesTask p → heldDraft p.1 = []

/-- The draft that a load of the `CREATE` instance `key` has read. -/
def loadedDraft (key : Nat) : Ready → Option (List Member)
  | .create (.fetchMembers key' list) => if key' = key then some (list.getD []) else none
  | _ => none

/-- The store performs in the order of issue and refuses nothing.  It may report
in any order, but the loads of one `CREATE` in the order it has performed them. -/
def Serves (p : State × Action) : Prop :=
  match p.2 with
  | .serve i => i = 0
  | .reject _ => False
  | .resolve i =>
      match p.1.served[i]? with
      | some (.create (.fetchMembers key _)) =>
          ∀ r ∈ p.1.served.take i, loadedDraft key r = none
      | _ => True
  | _ => True

/-- Mount and focus callbacks run before the next user event. -/
def Prompt (p : State × Action) : Prop :=
  match p.2 with
  | .user _ => p.1.effects = []
  | _ => True

/-- The steps of the runs in question. -/
structure Tidy (p : State × Action) : Prop where
  serves : Serves p
  prompt : Prompt p
  leaves : LeavesNoDraft p

instance (p : State × Action) : Decidable (LeavesTask p) :=
  decidable_of_iff (.CREATE ∈ p.1.ui.names ∧
      ((app.step p.1 p.2).any fun s' => .CREATE ∉ s'.ui.names) = true) (by
    simp only [LeavesTask, Option.any_eq_true, decide_eq_true_eq, app.step_iff])

instance (p : State × Action) : Decidable (LeavesNoDraft p) := by
  unfold LeavesNoDraft
  split <;> infer_instance

instance (p : State × Action) : Decidable (Serves p) := by
  unfold Serves
  split
  · infer_instance
  · infer_instance
  · split <;> infer_instance
  · infer_instance

instance (p : State × Action) : Decidable (Prompt p) := by
  unfold Prompt
  split <;> infer_instance

instance (p : State × Action) : Decidable (Tidy p) :=
  decidable_of_iff (Serves p ∧ Prompt p ∧ LeavesNoDraft p)
    ⟨fun h => ⟨h.1, h.2.1, h.2.2⟩, fun h => ⟨h.serves, h.prompt, h.leaves⟩⟩

theorem Serves.queued {p : State × Action} (h : Serves p) : p.2.Queued := by
  obtain ⟨s, x⟩ := p
  cases x with
  | serve i => exact h
  | reject i => exact absurd h id
  | user e => trivial
  | effect i => trivial
  | resolve i => trivial
  | kill => trivial

/-! ## The property -/

/-- The step mounts a screen, the instance `key`. -/
def Mounts (p : State × Action) (name : RouteName) (key : Nat) : Prop :=
  key = p.1.ui.nextKey ∧ ∃ s', app.Step p.1 p.2 s' ∧ (key, name) ∈ labels s'.ui

/-- The step runs the continuation `r`. -/
def Finishes (p : State × Action) (r : Ready) : Prop :=
  ∃ i, p.2 = .resolve i ∧ p.1.served[i]? = some r

/-- The step reads the member accounts, `data`, for the instance `key`. -/
def ReadsMembers (p : State × Action) (key : Nat) (data : Option (List Account)) : Prop :=
  ∃ i, p.2 = .serve i ∧ p.1.pending[i]? = some (.list (.getMembers key)) ∧
    p.1.disk.userMember = data

/-- The list of the `CREATE` instance `key`, if it is still mounted. -/
def ShowsMembers (s : State) (key : Nat) (list : List Member) : Prop :=
  ∀ r ∈ s.ui.stack, r.key = key → ∀ st, r.screen = .CREATE st → st.membersList = list

/-- The rows of the `LIST` instance `key`, if it is still mounted. -/
def ListsMembers (s : State) (key : Nat) (list : List Member) : Prop :=
  ∀ r ∈ s.ui.stack, r.key = key → ∀ st, r.screen = .LIST st → st.shown = list

/-- The list of the `CREATE` instance `key` is empty once its first load has
finished. -/
def StartsEmpty (key : Nat) (h : History) : Prop :=
  ∀ h₁ p h₂ list, h = h₁ ++ p :: h₂ →
    (∀ q ∈ h₁, ∀ list', ¬ Finishes q (.create (.fetchMembers key list'))) →
    Finishes p (.create (.fetchMembers key list)) →
    ∀ s', app.Step p.1 p.2 s' → ShowsMembers s' key []

/-- The `LIST` instance `key` finds no draft, and lists the member accounts as
they were when it read them, unselected. -/
def ListsAccounts (key : Nat) (h : History) : Prop :=
  ∀ h₁ p h₂, h = h₁ ++ p :: h₂ →
    (∀ list, Finishes p (.list (.getDraft key list)) → list.getD [] = []) ∧
      ∀ data, Finishes p (.list (.getMembers key data)) →
        (∃ q ∈ h₁, ReadsMembers q key data) ∧
          ∀ s', app.Step p.1 p.2 s' →
            ListsMembers s' key ((data.getD []).map MembersList.unselected)

/-- Every `CREATE` that is mounted starts empty, and so does the first `LIST`
that is opened after it. -/
def NoLeak (h : History) : Prop :=
  ∀ h₁ p h₂ key, h = h₁ ++ p :: h₂ → Mounts p .CREATE key →
    StartsEmpty key h₂ ∧
      ∀ h₃ q h₄ key', h₂ = h₃ ++ q :: h₄ →
        (∀ q' ∈ h₃, ∀ key'', ¬ Mounts q' .LIST key'') → Mounts q .LIST key' →
        ListsAccounts key' h₄

/-! ## The draft that is held -/

/-- A step changes the draft that is held by a press of Save, a press of the
arrow of `CREATE`, or a kill. -/
inductive Holds (s : State) : Action → State → Prop
  | same {x s'} (hBack : x ≠ .user (.create .handleBack)) (hKill : x ≠ .kill)
      (h : heldDraft s' = heldDraft s) : Holds s x s'
  | save {s'} (hFocus : .LIST ∈ s.ui.names) (hNames : s'.ui.names = s.ui.names) :
      Holds s (.user (.list .handleSubmit)) s'
  | arrow {s'} (h : heldDraft s' = []) : Holds s (.user (.create .handleBack)) s'
  | kill : Holds s .kill (app.boot s.disk s.ui)

theorem drain_tempMembers {d : Disk} {as : List Await} (h : ∀ a ∈ as, draftWrite a = none) :
    (app.drain d as).tempMembers = d.tempMembers := by
  refine app.drain_invariant (fun d' => d'.tempMembers = d.tempMembers) rfl ?_
  intro a ha d' hd'
  rw [tempMembers_serve, h a ha]
  exact hd'

theorem holds_of_step {s s' : State} {x : Action} (hLoads : ∀ a ∈ s.effects, IsLoad a)
    (hServes : Serves (s, x)) (hx : app.QueuedStep s x s') : Holds s x s' := by
  cases hx with
  | @user e out hOut =>
      by_cases hSave : e = .list .handleSubmit
      · subst hSave
        cases handle_cases hOut with
        | @list st _ eff hs hEff =>
            refine .save ?_ ?_
            · exact List.mem_map.mpr ⟨s.ui.focused, List.mem_cons_self, by rw [hs]; rfl⟩
            · rw [MembersList.handle, Option.some.injEq] at hEff
              subst hEff
              simp only [State.issue]
              rw [perform_eq, names_modify _ _ (name_onList _)]
              rfl
      · by_cases hBack : e = .create .handleBack
        · subst hBack
          cases handle_cases hOut with
          | create hs =>
              refine .arrow ?_
              rw [heldDraft, Program.settleDisk_issue]
              rfl
        · refine .same (by simpa using hBack) (by simp) ?_
          rw [heldDraft, Program.settleDisk_issue, drain_tempMembers]
          · rfl
          · intro a ha
            cases handle_requests hOut ha with
            | login _ _ _ => rfl
            | signup _ _ => rfl
            | logout _ => rfl
            | handleBack _ => exact absurd rfl hBack
            | save _ => exact absurd rfl hSave
  | @effect i a hAt =>
      refine .same (by simp) (by simp) ?_
      have hLoad := hLoads a (List.mem_of_getElem? hAt)
      rw [heldDraft, Program.settleDisk_effect, tempMembers_serve]
      cases hLoad <;> rfl
  | serve hPending =>
      refine .same (by simp) (by simp) ?_
      rw [heldDraft, Program.settleDisk_serve hPending]
      rfl
  | resolve hServed =>
      refine .same (by simp) (by simp) ?_
      rw [heldDraft, Program.settleDisk_issue, drain_tempMembers]
      · rfl
      · intro a ha
        cases resume_requests ha <;> rfl
  | reject _ => exact absurd hServes id
  | kill => exact .kill

theorem holds_of_reachable {s s' : State} {x : Action} (hReach : Reachable s)
    (hServes : Serves (s, x)) (hx : app.Step s x s') : Holds s x s' := by
  obtain ⟨xs, hRun⟩ := hReach
  exact holds_of_step (isLoad_of_mem_effects hRun) hServes (hx.queued hServes.queued)

/-- Only user events and kills change the draft that is held. -/
theorem Holds.other {s s' : State} {x : Action} (h : Holds s x s') (hUser : ∀ e, x ≠ .user e)
    (hKill : x ≠ .kill) : heldDraft s' = heldDraft s := by
  cases h with
  | same _ _ h => exact h
  | save _ _ => exact absurd rfl (hUser _)
  | arrow _ => exact absurd rfl (hUser _)
  | kill => exact absurd rfl hKill

/-- Off `LIST`, a tidy step brings no draft. -/
theorem held_step {s s' : State} {x : Action} (hTidy : Tidy (s, x)) (hx : Holds s x s')
    (hList : .LIST ∉ s.ui.names) (hHeld : heldDraft s = []) : heldDraft s' = [] := by
  cases hx with
  | same _ _ h => rw [h, hHeld]
  | save hFocus _ => exact absurd hFocus hList
  | arrow h => exact h
  | kill => exact hTidy.leaves

/-- Without a `CREATE` on the stack there is no `LIST`. -/
theorem not_list_of_not_task {s : State} (hReach : Reachable s) (hTask : .CREATE ∉ s.ui.names) :
    .LIST ∉ s.ui.names := by
  obtain ⟨xs, hRun⟩ := hReach
  intro hList
  obtain ⟨above, below, hSplit⟩ := List.append_of_mem hList
  have hBelow := (grounded_run hRun).nested above below hSplit
  exact hTask (hSplit ▸ List.mem_append_right _ (List.mem_cons_of_mem _ hBelow))

/-- Without a `CREATE` on the stack no draft is held. -/
def NoDraft (s : State) : Prop := .CREATE ∉ s.ui.names → heldDraft s = []

theorem noDraft_step {s s' : State} {x : Action} (hReach : Reachable s) (hTidy : Tidy (s, x))
    (hInv : NoDraft s) (hx : app.Step s x s') : NoDraft s' := by
  intro hOff
  have hHolds := holds_of_reachable hReach hTidy.serves hx
  by_cases hTask : .CREATE ∈ s.ui.names
  · have hLeaves := hTidy.leaves
    cases hHolds with
    | same hBack hKill h =>
        rw [h]
        unfold LeavesNoDraft at hLeaves
        split at hLeaves
        · exact absurd ‹_› hKill
        · exact absurd ‹_› hBack
        · exact hLeaves ⟨hTask, s', hx, hOff⟩
    | save _ hNames => exact absurd (hNames ▸ hTask) hOff
    | arrow h => exact h
    | kill => exact hLeaves
  · exact held_step hTidy hHolds (not_list_of_not_task hReach hTask) (hInv hTask)

/-! ## The first load of `CREATE` -/

theorem loadedDraft_serve (key : Nat) (a : Await) (d : Disk) :
    loadedDraft key (app.serve a d).2 =
      if a = .create (.fetchMembers key) then some (d.tempMembers.getD []) else none := by
  rcases a with a | a | a | a | a <;> cases a <;>
    simp [app, App.serve, loadedDraft, TaskCreation.Await.serve]

/-- The first load of the `CREATE` instance `key` is due while no draft is held,
or has found none; or the instance is gone. -/
inductive Opening (key : Nat) (s : State) : Prop
  | due (hDue : .create (.fetchMembers key) ∈ s.effects) (hHeld : heldDraft s = [])
      (hNone : app.firstRead (loadedDraft key) s = none)
  | read (hRead : app.firstRead (loadedDraft key) s = some [])
  | dead (hDead : Dead key s)

theorem firstRead_issue_pressed {key : Nat} {s : State} {e : Event} {out : Ui × Issued Await}
    (hOut : app.handle e s.ui = some out) :
    app.firstRead (loadedDraft key) (s.issue out) = app.firstRead (loadedDraft key) s := by
  refine Program.firstRead_issue fun a ha d => ?_
  rw [loadedDraft_serve]
  cases handle_requests hOut ha <;> simp

theorem firstRead_issue_continued {key : Nat} {s : State} (r : Ready) (ui : Ui) :
    app.firstRead (loadedDraft key) (s.issue (app.resume r ui)) =
      app.firstRead (loadedDraft key) s := by
  refine Program.firstRead_issue fun a ha d => ?_
  rw [loadedDraft_serve]
  cases resume_requests ha <;> simp

/-- The continuation is no load of the `CREATE` instance `key`. -/
theorem loadedDraft_other {key : Nat} {s : State} {before after : List Ready} {r : Ready}
    (hServed : s.served = before ++ r :: after)
    (hOther : ∀ list,
      ¬ Finishes (s, .resolve before.length) (.create (.fetchMembers key list))) :
    loadedDraft key r = none := by
  unfold loadedDraft
  split
  · rename_i key' list
    by_cases hSame : key' = key
    · subst hSame
      exact absurd ⟨_, rfl, by simp [hServed]⟩ (hOther list)
    · rw [if_neg hSame]
  · rfl

theorem Opening.step {key : Nat} {s s' : State} {x : Action} (hReach : Reachable s)
    (hTidy : Tidy (s, x)) (hKey : key < s.ui.nextKey) (hInv : Opening key s)
    (hOther : ∀ list, ¬ Finishes (s, x) (.create (.fetchMembers key list)))
    (hx : app.Step s x s') : Opening key s' := by
  have hHolds := holds_of_reachable hReach hTidy.serves hx
  have hStep := hx.queued hTidy.serves.queued
  cases hInv with
  | dead hDead => exact .dead (hDead.step hx)
  | due hDue hHeld hNone =>
      cases hStep with
      | user hOut =>
          have hEmpty : s.effects = [] := hTidy.prompt
          simp [hEmpty] at hDue
      | @effect i a hAt =>
          by_cases hOwn : a = .create (.fetchMembers key)
          · refine .read ?_
            rw [Program.firstRead_effect, hNone, loadedDraft_serve, if_pos hOwn]
            exact congrArg some hHeld
          · refine .due (Program.mem_eraseIdx_of_ne hDue hAt (Ne.symm hOwn)) ?_ ?_
            · rw [hHolds.other (by simp) (by simp), hHeld]
            · rw [Program.firstRead_effect, hNone, loadedDraft_serve, if_neg hOwn]
              rfl
      | serve hPending =>
          refine .due hDue ?_ ?_
          · rw [hHolds.other (by simp) (by simp), hHeld]
          · rw [Program.firstRead_serve hPending, hNone]
      | @resolve before r after hServed =>
          refine .due (List.mem_append_left _ hDue) ?_ ?_
          · rw [hHolds.other (by simp) (by simp), hHeld]
          · rw [firstRead_issue_continued,
              Program.firstRead_resolve hServed (loadedDraft_other hServed hOther), hNone]
      | reject _ => exact absurd hTidy.serves id
      | kill => exact .dead (.boot hKey)
  | read hRead =>
      cases hStep with
      | user hOut => exact .read ((firstRead_issue_pressed hOut).trans hRead)
      | effect hAt =>
          refine .read ?_
          rw [Program.firstRead_effect, hRead]
          rfl
      | serve hPending => exact .read ((Program.firstRead_serve hPending).trans hRead)
      | @resolve before r after hServed =>
          refine .read ((firstRead_issue_continued r s.ui).trans ?_)
          rw [Program.firstRead_resolve hServed (loadedDraft_other hServed hOther), hRead]
      | reject _ => exact absurd hTidy.serves id
      | kill => exact .dead (.boot hKey)

/-- The load that finishes first has found no draft. -/
theorem Opening.finishes {key : Nat} {s : State} {x : Action} {list : Option (List Member)}
    (hServes : Serves (s, x)) (hInv : Opening key s)
    (h : Finishes (s, x) (.create (.fetchMembers key list))) : list.getD [] = [] := by
  obtain ⟨i, rfl, hAt⟩ := h
  change s.served[i]? = _ at hAt
  obtain ⟨before, after, hServed, rfl, -⟩ := Program.eq_append_of_getElem? hAt
  have hBefore : ∀ r ∈ before, loadedDraft key r = none := by
    simpa [Serves, hServed] using hServes
  have hFirst : app.firstRead (loadedDraft key) s = some (list.getD []) :=
    Program.firstRead_of_oldest hServed hBefore (by simp [loadedDraft])
  cases hInv with
  | due _ _ hNone => simp [hFirst] at hNone
  | read hRead =>
      rw [hFirst, Option.some.injEq] at hRead
      exact hRead
  | dead hDead => exact absurd rfl (hDead.served _ (List.mem_of_getElem? hAt))

/-- A continuation that asks for no navigation tells every route on the stack. -/
theorem stack_of_finishes {s s' : State} {x : Action} {r : Ready} (hNav : navOf r = none)
    (h : Finishes (s, x) r) (hx : app.Step s x s') :
    s'.ui.stack = s.ui.stack.map (tellRoute r) := by
  obtain ⟨i, rfl, hAt⟩ := h
  cases hx with
  | @resolve _ r' hR =>
      obtain rfl : r' = r := by
        rw [hR] at hAt
        exact Option.some.inj hAt
      simp only [State.issue]
      rw [(resume_shape r' s.ui).1, stack_tellAll, hNav]
      rfl

theorem showsMembers_of_finishes {key : Nat} {s s' : State} {x : Action}
    {list : Option (List Member)} (h : Finishes (s, x) (.create (.fetchMembers key list)))
    (hx : app.Step s x s') : ShowsMembers s' key (TaskCreation.requiredMembers list) := by
  intro route hRoute hKey st hScreen
  rw [stack_of_finishes rfl h hx] at hRoute
  obtain ⟨⟨key', screen⟩, -, rfl⟩ := List.mem_map.mp hRoute
  obtain rfl : key' = key := hKey
  cases screen with
  | CREATE st' =>
      have hTold : (TaskCreation.Ready.fetchMembers key' list).resume.update st' = st := by
        simpa [tellRoute, told, Screen.onCreate] using hScreen
      rw [← hTold]
      rfl
  | AUTH _ => simp [tellRoute, told, Screen.onCreate] at hScreen
  | HOME _ => simp [tellRoute, told, Screen.onCreate] at hScreen
  | LIST _ => simp [tellRoute, told, Screen.onCreate] at hScreen

/-! ## The first `LIST` -/

/-- No draft is held, and no `LIST` is on the stack. -/
structure Unlisted (s : State) : Prop where
  held : heldDraft s = []
  list : .LIST ∉ s.ui.names

theorem mem_names {name : RouteName} {ui : Ui} :
    name ∈ ui.names ↔ ∃ key, (key, name) ∈ labels ui := by
  simp [names_eq_labels]

theorem Unlisted.step {s s' : State} {x : Action} (hReach : Reachable s) (hTidy : Tidy (s, x))
    (hInv : Unlisted s) (hNoMount : ∀ key, ¬ Mounts (s, x) .LIST key) (hx : app.Step s x s') :
    Unlisted s' where
  held := held_step hTidy (holds_of_reachable hReach hTidy.serves hx) hInv.list hInv.held
  list hList := by
    obtain ⟨key, hMem⟩ := mem_names.mp hList
    rcases (labels_of_step hx).2 _ hMem with hOld | hNew
    · exact hInv.list (mem_names.mpr ⟨key, hOld⟩)
    · exact hNoMount key ⟨hNew, s', hx, hMem⟩

/-- The `LIST` instance `key` finds no draft, and whatever members it is given
have been read for it. -/
structure Pristine (key : Nat) (h : History) (s : State) : Prop where
  due : .list (.getDraft key) ∈ s.effects → heldDraft s = []
  found : ∀ list, .list (.getDraft key list) ∈ app.foreseen s → list.getD [] = []
  read : ∀ data, .list (.getMembers key data) ∈ s.served → ∃ p ∈ h, ReadsMembers p key data

/-- A screen that is yet to be mounted. -/
theorem Pristine.ahead {s : State} (hKeys : KeysBelow s) (h : History) :
    Pristine s.ui.nextKey h s where
  due hDue := absurd (hKeys.effects _ hDue _ rfl) (Nat.lt_irrefl _)
  found _ hFound := absurd (hKeys.foreseen _ hFound _ rfl) (Nat.lt_irrefl _)
  read _ hServed := absurd (hKeys.served _ hServed _ rfl) (Nat.lt_irrefl _)

/-- The draft is loaded once, when the screen is mounted. -/
theorem getDraft_of_moved {ui : Ui} {nav : Option Nav} {key : Nat}
    (h : .list (.getDraft key) ∈ (moved ui nav).2) : key = ui.nextKey := by
  have hMount : ∀ r : Route, .list (.getDraft key) ∈ r.mountEffects → r.key = key := by
    intro r hr
    exact (Option.some.inj (awaitKey_of_mem_mountEffects hr)).symm
  have hMoves := moved_moves ui nav
  generalize moved ui nav = out at hMoves h
  cases hMoves with
  | stays => simp at h
  | @back _ r rest _ =>
      have hFocus : .list (.getDraft key) ∈ r.focusEffects := h
      unfold Route.focusEffects at hFocus
      split at hFocus <;> simp at hFocus
  | replaces name => exact (hMount _ h).symm
  | resets name => exact (hMount _ h).symm
  | pushes name dates _ => exact (hMount _ h).symm

theorem getDraft_of_serve {key : Nat} {a : Await} {d : Disk} {list : Option (List Member)}
    (h : (app.serve a d).2 = .list (.getDraft key list)) :
    a = .list (.getDraft key) ∧ list = d.tempMembers := by
  rcases a with a | a | a | a | a <;> cases a <;>
    simp [app, App.serve, MembersList.Await.serve] at h
  exact ⟨by rw [h.1], h.2.symm⟩

theorem getMembers_of_serve {key : Nat} {a : Await} {d : Disk} {data : Option (List Account)}
    (h : (app.serve a d).2 = .list (.getMembers key data)) :
    a = .list (.getMembers key) ∧ data = d.userMember := by
  rcases a with a | a | a | a | a <;> cases a <;>
    simp [app, App.serve, MembersList.Await.serve] at h
  exact ⟨by rw [h.1], h.2.symm⟩

theorem Pristine.issue {key : Nat} {h h' : History} {s : State} {nav : Option Nav}
    {out : Ui × Issued Await} (hInv : Pristine key h s) (hFollows : Follows s.ui nav out)
    (hHeld : .list (.getDraft key) ∈ s.effects ∨ key = s.ui.nextKey →
      heldDraft (s.issue out) = [])
    (hRequests : ∀ a ∈ out.2.requests, a ≠ .list (.getDraft key)) (hMono : h ⊆ h') :
    Pristine key h' (s.issue out) where
  due hDue := by
    rcases List.mem_append.mp hDue with hOld | hNew
    · exact hHeld (Or.inl hOld)
    · rw [hFollows.effects] at hNew
      exact hHeld (Or.inr (getDraft_of_moved hNew))
  found list hFound := by
    rw [Program.foreseen_issue] at hFound
    rcases List.mem_append.mp hFound with hOld | hNew
    · exact hInv.found list hOld
    · refine absurd rfl (app.replies_invariant (fun _ => True)
        (fun r => r ≠ .list (.getDraft key list)) trivial (fun a ha d _ => ⟨trivial, ?_⟩) _ hNew)
      exact fun hReply => hRequests a ha (getDraft_of_serve hReply).1
  read data hServed := by
    obtain ⟨p, hp, hRead⟩ := hInv.read data hServed
    exact ⟨p, hMono hp, hRead⟩

theorem Pristine.step {key : Nat} {h : History} {s s' : State} {x : Action}
    (hReach : Reachable s) (hTidy : Tidy (s, x)) (hInv : Pristine key h s)
    (hHeld : key = s.ui.nextKey → heldDraft s' = []) (hx : app.Step s x s') :
    Pristine key (h ++ [(s, x)]) s' := by
  have hHolds := holds_of_reachable hReach hTidy.serves hx
  have hMono : h ⊆ h ++ [(s, x)] := List.subset_append_left _ _
  have hStep := hx.queued hTidy.serves.queued
  cases hStep with
  | user hOut =>
      have hEmpty : s.effects = [] := hTidy.prompt
      obtain ⟨nav, hFollows⟩ := handle_follows hOut
      refine hInv.issue hFollows ?_ (fun a ha => ?_) hMono
      · rintro (hDue | hNew)
        · simp [hEmpty] at hDue
        · exact hHeld hNew
      · cases handle_requests hOut ha <;> simp
  | @effect i a hAt =>
      have hSame := hHolds.other (by simp) (by simp)
      refine ⟨fun hDue => ?_, fun list hFound => ?_, fun data hServed => ?_⟩
      · rw [hSame]
        exact hInv.due (List.mem_of_mem_eraseIdx hDue)
      · rw [Program.foreseen_effect] at hFound
        rcases List.mem_append.mp hFound with hOld | hNew
        · exact hInv.found list hOld
        · obtain ⟨rfl, rfl⟩ := getDraft_of_serve (List.mem_singleton.mp hNew).symm
          exact hInv.due (List.mem_of_getElem? hAt)
      · obtain ⟨p, hp, hRead⟩ := hInv.read data hServed
        exact ⟨p, hMono hp, hRead⟩
  | @serve a as hPending =>
      have hSame := hHolds.other (by simp) (by simp)
      refine ⟨fun hDue => ?_, fun list hFound => ?_, fun data hServed => ?_⟩
      · rw [hSame]
        exact hInv.due hDue
      · rw [Program.foreseen_serve hPending] at hFound
        exact hInv.found list hFound
      · rcases List.mem_append.mp hServed with hOld | hNew
        · obtain ⟨p, hp, hRead⟩ := hInv.read data hOld
          exact ⟨p, hMono hp, hRead⟩
        · obtain ⟨rfl, rfl⟩ := getMembers_of_serve (List.mem_singleton.mp hNew).symm
          exact ⟨_, List.mem_append_right _ List.mem_cons_self, 0, rfl, by simp [hPending], rfl⟩
  | @resolve before r after hServed =>
      have hSame := hHolds.other (by simp) (by simp)
      have hRest : Pristine key h { s with served := before ++ after } :=
        ⟨hInv.due, fun list hFound => hInv.found list (Program.foreseen_subset hServed hFound),
          fun data hData => hInv.read data ((Program.served_sublist hServed).subset hData)⟩
      refine hRest.issue (resume_follows r s.ui) ?_ (fun a ha => ?_) hMono
      · rintro (hDue | hNew)
        · exact hSame.trans (hInv.due hDue)
        · exact hHeld hNew
      · cases resume_requests ha <;> simp
  | reject _ => exact absurd hTidy.serves id
  | kill =>
      refine ⟨fun hDue => ?_, fun list hFound => ?_, fun data hServed => ?_⟩
      · simp [Program.boot, app, launch, Ui.mountOver, Screen.mount, Route.mountEffects] at hDue
      · simp [Program.foreseen, Program.boot, app, launch] at hFound
      · simp [Program.boot] at hServed

theorem listsMembers_of_finishes {key : Nat} {s s' : State} {x : Action}
    {data : Option (List Account)} (h : Finishes (s, x) (.list (.getMembers key data)))
    (hx : app.Step s x s') :
    ListsMembers s' key ((data.getD []).map MembersList.unselected) := by
  intro route hRoute hKey st hScreen
  rw [stack_of_finishes rfl h hx] at hRoute
  obtain ⟨⟨key', screen⟩, -, rfl⟩ := List.mem_map.mp hRoute
  obtain rfl : key' = key := hKey
  cases screen with
  | LIST st' =>
      have hTold : (MembersList.Ready.getMembers key' data).resume.update st' = st := by
        simpa [tellRoute, told, Screen.onList, MembersList.Ready.key] using hScreen
      rw [← hTold]
      simp [MembersList.Ready.resume, MembersList.finish, MembersList.shown_setFresh]
  | AUTH _ => simp [tellRoute, told, Screen.onList] at hScreen
  | HOME _ => simp [tellRoute, told, Screen.onList] at hScreen
  | CREATE _ => simp [tellRoute, told, Screen.onList] at hScreen

/-! ## Tidy runs -/

/-- Induction over tidy runs. -/
theorem tidy_induction (ok : State → Action → Prop) (I : History → State → Prop) {m : State}
    (hReach : Reachable m) (hInit : I [] m)
    (hStep : ∀ h s x s', Reachable s → Tidy (s, x) → ok s x → I h s → app.Step s x s' →
      I (h ++ [(s, x)]) s')
    {xs : List Action} {s : State} (hTidy : ∀ p ∈ app.trace m xs, Tidy p)
    (hOk : ∀ p ∈ app.trace m xs, ok p.1 p.2) (hRun : app.exec m xs = some s) :
    I (app.trace m xs) s := by
  refine app.exec_induction (fun s x => Tidy (s, x) ∧ ok s x) I hInit ?_
    (fun p hp => ⟨hTidy p hp, hOk p hp⟩) hRun
  rintro h s x s' ⟨ys, hPre, -⟩ ⟨hTidyStep, hOkStep⟩ hInv hx
  exact hStep h s x s' (hReach.exec hPre) hTidyStep hOkStep hInv hx

theorem noDraft_run {xs : List Action} {s : State} (hTidy : ∀ p ∈ app.trace init xs, Tidy p)
    (hRun : run xs = some s) : NoDraft s :=
  tidy_induction (fun _ _ => True) (fun _ s => NoDraft s) ⟨[], rfl⟩ (fun _ => rfl)
    (fun _ _ _ _ hReach hTidyStep _ hInv hx => noDraft_step hReach hTidyStep hInv hx) hTidy
    (fun _ _ => trivial) hRun

/-- No load of a screen that is being mounted has been issued. -/
theorem firstRead_ahead {s s' : State} {x : Action} (hKeys : KeysBelow s)
    (hServes : Serves (s, x)) (hx : app.QueuedStep s x s') :
    app.firstRead (loadedDraft s.ui.nextKey) s' = none := by
  have hAhead : ∀ r ∈ app.foreseen s, loadedDraft s.ui.nextKey r = none := by
    intro r hr
    have hBelow := hKeys.foreseen r hr
    unfold loadedDraft
    split
    · rename_i key list
      have hKey : key < s.ui.nextKey := hBelow key rfl
      rw [if_neg (Nat.ne_of_lt hKey)]
    · rfl
  have hNone : app.firstRead (loadedDraft s.ui.nextKey) s = none :=
    List.findSome?_eq_none_iff.mpr hAhead
  cases hx with
  | user hOut => exact (firstRead_issue_pressed hOut).trans hNone
  | @effect i a hAt =>
      rw [Program.firstRead_effect, hNone, loadedDraft_serve, if_neg]
      · rfl
      · rintro rfl
        exact absurd (hKeys.effects _ (List.mem_of_getElem? hAt) _ rfl) (Nat.lt_irrefl _)
  | serve hPending => exact (Program.firstRead_serve hPending).trans hNone
  | @resolve before r after hServed =>
      have hRead := hAhead r (List.mem_append_left _ (by simp [hServed]))
      exact (firstRead_issue_continued r s.ui).trans
        ((Program.firstRead_resolve hServed hRead).trans hNone)
  | reject _ => exact absurd hServes id
  | kill => rfl

/-- A `CREATE` that is mounted has its load due, with no draft held. -/
theorem opening_of_mounts {s m : State} {x : Action} {key : Nat} (hReach : Reachable s)
    (hTidy : Tidy (s, x)) (hNoDraft : NoDraft s) (hMount : Mounts (s, x) .CREATE key)
    (hx : app.Step s x m) : key < m.ui.nextKey ∧ Opening key m ∧ Unlisted m := by
  obtain ⟨rfl, s', hx', hMem⟩ := hMount
  obtain rfl := hx'.unique hx
  obtain ⟨xs, hRun⟩ := hReach
  have hKeys := keysBelow_run hRun
  obtain ⟨hNot, hNames, hLoad⟩ := mounted_of_step hKeys.fresh hx (Or.inl rfl) hMem
  have hList := not_list_of_not_task ⟨xs, hRun⟩ hNot
  have hHeld := held_step hTidy (holds_of_reachable ⟨xs, hRun⟩ hTidy.serves hx) hList
    (hNoDraft hNot)
  have hOpening : Opening s.ui.nextKey s' :=
    .due (hLoad List.mem_cons_self) hHeld
      (firstRead_ahead hKeys hTidy.serves (hx.queued hTidy.serves.queued))
  have hUnlisted : .LIST ∉ s'.ui.names := by
    rw [hNames]
    simpa using hList
  exact ⟨(hKeys.step hx).label_lt hMem, hOpening, hHeld, hUnlisted⟩

theorem startsEmpty_run {m : State} {zs : List Action} {s : State} {key : Nat}
    (hReach : Reachable m) (hKey : key < m.ui.nextKey) (hOpening : Opening key m)
    (hTidy : ∀ p ∈ app.trace m zs, Tidy p) (hRun : app.exec m zs = some s) :
    StartsEmpty key (app.trace m zs) := by
  intro h₁ p h₂ list hSplit hFirst hFinishes s' hx
  obtain ⟨ys, -, -, -, hPre, -, -, hTrace, -⟩ := app.exec_of_trace_append hRun hSplit
  have hInv : key < p.1.ui.nextKey ∧ Opening key p.1 := by
    refine tidy_induction (fun s x => ∀ list, ¬ Finishes (s, x) (.create (.fetchMembers key list)))
      (fun _ s => key < s.ui.nextKey ∧ Opening key s) hReach ⟨hKey, hOpening⟩ ?_
      (fun q hq => hTidy q (hSplit ▸ List.mem_append_left _ (hTrace ▸ hq)))
      (fun q hq => hFirst q (hTrace ▸ hq)) hPre
    intro _ s x s' hReach' hTidyStep hOther hInv hx
    exact ⟨Nat.lt_of_lt_of_le hInv.1 (labels_of_step hx).1,
      hInv.2.step hReach' hTidyStep hInv.1 hOther hx⟩
  have hServes := (hTidy p (hSplit ▸ List.mem_append_right _ List.mem_cons_self)).serves
  have hShows := showsMembers_of_finishes hFinishes hx
  have hEmpty : TaskCreation.requiredMembers list = [] := by
    rw [TaskCreation.requiredMembers, hInv.2.finishes hServes hFinishes]
    rfl
  rwa [hEmpty] at hShows

theorem listsAccounts_run {q : State × Action} {m : State} {zs : List Action} {s : State}
    {key : Nat} (hReach : Reachable m) (hPristine : Pristine key [q] m)
    (hNotRead : ∀ data, ¬ ReadsMembers q key data) (hKey : key < m.ui.nextKey)
    (hTidy : ∀ p ∈ app.trace m zs, Tidy p) (hRun : app.exec m zs = some s) :
    ListsAccounts key (app.trace m zs) := by
  intro h₁ p h₂ hSplit
  obtain ⟨ys, -, -, -, hPre, -, -, hTrace, -⟩ := app.exec_of_trace_append hRun hSplit
  have hInv : key < p.1.ui.nextKey ∧ Pristine key (q :: h₁) p.1 := by
    rw [← hTrace]
    refine tidy_induction (fun _ _ => True)
      (fun h s => key < s.ui.nextKey ∧ Pristine key (q :: h) s) hReach ⟨hKey, hPristine⟩ ?_
      (fun q' hq => hTidy q' (hSplit ▸ List.mem_append_left _ (hTrace ▸ hq)))
      (fun _ _ => trivial) hPre
    intro _ s x s' hReach' hTidyStep _ hInv hx
    exact ⟨Nat.lt_of_lt_of_le hInv.1 (labels_of_step hx).1,
      hInv.2.step hReach' hTidyStep (fun hNew => absurd hNew (Nat.ne_of_lt hInv.1)) hx⟩
  refine ⟨?_, ?_⟩
  · rintro list ⟨i, -, hAt⟩
    refine hInv.2.found list (List.mem_append_left _ (List.mem_of_getElem? hAt))
  · intro data hFinishes
    refine ⟨?_, fun s' hx => listsMembers_of_finishes hFinishes hx⟩
    obtain ⟨i, -, hAt⟩ := hFinishes
    obtain ⟨q', hq', hRead⟩ := hInv.2.read data (List.mem_of_getElem? hAt)
    rcases List.mem_cons.mp hq' with rfl | hLater
    · exact absurd hRead (hNotRead data)
    · exact ⟨q', hLater, hRead⟩

/-- **A new task starts without a draft, when none is left behind.**  In a run in
which no draft is stored at a kill, and none is held when `CREATE` is left in
another way than by its arrow, every `CREATE` that is mounted is empty once its
first load has finished, and the first `LIST` opened after it lists the member
accounts that it reads, in their order, unselected and with the value `5`. -/
theorem draft_does_not_leak (xs : List Action) (s : State) (hRun : run xs = some s)
    (hTidy : ∀ p ∈ app.trace init xs, Tidy p) : NoLeak (app.trace init xs) := by
  intro h₁ p h₂ key hSplit hOpen
  have hTidyAt : Tidy p := hTidy p (hSplit ▸ List.mem_append_right _ List.mem_cons_self)
  obtain ⟨ys, m, zs, -, hPre, hx, hPost, hTrace₁, hTrace₂⟩ :=
    app.exec_of_trace_append hRun hSplit
  have hReach : Reachable p.1 := ⟨ys, hPre⟩
  have hNoDraft : NoDraft p.1 :=
    noDraft_run (fun q hq => hTidy q (hSplit ▸ List.mem_append_left _ (hTrace₁ ▸ hq))) hPre
  obtain ⟨hKey, hOpening, hUnlisted⟩ := opening_of_mounts hReach hTidyAt hNoDraft hOpen hx
  have hReachM : Reachable m := hReach.step hx
  have hTidyPost : ∀ q ∈ app.trace m zs, Tidy q := fun q hq =>
    hTidy q (hSplit ▸ List.mem_append_right _ (List.mem_cons_of_mem _ (hTrace₂ ▸ hq)))
  subst hTrace₂
  refine ⟨startsEmpty_run hReachM hKey hOpening hTidyPost hPost, ?_⟩
  intro h₃ q h₄ key' hSplit' hFirst hMount
  have hTidyQ : Tidy q := hTidyPost q (hSplit' ▸ List.mem_append_right _ List.mem_cons_self)
  obtain ⟨ys', m', zs', -, hPre', hx', hPost', hTrace₃, rfl⟩ :=
    app.exec_of_trace_append hPost hSplit'
  have hUnlistedQ : Unlisted q.1 := by
    refine tidy_induction (fun s x => ∀ key, ¬ Mounts (s, x) .LIST key) (fun _ s => Unlisted s)
      hReachM hUnlisted (fun _ _ _ _ hReach' hTidyStep hNone hInv hStep =>
        hInv.step hReach' hTidyStep hNone hStep)
      (fun q' hq => hTidyPost q' (hSplit' ▸ List.mem_append_left _ (hTrace₃ ▸ hq)))
      (fun q' hq key'' => hFirst q' (hTrace₃ ▸ hq) key'') hPre'
  have hReachQ : Reachable q.1 := hReachM.exec hPre'
  obtain ⟨qs, hRunQ⟩ := hReachQ
  have hKeys := keysBelow_run hRunQ
  obtain ⟨rfl, s', hxs', hMem⟩ := hMount
  obtain rfl := hxs'.unique hx'
  have hHeld := held_step hTidyQ (holds_of_reachable ⟨qs, hRunQ⟩ hTidyQ.serves hx')
    hUnlistedQ.list hUnlistedQ.held
  have hPristine := (Pristine.ahead hKeys []).step ⟨qs, hRunQ⟩ hTidyQ (fun _ => hHeld) hx'
  refine listsAccounts_run (Reachable.step ⟨qs, hRunQ⟩ hx') hPristine ?_
    ((hKeys.step hx').label_lt hMem) ?_ hPost'
  · rintro data ⟨i, -, hAt, -⟩
    exact absurd (hKeys.pending _ (List.mem_of_getElem? hAt) _ rfl) (Nat.lt_irrefl _)
  · exact fun t ht => hTidyPost t (hSplit' ▸ List.mem_append_right _ (List.mem_cons_of_mem _ ht))

/-- Cat's task is left by the arrow, and a second one is opened. -/
def catStartsOver : List Action :=
  annSelected ++ [pressBack] ++ answered ++ openTask ++ openMembers

theorem draft_does_not_leak_ann : NoLeak (app.trace init catStartsOver) := by
  obtain ⟨s, hRun⟩ := Option.isSome_iff_exists.mp
    (show (run catStartsOver).isSome = true by decide)
  exact draft_does_not_leak catStartsOver s hRun (by decide)

/-- Cat's task is left by the back action of the system, and a second one is
opened. -/
def catLeaves : List Action := annSelected ++ [.user .systemBack]

/-- The second task starts with the member selected for the first. -/
theorem draft_leaks :
    ¬ ∀ xs s, run xs = some s → (∀ p ∈ app.trace init xs, p.2.InOrder ∧ Prompt p) →
      NoLeak (app.trace init xs) := by
  intro hNoLeak
  let opened := catLeaves ++ [.user (.home (.createTask (0, 0)))]
  obtain ⟨m₀, hm₀⟩ := Option.isSome_iff_exists.mp (show (run catLeaves).isSome = true by decide)
  obtain ⟨m₁, hm₁⟩ := Option.isSome_iff_exists.mp (show (run opened).isSome = true by decide)
  obtain ⟨m₂, hm₂⟩ := Option.isSome_iff_exists.mp
    (show (run (opened ++ [.effect 0])).isSome = true by decide)
  obtain ⟨m₃, hm₃⟩ := Option.isSome_iff_exists.mp
    (show (run (opened ++ [.effect 0] ++ [.serve 0])).isSome = true by decide)
  obtain ⟨s, hRun⟩ := Option.isSome_iff_exists.mp
    (show (run (opened ++ [.effect 0] ++ [.serve 0] ++ [.resolve 0])).isSome = true by decide)
  have hTrace : app.trace init (opened ++ [.effect 0] ++ [.serve 0] ++ [.resolve 0]) =
      app.trace init catLeaves ++ (m₀, .user (.home (.createTask (0, 0)))) ::
        [(m₁, .effect 0), (m₂, .serve 0), (m₃, .resolve 0)] := by
    rw [app.trace_snoc _ hm₃, app.trace_snoc _ hm₂, app.trace_snoc _ hm₁, app.trace_snoc _ hm₀]
    simp
  have hNext : (run catLeaves).map (fun s => s.ui.nextKey) = some 8 := by decide
  have hOpened : (run opened).map (fun s => labels s.ui) = some [(8, .CREATE), (5, .HOME)] := by
    decide
  let selected : Member := { annCall.account with isSelected := true, value := js "5" }
  have hServed : (run (opened ++ [.effect 0] ++ [.serve 0])).map (fun s => s.served) =
      some [.create (.fetchMembers 8 (some [selected]))] := by decide
  have hShown : (run (opened ++ [.effect 0] ++ [.serve 0] ++ [.resolve 0])).map
      (fun s => s.ui.focused) = some
        ⟨8, .CREATE { createdDate := 0, endDate := 0, membersList := [selected] }⟩ := by
    decide
  rw [hm₀, Option.map_some, Option.some.injEq] at hNext
  rw [hm₁, Option.map_some, Option.some.injEq] at hOpened
  rw [hm₃, Option.map_some, Option.some.injEq] at hServed
  rw [hRun, Option.map_some, Option.some.injEq] at hShown
  have hMounts : Mounts (m₀, .user (.home (.createTask (0, 0)))) .CREATE 8 :=
    ⟨hNext.symm, m₁, app.step_of_exec_snoc hm₀ hm₁, by simp [hOpened]⟩
  have hEmpty := (hNoLeak _ s hRun (by decide) _ _ _ 8 hTrace hMounts).1
  have hList := hEmpty [(m₁, .effect 0), (m₂, .serve 0)] (m₃, .resolve 0) [] _ rfl
    (by simp [Finishes]) ⟨0, rfl, by rw [hServed]; rfl⟩ s (app.step_of_exec_snoc hm₃ hRun)
    _ List.mem_cons_self (by rw [hShown]) _ (by rw [hShown])
  simp at hList

end TaskManager.Runs
