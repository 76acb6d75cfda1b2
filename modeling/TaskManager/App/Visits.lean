import Mathlib.Logic.Function.Iterate
import TaskManager.Verified.InFlight
import TaskManager.App.Operations

/-!
# Visits of `MembersList`

`MembersList` is opened from `TaskCreation` and lies right over it.  This file
follows one visit: `list_opened` says what opening it does.
-/

namespace TaskManager.App

open TaskManager.Shared
open TaskManager.Pages
open TaskManager.Routes
open TaskManager.Verified.EventLoop

/-! ## Opening the list -/

/-- There is at most one `CREATE` on the stack. -/
theorem count_create_moved {ui : Ui} {nav : Option Nav} (h : ui.names.count .CREATE ≤ 1)
    (hAsked : ∀ n, nav = some n → Asked ui n) :
    (moved ui nav).1.names.count .CREATE ≤ 1 := by
  have hBelow : ui.below <:+ ui.stack := List.suffix_cons _ _
  have hSuffix : ∀ rest : List Route, rest <:+ ui.stack →
      (rest.map fun r => r.screen.name).count .CREATE ≤ 1 := fun rest hRest =>
    Nat.le_trans ((suffix_names hRest).sublist.count_le _) h
  have hMoves := moved_moves ui nav
  generalize App.moved ui nav = out at hMoves ⊢
  cases hMoves with
  | stays => exact h
  | back hRest => exact hSuffix _ (hRest.trans hBelow)
  | replaces name =>
      have hName : (Screen.mount (0, 0) name).name ≠ .CREATE := by
        rcases hAsked _ rfl with rfl | rfl | rfl <;> simp [Screen.mount, Screen.name]
      show ((Screen.mount (0, 0) name).name ::
        ui.below.map fun r => r.screen.name).count .CREATE ≤ 1
      rw [List.count_cons_of_ne hName]
      exact hSuffix _ hBelow
  | resets name =>
      obtain rfl : name = .AUTH := hAsked _ rfl
      exact Nat.zero_le 1
  | pushes name dates hNew =>
      show ((Screen.mount dates name).name :: ui.names).count .CREATE ≤ 1
      rcases hAsked _ rfl with rfl | ⟨rfl, -⟩
      · have hNone : RouteName.CREATE ∉ ui.names := by
          intro hMem
          obtain ⟨r, hr, hSame⟩ := List.mem_map.mp hMem
          exact hNew r hr hSame
        show (RouteName.CREATE :: ui.names).count .CREATE ≤ 1
        rw [List.count_cons_self, List.count_eq_zero.mpr hNone]
      · show (RouteName.LIST :: ui.names).count .CREATE ≤ 1
        rw [List.count_cons_of_ne (by simp)]
        exact h

/-- There is one `CREATE` on the stack at most. -/
theorem count_create_run {xs : List Action} {s : State} (hRun : run xs = some s) :
    s.ui.names.count .CREATE ≤ 1 := by
  refine app.exec_invariant (fun s => s.ui.names.count .CREATE ≤ 1) ?_ ?_ hRun
  · exact Nat.zero_le 1
  · intro s x s' hInv hx
    cases stackStep_of_step hx with
    | still hUi _ _ => rwa [hUi]
    | follows h hUi _ _ =>
        rw [hUi, names_eq_labels, h.labels, ← names_eq_labels]
        exact count_create_moved hInv h.asked
    | kill => exact Nat.zero_le 1

/-- Under a focused `CREATE` there is no `LIST`. -/
theorem list_notMem_names {xs : List Action} {s : State} (hRun : run xs = some s)
    (hName : s.ui.focused.screen.name = .CREATE) : .LIST ∉ s.ui.names := by
  intro hMem
  have hNames : s.ui.names = .CREATE :: s.ui.below.map fun r => r.screen.name := by
    rw [Ui.names, Ui.stack, List.map_cons, hName]
  obtain ⟨above, below, hSplit⟩ := List.append_of_mem hMem
  have hUnder : RouteName.CREATE ∈ below := (grounded_run hRun).nested above below hSplit
  have hOnce := count_create_run hRun
  cases above with
  | nil =>
      rw [hNames, List.nil_append] at hSplit
      simp at hSplit
  | cons name above =>
      rw [hNames, List.cons_append, List.cons.injEq] at hSplit
      obtain ⟨rfl, hRest⟩ := hSplit
      have hTwo : 1 ≤ below.count .CREATE := List.count_pos_iff.mpr hUnder
      rw [hNames, hRest, List.count_cons_self, List.count_append,
        List.count_cons_of_ne (by simp)] at hOnce
      omega

/-- The screens with a fresh `LIST` over them. -/
def listOver (ui : Ui) : Ui :=
  { counted ui with
    focused := ⟨ui.nextKey, .LIST {}⟩
    below := ui.stack
    nextKey := ui.nextKey + 1 }

/-- `Add Members` mounts `LIST` over `CREATE` and schedules its load. -/
theorem list_opened {s s' : State} {st : TaskCreation.State}
    (hScreen : s.ui.focused.screen = .CREATE st) (hNone : .LIST ∉ s.ui.names)
    (hOpen : app.Step s (.user (.create .addMembers)) s') :
    s' = { s with
      ui := listOver s.ui
      effects := s.effects ++ [.list (.getDraft s.ui.nextKey)] } := by
  have hBelow : (counted s.ui).below.dropWhile (fun r => decide (r.screen.name ≠ .LIST)) = [] := by
    rw [List.dropWhile_eq_nil_iff]
    intro r hr
    rw [decide_eq_true_eq]
    rintro hName
    exact hNone (List.mem_map.mpr ⟨r, List.mem_cons_of_mem _ hr, hName⟩)
  have hName : (counted s.ui).focused.screen.name ≠ .LIST := by
    simp [counted, hScreen, Screen.name]
  have hMoved : moved (counted s.ui) (some (.navigate .LIST)) =
      (listOver s.ui, [.list (.getDraft s.ui.nextKey)]) := by
    rw [moved, Ui.navigate, if_neg hName, hBelow]
    rfl
  have hHandle : app.handle (.create .addMembers) s.ui =
      some (listOver s.ui, { effects := [.list (.getDraft s.ui.nextKey)] }) := by
    simp only [app, App.handle, hScreen, TaskCreation.handle]
    rw [perform_eq, hMoved, onCreate_id, modify_id]
    rfl
  rw [hOpen.user_eq hHandle]
  simp [State.issue]

/-! ## Saves -/

/-- A Save of the list `key`. -/
def isSave (key : Nat) : Await → Bool
  | .list (.handleSubmit key' _) => key' = key
  | _ => false

/-- A Save of the list `key` that has been performed. -/
def isSaved (key : Nat) : Ready → Bool
  | .list (.handleSubmit key') => key' = key
  | _ => false

/-- A served request is a Save when it was one before. -/
theorem isSaved_serve (key : Nat) (a : Await) (d : Disk) :
    isSaved key (app.serve a d).2 = isSave key a := by
  rcases a with a | a | a | a | a <;> cases a <;> rfl

/-- No continuation saves. -/
theorem isSave_of_continued {key : Nat} {r : Ready} {a : Await} (h : Continued r a) :
    isSave key a = false := by
  cases h <;> rfl

theorem isSave_of_isLoad {key : Nat} {a : Await} (h : IsLoad a) : isSave key a = false := by
  cases h <;> rfl

/-- A Save is a request of its list. -/
theorem awaitKey_of_isSave {key : Nat} {a : Await} (h : isSave key a = true) :
    awaitKey a = some key := by
  unfold isSave at h
  split at h
  · rw [← of_decide_eq_true h]
    rfl
  · simp at h

theorem readyKey_of_isSaved {key : Nat} {r : Ready} (h : isSaved key r = true) :
    readyKey r = some key := by
  unfold isSaved at h
  split at h
  · rw [← of_decide_eq_true h]
    rfl
  · simp at h

/-! ## Going back -/

/-- Take the top off a stack, unless it is the last of it. -/
def pop {α : Type} : List α → List α
  | _ :: b :: rest => b :: rest
  | l => l

theorem pop_suffix {α : Type} (l : List α) : pop l <:+ l := by
  match l with
  | [] => exact List.suffix_refl _
  | [a] => exact List.suffix_refl _
  | a :: b :: rest => exact List.suffix_cons a _

theorem iterate_pop_suffix {α : Type} (n : Nat) (l : List α) : pop^[n] l <:+ l := by
  induction n with
  | zero => exact List.suffix_refl l
  | succ n ih =>
      rw [Function.iterate_succ_apply']
      exact (pop_suffix _).trans ih

/-- Going back pops the stack. -/
theorem labels_goBack (ui : Ui) : labels (moved ui (some .goBack)).1 = pop (labels ui) := by
  cases hBelow : ui.below <;> simp [moved, Ui.navigate, hBelow, Ui.refocus, labels, Ui.stack, pop]

theorem stack_goBack_subset (ui : Ui) : (moved ui (some .goBack)).1.stack ⊆ ui.stack := by
  cases hBelow : ui.below <;> simp [moved, Ui.navigate, hBelow, Ui.refocus, Ui.stack]

/-! ## The form underneath -/

/-- What the user has typed and picked on `TaskCreation`. -/
structure SameForm (st st' : TaskCreation.State) : Prop where
  name : st'.name = st.name
  desc : st'.desc = st.desc
  createdDate : st'.createdDate = st.createdDate
  endDate : st'.endDate = st.endDate

theorem SameForm.refl (st : TaskCreation.State) : SameForm st st := ⟨rfl, rfl, rfl, rfl⟩

theorem SameForm.trans {st st' st'' : TaskCreation.State} (h : SameForm st st')
    (h' : SameForm st' st'') : SameForm st st'' :=
  ⟨h'.name.trans h.name, h'.desc.trans h.desc, h'.createdDate.trans h.createdDate,
    h'.endDate.trans h.endDate⟩

/-- The screen instance `key`, where it is on the stack, is a `CREATE` with the
form `st`. -/
def KeepsForm (key : Nat) (st : TaskCreation.State) (ui : Ui) : Prop :=
  ∀ r ∈ ui.stack, r.key = key → ∃ st', r.screen = .CREATE st' ∧ SameForm st st'

/-- A form is kept when screens go. -/
theorem KeepsForm.subset {key : Nat} {st : TaskCreation.State} {ui ui' : Ui}
    (h : KeepsForm key st ui) (hStack : ui'.stack ⊆ ui.stack) : KeepsForm key st ui' :=
  fun r hr => h r (hStack hr)

/-- No continuation touches the form. -/
theorem told_form (r : Ready) (key : Nat) (st : TaskCreation.State) :
    ∃ st', told r key (.CREATE st) = .CREATE st' ∧ SameForm st st' := by
  cases r with
  | login r => exact ⟨st, by simp [told, Screen.onLogin], .refl st⟩
  | signup r => exact ⟨st, by simp [told, Screen.onSignup], .refl st⟩
  | home r => exact ⟨st, by simp [told, Screen.onHome], .refl st⟩
  | create r =>
      cases r with
      | fetchMembers key' list =>
          by_cases hKey : key = key'
          · exact ⟨{ st with membersList := TaskCreation.requiredMembers list },
              by simp [told, hKey, Screen.onCreate, TaskCreation.Ready.resume], rfl, rfl, rfl, rfl⟩
          · exact ⟨st, by simp [told, hKey], .refl st⟩
      | handleBack => exact ⟨st, rfl, .refl st⟩
  | list r => exact ⟨st, by simp [told, Screen.onList], .refl st⟩

/-- A form is kept when the screens are told of a report. -/
theorem KeepsForm.tellAll {key : Nat} {st : TaskCreation.State} {ui : Ui}
    (h : KeepsForm key st ui) (r : Ready) : KeepsForm key st (tellAll r ui) := by
  intro route hRoute hKey
  rw [stack_tellAll, List.mem_map] at hRoute
  obtain ⟨old, hOld, rfl⟩ := hRoute
  obtain ⟨st₁, hScreen, hSame⟩ := h old hOld hKey
  obtain ⟨st₂, hTold, hSame'⟩ := told_form r old.key st₁
  refine ⟨st₂, ?_, hSame.trans hSame'⟩
  rw [← hTold, ← hScreen]
  rfl

end TaskManager.App
