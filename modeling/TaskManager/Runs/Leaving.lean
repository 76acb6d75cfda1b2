import Mathlib.Data.List.Nodup
import TaskManager.App.Visits
import TaskManager.Runs.Screens
import TaskManager.Verified.Progress

/-!
# Leaving `MembersList`

`MembersList` is left by `goBack`, which Save calls once its write is done and
the arrow at once.  Each of these calls pops whatever is focused when it comes,
so the presses of one visit are counted: `visiting_exec` says that every press has
popped once or is still to do so, and `returns_to_create_iff` that the visit ends
on the `TaskCreation` it was opened from exactly when there was one press.
`returns_to_create_run` says so of the runs of the application in which the list is
left while it has the focus: they are visits, by `visit_of_step`.
-/

namespace TaskManager.Runs

open TaskManager.Verified.JsText
open TaskManager.Verified.EventLoop
open TaskManager.Shared
open TaskManager.Pages
open TaskManager.Routes
open TaskManager.App

/-! ## A visit -/

/-- The two ways of leaving.  Save writes the list that its handler closed over. -/
inductive Press where
  | save (list : List Member)
  | arrow
  deriving DecidableEq, Repr

/-- The handler of a press, on the screen instance `key`. -/
def leave (key : Nat) : Press → Effect MembersList.State MembersList.Await
  | .save list => { requests := [.handleSubmit key list] }
  | .arrow => { navigate := some .goBack }

/-- The application during a visit, as far as the user leaves the list.  A press
that comes when the list is no longer focused, or no longer mounted, runs its
handler all the same. -/
def visit (key : Nat) : Program Disk Await Ready Ui Press where
  serve := serve
  resume := resume
  handle e ui := some ((counted ui).perform Screen.onList .list key (leave key e))
  launch := launch

/-- The steps of a visit. -/
abbrev VisitAction := TaskManager.Verified.EventLoop.Action Press

/-- The step belongs to the visit: only its own Saves navigate, none of them is
refused, and the process lives on.  Loads may complete in between. -/
def InVisit (key : Nat) (p : State × VisitAction) : Prop :=
  match p.2 with
  | .resolve i => ∀ r ∈ p.1.served[i]?, navOf r = none ∨ r = .list (.handleSubmit key)
  | .reject i => ∀ a ∈ p.1.pending[i]?, isSave key a = false
  | .kill => False
  | _ => True

instance (key : Nat) : DecidablePred (InVisit key)
  | (_, .user _) => .isTrue trivial
  | (_, .effect _) => .isTrue trivial
  | (_, .serve _) => .isTrue trivial
  | (s, .resolve i) => inferInstanceAs (Decidable (∀ r ∈ s.served[i]?,
      navOf r = none ∨ r = .list (.handleSubmit key)))
  | (s, .reject i) => inferInstanceAs (Decidable (∀ a ∈ s.pending[i]?, isSave key a = false))
  | (_, .kill) => .isFalse id

/-- The user presses Save or the arrow. -/
def isPress : VisitAction → Bool
  | .user _ => true
  | _ => false

/-- How often Save or the arrow was pressed. -/
def presses (vs : List VisitAction) : Nat := vs.countP isPress

/-- The step belongs to a visit in which the list `key` is left while it has the
focus. -/
def LeavesList (key : Nat) (p : State × Action) : Prop :=
  match p.2 with
  | .user e => p.1.ui.focused.key = key ∧ (e = .list .handleSubmit ∨ e = .list .arrow)
  | .resolve i => ∀ r ∈ p.1.served[i]?, navOf r = none ∨ r = .list (.handleSubmit key)
  | .reject i => ∀ a ∈ p.1.pending[i]?, isSave key a = false
  | .kill => False
  | _ => True

/-- What the application does while the list is focused and its user only leaves
it is a visit. -/
theorem visit_of_step {key : Nat} {s s' : State} {x : Action} (hx : app.Step s x s')
    (hLeaves : LeavesList key (s, x)) :
    ∃ v, (visit key).Step s v s' ∧ InVisit key (s, v) ∧ isPress v = x.isUser := by
  cases hx with
  | @user e out hOut =>
      obtain ⟨rfl, hList⟩ := hLeaves
      have hPress : ∃ p, out =
          (counted s.ui).perform Screen.onList .list s.ui.focused.key
            (leave s.ui.focused.key p) := by
        rcases hList with rfl | rfl
        · cases handle_cases hOut with
          | @list st _ eff _ hEff => exact ⟨.save st.shown, by rw [← Option.some.inj hEff]; rfl⟩
        · cases handle_cases hOut with
          | @list st _ eff _ hEff => exact ⟨.arrow, by rw [← Option.some.inj hEff]; rfl⟩
      obtain ⟨p, rfl⟩ := hPress
      exact ⟨.user p, .user rfl, trivial, rfl⟩
  | effect hAt => exact ⟨_, .effect hAt, trivial, rfl⟩
  | serve hAt => exact ⟨_, .serve hAt, trivial, rfl⟩
  | resolve hAt => exact ⟨_, .resolve hAt, hLeaves, rfl⟩
  | reject hAt => exact ⟨_, .reject hAt, hLeaves, rfl⟩
  | kill => exact hLeaves.elim

/-- So is a whole run of such steps. -/
theorem visit_of_exec {key : Nat} {s s' : State} {xs : List Action}
    (hRun : app.exec s xs = some s') (hLeaves : ∀ p ∈ app.trace s xs, LeavesList key p) :
    ∃ vs, (visit key).exec s vs = some s' ∧
      (∀ p ∈ (visit key).trace s vs, InVisit key p) ∧ presses vs = xs.countP Action.isUser := by
  induction xs using List.reverseRecOn generalizing s' with
  | nil =>
      obtain rfl := Option.some.inj hRun
      exact ⟨[], rfl, by simp, rfl⟩
  | append_singleton xs x ih =>
      obtain ⟨m, hm, hx⟩ := app.exec_snoc_some hRun
      rw [app.trace_snoc x hm] at hLeaves
      obtain ⟨vs, hVisit, hIn, hPresses⟩ :=
        ih hm fun p hp => hLeaves p (List.mem_append_left _ hp)
      obtain ⟨v, hv, hInV, hPress⟩ := visit_of_step hx (hLeaves (m, x) (by simp))
      refine ⟨vs ++ [v], (visit key).exec_snoc hVisit hv, ?_, ?_⟩
      · rw [(visit key).trace_snoc v hVisit]
        exact forall_mem_snoc hIn hInV
      · rw [presses, List.countP_append, List.countP_append, ← presses, hPresses,
          List.countP_singleton, List.countP_singleton, hPress]

/-! ## What the presses do -/

/-- The invariant of a visit that begins in `s₀` over the `CREATE` instance `opener`:
every press has popped one screen, or its Save is in flight. -/
structure Visiting (key opener : Nat) (st : TaskCreation.State) (s₀ : State)
    (pressed : Nat) (s : State) : Prop where
  popped : ∃ n, labels s.ui = pop^[n] (labels s₀.ui) ∧
    n + s.inFlight (isSave key) (isSaved key) = pressed
  form : KeepsForm opener st s.ui
  loads : ∀ a ∈ s.effects, IsLoad a

section

variable {key opener pressed : Nat} {st : TaskCreation.State} {s₀ s : State}

theorem Visiting.press (h : Visiting key opener st s₀ pressed s) (e : Press) :
    Visiting key opener st s₀ (pressed + 1)
      (s.issue ((counted s.ui).perform Screen.onList .list key (leave key e))) := by
  obtain ⟨n, hLabels, hCount⟩ := h.popped
  have hLoads : ∀ a ∈ (s.issue ((counted s.ui).perform Screen.onList .list key
      (leave key e))).effects, IsLoad a := by
    intro a ha
    rcases List.mem_append.mp ha with hOld | hNew
    · exact h.loads a hOld
    · exact isLoad_of_mem_perform hNew
  cases e with
  | save list =>
      refine ⟨⟨n, ?_, ?_⟩, ?_, hLoads⟩
      · rw [perform_eq, leave, onList_id, modify_id]
        exact hLabels
      · rw [Program.inFlight_issue, requests_perform]
        simp [leave, isSave, ← hCount, Nat.add_assoc]
      · rw [perform_eq, leave, onList_id, modify_id]
        exact h.form
  | arrow =>
      refine ⟨⟨n + 1, ?_, ?_⟩, ?_, hLoads⟩
      · rw [perform_eq, leave, onList_id, modify_id, Function.iterate_succ_apply', ← hLabels]
        exact labels_goBack (counted s.ui)
      · rw [Program.inFlight_issue, requests_perform]
        simp [leave, ← hCount, Nat.add_right_comm]
      · rw [perform_eq, leave, onList_id, modify_id]
        exact h.form.subset (stack_goBack_subset (counted s.ui))

theorem Visiting.resolve {i : Nat} {r : Ready} (h : Visiting key opener st s₀ pressed s)
    (hAt : s.served[i]? = some r) (hNav : navOf r = none ∨ r = .list (.handleSubmit key)) :
    Visiting key opener st s₀ pressed
      ({ s with served := s.served.eraseIdx i }.issue (app.resume r s.ui)) := by
  obtain ⟨n, hLabels, hCount⟩ := h.popped
  obtain ⟨hUi, hEffects⟩ := resume_shape r s.ui
  have hLoads : ∀ a ∈ s.effects ++ (app.resume r s.ui).2.effects, IsLoad a := by
    intro a ha
    rcases List.mem_append.mp ha with hOld | hNew
    · exact h.loads a hOld
    · exact resume_effects hNew
  have hNone : (app.resume r s.ui).2.requests.countP (isSave key) = 0 := by
    rw [List.countP_eq_zero]
    intro a ha
    rw [isSave_of_continued (resume_requests ha)]
    exact Bool.false_ne_true
  have hRest := Program.inFlight_resolve (p := isSave key) (q := isSaved key) hAt
  rcases hNav with hStay | rfl
  · have hOther : isSaved key r = false := by
      rcases r with r | r | r | r | r <;> cases r <;>
        first | rfl | simp [navOf, MembersList.Ready.resume] at hStay
    rw [hStay] at hUi
    refine ⟨⟨n, ?_, ?_⟩, ?_, hLoads⟩
    · show labels (app.resume r s.ui).1 = _
      rw [hUi, labels_tellAll]
      exact hLabels
    · rw [Program.inFlight_issue, hNone]
      rw [hOther] at hRest
      exact hRest ▸ hCount
    · show KeepsForm opener st (app.resume r s.ui).1
      rw [hUi]
      exact h.form.tellAll r
  · have hBack : navOf (.list (.handleSubmit key)) = some .goBack := rfl
    rw [hBack] at hUi
    refine ⟨⟨n + 1, ?_, ?_⟩, ?_, hLoads⟩
    · show labels (app.resume (.list (.handleSubmit key)) s.ui).1 = _
      rw [hUi, labels_tellAll, labels_goBack, Function.iterate_succ_apply', hLabels]
    · rw [Program.inFlight_issue, hNone]
      rw [isSaved, decide_eq_true rfl, if_pos rfl] at hRest
      omega
    · show KeepsForm opener st (app.resume (.list (.handleSubmit key)) s.ui).1
      rw [hUi]
      exact (h.form.subset (stack_goBack_subset s.ui)).tellAll _

theorem Visiting.step {s' : State} {x : VisitAction} (h : Visiting key opener st s₀ pressed s)
    (hx : (visit key).Step s x s') (hIn : InVisit key (s, x)) :
    Visiting key opener st s₀ (pressed + if isPress x then 1 else 0) s' := by
  cases hx with
  | user hOut =>
      rw [← Option.some.inj hOut]
      exact h.press _
  | @effect i a hAt =>
      refine ⟨?_, h.form, fun b hb => h.loads b (List.mem_of_mem_eraseIdx hb)⟩
      obtain ⟨n, hLabels, hCount⟩ := h.popped
      refine ⟨n, hLabels, ?_⟩
      rw [Program.inFlight_effect, isSave_of_isLoad (h.loads a (List.mem_of_getElem? hAt))]
      exact hCount
  | serve hAt =>
      refine ⟨?_, h.form, h.loads⟩
      obtain ⟨n, hLabels, hCount⟩ := h.popped
      refine ⟨n, hLabels, ?_⟩
      rw [Program.inFlight_serve (P := visit key) (isSaved_serve key) hAt]
      exact hCount
  | resolve hAt => exact h.resolve hAt (hIn _ hAt)
  | @reject i a hAt =>
      refine ⟨?_, h.form, h.loads⟩
      obtain ⟨n, hLabels, hCount⟩ := h.popped
      refine ⟨n, hLabels, ?_⟩
      have hRest := Program.inFlight_reject (p := isSave key) (q := isSaved key) hAt
      rw [hIn a hAt, if_neg Bool.false_ne_true, Nat.add_zero] at hRest
      rw [hRest]
      exact hCount
  | kill => exact hIn.elim

end

/-- **Every press pops once**, or its Save is still in flight. -/
theorem visiting_exec {key opener : Nat} {st : TaskCreation.State} {s₀ s : State}
    {vs : List VisitAction} (hStart : Visiting key opener st s₀ 0 s₀)
    (hRun : (visit key).exec s₀ vs = some s)
    (hIn : ∀ p ∈ (visit key).trace s₀ vs, InVisit key p) :
    Visiting key opener st s₀ (presses vs) s := by
  have hTrace := (visit key).exec_induction (fun s x => InVisit key (s, x))
    (fun h s => Visiting key opener st s₀ (presses (h.map Prod.snd)) s) hStart
    (fun h s x s' _ hOk hInv hx => by
      have hNext := hInv.step hx hOk
      simpa [presses, List.countP_singleton] using hNext)
    hIn hRun
  rwa [Program.trace_actions hRun] at hTrace

/-! ## Where the visit ends -/

/-- The `CREATE` of `s` is focused in `s'`, with its form as it was. -/
def Returned (s : State) (st : TaskCreation.State) (s' : State) : Prop :=
  ∃ st', s'.ui.focused = ⟨s.ui.focused.key, .CREATE st'⟩ ∧ SameForm st st'

/-- A route under the top of the stack. -/
theorem below_ne_nil {s : State} {st : TaskCreation.State} (hReach : Reachable s)
    (hScreen : s.ui.focused.screen = .CREATE st) : s.ui.below ≠ [] := by
  intro hBelow
  obtain ⟨xs, hRun⟩ := hReach
  have hRoot := (grounded_run hRun).root .CREATE (by
    simp [Ui.names, Ui.stack, hBelow, hScreen, Screen.name])
  simp at hRoot

theorem visiting_opened {s s₀ : State} {st : TaskCreation.State} (hReach : Reachable s)
    (hScreen : s.ui.focused.screen = .CREATE st)
    (hOpen : app.Step s (.user (.create .addMembers)) s₀) :
    Visiting s.ui.nextKey s.ui.focused.key st s₀ 0 s₀ := by
  have hReach₀ := hReach.step hOpen
  obtain ⟨xs, hRun⟩ := hReach
  have hKeys := keysBelow_run hRun
  have hStart := list_opened hScreen (list_notMem_names hRun (by rw [hScreen]; rfl)) hOpen
  have hUi : s₀.ui = listOver s.ui := by rw [hStart]
  refine ⟨⟨0, rfl, ?_⟩, ?_, ?_⟩
  · rw [Nat.zero_add, Program.inFlight_eq_zero_iff, hStart]
    constructor
    · intro a ha
      by_contra hSave
      have hLt := hKeys.pending a ha s.ui.nextKey (awaitKey_of_isSave (by simpa using hSave))
      exact absurd hLt (Nat.lt_irrefl _)
    · intro r hr
      by_contra hSaved
      have hLt := hKeys.served r hr s.ui.nextKey (readyKey_of_isSaved (by simpa using hSaved))
      exact absurd hLt (Nat.lt_irrefl _)
  · intro r hr hKey
    rw [hUi] at hr
    have hOpener : s.ui.focused.key < s.ui.nextKey := hKeys.fresh.below _ List.mem_cons_self
    rcases List.mem_cons.mp hr with rfl | hOld
    · have hSame : s.ui.nextKey = s.ui.focused.key := hKey
      omega
    · have hFocus : r = s.ui.focused :=
        List.inj_on_of_nodup_map hKeys.fresh.nodup hOld List.mem_cons_self hKey
      exact ⟨st, by rw [hFocus, hScreen], .refl st⟩
  · obtain ⟨ys, hRun₀⟩ := hReach₀
    exact isLoad_of_mem_effects hRun₀

/-- Once every Save has ended, the presses of the visit have popped one screen each. -/
theorem Visiting.returned_iff {s s₀ s' : State} {st : TaskCreation.State} {pressed : Nat}
    (hEnd : Visiting s.ui.nextKey s.ui.focused.key st s₀ pressed s') (hReach : Reachable s)
    (hScreen : s.ui.focused.screen = .CREATE st)
    (hOpen : app.Step s (.user (.create .addMembers)) s₀)
    (hHandled : s'.inFlight (isSave s.ui.nextKey) (isSaved s.ui.nextKey) = 0)
    (hSome : 1 ≤ pressed) : Returned s st s' ↔ pressed = 1 := by
  obtain ⟨n, hLabels, hCount⟩ := hEnd.popped
  rw [hHandled, Nat.add_zero] at hCount
  subst hCount
  obtain ⟨xs, hPre⟩ := hReach
  have hBelow := below_ne_nil ⟨xs, hPre⟩ hScreen
  have hStart := list_opened hScreen (list_notMem_names hPre (by rw [hScreen]; rfl)) hOpen
  let below := s.ui.below.map fun r => (r.key, r.screen.name)
  have hTop : labels s₀.ui =
      (s.ui.nextKey, .LIST) :: (s.ui.focused.key, .CREATE) :: below := by
    rw [hStart]
    show _ :: (s.ui.focused.key, s.ui.focused.screen.name) :: below = _
    rw [hScreen]
    rfl
  rw [hTop] at hLabels
  have hHead : (s'.ui.focused.key, s'.ui.focused.screen.name) ∈ labels s'.ui :=
    List.mem_cons_self
  constructor
  · rintro ⟨st', hFocus, -⟩
    by_contra hMore
    obtain ⟨m, rfl⟩ : ∃ m, n = m + 2 := ⟨n - 2, by omega⟩
    have hTwo : pop^[2] ((s.ui.nextKey, .LIST) :: (s.ui.focused.key, .CREATE) :: below) =
        below := by
      cases hSome : below with
      | nil => exact absurd (List.map_eq_nil_iff.mp hSome) hBelow
      | cons r rest => rfl
    rw [Function.iterate_add_apply, hTwo] at hLabels
    rw [hLabels] at hHead
    have hUnder := (iterate_pop_suffix m below).subset hHead
    obtain ⟨r, hr, hSame⟩ := List.mem_map.mp hUnder
    have hKey : r.key = s.ui.focused.key := by
      rw [Prod.mk.injEq, hFocus] at hSame
      exact hSame.1
    have hNodup := (keysBelow_run hPre).fresh.nodup
    rw [Ui.stack, List.map_cons, List.nodup_cons] at hNodup
    exact hNodup.1 (hKey ▸ List.mem_map_of_mem hr)
  · intro hOne
    rw [hOne] at hLabels
    have hFocus : (s'.ui.focused.key, s'.ui.focused.screen.name) =
        (s.ui.focused.key, .CREATE) := (List.cons.inj hLabels).1
    rw [Prod.mk.injEq] at hFocus
    obtain ⟨st', hScreen', hForm⟩ := hEnd.form s'.ui.focused List.mem_cons_self hFocus.1
    refine ⟨st', ?_, hForm⟩
    rw [← hFocus.1, ← hScreen']

/-- **Leaving the list returns to the task exactly when it was left once.** -/
theorem returns_to_create_iff (s s₀ s' : State) (st : TaskCreation.State)
    (vs : List VisitAction) (hReach : Reachable s)
    (hScreen : s.ui.focused.screen = .CREATE st)
    (hOpen : app.Step s (.user (.create .addMembers)) s₀)
    (hRun : (visit s.ui.nextKey).exec s₀ vs = some s')
    (hVisit : ∀ p ∈ (visit s.ui.nextKey).trace s₀ vs, InVisit s.ui.nextKey p)
    (hHandled : s'.inFlight (isSave s.ui.nextKey) (isSaved s.ui.nextKey) = 0)
    (hSome : 1 ≤ presses vs) : Returned s st s' ↔ presses vs = 1 :=
  (visiting_exec (visiting_opened hReach hScreen hOpen) hRun hVisit).returned_iff hReach hScreen
    hOpen hHandled hSome

/-- **In the runs of the application**, too: the user events of a run that leaves the list
while it has the focus are the presses. -/
theorem returns_to_create_run {s s₀ s' : State} {st : TaskCreation.State} {xs : List Action}
    (hReach : Reachable s) (hScreen : s.ui.focused.screen = .CREATE st)
    (hOpen : app.Step s (.user (.create .addMembers)) s₀)
    (hRun : app.exec s₀ xs = some s') (hLeaves : ∀ p ∈ app.trace s₀ xs, LeavesList s.ui.nextKey p)
    (hHandled : s'.inFlight (isSave s.ui.nextKey) (isSaved s.ui.nextKey) = 0)
    (hSome : 1 ≤ xs.countP Action.isUser) :
    Returned s st s' ↔ xs.countP Action.isUser = 1 := by
  obtain ⟨vs, hVisit, hIn, hPresses⟩ := visit_of_exec hRun hLeaves
  rw [← hPresses] at hSome ⊢
  exact (visiting_exec (visiting_opened hReach hScreen hOpen) hVisit hIn).returned_iff hReach
    hScreen hOpen hHandled hSome

/-- Cat has begun a task and given it a name. -/
def catNaming : List Action :=
  catAtHome ++ openTask ++ [.user (.create (.changeName (js "Report")))]

/-- The list loads, and she leaves it by the presses. -/
def catVisit (ps : List Press) : List VisitAction :=
  [.effect 0, .serve 0, .resolve 0, .serve 0, .resolve 0] ++ ps.map .user
    ++ ps.flatMap fun _ => [.serve 0, .resolve 0]

/-- Save, as the list stands after its load. -/
def annSave : Press := .save [MembersList.unselected annCall.account]

/-- The visit with these presses happens, stays within the visit and ends on the
screen `name`. -/
def catLeavesList (ps : List Press) (name : RouteName) : Bool :=
  (run (catNaming ++ [.user (.create .addMembers)])).any fun s₀ =>
    ((visit 7).exec s₀ (catVisit ps)).any fun s' =>
      decide (∀ p ∈ (visit 7).trace s₀ (catVisit ps), InVisit 7 p)
        && s'.inFlight (isSave 7) (isSaved 7) = 0 && s'.ui.focused.screen.name = name

theorem catLeavesList_spec {ps : List Press} {name : RouteName} (h : catLeavesList ps name = true) :
    ∃ s s₀ s' st, Reachable s ∧ s.ui.focused.screen = .CREATE st ∧
      st.name.val = js "Report" ∧ app.Step s (.user (.create .addMembers)) s₀ ∧
      (visit s.ui.nextKey).exec s₀ (catVisit ps) = some s' ∧
      (∀ p ∈ (visit s.ui.nextKey).trace s₀ (catVisit ps), InVisit s.ui.nextKey p) ∧
      s'.inFlight (isSave s.ui.nextKey) (isSaved s.ui.nextKey) = 0 ∧
      s'.ui.focused.screen.name = name := by
  rw [catLeavesList, Option.any_eq_true] at h
  obtain ⟨s₀, hOpen, hVisit⟩ := h
  rw [Option.any_eq_true] at hVisit
  obtain ⟨s', hExec, hVisit⟩ := hVisit
  obtain ⟨s, hRun, hStep⟩ := app.exec_snoc_some hOpen
  let st : TaskCreation.State :=
    { name := .typed (js "Report"), createdDate := 0, endDate := 0 }
  have hState : (run catNaming).map (fun s => (s.ui.nextKey, s.ui.focused.screen)) =
      some (7, .CREATE st) := by
    decide
  rw [show run catNaming = some s from hRun, Option.map_some, Option.some.injEq,
    Prod.mk.injEq] at hState
  simp only [Bool.and_eq_true, decide_eq_true_eq] at hVisit
  refine ⟨s, s₀, s', st, ⟨_, hRun⟩, hState.2, rfl, hStep, ?_⟩
  rw [hState.1]
  exact ⟨hExec, hVisit.1.1, hVisit.1.2, hVisit.2⟩

/-- One Save, or the arrow once. -/
theorem returns_to_create_ann :
    ∃ s s' st, s.ui.focused.screen = .CREATE st ∧ st.name.val = js "Report" ∧
      Returned s st s' := by
  obtain ⟨s, s₀, s', st, hReach, hScreen, hName, hOpen, hRun, hVisit, hHandled, -⟩ :=
    catLeavesList_spec (show catLeavesList [annSave] .CREATE = true by decide)
  exact ⟨s, s', st, hScreen, hName,
    (returns_to_create_iff s s₀ s' st _ hReach hScreen hOpen hRun hVisit hHandled
      (by decide)).mpr (by decide)⟩

/-- Save is pressed twice before its first write completes: the second `goBack`
discards the task. -/
theorem second_save_discards :
    ¬ ∀ (s s₀ s' : State) (st : TaskCreation.State) (vs : List VisitAction), Reachable s →
      s.ui.focused.screen = .CREATE st →
      app.Step s (.user (.create .addMembers)) s₀ →
      (visit s.ui.nextKey).exec s₀ vs = some s' →
      (∀ p ∈ (visit s.ui.nextKey).trace s₀ vs, InVisit s.ui.nextKey p) →
      s'.inFlight (isSave s.ui.nextKey) (isSaved s.ui.nextKey) = 0 → 1 ≤ presses vs →
      Returned s st s' := by
  intro h
  obtain ⟨s, s₀, s', st, hReach, hScreen, -, hOpen, hRun, hVisit, hHandled, hHome⟩ :=
    catLeavesList_spec (show catLeavesList [annSave, annSave] .HOME = true by decide)
  obtain ⟨st', hFocus, -⟩ := h s s₀ s' st _ hReach hScreen hOpen hRun hVisit hHandled (by decide)
  rw [hFocus] at hHome
  simp [Screen.name] at hHome

end TaskManager.Runs
