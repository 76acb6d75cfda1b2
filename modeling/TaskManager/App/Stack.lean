import Mathlib.Data.List.TakeWhile
import TaskManager.App.Steps

/-!
# The stack and the keys of its screens

`moved_moves` says what the navigation of a handler does to the stack: nothing,
or it goes back to a route below, or it mounts a fresh screen over some of the
routes.  Keys are given out in order, so that every key in use is below the
next one and no two routes share one: `keysBelow_run`, for every order of steps.
-/

namespace TaskManager.App

open TaskManager.Shared
open TaskManager.Pages
open TaskManager.Routes
open TaskManager.Verified.EventLoop

/-! ## Moves -/

/-- What the navigation of a handler can do, with the callbacks it schedules. -/
inductive Moves (ui : Ui) : Option Nav → Ui × List Await → Prop
  | stays {nav : Option Nav} : Moves ui nav (ui, [])
  | back {nav : Option Nav} {r : Route} {rest : List Route} (h : r :: rest <:+ ui.below) :
      Moves ui nav (ui.refocus r rest)
  | replaces (name : RouteName) :
      Moves ui (some (.replace name)) (ui.mountOver name (0, 0) ui.below)
  | resets (name : RouteName) : Moves ui (some (.reset name)) (ui.mountOver name (0, 0) [])
  | pushes (name : RouteName) (dates : Nat × Nat)
      (hNew : ∀ r ∈ ui.stack, r.screen.name ≠ name) :
      Moves ui (some (.navigate name dates)) (ui.mountOver name dates ui.stack)

/-- What a call on `navigation` does, in one of the ways of `Moves`. -/
theorem moved_moves (ui : Ui) (nav : Option Nav) : Moves ui nav (moved ui nav) := by
  rcases nav with _ | name | ⟨name, dates⟩ | name | _
  · exact .stays
  · exact .replaces name
  · simp only [moved, Ui.navigate]
    split
    · exact .stays
    · rename_i hName
      split
      · rename_i hNone
        refine .pushes name dates ?_
        rw [List.dropWhile_eq_nil_iff] at hNone
        intro r hr
        rcases List.mem_cons.mp hr with rfl | hBelow
        · exact hName
        · simpa using hNone r hBelow
      · rename_i r rest hFound
        exact .back (hFound ▸ List.dropWhile_suffix _)
  · exact .resets name
  · simp only [moved, Ui.navigate]
    split
    · exact .stays
    · rename_i r rest hBelow
      exact .back (hBelow ▸ List.suffix_refl _)

/-! ## What a step does to the stack -/

/-- The navigation a continuation asks for. -/
def navOf : Ready → Option Nav
  | .login r => r.resume.navigate
  | .signup r => r.resume.navigate
  | .home r => r.resume.navigate
  | .create _ => none
  | .list r => r.resume.navigate

/-- What a continuation sets on the screen instance `key`. -/
def told (r : Ready) (key : Nat) (screen : Screen) : Screen :=
  match r with
  | .login r => if key = r.key then screen.onLogin r.resume.update else screen
  | .signup r => if key = r.key then screen.onSignup r.resume.update else screen
  | .home r => if key = r.key then screen.onHome r.resume.update else screen
  | .create (.fetchMembers key' list) =>
      if key = key' then
        screen.onCreate (TaskCreation.Ready.fetchMembers key' list).resume.update
      else screen
  | .create .handleBack => screen
  | .list r => if key = r.key then screen.onList r.resume.update else screen

/-- A continuation does not change the kind of a screen. -/
theorem name_told (r : Ready) (key : Nat) (screen : Screen) :
    (told r key screen).name = screen.name := by
  unfold told
  repeat' split
  all_goals simp

/-- A mounted screen after a continuation. -/
def tellRoute (r : Ready) (route : Route) : Route :=
  { route with screen := told r route.key route.screen }

/-- All mounted screens after a continuation that does not move. -/
def tellAll (r : Ready) (ui : Ui) : Ui :=
  { ui with focused := tellRoute r ui.focused, below := ui.below.map (tellRoute r) }

theorem stack_tellAll (r : Ready) (ui : Ui) :
    (tellAll r ui).stack = ui.stack.map (tellRoute r) := rfl

/-- The setters of one instance, as what a continuation tells to all. -/
theorem modify_eq_tellAll {r : Ready} {key : Nat} {f : Screen → Screen} (ui : Ui)
    (h : ∀ k screen, told r k screen = if k = key then f screen else screen) :
    ui.modify key f = tellAll r ui := by
  have hOne : ∀ route : Route,
      (if route.key = key then { route with screen := f route.screen } else route) =
        tellRoute r route := by
    intro route
    rw [tellRoute, h]
    split <;> rfl
  simp [Ui.modify, tellAll, hOne]

/-- A continuation moves the focus, and then sets the state of its screen. -/
theorem resume_shape (r : Ready) (ui : Ui) :
    (app.resume r ui).1 = tellAll r (moved ui (navOf r)).1 ∧
      (app.resume r ui).2.effects = (moved ui (navOf r)).2 := by
  cases r with
  | login r =>
      rw [resume_login, perform_eq]
      exact ⟨modify_eq_tellAll _ fun _ _ => rfl, rfl⟩
  | signup r =>
      rw [resume_signup, perform_eq]
      exact ⟨modify_eq_tellAll _ fun _ _ => rfl, rfl⟩
  | home r =>
      rw [resume_home, perform_eq]
      exact ⟨modify_eq_tellAll _ fun _ _ => rfl, rfl⟩
  | create r =>
      cases r with
      | fetchMembers key list =>
          rw [resume_fetchMembers, perform_eq]
          exact ⟨modify_eq_tellAll _ fun _ _ => rfl, rfl⟩
      | handleBack =>
          refine ⟨?_, rfl⟩
          have hSame : tellRoute (.create .handleBack) = id := rfl
          simp [app, App.resume, tellAll, moved, navOf, hSame]
  | list r =>
      rw [resume_list, perform_eq]
      exact ⟨modify_eq_tellAll _ fun _ _ => rfl, rfl⟩

/-- The navigation the screens ask for: `MembersList` is opened from
`TaskCreation` only, and neither of the two ever takes another screen's place. -/
def Asked (ui : Ui) : Nav → Prop
  | .replace name => name = .HOME ∨ name = .LOGIN ∨ name = .SIGNUP
  | .reset name => name = .AUTH
  | .navigate name _ => name = .CREATE ∨ (name = .LIST ∧ ui.focused.screen.name = .CREATE)
  | .goBack => True

/-- What a continuation asks for is among these. -/
theorem asked_navOf {r : Ready} {nav : Nav} (ui : Ui) (h : navOf r = some nav) :
    Asked ui nav := by
  cases r with
  | login r =>
      cases r with
      | isUserLoggedIn key info =>
          simp only [navOf, Login.Ready.resume] at h
          split at h
          · rw [← Option.some.inj h]
            exact Or.inl rfl
          · simp at h
      | getUsers call data =>
          obtain ⟨-, hEff⟩ | ⟨_, -, -, hEff⟩ := Login.afterUsers_cases call data
          · simp [navOf, Login.Ready.resume, hEff] at h
          · simp [navOf, Login.Ready.resume, hEff] at h
      | setLoggedIn call record =>
          rw [← Option.some.inj h]
          exact Or.inl rfl
  | signup r =>
      cases r with
      | getUsers call data =>
          obtain ⟨-, hEff⟩ | ⟨-, hEff⟩ := Signup.afterUsers_cases call data
          · simp [navOf, Signup.Ready.resume, hEff] at h
          · simp [navOf, Signup.Ready.resume, hEff] at h
      | setUsers call => simp [navOf, Signup.Ready.resume] at h
      | setLoggedIn call =>
          rw [← Option.some.inj h]
          exact Or.inl rfl
  | home r =>
      cases r with
      | getUserInfo key info => simp [navOf, Home.Ready.resume] at h
      | logout id key =>
          rw [← Option.some.inj h]
          rfl
  | create r => simp [navOf] at h
  | list r =>
      cases r with
      | getDraft key list =>
          rcases list with _ | _ | ⟨m, ms⟩ <;>
            simp [navOf, MembersList.Ready.resume, MembersList.afterDraft,
              MembersList.finish] at h
      | getMembers key list => simp [navOf, MembersList.Ready.resume, MembersList.finish] at h
      | handleSubmit key =>
          rw [← Option.some.inj h]
          trivial

theorem modify_id (ui : Ui) (key : Nat) : ui.modify key id = ui := by
  have hOne : ∀ r : Route, (if r.key = key then { r with screen := id r.screen } else r) = r := by
    intro r
    split <;> rfl
  simp only [Ui.modify, hOne, List.map_id']

@[simp] theorem onLogin_id : Screen.onLogin id = id := by
  funext screen
  unfold Screen.onLogin
  split <;> rfl

@[simp] theorem onSignup_id : Screen.onSignup id = id := by
  funext screen
  unfold Screen.onSignup
  split <;> rfl

@[simp] theorem onHome_id : Screen.onHome id = id := by
  funext screen
  unfold Screen.onHome
  split <;> rfl

@[simp] theorem onCreate_id : Screen.onCreate id = id := by
  funext screen
  unfold Screen.onCreate
  split <;> rfl

@[simp] theorem onList_id : Screen.onList id = id := by
  funext screen
  unfold Screen.onList
  split <;> rfl

theorem key_focused_modify (ui : Ui) (key : Nat) (f : Screen → Screen) :
    (ui.modify key f).focused.key = ui.focused.key := by
  simp only [Ui.modify]
  split <;> rfl

/-- A user event moves the focus, and then sets the state of its screen. -/
theorem handle_shape {ui : Ui} {e : Event} {out : Ui × Issued Await}
    (h : app.handle e ui = some out) :
    ∃ nav f, out.1 = (moved (counted ui) nav).1.modify ui.focused.key f ∧
      out.2.effects = (moved (counted ui) nav).2 ∧ (∀ n, nav = some n → Asked ui n) ∧
      ∀ screen, (f screen).name = screen.name := by
  cases handle_cases h with
  | @login s e eff hs hEff =>
      rw [perform_eq]
      refine ⟨_, _, rfl, rfl, fun n hNav => ?_, name_onLogin _⟩
      rcases Login.handle_navigate hEff with hNone | hLink
      · simp [hNone] at hNav
      · rw [hLink, Option.some.injEq] at hNav
        exact hNav ▸ Or.inr (Or.inr rfl)
  | @signup s e hs =>
      rw [perform_eq]
      refine ⟨_, _, rfl, rfl, fun n hNav => ?_, name_onSignup _⟩
      rcases Signup.handle_navigate ui.focused.key ui.nextCall s e with hNone | hLink
      · simp [hNone] at hNav
      · rw [hLink, Option.some.injEq] at hNav
        exact hNav ▸ Or.inr (Or.inl rfl)
  | @home s e hs =>
      rw [perform_eq]
      refine ⟨_, _, rfl, rfl, fun n hNav => ?_, name_onHome _⟩
      cases e with
      | logout => simp [Home.handle] at hNav
      | createTask dates =>
          rw [← Option.some.inj hNav]
          exact Or.inl rfl
  | @create s e hs =>
      rw [perform_eq]
      refine ⟨_, _, rfl, rfl, fun n hNav => ?_, name_onCreate _⟩
      have hName : ui.focused.screen.name = .CREATE := by rw [hs]; rfl
      cases e with
      | addMembers =>
          rw [← Option.some.inj hNav]
          exact Or.inr ⟨rfl, hName⟩
      | handleBack =>
          rw [← Option.some.inj hNav]
          trivial
      | changeName val => simp [TaskCreation.handle] at hNav
      | changeDesc val => simp [TaskCreation.handle] at hNav
      | pressLabel p => simp [TaskCreation.handle] at hNav
      | pressDate p => simp [TaskCreation.handle] at hNav
      | confirm p date => simp [TaskCreation.handle] at hNav
      | cancel p => simp [TaskCreation.handle] at hNav
  | @list s e eff hs hEff =>
      rw [perform_eq]
      refine ⟨_, _, rfl, rfl, fun n hNav => ?_, name_onList _⟩
      rcases MembersList.handle_navigate hEff with hNone | ⟨-, hArrow⟩
      · simp [hNone] at hNav
      · rw [hArrow, Option.some.injEq] at hNav
        exact hNav ▸ trivial
  | systemBack =>
      refine ⟨some .goBack, id, ?_, rfl, fun n hNav => ?_, fun _ => rfl⟩
      · rw [modify_id]
        rfl
      · exact Option.some.inj hNav ▸ trivial

@[simp] theorem names_modify (ui : Ui) (key : Nat) {f : Screen → Screen}
    (hf : ∀ screen, (f screen).name = screen.name) : (ui.modify key f).names = ui.names := by
  have hOne : ∀ r : Route,
      (if r.key = key then { r with screen := f r.screen } else r).screen.name =
        r.screen.name := by
    intro r
    split
    · exact hf r.screen
    · rfl
  simp [Ui.names, Ui.stack, Ui.modify, hOne]

/-- The routes on the stack without their states. -/
def labels (ui : Ui) : List (Nat × RouteName) := ui.stack.map fun r => (r.key, r.screen.name)

theorem names_eq_labels (ui : Ui) : ui.names = (labels ui).map Prod.snd := by
  simp [Ui.names, labels]

/-- Setters keep the keys and the names. -/
theorem labels_modify (ui : Ui) (key : Nat) {f : Screen → Screen}
    (hf : ∀ screen, (f screen).name = screen.name) : labels (ui.modify key f) = labels ui := by
  have hOne : ∀ r : Route,
      ((if r.key = key then { r with screen := f r.screen } else r).key,
          (if r.key = key then { r with screen := f r.screen } else r).screen.name) =
        (r.key, r.screen.name) := by
    intro r
    split
    · exact congrArg (Prod.mk r.key) (hf r.screen)
    · rfl
  simp [labels, Ui.stack, Ui.modify, hOne]

theorem labels_tellAll (r : Ready) (ui : Ui) : labels (tellAll r ui) = labels ui := by
  simp [labels, Ui.stack, tellAll, tellRoute, name_told]

/-- The numbers of presses have no part in moves. -/
theorem moved_renumber (ui : Ui) (n : Nat) (nav : Option Nav) :
    moved { ui with nextCall := n } nav =
      ({ (moved ui nav).1 with nextCall := n }, (moved ui nav).2) := by
  rcases nav with _ | name | ⟨name, dates⟩ | name | _
  · rfl
  · rfl
  · by_cases hName : ui.focused.screen.name = name
    · simp [moved, Ui.navigate, hName]
    · simp only [moved, Ui.navigate, hName, if_false]
      generalize ui.below.dropWhile (fun r => r.screen.name ≠ name) = found
      cases found <;> rfl
  · rfl
  · cases hBelow : ui.below <;> simp [moved, Ui.navigate, hBelow, Ui.refocus]

/-- The stack after a stretch of a handler, and the callbacks it schedules, are
those of its navigation. -/
structure Follows (ui : Ui) (nav : Option Nav) (out : Ui × Issued Await) : Prop where
  asked : ∀ n, nav = some n → Asked ui n
  labels : labels out.1 = labels (moved ui nav).1
  nextKey : out.1.nextKey = (moved ui nav).1.nextKey
  effects : out.2.effects = (moved ui nav).2

/-- A user event moves the stack by a call on `navigation`, if at all. -/
theorem handle_follows {ui : Ui} {e : Event} {out : Ui × Issued Await}
    (h : app.handle e ui = some out) : ∃ nav, Follows ui nav out := by
  obtain ⟨nav, f, hUi, hEffects, hAsked, hf⟩ := handle_shape h
  rw [counted, moved_renumber] at hUi hEffects
  refine ⟨nav, hAsked, ?_, ?_, hEffects⟩
  · rw [hUi, labels_modify _ _ hf]
    rfl
  · rw [hUi]
    rfl

/-- So does a continuation. -/
theorem resume_follows (r : Ready) (ui : Ui) : Follows ui (navOf r) (app.resume r ui) := by
  obtain ⟨hUi, hEffects⟩ := resume_shape r ui
  refine ⟨fun n hNav => asked_navOf ui hNav, ?_, ?_, hEffects⟩
  · rw [hUi, labels_tellAll]
  · rw [hUi]
    rfl

/-- What a step does to the stack and to the callbacks that are due. -/
inductive StackStep (s : State) : Action → State → Prop
  | still {x s'} (hUi : s'.ui = s.ui) (hEffects : s'.effects ⊆ s.effects) (hKill : x ≠ .kill) :
      StackStep s x s'
  | follows {x s' nav out} (h : Follows s.ui nav out) (hUi : s'.ui = out.1)
      (hEffects : s'.effects = s.effects ++ out.2.effects) (hKill : x ≠ .kill) :
      StackStep s x s'
  | kill : StackStep s .kill (app.boot s.disk s.ui)

/-- What a step does to the stack. -/
theorem stackStep_of_step {s s' : State} {x : Action} (hx : app.Step s x s') :
    StackStep s x s' := by
  cases hx with
  | user hOut =>
      obtain ⟨nav, hFollows⟩ := handle_follows hOut
      exact .follows hFollows rfl rfl (by simp)
  | effect _ => exact .still rfl (List.eraseIdx_subset) (by simp)
  | serve _ => exact .still rfl (List.Subset.refl _) (by simp)
  | @resolve i r _ => exact .follows (resume_follows r s.ui) rfl rfl (by simp)
  | reject _ => exact .still rfl (List.Subset.refl _) (by simp)
  | kill => exact .kill

/-- The root of the stack is no task screen, and `LIST` lies over a `CREATE`. -/
structure Grounded (names : List RouteName) : Prop where
  root : ∀ name, names.getLast? = some name → name = .AUTH ∨ name = .HOME
  nested : ∀ above below, names = above ++ .LIST :: below → .CREATE ∈ below

/-- What is left of a stack stands on the same ground. -/
theorem Grounded.suffix {names rest : List RouteName} (h : Grounded names)
    (hRest : rest <:+ names) (hSome : rest ≠ []) : Grounded rest where
  root name hName := by
    obtain ⟨pre, rfl⟩ := hRest
    exact h.root name (by rw [List.getLast?_append_of_ne_nil _ hSome]; exact hName)
  nested above below hSplit := by
    obtain ⟨pre, rfl⟩ := hRest
    exact h.nested (pre ++ above) below (by rw [hSplit, List.append_assoc])

/-- A new screen on top keeps the stack grounded. -/
theorem Grounded.cons {names : List RouteName} {name : RouteName}
    (hRest : names = [] ∨ Grounded names)
    (hRoot : names = [] → name = .AUTH ∨ name = .HOME)
    (hList : name = .LIST → .CREATE ∈ names) : Grounded (name :: names) where
  root n hn := by
    rcases hRest with rfl | hOld
    · obtain rfl : name = n := by simpa using hn
      exact hRoot rfl
    · cases names with
      | nil =>
          obtain rfl : name = n := by simpa using hn
          exact hRoot rfl
      | cons m ms => exact hOld.root n (by simpa using hn)
  nested above below hSplit := by
    cases above with
    | nil =>
        rw [List.nil_append, List.cons.injEq] at hSplit
        obtain ⟨rfl, rfl⟩ := hSplit
        exact hList rfl
    | cons a above =>
        rw [List.cons_append, List.cons.injEq] at hSplit
        obtain ⟨rfl, rfl⟩ := hSplit
        rcases hRest with hNil | hOld
        · simp at hNil
        · exact hOld.nested above below rfl

theorem suffix_names {rest : List Route} {ui : Ui} (h : rest <:+ ui.stack) :
    rest.map (fun r => r.screen.name) <:+ ui.names := by
  obtain ⟨pre, hPre⟩ := h
  exact ⟨pre.map fun r => r.screen.name, by rw [Ui.names, ← hPre, List.map_append]⟩

/-- Every move that is asked for keeps the ground. -/
theorem Grounded.moved {ui : Ui} (h : Grounded ui.names) {nav : Option Nav}
    (hAsked : ∀ n, nav = some n → Asked ui n) : Grounded (moved ui nav).1.names := by
  have hBelow : ui.below <:+ ui.stack := List.suffix_cons _ _
  have hMoves := moved_moves ui nav
  generalize App.moved ui nav = out at hMoves ⊢
  cases hMoves with
  | stays => exact h
  | back hSuffix => exact h.suffix (suffix_names (hSuffix.trans hBelow)) (List.cons_ne_nil _ _)
  | replaces name =>
      have hName : (Screen.mount (0, 0) name).name = .AUTH ∨
          (Screen.mount (0, 0) name).name = .HOME := by
        rcases hAsked _ rfl with rfl | rfl | rfl
        · exact Or.inr rfl
        · exact Or.inl rfl
        · exact Or.inl rfl
      refine .cons ?_ (fun _ => hName) fun hList => ?_
      · by_cases hNil : ui.below = []
        · exact Or.inl (by simp [Ui.mountOver, hNil])
        · exact Or.inr (h.suffix (suffix_names hBelow) (by simpa [Ui.mountOver] using hNil))
      · have hList' : (Screen.mount (0, 0) name).name = .LIST := hList
        rw [hList'] at hName
        simp at hName
  | resets name =>
      obtain rfl : name = .AUTH := hAsked _ rfl
      show Grounded [RouteName.AUTH]
      exact .cons (Or.inl rfl) (fun _ => Or.inl rfl) (by simp)
  | pushes name dates _ =>
      show Grounded ((Screen.mount dates name).name :: ui.names)
      refine .cons (Or.inr h) (by simp [Ui.names, Ui.stack]) fun hList => ?_
      rcases hAsked _ rfl with rfl | ⟨rfl, hFocus⟩
      · simp [Screen.mount, Screen.name] at hList
      · exact List.mem_map.mpr ⟨ui.focused, List.mem_cons_self, hFocus⟩

theorem Grounded.step {s s' : State} {x : Action} (h : Grounded s.ui.names)
    (hx : app.Step s x s') : Grounded s'.ui.names := by
  cases stackStep_of_step hx with
  | still hUi _ _ => rwa [hUi]
  | follows hFollows hUi _ _ =>
      rw [hUi, names_eq_labels, hFollows.labels, ← names_eq_labels]
      exact h.moved hFollows.asked
  | kill =>
      show Grounded [RouteName.AUTH]
      exact .cons (Or.inl rfl) (fun _ => Or.inl rfl) (by simp)

/-- In every run the stack is grounded. -/
theorem grounded_run {xs : List Action} {s : State} (hRun : run xs = some s) :
    Grounded s.ui.names := by
  refine app.exec_invariant (fun s => Grounded s.ui.names) ?_ ?_ hRun
  · show Grounded [RouteName.AUTH]
    exact .cons (Or.inl rfl) (fun _ => Or.inl rfl) (by simp)
  · exact fun s x s' hInv hx => hInv.step hx

/-- With the root below it, `CREATE` gives the focus away on `goBack`. -/
theorem goBack_leaves {ui : Ui} (hGround : Grounded ui.names)
    (hName : ui.focused.screen.name = .CREATE) :
    labels (moved ui (some .goBack)).1 ≠ labels ui := by
  intro hStays
  cases hBelow : ui.below with
  | nil =>
      have hRoot := hGround.root .CREATE (by simp [Ui.names, Ui.stack, hBelow, hName])
      simp at hRoot
  | cons r rest =>
      have hLength := congrArg List.length hStays
      simp [labels, Ui.stack, moved, Ui.navigate, hBelow, Ui.refocus] at hLength

/-! ## Keys -/

/-- The screen instance a request is made for. -/
def awaitKey : Await → Option Nat
  | .login (.isUserLoggedIn key) => some key
  | .login (.getUsers call) => some call.key
  | .login (.setLoggedIn call _) => some call.key
  | .signup (.getUsers call) => some call.key
  | .signup (.setUsers call _) => some call.key
  | .signup (.setLoggedIn call) => some call.key
  | .home (.getUserInfo key) => some key
  | .home (.logout _ key) => some key
  | .create (.fetchMembers key) => some key
  | .create .handleBack => none
  | .list (.getDraft key) => some key
  | .list (.getMembers key) => some key
  | .list (.handleSubmit key _) => some key

/-- The screen instance a continuation belongs to. -/
def readyKey : Ready → Option Nat
  | .login r => some r.key
  | .signup r => some r.key
  | .home r => some r.key
  | .create (.fetchMembers key _) => some key
  | .create .handleBack => none
  | .list r => some r.key

/-- Performing a request keeps the instance it belongs to. -/
theorem readyKey_serve (a : Await) (d : Disk) : readyKey (app.serve a d).2 = awaitKey a := by
  rcases a with a | a | a | a | a <;> cases a <;> rfl

/-- A handler goes on for the same instance. -/
theorem awaitKey_of_continued {r : Ready} {a : Await} (h : Continued r a) :
    awaitKey a = readyKey r := by
  cases h <;> rfl

/-- A press belongs to the focused instance. -/
theorem awaitKey_of_pressed {ui : Ui} {e : Event} {a : Await} (h : Pressed ui e a) :
    awaitKey a = some ui.focused.key ∨ awaitKey a = none := by
  cases h with
  | login _ _ _ => exact Or.inl rfl
  | signup _ _ => exact Or.inl rfl
  | logout _ => exact Or.inl rfl
  | handleBack _ => exact Or.inr rfl
  | save _ => exact Or.inl rfl

/-- A callback that is scheduled is scheduled for the screen it is scheduled on. -/
theorem awaitKey_of_mem_focusEffects {r : Route} {a : Await} (ha : a ∈ r.focusEffects) :
    awaitKey a = some r.key := by
  unfold Route.focusEffects at ha
  split at ha
  · rw [List.mem_singleton.mp ha]
    rfl
  · simp at ha

/-- The load of a fresh screen belongs to it. -/
theorem awaitKey_of_mem_mountEffects {r : Route} {a : Await} (ha : a ∈ r.mountEffects) :
    awaitKey a = some r.key := by
  unfold Route.mountEffects at ha
  split at ha
  · rw [List.mem_singleton.mp ha]
    rfl
  · simp at ha
  · rw [List.mem_singleton.mp ha]
    rfl
  · rw [List.mem_singleton.mp ha]
    rfl
  · rw [List.mem_singleton.mp ha]
    rfl

/-- The keys on the stack are distinct and below the next one. -/
structure Ui.Fresh (ui : Ui) : Prop where
  nodup : (ui.stack.map Route.key).Nodup
  below : ∀ r ∈ ui.stack, r.key < ui.nextKey

theorem Ui.Fresh.mountOver {ui : Ui} (hFresh : Ui.Fresh ui) (name : RouteName)
    (dates : Nat × Nat) {rest : List Route} (hRest : rest <:+ ui.stack) :
    Ui.Fresh (ui.mountOver name dates rest).1 where
  nodup := by
    have hSub : (rest.map Route.key).Sublist (ui.stack.map Route.key) := hRest.sublist.map _
    show (ui.nextKey :: rest.map Route.key).Nodup
    refine List.nodup_cons.mpr ⟨fun hMem => ?_, hFresh.nodup.sublist hSub⟩
    obtain ⟨r, hr, hKey⟩ := List.mem_map.mp hMem
    exact absurd hKey (Nat.ne_of_lt (hFresh.below r (hRest.subset hr)))
  below := by
    intro r hr
    show r.key < ui.nextKey + 1
    rcases List.mem_cons.mp hr with rfl | hOld
    · exact Nat.lt_succ_self _
    · exact Nat.lt_succ_of_lt (hFresh.below r (hRest.subset hOld))

/-- Moves give out at most the next key, and load for the screen that gets the focus. -/
theorem Ui.Fresh.moves {ui : Ui} {nav : Option Nav} {out : Ui × List Await}
    (hFresh : Ui.Fresh ui) (h : Moves ui nav out) :
    Ui.Fresh out.1 ∧ ui.nextKey ≤ out.1.nextKey ∧
      ∀ a ∈ out.2, awaitKey a = some out.1.focused.key := by
  have hBelow : ui.below <:+ ui.stack := List.suffix_cons _ _
  cases h with
  | stays => exact ⟨hFresh, Nat.le_refl _, by simp⟩
  | back hSuffix =>
      have hStack := hSuffix.trans hBelow
      refine ⟨⟨?_, ?_⟩, Nat.le_refl _, fun a => awaitKey_of_mem_focusEffects⟩
      · exact hFresh.nodup.sublist (hStack.sublist.map _)
      · exact fun r hr => hFresh.below r (hStack.subset hr)
  | replaces name =>
      exact ⟨hFresh.mountOver name _ hBelow, Nat.le_succ _,
        fun a => awaitKey_of_mem_mountEffects⟩
  | resets name =>
      exact ⟨hFresh.mountOver name _ (List.nil_suffix), Nat.le_succ _,
        fun a => awaitKey_of_mem_mountEffects⟩
  | pushes name dates _ =>
      exact ⟨hFresh.mountOver name dates (List.suffix_refl _), Nat.le_succ _,
        fun a => awaitKey_of_mem_mountEffects⟩

/-- Setters keep the keys. -/
theorem keys_modify (ui : Ui) (key : Nat) (f : Screen → Screen) :
    (ui.modify key f).stack.map Route.key = ui.stack.map Route.key := by
  have hOne : ∀ r : Route,
      (if r.key = key then { r with screen := f r.screen } else r).key = r.key := by
    intro r
    split <;> rfl
  simp [Ui.modify, Ui.stack, hOne]

theorem Ui.Fresh.modify {ui : Ui} (hFresh : Ui.Fresh ui) (key : Nat)
    (f : Screen → Screen) : Ui.Fresh (ui.modify key f) where
  nodup := by
    rw [keys_modify]
    exact hFresh.nodup
  below r hr := by
    have hMem : r.key ∈ ui.stack.map Route.key := by
      rw [← keys_modify ui key f]
      exact List.mem_map_of_mem hr
    obtain ⟨r', hr', hKey⟩ := List.mem_map.mp hMem
    rw [← hKey]
    exact hFresh.below r' hr'

/-- What a stretch of a handler keeps: the keys stay fresh, and the callbacks it
schedules are for a screen on the stack. -/
structure KeysKept (next : Nat) (out : Ui × Issued Await) : Prop where
  fresh : Ui.Fresh out.1
  next : next ≤ out.1.nextKey
  effects : ∀ a ∈ out.2.effects, awaitKey a = some out.1.focused.key

/-- A stretch of a handler gives out at most the next key. -/
theorem Ui.Fresh.perform {σ α : Type} {ui : Ui} (hFresh : Ui.Fresh ui)
    (lift : (σ → σ) → Screen → Screen) (wrap : α → Await) (key : Nat) (eff : Effect σ α) :
    KeysKept ui.nextKey (ui.perform lift wrap key eff) := by
  obtain ⟨hMoved, hNext, hEffects⟩ := hFresh.moves (moved_moves ui eff.navigate)
  rw [perform_eq]
  refine ⟨hMoved.modify _ _, hNext, fun a ha => ?_⟩
  rw [hEffects a ha]
  simp only [Ui.modify]
  split <;> rfl

theorem Ui.Fresh.counted {ui : Ui} (hFresh : Ui.Fresh ui) : Ui.Fresh (counted ui) :=
  ⟨hFresh.nodup, hFresh.below⟩

theorem Ui.Fresh.handle {ui : Ui} {e : Event} {out : Ui × Issued Await}
    (hFresh : Ui.Fresh ui) (h : app.handle e ui = some out) : KeysKept ui.nextKey out := by
  cases handle_cases h with
  | login _ _ => exact hFresh.counted.perform _ _ _ _
  | signup _ => exact hFresh.counted.perform _ _ _ _
  | home _ => exact hFresh.counted.perform _ _ _ _
  | create _ => exact hFresh.counted.perform _ _ _ _
  | list _ _ => exact hFresh.counted.perform _ _ _ _
  | systemBack =>
      obtain ⟨hMoved, hNext, hEffects⟩ := hFresh.counted.moves (moved_moves _ (some .goBack))
      exact ⟨hMoved, hNext, hEffects⟩

theorem Ui.Fresh.resume {ui : Ui} (hFresh : Ui.Fresh ui) (r : Ready) :
    KeysKept ui.nextKey (app.resume r ui) := by
  cases r with
  | login r => exact hFresh.perform _ _ _ _
  | signup r => exact hFresh.perform _ _ _ _
  | home r => exact hFresh.perform _ _ _ _
  | create r =>
      cases r with
      | fetchMembers key list =>
          rw [resume_fetchMembers]
          exact hFresh.perform _ _ _ _
      | handleBack => exact ⟨hFresh, Nat.le_refl _, by simp [app, App.resume]⟩
  | list r => exact hFresh.perform _ _ _ _

theorem Ui.Fresh.launch {ui : Ui} (hFresh : Ui.Fresh ui) : KeysKept ui.nextKey (app.launch ui) := by
  obtain ⟨hMoved, hNext, hEffects⟩ := hFresh.moves (.resets .AUTH)
  exact ⟨hMoved, hNext, hEffects⟩

/-! ## Keys in the queues -/

/-- Every screen instance that something is done for has been given its key. -/
structure KeysBelow (s : State) : Prop where
  fresh : Ui.Fresh s.ui
  effects : ∀ a ∈ s.effects, ∀ key, awaitKey a = some key → key < s.ui.nextKey
  pending : ∀ a ∈ s.pending, ∀ key, awaitKey a = some key → key < s.ui.nextKey
  served : ∀ r ∈ s.served, ∀ key, readyKey r = some key → key < s.ui.nextKey

/-- What is loaded belongs to an instance that has been mounted. -/
theorem KeysKept.effects_lt {next : Nat} {out : Ui × Issued Await} (h : KeysKept next out)
    {a : Await} (ha : a ∈ out.2.effects) {key : Nat} (hKey : awaitKey a = some key) :
    key < out.1.nextKey := by
  rw [h.effects a ha, Option.some.injEq] at hKey
  rw [← hKey]
  exact h.fresh.below _ List.mem_cons_self

theorem KeysBelow.issue {s : State} {out : Ui × Issued Await} (hInv : KeysBelow s)
    (hKept : KeysKept s.ui.nextKey out)
    (hRequests : ∀ a ∈ out.2.requests, ∀ key, awaitKey a = some key → key < s.ui.nextKey) :
    KeysBelow (s.issue out) where
  fresh := hKept.fresh
  effects a ha key hKey := by
    rcases List.mem_append.mp ha with hOld | hNew
    · exact Nat.lt_of_lt_of_le (hInv.effects a hOld key hKey) hKept.next
    · exact hKept.effects_lt hNew hKey
  pending a ha key hKey := by
    rcases List.mem_append.mp ha with hOld | hNew
    · exact Nat.lt_of_lt_of_le (hInv.pending a hOld key hKey) hKept.next
    · exact Nat.lt_of_lt_of_le (hRequests a hNew key hKey) hKept.next
  served r hr key hKey := Nat.lt_of_lt_of_le (hInv.served r hr key hKey) hKept.next

/-- No step brings up a key that has not been given out. -/
theorem KeysBelow.step {s s' : State} {x : Action} (hInv : KeysBelow s)
    (hx : app.Step s x s') : KeysBelow s' := by
  cases hx with
  | user hOut =>
      refine hInv.issue (hInv.fresh.handle hOut) fun a ha key hKey => ?_
      rcases awaitKey_of_pressed (handle_requests hOut ha) with hSome | hNone
      · rw [hSome, Option.some.injEq] at hKey
        rw [← hKey]
        exact hInv.fresh.below _ List.mem_cons_self
      · simp [hNone] at hKey
  | @effect i a hAt =>
      refine ⟨hInv.fresh, fun b hb => hInv.effects b (List.mem_of_mem_eraseIdx hb), ?_,
        hInv.served⟩
      intro b hb key hKey
      rcases List.mem_append.mp hb with hOld | hNew
      · exact hInv.pending b hOld key hKey
      · rw [List.mem_singleton] at hNew
        exact hInv.effects a (List.mem_of_getElem? hAt) key (hNew ▸ hKey)
  | @serve i a hAt =>
      refine ⟨hInv.fresh, hInv.effects,
        fun b hb => hInv.pending b (List.mem_of_mem_eraseIdx hb), ?_⟩
      intro r hr key hKey
      rcases List.mem_append.mp hr with hOld | hNew
      · exact hInv.served r hOld key hKey
      · rw [List.mem_singleton.mp hNew, readyKey_serve] at hKey
        exact hInv.pending a (List.mem_of_getElem? hAt) key hKey
  | @resolve i r hAt =>
      have hRest : KeysBelow { s with served := s.served.eraseIdx i } :=
        ⟨hInv.fresh, hInv.effects, hInv.pending,
          fun q hq => hInv.served q (List.mem_of_mem_eraseIdx hq)⟩
      refine hRest.issue (hInv.fresh.resume r) fun a ha key hKey => ?_
      rw [awaitKey_of_continued (resume_requests ha)] at hKey
      exact hInv.served r (List.mem_of_getElem? hAt) key hKey
  | reject _ =>
      exact ⟨hInv.fresh, hInv.effects,
        fun a ha => hInv.pending a (List.mem_of_mem_eraseIdx ha), hInv.served⟩
  | kill =>
      have hKept := hInv.fresh.launch
      exact ⟨hKept.fresh, fun a ha key hKey => hKept.effects_lt ha hKey, by
        simp [Program.boot, app, launch], by simp [Program.boot]⟩

theorem KeysBelow.label_lt {s : State} (hInv : KeysBelow s) {l : Nat × RouteName}
    (hl : l ∈ labels s.ui) : l.1 < s.ui.nextKey := by
  obtain ⟨r, hr, rfl⟩ := List.mem_map.mp hl
  exact hInv.fresh.below r hr

/-- What is about to run belongs to instances that have been mounted. -/
theorem KeysBelow.foreseen {s : State} (hInv : KeysBelow s) :
    ∀ r ∈ app.foreseen s, ∀ key, readyKey r = some key → key < s.ui.nextKey := by
  intro r hr
  rcases List.mem_append.mp hr with hServed | hReply
  · exact hInv.served r hServed
  · refine app.replies_invariant (fun _ => True)
      (fun r => ∀ key, readyKey r = some key → key < s.ui.nextKey) trivial ?_ r hReply
    intro a ha d _
    refine ⟨trivial, fun key hKey => ?_⟩
    rw [readyKey_serve] at hKey
    exact hInv.pending a ha key hKey

/-- Nothing on the stack or in the queues belongs to the screen instance `key`,
and nothing ever will. -/
structure Dead (key : Nat) (s : State) : Prop where
  next : key < s.ui.nextKey
  stack : ∀ l ∈ labels s.ui, l.1 ≠ key
  effects : ∀ a ∈ s.effects, awaitKey a ≠ some key
  pending : ∀ a ∈ s.pending, awaitKey a ≠ some key
  served : ∀ r ∈ s.served, readyKey r ≠ some key

theorem Moves.labels {ui : Ui} {nav : Option Nav} {out : Ui × List Await}
    (h : Moves ui nav out) :
    ui.nextKey ≤ out.1.nextKey ∧
      (∀ l ∈ labels out.1, l ∈ App.labels ui ∨ l.1 = ui.nextKey) ∧
      ∀ a ∈ out.2, ∃ l ∈ App.labels out.1, awaitKey a = some l.1 := by
  have hMount : ∀ name dates (below : List Route), below ⊆ ui.stack →
      ui.nextKey ≤ (ui.mountOver name dates below).1.nextKey ∧
        (∀ l ∈ App.labels (ui.mountOver name dates below).1,
          l ∈ App.labels ui ∨ l.1 = ui.nextKey) ∧
        ∀ a ∈ (ui.mountOver name dates below).2,
          ∃ l ∈ App.labels (ui.mountOver name dates below).1, awaitKey a = some l.1 := by
    intro name dates below hBelow
    refine ⟨Nat.le_succ _, fun l hl => ?_, fun a ha =>
      ⟨_, List.mem_cons_self, awaitKey_of_mem_mountEffects ha⟩⟩
    rcases List.mem_cons.mp hl with rfl | hOld
    · exact Or.inr rfl
    · exact Or.inl (List.map_subset _ hBelow hOld)
  have hBelow : ui.below ⊆ ui.stack := List.subset_cons_self _ _
  cases h with
  | stays => exact ⟨Nat.le_refl _, fun l hl => Or.inl hl, by simp⟩
  | back hSuffix =>
      refine ⟨Nat.le_refl _, fun l hl => Or.inl ?_, fun a ha =>
        ⟨_, List.mem_cons_self, awaitKey_of_mem_focusEffects ha⟩⟩
      exact List.map_subset _ (List.Subset.trans hSuffix.subset hBelow) hl
  | replaces name => exact hMount _ _ _ hBelow
  | resets name => exact hMount _ _ _ (List.nil_subset _)
  | pushes name dates _ => exact hMount _ _ _ (List.Subset.refl _)

/-- A fresh process has nothing of the old one. -/
theorem Dead.boot {key : Nat} {s : State} (hKey : key < s.ui.nextKey) :
    Dead key (app.boot s.disk s.ui) where
  next := Nat.lt_succ_of_lt hKey
  stack l hl := by
    obtain rfl : l = (s.ui.nextKey, .AUTH) := List.mem_singleton.mp hl
    exact Nat.ne_of_gt hKey
  effects a ha := by
    obtain rfl : a = .login (.isUserLoggedIn s.ui.nextKey) := List.mem_singleton.mp ha
    exact fun hSame => Nat.ne_of_gt hKey (Option.some.inj hSame)
  pending a ha := by simp [Program.boot, app, launch] at ha
  served r hr := by simp [Program.boot] at hr

theorem Dead.issue {key : Nat} {s : State} {nav : Option Nav} {out : Ui × Issued Await}
    (hDead : Dead key s) (hFollows : Follows s.ui nav out)
    (hRequests : ∀ a ∈ out.2.requests, awaitKey a ≠ some key) : Dead key (s.issue out) := by
  obtain ⟨hNext, hLabels, hEffects⟩ := (moved_moves s.ui nav).labels
  rw [← hFollows.nextKey] at hNext
  rw [← hFollows.labels] at hLabels hEffects
  rw [← hFollows.effects] at hEffects
  have hStack : ∀ l ∈ labels out.1, l.1 ≠ key := by
    intro l hl
    rcases hLabels l hl with hOld | hNew
    · exact hDead.stack l hOld
    · have := hDead.next
      omega
  refine ⟨Nat.lt_of_lt_of_le hDead.next hNext, hStack, fun a ha => ?_, fun a ha => ?_,
    hDead.served⟩
  · rcases List.mem_append.mp ha with hOld | hNew
    · exact hDead.effects a hOld
    · obtain ⟨l, hl, hKey⟩ := hEffects a hNew
      rw [hKey]
      exact fun hSame => hStack l hl (Option.some.inj hSame)
  · rcases List.mem_append.mp ha with hOld | hNew
    · exact hDead.pending a hOld
    · exact hRequests a hNew

/-- What is gone stays gone. -/
theorem Dead.step {key : Nat} {s s' : State} {x : Action} (hDead : Dead key s)
    (hx : app.Step s x s') : Dead key s' := by
  cases hx with
  | user hOut =>
      obtain ⟨nav, hFollows⟩ := handle_follows hOut
      refine hDead.issue hFollows fun a ha => ?_
      rcases awaitKey_of_pressed (handle_requests hOut ha) with hSome | hNone
      · rw [hSome]
        exact fun hSame => hDead.stack _ List.mem_cons_self (Option.some.inj hSame)
      · simp [hNone]
  | @effect i a hAt =>
      refine ⟨hDead.next, hDead.stack, fun b hb => hDead.effects b (List.mem_of_mem_eraseIdx hb),
        fun b hb => ?_, hDead.served⟩
      rcases List.mem_append.mp hb with hOld | hNew
      · exact hDead.pending b hOld
      · exact List.mem_singleton.mp hNew ▸ hDead.effects a (List.mem_of_getElem? hAt)
  | @serve i a hAt =>
      refine ⟨hDead.next, hDead.stack, hDead.effects,
        fun b hb => hDead.pending b (List.mem_of_mem_eraseIdx hb), fun r hr => ?_⟩
      rcases List.mem_append.mp hr with hOld | hNew
      · exact hDead.served r hOld
      · rw [List.mem_singleton.mp hNew, readyKey_serve]
        exact hDead.pending a (List.mem_of_getElem? hAt)
  | @resolve i r hAt =>
      have hRest : Dead key { s with served := s.served.eraseIdx i } :=
        ⟨hDead.next, hDead.stack, hDead.effects, hDead.pending,
          fun q hq => hDead.served q (List.mem_of_mem_eraseIdx hq)⟩
      refine hRest.issue (resume_follows r s.ui) fun a ha => ?_
      rw [awaitKey_of_continued (resume_requests ha)]
      exact hDead.served r (List.mem_of_getElem? hAt)
  | reject _ =>
      exact ⟨hDead.next, hDead.stack, hDead.effects,
        fun a ha => hDead.pending a (List.mem_of_mem_eraseIdx ha), hDead.served⟩
  | kill => exact .boot hDead.next

/-- In every run the keys in use have been given out. -/
theorem keysBelow_run {xs : List Action} {s : State} (hRun : run xs = some s) :
    KeysBelow s := by
  refine app.exec_invariant KeysBelow ⟨⟨?_, ?_⟩, ?_, ?_, ?_⟩
    (fun _ _ _ hInv hx => hInv.step hx) hRun
  · simp [init, Ui.first, Ui.stack]
  · simp [init, Ui.first, Ui.stack]
  · simp [init, Ui.first, awaitKey]
  · simp [init]
  · simp [init]

/-! ## Mounting a screen -/

/-- `CREATE` and `LIST` are mounted over the whole stack, which has no screen of
that name, and their first load is scheduled. -/
theorem Follows.mounted {ui : Ui} {nav : Option Nav} {out : Ui × Issued Await}
    (h : Follows ui nav out) (hFresh : Ui.Fresh ui) {name : RouteName}
    (hName : name = .CREATE ∨ name = .LIST)
    (hTop : (ui.nextKey, name) ∈ App.labels out.1) :
    name ∉ ui.names ∧ out.1.names = name :: ui.names ∧
      out.2.effects = (Route.mk ui.nextKey (Screen.mount (0, 0) name)).mountEffects := by
  have hAsked := h.asked
  have hMoves := moved_moves ui nav
  rw [names_eq_labels out.1, h.effects, h.labels]
  rw [h.labels] at hTop
  generalize moved ui nav = out' at hMoves hTop ⊢
  have hOld : ∀ r ∈ ui.stack, (r.key, r.screen.name) ≠ (ui.nextKey, name) := by
    intro r hr hSame
    have hKey := hFresh.below r hr
    have : r.key = ui.nextKey := congrArg Prod.fst hSame
    omega
  have hNone : ∀ l : List Route, l ⊆ ui.stack →
      (ui.nextKey, name) ∉ l.map fun r => (r.key, r.screen.name) := by
    intro l hl hMem
    obtain ⟨r, hr, hSame⟩ := List.mem_map.mp hMem
    exact hOld r (hl hr) hSame
  have hBelow : ui.below ⊆ ui.stack := List.subset_cons_self _ _
  cases hMoves with
  | stays => exact absurd hTop (hNone _ (List.Subset.refl _))
  | back hSuffix => exact absurd hTop (hNone _ (List.Subset.trans hSuffix.subset hBelow))
  | replaces name' =>
      rcases List.mem_cons.mp hTop with hHead | hRest
      · have hSame : name = (Screen.mount (0, 0) name').name := congrArg Prod.snd hHead
        rcases hAsked _ rfl with rfl | rfl | rfl <;> rcases hName with rfl | rfl <;>
          simp [Screen.mount, Screen.name] at hSame
      · exact absurd hRest (hNone _ hBelow)
  | resets name' =>
      rcases List.mem_cons.mp hTop with hHead | hRest
      · have hSame : name = (Screen.mount (0, 0) name').name := congrArg Prod.snd hHead
        obtain rfl : name' = .AUTH := hAsked _ rfl
        rcases hName with rfl | rfl <;> simp [Screen.mount, Screen.name] at hSame
      · simp [Ui.mountOver] at hRest
  | pushes name' dates hNew =>
      have hHead : name = (Screen.mount dates name').name := by
        rcases List.mem_cons.mp hTop with hHead | hRest
        · exact congrArg Prod.snd hHead
        · exact absurd hRest (hNone _ (List.Subset.refl _))
      have hNot : name' ∉ ui.names := by
        intro hMem
        obtain ⟨r, hr, hSame⟩ := List.mem_map.mp hMem
        exact hNew r hr hSame
      rcases hAsked _ rfl with rfl | ⟨rfl, -⟩
      · obtain rfl : name = .CREATE := hHead
        refine ⟨hNot, ?_, rfl⟩
        rw [names_eq_labels ui]
        rfl
      · obtain rfl : name = .LIST := hHead
        refine ⟨hNot, ?_, rfl⟩
        rw [names_eq_labels ui]
        rfl

/-- A step that brings `CREATE` or `LIST` onto the stack mounts it. -/
theorem mounted_of_step {s s' : State} {x : Action} {name : RouteName}
    (hFresh : Ui.Fresh s.ui) (hx : app.Step s x s') (hName : name = .CREATE ∨ name = .LIST)
    (hTop : (s.ui.nextKey, name) ∈ labels s'.ui) :
    name ∉ s.ui.names ∧ s'.ui.names = name :: s.ui.names ∧
      (Route.mk s.ui.nextKey (Screen.mount (0, 0) name)).mountEffects ⊆ s'.effects := by
  cases stackStep_of_step hx with
  | still hUi _ _ =>
      rw [hUi] at hTop
      obtain ⟨r, hr, hSame⟩ := List.mem_map.mp hTop
      have hKey := hFresh.below r hr
      have : r.key = s.ui.nextKey := congrArg Prod.fst hSame
      omega
  | follows h hUi hEffects _ =>
      rw [hUi] at hTop ⊢
      obtain ⟨hNot, hNames, hLoad⟩ := h.mounted hFresh hName hTop
      refine ⟨hNot, hNames, ?_⟩
      rw [hEffects, hLoad]
      exact List.subset_append_right _ _
  | kill =>
      have hSame : (s.ui.nextKey, name) = (s.ui.nextKey, .AUTH) := List.mem_singleton.mp hTop
      rcases hName with rfl | rfl <;> simp at hSame

/-- A step mounts one screen at most, under the next key. -/
theorem labels_of_step {s s' : State} {x : Action} (hx : app.Step s x s') :
    s.ui.nextKey ≤ s'.ui.nextKey ∧
      ∀ l ∈ labels s'.ui, l ∈ labels s.ui ∨ l.1 = s.ui.nextKey := by
  cases stackStep_of_step hx with
  | still hUi _ _ =>
      rw [hUi]
      exact ⟨Nat.le_refl _, fun l hl => Or.inl hl⟩
  | @follows x s' nav out h hUi _ _ =>
      obtain ⟨hNext, hLabels, -⟩ := (moved_moves s.ui nav).labels
      rw [hUi, h.nextKey, h.labels]
      exact ⟨hNext, hLabels⟩
  | kill =>
      refine ⟨Nat.le_succ _, fun l hl => Or.inr ?_⟩
      have hSame : l = (s.ui.nextKey, .AUTH) := List.mem_singleton.mp hl
      rw [hSame]

end TaskManager.App
