import TaskManager.App.Stack

/-!
# Invariants that are local to a screen

`EventLoop.Local` states an invariant for the store, each request and each continuation.
`Everywhere` adds the screens: each of them, mounted and covered ones alike, satisfies a
predicate of its own, which what the screen asks for and what it is told may use.

## Main results

* `Everywhere.holds` — what holds of each part holds in every run, whatever the order of
  service and wherever requests are refused or the process is killed.
-/

namespace TaskManager.App

open TaskManager.Shared
open TaskManager.Pages
open TaskManager.Routes
open TaskManager.Verified.EventLoop

/-! ## Setters of user events -/

/-- What an event sets on screens of its kind. -/
inductive Sets (ui : Ui) : Event → (Screen → Screen) → Prop
  | login {s e eff} (hs : ui.focused.screen = .AUTH (.LOGIN s))
      (h : Login.handle ui.focused.key ui.nextCall s e = some eff) :
      Sets ui (.login e) (Screen.onLogin eff.update)
  | signup {s e} (hs : ui.focused.screen = .AUTH (.SIGNUP s)) :
      Sets ui (.signup e)
        (Screen.onSignup (Signup.handle ui.focused.key ui.nextCall s e).update)
  | create {s e} (hs : ui.focused.screen = .CREATE s) :
      Sets ui (.create e) (Screen.onCreate (TaskCreation.handle e).update)
  | list {s e eff} (hs : ui.focused.screen = .LIST s)
      (h : MembersList.handle ui.focused.key s e = some eff) :
      Sets ui (.list e) (Screen.onList eff.update)
  | nothing {e} : Sets ui e id

theorem handle_sets {ui : Ui} {e : Event} {out : Ui × Issued Await}
    (h : app.handle e ui = some out) :
    ∃ nav f, Sets ui e f ∧ out.1 = (moved (counted ui) nav).1.modify ui.focused.key f := by
  cases handle_cases h with
  | @login s e eff hs hEff =>
      rw [perform_eq]
      exact ⟨_, _, .login hs hEff, rfl⟩
  | @signup s e hs =>
      rw [perform_eq]
      exact ⟨_, _, .signup hs, rfl⟩
  | @home s e hs =>
      rw [perform_eq]
      have hUpdate : (Home.handle ui.focused.key ui.nextCall e).update = id := by cases e <;> rfl
      rw [hUpdate, onHome_id]
      exact ⟨_, _, .nothing, rfl⟩
  | @create s e hs =>
      rw [perform_eq]
      exact ⟨_, _, .create hs, rfl⟩
  | @list s e eff hs hEff =>
      rw [perform_eq]
      exact ⟨_, _, .list hs hEff, rfl⟩
  | systemBack =>
      refine ⟨some .goBack, id, .nothing, ?_⟩
      rw [modify_id]
      rfl

/-! ## The screens of a stack -/

/-- A predicate holds of every screen that is mounted. -/
def OnStack (Q : Screen → Prop) (ui : Ui) : Prop := ∀ r ∈ ui.stack, Q r.screen

section OnStack

variable {Q : Screen → Prop} {ui : Ui}

theorem OnStack.focused (h : OnStack Q ui) : Q ui.focused.screen := h _ List.mem_cons_self

theorem OnStack.mono {Q' : Screen → Prop} (h : OnStack Q ui)
    (hMono : ∀ screen, Q screen → Q' screen) : OnStack Q' ui := fun r hr => hMono _ (h r hr)

theorem OnStack.moved (h : OnStack Q ui) (hMount : ∀ dates name, Q (Screen.mount dates name))
    (nav : Option Nav) : OnStack Q (moved ui nav).1 := by
  have hBelow : ui.below <:+ ui.stack := List.suffix_cons _ _
  have hMoves := moved_moves ui nav
  generalize App.moved ui nav = out at hMoves ⊢
  cases hMoves with
  | stays => exact h
  | back hSuffix =>
      intro r hr
      exact h r ((hSuffix.trans hBelow).mem hr)
  | replaces name =>
      intro r hr
      rcases List.mem_cons.mp hr with rfl | hOld
      · exact hMount _ _
      · exact h r (hBelow.mem hOld)
  | resets name =>
      intro r hr
      rw [List.mem_singleton.mp hr]
      exact hMount _ _
  | pushes name dates _ =>
      intro r hr
      rcases List.mem_cons.mp hr with rfl | hOld
      · exact hMount _ _
      · exact h r hOld

theorem OnStack.modify (h : OnStack Q ui) {f : Screen → Screen}
    (hSet : ∀ screen, Q screen → Q (f screen)) (key : Nat) : OnStack Q (ui.modify key f) := by
  have hOne : ∀ r : Route, Q r.screen →
      Q (if r.key = key then { r with screen := f r.screen } else r).screen := by
    intro r hr
    split
    · exact hSet _ hr
    · exact hr
  intro r hr
  rcases List.mem_cons.mp hr with rfl | hOld
  · exact hOne _ h.focused
  · obtain ⟨r', hr', rfl⟩ := List.mem_map.mp hOld
    exact hOne _ (h r' (List.mem_cons_of_mem _ hr'))

theorem OnStack.tellAll (h : OnStack Q ui) {r : Ready}
    (hTold : ∀ key screen, Q screen → Q (told r key screen)) : OnStack Q (tellAll r ui) := by
  intro route hRoute
  rw [stack_tellAll] at hRoute
  obtain ⟨old, hOld, rfl⟩ := List.mem_map.mp hRoute
  exact hTold _ _ (h old hOld)

end OnStack

/-! ## Invariants -/

/-- Every part may speak about the history, and what it says must survive the next step. -/
structure Everywhere where
  disk : History → Disk → Prop
  await : History → Await → Prop
  ready : History → Ready → Prop
  screen : History → Screen → Prop
  disk_mono : ∀ h p d, disk h d → disk (h ++ [p]) d
  await_mono : ∀ h p a, await h a → await (h ++ [p]) a
  ready_mono : ∀ h p r, ready h r → ready (h ++ [p]) r
  screen_mono : ∀ h p sc, screen h sc → screen (h ++ [p]) sc
  init : disk [] App.init.disk
  load : ∀ h a, IsLoad a → await h a
  mount : ∀ h dates name, screen h (Screen.mount dates name)
  press : ∀ h ui e a, screen h ui.focused.screen → Pressed ui e a → await h a
  proceed : ∀ h r a, ready h r → Continued r a → await h a
  serve : ∀ h s i a, s.pending[i]? = some a → disk h s.disk → await h a →
    disk (h ++ [(s, .serve i)]) (app.serve a s.disk).1 ∧
      ready (h ++ [(s, .serve i)]) (app.serve a s.disk).2
  set : ∀ h ui e f, screen h ui.focused.screen → Sets ui e f →
    ∀ sc, screen h sc → screen h (f sc)
  tell : ∀ h r key, ready h r → ∀ sc, screen h sc → screen h (told r key sc)

namespace Everywhere

variable (I : Everywhere)

/-- All parts together, at one state of a run. -/
structure Holds (h : History) (s : State) : Prop where
  disk : I.disk h s.disk
  effects : ∀ a ∈ s.effects, I.await h a
  pending : ∀ a ∈ s.pending, I.await h a
  served : ∀ r ∈ s.served, I.ready h r
  screens : OnStack (I.screen h) s.ui

variable {I}

theorem Holds.init : I.Holds [] App.init where
  disk := I.init
  effects a ha := by
    rw [List.mem_singleton.mp ha]
    exact I.load _ _ (.login 0)
  pending := by simp [App.init]
  served := by simp [App.init]
  screens := by
    intro r hr
    rw [List.mem_singleton.mp hr]
    exact I.mount [] (0, 0) .AUTH

theorem Holds.mono {h : History} {s : State} (hHolds : I.Holds h s) (p : State × Action) :
    I.Holds (h ++ [p]) s where
  disk := I.disk_mono _ _ _ hHolds.disk
  effects a ha := I.await_mono _ _ _ (hHolds.effects a ha)
  pending a ha := I.await_mono _ _ _ (hHolds.pending a ha)
  served r hr := I.ready_mono _ _ _ (hHolds.served r hr)
  screens := hHolds.screens.mono fun sc hsc => I.screen_mono _ _ sc hsc

/-- A stretch of a handler keeps all parts, when it does so with the screens and with what
it puts in the queues. -/
theorem Holds.issue {h : History} {s : State} {out : Ui × Issued Await} (hHolds : I.Holds h s)
    (hScreens : OnStack (I.screen h) out.1)
    (hAwaits : ∀ a ∈ out.2.effects ++ out.2.requests, I.await h a) :
    I.Holds h (s.issue out) where
  disk := hHolds.disk
  effects a ha := by
    rcases List.mem_append.mp ha with hOld | hNew
    · exact hHolds.effects a hOld
    · exact hAwaits a (List.mem_append_left _ hNew)
  pending a ha := by
    rcases List.mem_append.mp ha with hOld | hNew
    · exact hHolds.pending a hOld
    · exact hAwaits a (List.mem_append_right _ hNew)
  served := hHolds.served
  screens := hScreens

theorem Holds.step {h : History} {s s' : State} {x : Action} (hHolds : I.Holds h s)
    (hx : app.Step s x s') : I.Holds (h ++ [(s, x)]) s' := by
  have hLater := hHolds.mono (s, x)
  cases hx with
  | user hOut =>
      refine hLater.issue ?_ fun a ha => ?_
      · obtain ⟨nav, f, hSets, hUi⟩ := handle_sets hOut
        rw [hUi]
        have hCounted : OnStack (I.screen (h ++ [(s, _)])) (counted s.ui) := hLater.screens
        exact (hCounted.moved (I.mount _) nav).modify
          (I.set _ _ _ _ hLater.screens.focused hSets) _
      · rcases handle_awaits hOut ha with hLoad | hPress
        · exact I.load _ _ hLoad
        · exact I.press _ _ _ _ hLater.screens.focused hPress
  | @effect i a hAt =>
      exact
        { hLater with
          effects := fun b hb => hLater.effects b (List.mem_of_mem_eraseIdx hb)
          pending := fun b hb => by
            rcases List.mem_append.mp hb with hOld | hNew
            · exact hLater.pending b hOld
            · rw [List.mem_singleton.mp hNew]
              exact hLater.effects a (List.mem_of_getElem? hAt) }
  | @serve i a hAt =>
      obtain ⟨hDisk, hReady⟩ := I.serve h s i a hAt hHolds.disk
        (hHolds.pending a (List.mem_of_getElem? hAt))
      exact
        { hLater with
          disk := hDisk
          pending := fun b hb => hLater.pending b (List.mem_of_mem_eraseIdx hb)
          served := fun r hr => by
            rcases List.mem_append.mp hr with hOld | hNew
            · exact hLater.served r hOld
            · rw [List.mem_singleton.mp hNew]
              exact hReady }
  | @resolve i r hAt =>
      have hReady := hLater.served r (List.mem_of_getElem? hAt)
      have hRest : I.Holds (h ++ [(s, .resolve i)]) { s with served := s.served.eraseIdx i } :=
        { hLater with served := fun q hq => hLater.served q (List.mem_of_mem_eraseIdx hq) }
      refine hRest.issue ?_ fun a ha => ?_
      · rw [(resume_shape r s.ui).1]
        exact (hLater.screens.moved (I.mount _) _).tellAll fun key sc => I.tell _ r key hReady sc
      · rcases resume_awaits ha with hLoad | hNext
        · exact I.load _ _ hLoad
        · exact I.proceed _ _ _ hReady hNext
  | reject hAt =>
      exact { hLater with pending := fun b hb => hLater.pending b (List.mem_of_mem_eraseIdx hb) }
  | kill =>
      have hAwaits : ∀ a ∈ (app.launch s.ui).2.effects ++ (app.launch s.ui).2.requests,
          I.await (h ++ [(s, .kill)]) a := fun a ha => I.load _ a (isLoad_of_mem_launch ha)
      exact
        { disk := hLater.disk
          effects := fun a ha => hAwaits a (List.mem_append_left _ ha)
          pending := fun a ha => hAwaits a (List.mem_append_right _ ha)
          served := by simp [Program.boot]
          screens := by
            intro r hr
            rw [List.mem_singleton.mp hr]
            exact I.mount _ (0, 0) .AUTH }

variable (I)

/-- **What holds of each part holds in every run.** -/
theorem holds {xs : List Action} {s : State} (hRun : run xs = some s) :
    I.Holds (app.trace App.init xs) s :=
  app.exec_induction (fun _ _ => True) I.Holds Holds.init
    (fun _ _ _ _ _ _ hHolds hx => hHolds.step hx) (fun _ _ => trivial) hRun

end Everywhere

end TaskManager.App
