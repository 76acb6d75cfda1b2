import TaskManager.App.Stack

/-!
# Who moves the stack

`Asked` of `App/Stack.lean` lists the calls on `navigation` that there are.  Here they are
told apart by who makes them: an event of the screen with the focus (`handle_asks`), or a
continuation of any screen (`navOf_asksLater`).

## Main results

* `Follows.names` — what a step does to the names on the stack.
* `Follows.opened` — a `CREATE` that is new on the stack was navigated to, so that
  `createTask` has been pressed.
-/

namespace TaskManager.App

open TaskManager.Shared
open TaskManager.Pages
open TaskManager.Routes
open TaskManager.Verified.EventLoop

/-! ## Names -/

/-- The root route that a screen is mounted in. -/
def rootName (name : RouteName) : RouteName := (Screen.mount (0, 0) name).name

/-- What a call on `navigation` does to the names on the stack. -/
def moveNames : Option Nav → List RouteName → List RouteName
  | none, names => names
  | some (.replace name), names => rootName name :: names.tail
  | some (.reset name), _ => [rootName name]
  | some (.navigate name _), names =>
      if names.head? = some name then names
      else
        match names.tail.dropWhile fun n => n ≠ name with
        | [] => rootName name :: names
        | n :: rest => n :: rest
  | some .goBack, names =>
      match names.tail with
      | [] => names
      | n :: rest => n :: rest

theorem name_mount (dates : Nat × Nat) (name : RouteName) :
    (Screen.mount dates name).name = rootName name := by
  cases name <;> rfl

theorem names_moved (ui : Ui) (nav : Option Nav) :
    (moved ui nav).1.names = moveNames nav ui.names := by
  rcases nav with _ | name | ⟨name, dates⟩ | name | _
  · rfl
  · rfl
  · have hTail : ui.names.tail.dropWhile (fun n => n ≠ name) =
        (ui.below.dropWhile fun r => r.screen.name ≠ name).map fun r => r.screen.name := by
      simp only [Ui.names, Ui.stack, List.map_cons, List.tail_cons, List.dropWhile_map]
      rfl
    simp only [moved, Ui.navigate, moveNames, hTail]
    by_cases hName : ui.focused.screen.name = name
    · simp [hName, Ui.names, Ui.stack]
    · have hHead : ui.names.head? ≠ some name := by simpa [Ui.names, Ui.stack] using hName
      rw [if_neg hName, if_neg hHead]
      cases ui.below.dropWhile fun r => r.screen.name ≠ name with
      | nil =>
          show (Screen.mount dates name).name :: ui.names = _
          rw [name_mount]
          rfl
      | cons r rest => rfl
  · rfl
  · simp only [moved, Ui.navigate, moveNames]
    have hTail : ui.names.tail = ui.below.map fun r => r.screen.name := rfl
    rw [hTail]
    cases ui.below <;> rfl

theorem Follows.names {ui : Ui} {nav : Option Nav} {out : Ui × Issued Await}
    (h : Follows ui nav out) : out.1.names = moveNames nav ui.names := by
  rw [names_eq_labels, h.labels, ← names_eq_labels, names_moved]

/-- The root route that a call on `navigation` may mount. -/
def mounts : Option Nav → Option RouteName
  | some (.replace name) => some (rootName name)
  | some (.reset name) => some (rootName name)
  | some (.navigate name _) => some (rootName name)
  | _ => none

/-- A name on the stack was there before, or it has been mounted. -/
theorem mem_moveNames {nav : Option Nav} {names : List RouteName} {name : RouteName}
    (h : name ∈ moveNames nav names) : name ∈ names ∨ mounts nav = some name := by
  rcases nav with _ | opened | ⟨opened, dates⟩ | opened | _
  · exact Or.inl h
  · rcases List.mem_cons.mp h with rfl | hOld
    · exact Or.inr rfl
    · exact Or.inl (List.mem_of_mem_tail hOld)
  · simp only [moveNames] at h
    split at h
    · exact Or.inl h
    · split at h
      · rcases List.mem_cons.mp h with rfl | hOld
        · exact Or.inr rfl
        · exact Or.inl hOld
      · rename_i n rest hRest
        have hTail : name ∈ names.tail := (List.dropWhile_sublist _).mem (hRest ▸ h)
        exact Or.inl (List.mem_of_mem_tail hTail)
  · exact Or.inr (congrArg some (List.mem_singleton.mp h).symm)
  · simp only [moveNames] at h
    split at h
    · exact Or.inl h
    · rename_i n rest hRest
      exact Or.inl (List.mem_of_mem_tail (hRest ▸ h))

/-! ## Who asks -/

/-- What an event asks of the navigation. -/
inductive Asks (ui : Ui) (e : Event) : Option Nav → Prop
  | nothing : Asks ui e none
  | link {name : RouteName} (hAuth : ui.focused.screen.name = .AUTH)
      (hName : name = .LOGIN ∨ name = .SIGNUP) : Asks ui e (some (.replace name))
  | createTask {dates : Nat × Nat} (hHome : ui.focused.screen.name = .HOME)
      (hEvent : e = .home (.createTask dates)) : Asks ui e (some (.navigate .CREATE dates))
  | addMembers {dates : Nat × Nat} (hCreate : ui.focused.screen.name = .CREATE) :
      Asks ui e (some (.navigate .LIST dates))
  | back : Asks ui e (some .goBack)

/-- What a continuation asks of the navigation, whatever the screen with the focus. -/
inductive AsksLater (r : Ready) : Option Nav → Prop
  | nothing : AsksLater r none
  | home : AsksLater r (some (.replace .HOME))
  | auth {call key : Nat} (hLogout : r = .home (.logout call key)) :
      AsksLater r (some (.reset .AUTH))
  | back : AsksLater r (some .goBack)

theorem Asks.asked {ui : Ui} {e : Event} {nav : Option Nav} (h : Asks ui e nav) (n : Nav)
    (hn : nav = some n) : Asked ui n := by
  cases h with
  | nothing => nomatch hn
  | link _ hName =>
      cases hn
      exact Or.inr hName
  | createTask _ _ =>
      cases hn
      exact Or.inl rfl
  | addMembers hCreate =>
      cases hn
      exact Or.inr ⟨rfl, hCreate⟩
  | back =>
      cases hn
      trivial

theorem follows_perform {σ α : Type} {lift : (σ → σ) → Screen → Screen}
    (hLift : ∀ f sc, (lift f sc).name = sc.name) (wrap : α → Await) {eff : Effect σ α} {ui : Ui}
    {e : Event} (h : Asks ui e eff.navigate) :
    Follows ui eff.navigate ((counted ui).perform lift wrap ui.focused.key eff) := by
  rw [perform_eq, counted, moved_renumber]
  exact ⟨h.asked, labels_modify _ _ (hLift _), rfl, rfl⟩

theorem handle_asks {ui : Ui} {e : Event} {out : Ui × Issued Await}
    (h : app.handle e ui = some out) : ∃ nav, Follows ui nav out ∧ Asks ui e nav := by
  cases handle_cases h with
  | @login s e eff hs hEff =>
      have hAsks : Asks ui (.login e) eff.navigate := by
        rcases Login.handle_navigate hEff with hNav | hNav
        · exact hNav ▸ .nothing
        · exact hNav ▸ .link (by rw [hs]; rfl) (Or.inr rfl)
      exact ⟨_, follows_perform name_onLogin _ hAsks, hAsks⟩
  | @signup s e hs =>
      have hAsks : Asks ui (.signup e)
          (Signup.handle ui.focused.key ui.nextCall s e).navigate := by
        rcases Signup.handle_navigate ui.focused.key ui.nextCall s e with hNav | hNav
        · exact hNav ▸ .nothing
        · exact hNav ▸ .link (by rw [hs]; rfl) (Or.inl rfl)
      exact ⟨_, follows_perform name_onSignup _ hAsks, hAsks⟩
  | @home s e hs =>
      have hAsks : Asks ui (.home e) (Home.handle ui.focused.key ui.nextCall e).navigate := by
        cases e with
        | logout => exact .nothing
        | createTask dates => exact .createTask (by rw [hs]; rfl) rfl
      exact ⟨_, follows_perform name_onHome _ hAsks, hAsks⟩
  | @create s e hs =>
      have hAsks : Asks ui (.create e) (TaskCreation.handle e).navigate := by
        cases e with
        | addMembers => exact .addMembers (by rw [hs]; rfl)
        | handleBack => exact .back
        | changeName val => exact .nothing
        | changeDesc val => exact .nothing
        | pressLabel p => exact .nothing
        | pressDate p => exact .nothing
        | confirm p date => exact .nothing
        | cancel p => exact .nothing
      exact ⟨_, follows_perform name_onCreate _ hAsks, hAsks⟩
  | @list s e eff hs hEff =>
      have hAsks : Asks ui (.list e) eff.navigate := by
        rcases MembersList.handle_navigate hEff with hNav | ⟨-, hNav⟩
        · exact hNav ▸ .nothing
        · exact hNav ▸ .back
      exact ⟨_, follows_perform name_onList _ hAsks, hAsks⟩
  | systemBack =>
      have hMoved : (counted ui).navigate .goBack = _ :=
        moved_renumber ui (ui.nextCall + 1) (some .goBack)
      refine ⟨some .goBack, ⟨Asks.asked (e := .systemBack) .back, ?_, ?_, ?_⟩, .back⟩
      · rw [hMoved]
        rfl
      · rw [hMoved]
      · rw [hMoved]

theorem navOf_asksLater (r : Ready) : AsksLater r (navOf r) := by
  cases r with
  | login r =>
      cases r with
      | isUserLoggedIn key info =>
          simp only [navOf, Login.Ready.resume]
          split
          · exact .home
          · exact .nothing
      | getUsers call data =>
          obtain ⟨-, hEff⟩ | ⟨_, -, -, hEff⟩ := Login.afterUsers_cases call data
          · rw [navOf, Login.Ready.resume, hEff]
            exact .nothing
          · rw [navOf, Login.Ready.resume, hEff]
            exact .nothing
      | setLoggedIn call record => exact .home
  | signup r =>
      cases r with
      | getUsers call data =>
          obtain ⟨-, hEff⟩ | ⟨-, hEff⟩ := Signup.afterUsers_cases call data
          · rw [navOf, Signup.Ready.resume, hEff]
            exact .nothing
          · rw [navOf, Signup.Ready.resume, hEff]
            exact .nothing
      | setUsers call => exact .nothing
      | setLoggedIn call => exact .home
  | home r =>
      cases r with
      | getUserInfo key info => exact .nothing
      | logout call key => exact .auth rfl
  | create r => exact .nothing
  | list r =>
      cases r with
      | getDraft key list => rcases list with _ | _ | ⟨m, ms⟩ <;> exact .nothing
      | getMembers key list => exact .nothing
      | handleSubmit key => exact .back

/-- A `CREATE` that is new on the stack was navigated to. -/
theorem Follows.opened {ui : Ui} {nav : Option Nav} {out : Ui × Issued Await}
    (h : Follows ui nav out) {key : Nat} (hNew : (key, .CREATE) ∈ App.labels out.1)
    (hOld : (key, .CREATE) ∉ App.labels ui) :
    key = ui.nextKey ∧ ∃ dates, nav = some (.navigate .CREATE dates) := by
  have hAsked := h.asked
  have hMoves := moved_moves ui nav
  have hBelow : ui.below ⊆ ui.stack := List.subset_cons_self _ _
  have hSub : ∀ l : List Route, l ⊆ ui.stack →
      (key, RouteName.CREATE) ∉ l.map fun r => (r.key, r.screen.name) :=
    fun l hl hMem => hOld (List.map_subset _ hl hMem)
  rw [h.labels] at hNew
  generalize moved ui nav = out' at hMoves hNew
  cases hMoves with
  | stays => exact absurd hNew hOld
  | back hSuffix => exact absurd hNew (hSub _ (List.Subset.trans hSuffix.subset hBelow))
  | replaces name =>
      rcases List.mem_cons.mp hNew with hHead | hRest
      · have hSame : RouteName.CREATE = (Screen.mount (0, 0) name).name := congrArg Prod.snd hHead
        rcases hAsked _ rfl with rfl | rfl | rfl <;> nomatch hSame
      · exact absurd hRest (hSub _ hBelow)
  | resets name =>
      obtain rfl : name = .AUTH := hAsked _ rfl
      have hSame : (key, RouteName.CREATE) = (ui.nextKey, .AUTH) := List.mem_singleton.mp hNew
      nomatch congrArg Prod.snd hSame
  | pushes name dates _ =>
      rcases List.mem_cons.mp hNew with hHead | hRest
      · rcases hAsked _ rfl with rfl | ⟨rfl, -⟩
        · exact ⟨congrArg Prod.fst hHead, dates, rfl⟩
        · nomatch congrArg Prod.snd hHead
      · exact absurd hRest hOld

end TaskManager.App
