import TaskManager.App.RoutedApp
import TaskManager.App.Scripts

/-!
# Runs over the router

What is proved of the application over `Ui.navigate` holds of the application whose calls
on `navigation` go through `StackRouter`, up through the nested navigator and down again:
`router_refines`.  A stack navigator by itself, with any screens and any actions, stays a
stack: `navigator_stays_a_stack`.
-/

namespace TaskManager.Runs

open TaskManager.Shared
open TaskManager.Pages
open TaskManager.Routes
open TaskManager.Routes.StackRouter
open TaskManager.Verified.EventLoop
open TaskManager.App

/-- **The navigation of the model is what the router does**, in every run: the same actions
can be taken, the store, the screens, the callbacks, the requests and the continuations are
the same, and the screens that are mounted are those that the navigators' states ask for. -/
theorem router_refines (xs : List Action) :
    run xs = (routedApp.exec routedInit xs).map asRouted.state ∧
      ∀ s ∈ routedApp.exec routedInit xs, Agrees s.ui.navigation s.ui.ui := by
  have hActions : xs.map asRouted.action = xs := by
    refine (List.map_congr_left fun x _ => ?_).trans (List.map_id xs)
    exact x.map_id
  have hInit : asRouted.state routedInit = init := rfl
  have hRun := asRouted.exec_map routedInit tracks_init xs
  rw [hActions, hInit] at hRun
  refine ⟨hRun, fun s hs => ?_⟩
  have hTracks : Tracks s.ui :=
    routedApp.exec_invariant (fun s => Tracks s.ui) tracks_init
      (fun _ _ _ hKeeps hx => asRouted.keeps_step hKeeps hx) hs
  exact hTracks.agrees

/-- **A stack navigator stays a stack.**  Whatever screens it has and whatever plain actions it
is given, by whatever screens and at whatever navigators, its last route has the focus, its
routes are of its own screens, and their keys are different. -/
theorem navigator_stays_a_stack {N P S I : Type} [DecidableEq N] [DecidableEq I]
    (options : RouterConfigOptions N P I) (routeNames : List N) (name : N)
    (hName : name ∈ routeNames) (actions : List (NavigationAction N P))
    (hPlain : ∀ action ∈ actions, action.payload.plain = true) :
    StackRouter.WellFormed routeNames (actions.foldl (onAction options routeNames name)
      (1, (getInitialState options routeNames name 0 : NavigationState N P S))).2 := by
  have hInit : StackRouter.WellFormed routeNames
      (getInitialState options routeNames name 0 : NavigationState N P S) := by
    refine ⟨rfl, rfl, ?_, List.nodup_singleton _⟩
    intro e he
    rw [List.mem_singleton.mp he]
    exact hName
  refine hInit.onAction_all ?_ name hPlain
  intro e he
  rw [List.mem_singleton.mp he]
  exact Nat.zero_lt_one

/-- A push, a jump back, a pop from the middle, and a reset to a whole state whose names come
in another order. -/
theorem navigator_stays_a_stack_push :
    StackRouter.WellFormed mainRouteNames ([ { payload := .PUSH RouteName.HOME none }
        , { payload := .PUSH RouteName.CREATE none }
        , { payload := .POP 1, source := some ⟨.HOME, 1⟩, target := some 0 }
        , { payload := .NAVIGATE (some RouteName.AUTH) none none false }
        , { payload := .RESET (.whole 9 1 [.LIST, .CREATE, .HOME, .AUTH]
              [{ name := .HOME }, { name := .CREATE }]) } ].foldl
      (onAction routerOptions mainRouteNames RouteName.AUTH)
      (1, (getInitialState routerOptions mainRouteNames .AUTH 0 : MainState))).2 :=
  navigator_stays_a_stack routerOptions mainRouteNames .AUTH (by decide) _ (by decide)

/-- A negative count, for a route that is not the last, puts the routes after it on the stack
twice. -/
example :
    ((([ { payload := .PUSH RouteName.HOME none }
        , { payload := .PUSH RouteName.CREATE none }
        , { payload := .POP (-1), source := some ⟨.HOME, 1⟩, target := some 0 } ].foldl
      (onAction routerOptions mainRouteNames RouteName.AUTH)
      (1, (getInitialState routerOptions mainRouteNames .AUTH 0 : MainState))).2.routes).map
        fun r => r.key) = [⟨.AUTH, 0⟩, ⟨.HOME, 1⟩, ⟨.CREATE, 2⟩, ⟨.CREATE, 2⟩] := by
  decide

end TaskManager.Runs
