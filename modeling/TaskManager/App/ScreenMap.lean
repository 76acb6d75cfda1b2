import TaskManager.App.Steps
import TaskManager.Verified.Morphism

/-!
# Changing what the screens hold

A map of screens that keeps their names goes along with the navigation, and with
every stretch of a handler whose updates it goes along with: `perform_map`.  It is
the part that the maps of the application to itself have in common.
-/

namespace TaskManager.App

open TaskManager.Shared
open TaskManager.Pages
open TaskManager.Routes
open TaskManager.Verified.EventLoop

theorem focusEffects_eq (r : Route) :
    r.focusEffects =
      if r.screen.name = .CREATE then [.create (.fetchMembers r.key)] else [] := by
  unfold Route.focusEffects
  cases r.screen <;> rfl

/-- The same move, with other dates. -/
def redated (dates : Nat × Nat → Nat × Nat) : Nav → Nav
  | .replace name => .replace name
  | .navigate name d => .navigate name (dates d)
  | .reset name => .reset name
  | .goBack => .goBack

/-- A map of screens, together with a map of the dates that a fresh `CREATE` reads. -/
structure ScreenMap where
  apply : Screen → Screen
  dates : Nat × Nat → Nat × Nat
  dates_zero : dates (0, 0) = (0, 0)
  mount : ∀ d name, apply (.mount d name) = .mount (dates d) name
  name : ∀ screen, (apply screen).name = screen.name

namespace ScreenMap

variable (g : ScreenMap)

/-- The instance keeps its key. -/
def route (r : Route) : Route := { r with screen := g.apply r.screen }

/-- All mounted screens are mapped; keys and numbers stay. -/
def ui (ui : Ui) : Ui :=
  { ui with focused := g.route ui.focused, below := ui.below.map g.route }

theorem focusEffects_route (r : Route) : (g.route r).focusEffects = r.focusEffects := by
  rw [focusEffects_eq, focusEffects_eq]
  simp only [route, g.name]

theorem mountEffects_mount (key : Nat) (d d' : Nat × Nat) (name : RouteName) :
    Route.mountEffects ⟨key, .mount d name⟩ = Route.mountEffects ⟨key, .mount d' name⟩ := by
  cases name <;> rfl

theorem mountOver_map (ui : Ui) (name : RouteName) (d : Nat × Nat) (below : List Route) :
    (g.ui ui).mountOver name (g.dates d) (below.map g.route) =
      (g.ui (ui.mountOver name d below).1, (ui.mountOver name d below).2) := by
  simp only [Ui.mountOver, ScreenMap.ui, route, g.mount]
  rw [mountEffects_mount _ (g.dates d) d]

theorem refocus_map (ui : Ui) (r : Route) (below : List Route) :
    (g.ui ui).refocus (g.route r) (below.map g.route) =
      (g.ui (ui.refocus r below).1, (ui.refocus r below).2) := by
  simp only [Ui.refocus, ScreenMap.ui, focusEffects_route]

theorem navigate_map (ui : Ui) (nav : Nav) :
    (g.ui ui).navigate (redated g.dates nav) = (g.ui (ui.navigate nav).1, (ui.navigate nav).2) := by
  cases nav with
  | replace name =>
      have hMount := g.mountOver_map ui name (0, 0) ui.below
      rwa [g.dates_zero] at hMount
  | reset name =>
      have hMount := g.mountOver_map ui name (0, 0) []
      rwa [g.dates_zero] at hMount
  | navigate name dates =>
      have hFocus : (g.ui ui).focused.screen.name = ui.focused.screen.name := g.name _
      have hFound : (g.ui ui).below.dropWhile (fun r => r.screen.name ≠ name) =
          (ui.below.dropWhile fun r => r.screen.name ≠ name).map g.route := by
        show (ui.below.map g.route).dropWhile _ = _
        rw [List.dropWhile_map]
        simp [Function.comp_def, route, g.name]
      simp only [redated, Ui.navigate, hFocus, hFound]
      split
      · rfl
      · cases ui.below.dropWhile fun r => r.screen.name ≠ name with
        | nil => exact g.mountOver_map ui name dates ui.stack
        | cons r rest => exact g.refocus_map ui r rest
  | goBack =>
      have hBelow : (g.ui ui).below = ui.below.map g.route := rfl
      simp only [redated, Ui.navigate, hBelow]
      cases ui.below with
      | nil => rfl
      | cons r rest => exact g.refocus_map ui r rest

theorem modify_map {f f' : Screen → Screen} (h : ∀ screen, g.apply (f screen) = f' (g.apply screen))
    (ui : Ui) (key : Nat) : (g.ui ui).modify key f' = g.ui (ui.modify key f) := by
  have hOne : ∀ r : Route,
      (if (g.route r).key = key then { g.route r with screen := f' (g.route r).screen }
        else g.route r) =
      g.route (if r.key = key then { r with screen := f r.screen } else r) := by
    intro r
    by_cases hKey : r.key = key
    · simp [route, hKey, h]
    · simp [route, hKey]
  simp only [Ui.modify, ScreenMap.ui, List.map_map]
  congr 1
  · exact hOne ui.focused
  · exact List.map_congr_left fun r _ => hOne r

/-! ## Stretches of handlers -/

theorem moved_map (ui : Ui) (nav : Option Nav) :
    moved (g.ui ui) (nav.map (redated g.dates)) = (g.ui (moved ui nav).1, (moved ui nav).2) := by
  cases nav with
  | none => rfl
  | some nav => exact g.navigate_map ui nav

/-- A map of requests that leaves loads alone leaves the callbacks of a move alone. -/
theorem map_effects_moved {F : Await → Await} (hLoad : ∀ a, IsLoad a → F a = a) (ui : Ui)
    (nav : Option Nav) : (moved ui nav).2.map F = (moved ui nav).2 := by
  refine (List.map_congr_left fun a ha => ?_).trans (List.map_id _)
  cases nav with
  | none => simp [moved] at ha
  | some nav => exact hLoad a (isLoad_of_mem_navigate ha)

/-- A stretch of the images, against the stretch that `eff` is. -/
theorem perform_map {σ α : Type} {lift : (σ → σ) → Screen → Screen} {wrap : α → Await}
    {f : α → α} {F : Await → Await} (hLoad : ∀ a, IsLoad a → F a = a)
    (hWrap : ∀ a, F (wrap a) = wrap (f a)) {eff eff' : Effect σ α}
    (hNav : eff'.navigate = eff.navigate.map (redated g.dates))
    (hUpdate : ∀ screen, g.apply (lift eff.update screen) = lift eff'.update (g.apply screen))
    (hRequests : eff'.requests = eff.requests.map f) (key : Nat) (ui : Ui) :
    (g.ui ui).perform lift wrap key eff' =
      (g.ui (ui.perform lift wrap key eff).1, (ui.perform lift wrap key eff).2.map F) := by
  rw [perform_eq, perform_eq, hNav, g.moved_map, hRequests, Issued.map, map_effects_moved hLoad]
  simp only [g.modify_map hUpdate, List.map_map]
  congr 2
  exact List.map_congr_left fun a _ => (hWrap a).symm

theorem handle_systemBack (ui : Ui) :
    app.handle .systemBack ui =
      some ((moved (counted ui) (some .goBack)).1,
        { effects := (moved (counted ui) (some .goBack)).2 }) := rfl

theorem systemBack_map {F : Await → Await} (hLoad : ∀ a, IsLoad a → F a = a) (ui : Ui) :
    app.handle .systemBack (g.ui ui) =
      (app.handle .systemBack ui).map fun out => (g.ui out.1, out.2.map F) := by
  have hMoved : moved (counted (g.ui ui)) (some .goBack) = _ :=
    g.moved_map (counted ui) (some .goBack)
  rw [handle_systemBack, handle_systemBack, hMoved, Option.map_some, Issued.map,
    map_effects_moved hLoad]
  rfl

theorem launch_map {F : Await → Await} (hLoad : ∀ a, IsLoad a → F a = a) (ui : Ui) :
    app.launch (g.ui ui) = (g.ui (app.launch ui).1, (app.launch ui).2.map F) := by
  have hMount := g.mountOver_map ui .AUTH (0, 0) []
  rw [g.dates_zero] at hMount
  have hEffects : (ui.mountOver .AUTH (0, 0) []).2.map F = (ui.mountOver .AUTH (0, 0) []).2 :=
    (List.map_congr_left fun a ha => hLoad a
      (isLoad_of_mem_mountEffects (r := ⟨ui.nextKey, .mount (0, 0) .AUTH⟩) ha)).trans
        (List.map_id _)
  show (((g.ui ui).mountOver .AUTH (0, 0) []).1,
    ({ effects := ((g.ui ui).mountOver .AUTH (0, 0) []).2 } : Issued Await)) = _
  rw [show (g.ui ui).mountOver .AUTH (0, 0) [] = _ from hMount, Issued.map]
  show _ = (_, ({ effects := (ui.mountOver .AUTH (0, 0) []).2.map F } : Issued Await))
  rw [hEffects]
  rfl

end ScreenMap

end TaskManager.App
