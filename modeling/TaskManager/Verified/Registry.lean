import Mathlib.Data.Finmap

/-!
# A registry of accounts

For each role a finite map from keys to profiles, and the account that is
logged in, if any, which the structure says is registered.  `put` registers a
new account and leaves the registered ones alone, `become` logs a registered
account in and `leave` logs out.

## Main results

* `lookup_put` — `put` is put-if-absent.
* `session_become`, `session_put` — the profile of the account that is logged in,
  after somebody logs in or registers.
-/

namespace TaskManager.Verified

variable {R K V : Type}

/-- The maps, and who is logged in. -/
structure Registry (R K V : Type) where
  accounts : R → Finmap fun _ : K => V
  current : Option (R × K)
  registered : ∀ r k, current = some (r, k) → k ∈ accounts r

namespace Registry

/-- Nobody is registered. -/
def empty : Registry R K V where
  accounts _ := ∅
  current := none
  registered r k h := by simp at h

variable [DecidableEq K]

/-- The profile that is registered under the key. -/
def lookup (g : Registry R K V) (r : R) (k : K) : Option V := (g.accounts r).lookup k

/-- The account that is logged in, with its profile. -/
def session (g : Registry R K V) : Option ((R × K) × V) :=
  g.current.bind fun c => (g.lookup c.1 c.2).map fun v => (c, v)

/-- Log a registered account in. -/
def become (g : Registry R K V) (r : R) (k : K) (h : k ∈ g.accounts r) : Registry R K V where
  accounts := g.accounts
  current := some (r, k)
  registered r' k' hSome := by
    rw [Option.some.injEq, Prod.mk.injEq] at hSome
    obtain ⟨rfl, rfl⟩ := hSome
    exact h

/-- Log out. -/
def leave (g : Registry R K V) : Registry R K V where
  accounts := g.accounts
  current := none
  registered r k h := by simp at h

/-- Register an account, unless its key is taken. -/
def put [DecidableEq R] (g : Registry R K V) (r : R) (k : K) (v : V) : Registry R K V :=
  if k ∈ g.accounts r then g
  else
    { accounts := Function.update g.accounts r ((g.accounts r).insert k v)
      current := g.current
      registered := by
        intro r' k' h
        have hOld := g.registered r' k' h
        by_cases hRole : r' = r
        · subst hRole
          simpa using Or.inr hOld
        · simpa [Function.update_of_ne hRole] using hOld }

/-! ## The account that is logged in -/

/-- To be registered is to have a profile. -/
theorem mem_accounts {g : Registry R K V} {r : R} {k : K} :
    k ∈ g.accounts r ↔ (g.lookup r k).isSome := Finmap.lookup_isSome.symm

@[simp] theorem lookup_empty (r : R) (k : K) : (empty : Registry R K V).lookup r k = none :=
  Finmap.lookup_empty k

@[simp] theorem lookup_become (g : Registry R K V) (r r' : R) (k k' : K)
    (h : k ∈ g.accounts r) : (g.become r k h).lookup r' k' = g.lookup r' k' := rfl

/-- A session exists exactly when someone is logged in. -/
theorem session_isSome (g : Registry R K V) : g.session.isSome = g.current.isSome := by
  cases h : g.current with
  | none => simp [session, h]
  | some c =>
      obtain ⟨v, hv⟩ := Option.isSome_iff_exists.mp (mem_accounts.mp (g.registered c.1 c.2 h))
      simp [session, h, hv]

/-- One who logs in is the session, with his profile. -/
theorem session_become {g : Registry R K V} {r : R} {k : K} {v : V} (h : k ∈ g.accounts r)
    (hLookup : g.lookup r k = some v) : (g.become r k h).session = some ((r, k), v) := by
  have hCurrent : (g.become r k h).current = some (r, k) := rfl
  simp [session, hCurrent, hLookup]

/-! ## Registering -/

variable [DecidableEq R]

/-- **Put if absent.** -/
theorem lookup_put (g : Registry R K V) (r r' : R) (k k' : K) (v : V) :
    (g.put r k v).lookup r' k' =
      if r' = r ∧ k' = k then some ((g.lookup r k).getD v) else g.lookup r' k' := by
  by_cases hTaken : k ∈ g.accounts r
  · obtain ⟨w, hw⟩ := Option.isSome_iff_exists.mp (mem_accounts.mp hTaken)
    rw [put, if_pos hTaken]
    by_cases hSame : r' = r ∧ k' = k
    · rw [if_pos hSame, hSame.1, hSame.2, hw]
      rfl
    · rw [if_neg hSame]
  · have hNone : g.lookup r k = none := by
      rw [← Option.not_isSome_iff_eq_none, ← mem_accounts]
      exact hTaken
    rw [put, if_neg hTaken, hNone]
    by_cases hRole : r' = r
    · subst hRole
      by_cases hKey : k' = k
      · subst hKey
        simp [lookup]
      · simp [lookup, hKey, Finmap.lookup_insert_of_ne _ hKey]
    · simp [lookup, hRole]

/-- One who registers is registered. -/
theorem mem_put (g : Registry R K V) (r : R) (k : K) (v : V) : k ∈ (g.put r k v).accounts r := by
  rw [mem_accounts, lookup_put]
  simp

/-- Registering an account logs nobody in or out. -/
theorem session_put (g : Registry R K V) (r : R) (k : K) (v : V) :
    (g.put r k v).session = g.session := by
  have hCurrent : (g.put r k v).current = g.current := by
    unfold put
    split <;> rfl
  unfold session
  rw [hCurrent]
  cases h : g.current with
  | none => rfl
  | some c =>
      obtain ⟨w, hw⟩ := Option.isSome_iff_exists.mp (mem_accounts.mp (g.registered c.1 c.2 h))
      have hSame : (g.put r k v).lookup c.1 c.2 = g.lookup c.1 c.2 := by
        rw [lookup_put]
        split
        · rename_i hEq
          rw [← hEq.1, ← hEq.2, hw]
          rfl
        · rfl
      rw [Option.bind_some, Option.bind_some, hSame]

end Registry

end TaskManager.Verified
