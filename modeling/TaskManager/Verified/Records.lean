import Mathlib.Data.List.Basic
import Mathlib.Data.List.Nodup
import Mathlib.Data.List.ReduceOption

/-!
# Records behind references

Copies of an array share the records they refer to, so that a change through one
copy is seen through all of them.  `heap` holds the records and an array is a list
of references into it.  A change goes to the first record with a given key; the
main result is `read_change`: where the keys are distinct it changes this record
and no other.
-/

namespace TaskManager.Verified.Records

variable {α κ : Type} (key : α → κ)

/-- The records that an array refers to, as they are now. -/
def read (heap : List α) (array : List Nat) : List α :=
  array.filterMap fun r => heap[r]?

/-- The keys behind the references of an array. -/
def keys (heap : List α) (array : List Nat) : List (Option κ) :=
  array.map fun r => heap[r]?.map key

/-- The keys of what is read. -/
theorem map_read (heap : List α) (array : List Nat) :
    (read heap array).map key = (keys key heap array).reduceOption := by
  rw [read, keys, List.reduceOption, List.map_filterMap, List.filterMap_map]
  rfl

/-! ## Fresh records -/

theorem get_fresh (heap list : List α) :
    (List.range' heap.length list.length).map (fun r => (heap ++ list)[r]?) = list.map some := by
  refine List.ext_getElem (by simp) fun i hi _ => ?_
  have hBound : i < list.length := by simpa using hi
  simp [hBound]

/-- Freshly created records are read in their order. -/
theorem read_fresh (heap list : List α) :
    read (heap ++ list) (List.range' heap.length list.length) = list := by
  have hRead : read (heap ++ list) (List.range' heap.length list.length) =
      ((List.range' heap.length list.length).map fun r => (heap ++ list)[r]?).reduceOption := by
    rw [read, List.reduceOption, List.filterMap_map]
    rfl
  rw [hRead, get_fresh, List.reduceOption, List.filterMap_map]
  exact List.filterMap_some

theorem keys_fresh (heap list : List α) :
    keys key (heap ++ list) (List.range' heap.length list.length) =
      (list.map key).map some := by
  have hKeys : keys key (heap ++ list) (List.range' heap.length list.length) =
      ((List.range' heap.length list.length).map fun r => (heap ++ list)[r]?).map
        (Option.map key) := by
    rw [keys, List.map_map]
    rfl
  rw [hKeys, get_fresh, List.map_map, List.map_map]
  rfl

/-! ## Changes -/

variable [DecidableEq κ]

/-- The first reference to a record with the key `k`. -/
def find (heap : List α) (array : List Nat) (k : κ) : Option Nat :=
  array.find? fun r => heap[r]?.any fun a => key a = k

/-- Change the first record with the key `k`. -/
def change (heap : List α) (array : List Nat) (k : κ) (f : α → α) : List α :=
  match find key heap array k with
  | none => heap
  | some r => heap.modify r f

section

variable {key} {heap : List α} {array : List Nat} {k : κ} {f : α → α}

/-- A change that leaves the keys of the records alone leaves all keys alone. -/
theorem keys_change (hKey : ∀ a, key (f a) = key a) (others : List Nat) :
    keys key (change key heap array k f) others = keys key heap others := by
  refine List.map_congr_left fun r _ => ?_
  rw [change]
  split
  · rfl
  · rw [List.getElem?_modify]
    cases heap[r]? with
    | none => rfl
    | some a =>
        simp only [Option.map_eq_map, Option.map_some]
        split
        · rw [hKey]
        · rfl

/-- A key that is not found is no key of the array. -/
theorem find_eq_none (h : find key heap array k = none) {a : α} (ha : a ∈ read heap array) :
    key a ≠ k := by
  obtain ⟨r, hr, hAt⟩ := List.mem_filterMap.mp ha
  have hNot := List.find?_eq_none.mp h r hr
  simpa [hAt] using hNot

/-- A key that is found is the key of a record of the array. -/
theorem find_eq_some {r : Nat} (h : find key heap array k = some r) :
    r ∈ array ∧ heap[r]?.map key = some k := by
  refine ⟨List.mem_of_find?_eq_some h, ?_⟩
  have hFound := List.find?_some h
  cases hAt : heap[r]? with
  | none => simp [hAt] at hFound
  | some a => simpa [hAt] using hFound

/-- Where the keys are distinct, a change changes the record with its key. -/
theorem read_change (hDistinct : (keys key heap array).Nodup) :
    read (change key heap array k f) array =
      (read heap array).map fun a => if key a = k then f a else a := by
  rw [change]
  split
  · rename_i hNone
    rw [List.map_congr_left fun a ha => if_neg (find_eq_none hNone ha), List.map_id']
  · rename_i r hSome
    obtain ⟨hr, hKey⟩ := find_eq_some hSome
    rw [read, read, List.map_filterMap]
    refine List.filterMap_congr fun r' hr' => ?_
    rw [List.getElem?_modify]
    cases hAt : heap[r']? with
    | none => rfl
    | some a =>
        -- the same record, or another one with another key
        have hSame : r = r' ↔ key a = k := by
          constructor
          · rintro rfl
            simpa [hAt] using hKey
          · intro hOwn
            refine List.inj_on_of_nodup_map hDistinct hr hr' ?_
            rw [hKey, hAt, Option.map_some, hOwn]
        simp only [Option.map_eq_map, Option.map_some, hSame]

end

end TaskManager.Verified.Records
