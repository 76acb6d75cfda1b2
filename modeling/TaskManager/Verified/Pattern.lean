import Mathlib.Data.List.Basic

/-!
# Backtracking matching of flat patterns

A flat pattern is a sequence of assertions, single symbols and repeated
symbols, without groups or alternation.  It is matched as ECMAScript
prescribes: a matcher takes the rest of the input and a continuation that must
also succeed, a greedy repetition tries one more symbol before it tries its
continuation, a lazy one tries its continuation first.

Input positions count from `0`; `Node.start` holds at position `0` only and
`Node.finish` at the end of the input only, as without the multiline flag.

`Matches` says what a pattern matches without an order of trying, and
`isSome_matchAt` that the matcher finds a match exactly when there is one.
-/

namespace TaskManager.Verified.Pattern

variable {α : Type}

/-- The parts of a pattern: an end of the text, one symbol of a class, or a run of them. -/
inductive Node (α : Type) where
  | start
  | finish
  | one (p : α → Bool)
  | many (p : α → Bool) (min : Nat) (max : Option Nat) (greedy : Bool)

/-- A match found from some position: the position it ends at. -/
abbrev Match := Option Nat

/-- `k` more symbols of class `p`, then `next`; `max = none` is unbounded.
The recursion is on the input, since every iteration consumes one symbol. -/
def repeatMatch (p : α → Bool) (greedy : Bool) (next : Nat → List α → Match) :
    Nat → Option Nat → Nat → List α → Match
  | _, some 0, i, cs => next i cs
  | 0, _, i, [] => next i []
  | _ + 1, _, _, [] => none
  | 0, max, i, c :: cs =>
      let more :=
        if p c then repeatMatch p greedy next 0 (max.map (· - 1)) (i + 1) cs
        else none
      if greedy then more <|> next i (c :: cs) else next i (c :: cs) <|> more
  | min + 1, max, i, c :: cs =>
      if p c then repeatMatch p greedy next min (max.map (· - 1)) (i + 1) cs
      else none

/-- The pattern from position `i` on, where `cs` is the rest of the input. -/
def matchAt : List (Node α) → Nat → List α → Match
  | [], i, _ => some i
  | .start :: ns, i, cs => if i = 0 then matchAt ns i cs else none
  | .finish :: ns, i, cs => if cs.isEmpty then matchAt ns i cs else none
  | .one p :: ns, i, cs =>
      match cs with
      | [] => none
      | c :: cs => if p c then matchAt ns (i + 1) cs else none
  | .many p min max greedy :: ns, i, cs =>
      repeatMatch p greedy (matchAt ns) min max i cs

/-- The leftmost match at position `i` or later. -/
def search (ns : List (Node α)) : Nat → List α → Match
  | i, [] => matchAt ns i []
  | i, c :: cs => matchAt ns i (c :: cs) <|> search ns (i + 1) cs

/-- `RegExp.prototype.test` of a pattern without the global and sticky flags. -/
def test (ns : List (Node α)) (cs : List α) : Bool := (search ns 0 cs).isSome

/-! ## What a pattern matches -/

/-- The symbols `taken` by a repetition: all of its class, and as many as its
bounds allow. -/
structure Repeats (p : α → Bool) (min : Nat) (max : Option Nat) (taken : List α) :
    Prop where
  mem : ∀ c ∈ taken, p c = true
  min_le : min ≤ taken.length
  le_max : ∀ m ∈ max, taken.length ≤ m

theorem repeats_nil {p : α → Bool} {min : Nat} {max : Option Nat} :
    Repeats p min max [] ↔ min = 0 := by
  constructor
  · intro h
    have hMin := h.min_le
    simpa using hMin
  · intro h
    exact ⟨by simp, by simp [h], by simp⟩

/-- One more symbol of a run. -/
theorem repeats_cons {p : α → Bool} {min : Nat} {max : Option Nat} {c : α}
    {taken : List α} :
    Repeats p min max (c :: taken) ↔
      p c = true ∧ max ≠ some 0 ∧ Repeats p (min - 1) (max.map (· - 1)) taken := by
  constructor
  · intro h
    have hMin := h.min_le
    have hMax := h.le_max
    rw [List.length_cons] at hMin hMax
    refine ⟨h.mem c (by simp), ?_, fun d hd => h.mem d (by simp [hd]), by omega, ?_⟩
    · rintro rfl
      have := hMax 0 rfl
      omega
    · intro m hm
      obtain ⟨k, hk, rfl⟩ := Option.map_eq_some_iff.mp hm
      have := hMax k hk
      omega
  · rintro ⟨hc, hMax, hRest⟩
    have hMin := hRest.min_le
    refine ⟨?_, by rw [List.length_cons]; omega, ?_⟩
    · intro d hd
      rcases List.mem_cons.mp hd with rfl | hd
      · exact hc
      · exact hRest.mem d hd
    · rintro (_ | m) hm
      · exact absurd hm hMax
      · have := hRest.le_max m (Option.map_eq_some_iff.mpr ⟨m + 1, hm, rfl⟩)
        rw [List.length_cons]
        omega

/-- The bounds of every repetition are in order, as the grammar of patterns
demands. -/
def Node.Ordered : Node α → Prop
  | .many _ min max _ => ∀ m ∈ max, min ≤ m
  | _ => True

section

variable {p : α → Bool} {greedy : Bool} {next : Nat → List α → Match}
  {min : Nat} {max : Option Nat} {i : Nat}

theorem repeatMatch_none_left (min : Nat) (cs : List α) :
    repeatMatch p greedy next min (some 0) i cs = next i cs := by
  rw [repeatMatch]

theorem isSome_repeatMatch_nil (hMax : max ≠ some 0) :
    (repeatMatch p greedy next min max i []).isSome = true ↔
      min = 0 ∧ (next i []).isSome = true := by
  cases min with
  | zero => simp [repeatMatch]
  | succ min => simp [repeatMatch]

/-- Greedy or lazy, a repetition succeeds when it can stop or take a symbol. -/
theorem isSome_repeatMatch_cons (hMax : max ≠ some 0) (c : α) (cs : List α) :
    (repeatMatch p greedy next min max i (c :: cs)).isSome = true ↔
      (min = 0 ∧ (next i (c :: cs)).isSome = true) ∨
        (p c = true ∧
          (repeatMatch p greedy next (min - 1) (max.map (· - 1)) (i + 1) cs).isSome = true) := by
  cases min with
  | zero =>
      cases greedy <;> by_cases hc : p c = true <;>
        simp [repeatMatch, hc, Option.isSome_or, or_comm]
  | succ min =>
      by_cases hc : p c = true <;> simp [repeatMatch, hc]

/-- The ways of dividing a list whose first symbol is `c`. -/
theorem exists_split_cons {P : List α → List α → Prop} (c : α) (cs : List α) :
    (∃ taken rest, c :: cs = taken ++ rest ∧ P taken rest) ↔
      P [] (c :: cs) ∨ ∃ taken rest, cs = taken ++ rest ∧ P (c :: taken) rest := by
  constructor
  · rintro ⟨taken, rest, hSplit, hP⟩
    cases taken with
    | nil =>
        rw [List.nil_append] at hSplit
        exact Or.inl (hSplit ▸ hP)
    | cons d taken =>
        rw [List.cons_append, List.cons.injEq] at hSplit
        obtain ⟨rfl, hSplit⟩ := hSplit
        exact Or.inr ⟨taken, rest, hSplit, hP⟩
  · rintro (hP | ⟨taken, rest, rfl, hP⟩)
    · exact ⟨[], c :: cs, rfl, hP⟩
    · exact ⟨c :: taken, rest, rfl, hP⟩

/-- A repetition succeeds when its continuation does after some number of
symbols that the bounds allow.  Whether it is greedy or lazy only decides which
number is found. -/
theorem isSome_repeatMatch (hOrd : ∀ m ∈ max, min ≤ m) (cs : List α) :
    (repeatMatch p greedy next min max i cs).isSome = true ↔
      ∃ taken rest, cs = taken ++ rest ∧ Repeats p min max taken ∧
        (next (i + taken.length) rest).isSome = true := by
  induction cs generalizing min max i with
  | nil =>
      by_cases hMax : max = some 0
      · subst hMax
        have hMin : min = 0 := by simpa using hOrd 0 rfl
        simp [repeatMatch_none_left, repeats_nil, hMin]
      · simp [isSome_repeatMatch_nil hMax, repeats_nil]
  | cons c cs ih =>
      rw [exists_split_cons]
      by_cases hMax : max = some 0
      · subst hMax
        have hMin : min = 0 := by simpa using hOrd 0 rfl
        simp [repeatMatch_none_left, repeats_nil, repeats_cons, hMin]
      · have hLess : ∀ m ∈ max.map (· - 1), min - 1 ≤ m := by
          intro m hm
          obtain ⟨k, hk, rfl⟩ := Option.map_eq_some_iff.mp hm
          have hLe := hOrd k hk
          omega
        rw [isSome_repeatMatch_cons hMax, ih hLess, repeats_nil]
        refine or_congr Iff.rfl ?_
        simp only [repeats_cons, List.length_cons, hMax, ne_eq, not_false_eq_true, true_and,
          Nat.add_assoc, Nat.add_comm 1]
        constructor
        · rintro ⟨hc, taken, rest, hSplit, hRun, hNext⟩
          exact ⟨taken, rest, hSplit, ⟨hc, hRun⟩, hNext⟩
        · rintro ⟨taken, rest, hSplit, ⟨hc, hRun⟩, hNext⟩
          exact ⟨hc, taken, rest, hSplit, hRun, hNext⟩

end

/-- The pattern matches from position `i` on, for some choice of how much every
repetition takes. -/
def Matches : List (Node α) → Nat → List α → Prop
  | [], _, _ => True
  | .start :: ns, i, cs => i = 0 ∧ Matches ns i cs
  | .finish :: ns, i, cs => cs = [] ∧ Matches ns i cs
  | .one p :: ns, i, cs => ∃ c rest, cs = c :: rest ∧ p c = true ∧ Matches ns (i + 1) rest
  | .many p min max _ :: ns, i, cs =>
      ∃ taken rest, cs = taken ++ rest ∧ Repeats p min max taken ∧
        Matches ns (i + taken.length) rest

/-- **The matcher decides the pattern.**  Backtracking finds a match exactly
when there is one, in whichever order it tries the choices. -/
theorem isSome_matchAt {ns : List (Node α)} (hOrd : ∀ n ∈ ns, n.Ordered) (i : Nat)
    (cs : List α) : (matchAt ns i cs).isSome = true ↔ Matches ns i cs := by
  induction ns generalizing i cs with
  | nil => simp [matchAt, Matches]
  | cons n ns ih =>
      have hTail := ih fun m hm => hOrd m (List.mem_cons_of_mem n hm)
      cases n with
      | start => by_cases hi : i = 0 <;> simp [matchAt, Matches, hi, hTail]
      | finish => cases cs <;> simp [matchAt, Matches, hTail]
      | one p =>
          cases cs with
          | nil => simp [matchAt, Matches]
          | cons c cs => by_cases hc : p c = true <;> simp [matchAt, Matches, hc, hTail]
      | many p min max greedy =>
          rw [matchAt, isSome_repeatMatch (hOrd _ List.mem_cons_self)]
          simp only [hTail, Matches]

/-- The search finds a match at any position. -/
theorem isSome_search {ns : List (Node α)} (hOrd : ∀ n ∈ ns, n.Ordered) (i : Nat)
    (cs : List α) :
    (search ns i cs).isSome = true ↔
      ∃ before rest, cs = before ++ rest ∧ Matches ns (i + before.length) rest := by
  induction cs generalizing i with
  | nil => simp [search, isSome_matchAt hOrd]
  | cons c cs ih =>
      rw [search, Option.orElse_eq_orElse, Option.orElse_eq_or, Option.isSome_or,
        Bool.or_eq_true, isSome_matchAt hOrd, ih, exists_split_cons]
      simp only [List.length_cons, List.length_nil, Nat.add_zero, Nat.add_assoc,
        Nat.add_comm 1]

/-- An anchored pattern is matched against the whole input only. -/
theorem test_anchored {ns : List (Node α)} (hOrd : ∀ n ∈ ns, n.Ordered) (cs : List α) :
    test (.start :: ns) cs = true ↔ Matches ns 0 cs := by
  have hAll : ∀ n ∈ (.start :: ns : List (Node α)), n.Ordered := by
    intro n hn
    rcases List.mem_cons.mp hn with rfl | hn
    · trivial
    · exact hOrd n hn
  rw [test, isSome_search hAll]
  constructor
  · rintro ⟨before, rest, rfl, hi, hRest⟩
    rw [Nat.zero_add, List.length_eq_zero_iff] at hi
    subst hi
    exact hRest
  · intro h
    exact ⟨[], cs, rfl, rfl, h⟩

end TaskManager.Verified.Pattern
