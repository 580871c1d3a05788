import Reckoner.Calculator
import Reckoner.Proofs.Comparison

/-!
# The smallest and the largest of several numbers

`MIN` and `MAX` go through their arguments and keep the best number so far, starting from the
infinity that any other number improves on.  What is not a number they skip.

Both are one search by one `key`, the place in the order of floats, which is turned round for
`MAX` (`Chooses`).  A step keeps the best of what was there and what is new (`Foremost.of_choose`),
so a run keeps the best of the start and all that came (`foremost_foldl`).

The start is left only if no argument is a number.  Then the answer is a number that was not
given (`exists_invented`).  Otherwise it is one of the arguments, and in no case is an argument
beyond it (`callFunction_extremes`).
-/

namespace Reckoner.Formula

open Number

/-! ## The search -/

variable {key : Float → Int} {choose : Float → Float → Float} {start x y r : Float}
  {xs : List Float}

/-- A choice by the smaller key between a number and a float, which is skipped if it is not a
number. -/
structure Chooses (key : Float → Int) (choose : Float → Float → Float) : Prop where
  /-- One of the two is chosen. -/
  mem : ∀ x y, choose x y = x ∨ choose x y = y
  /-- The choice is a number again. -/
  number : ∀ {x y}, isNaN x = false → isNaN (choose x y) = false
  /-- It is no worse than the number that was there. -/
  le_left : ∀ {x y}, isNaN x = false → key (choose x y) ≤ key x
  /-- It is no worse than a new number. -/
  le_right : ∀ {x y}, isNaN x = false → isNaN y = false → key (choose x y) ≤ key y

/-- A number of a list with the smallest key. -/
structure Foremost (key : Float → Int) (xs : List Float) (r : Float) : Prop where
  /-- It is in the list. -/
  mem : r ∈ xs
  /-- It is a number. -/
  number : isNaN r = false
  /-- No number has a smaller key. -/
  le : ∀ y ∈ xs, isNaN y = false → key r ≤ key y

/-- The best of a choice and what follows is the best of all. -/
theorem Foremost.of_choose (hchoose : Chooses key choose) (hx : isNaN x = false)
    (h : Foremost key (choose x y :: xs) r) : Foremost key (x :: y :: xs) r := by
  obtain ⟨hmem, hnumber, hle⟩ := h
  have hchosen := hle _ List.mem_cons_self (hchoose.number hx)
  refine ⟨?_, hnumber, fun z hz hznumber => ?_⟩
  · rcases List.mem_cons.1 hmem with heq | hmem
    · rcases hchoose.mem x y with hx | hy
      · rw [heq, hx]
        exact List.mem_cons_self
      · rw [heq, hy]
        exact .tail _ List.mem_cons_self
    · exact .tail _ (.tail _ hmem)
  · rcases List.mem_cons.1 hz with rfl | hz
    · exact Int.le_trans hchosen (hchoose.le_left hx)
    · rcases List.mem_cons.1 hz with rfl | hz
      · exact Int.le_trans hchosen (hchoose.le_right hx hznumber)
      · exact hle z (.tail _ hz) hznumber

/-- What a run keeps is the best of the start and all that came. -/
theorem foremost_foldl (hchoose : Chooses key choose) (hstart : isNaN start = false)
    (xs : List Float) : Foremost key (start :: xs) (xs.foldl choose start) := by
  induction xs generalizing start with
  | nil =>
    refine ⟨List.mem_cons_self, hstart, fun y hy _ => ?_⟩
    rw [List.mem_singleton.1 hy]
    exact Int.le_refl _
  | cons x xs ih => exact (ih (hchoose.number hstart)).of_choose hchoose hstart

/-- What a search may start from: a number that any other one improves on. -/
structure Outermost (key : Float → Int) (start : Float) : Prop where
  /-- It is a number. -/
  number : isNaN start = false
  /-- No other number is as bad. -/
  eq : ∀ x, isNaN x = false → key start ≤ key x → x = start

/-- The start is left only where no argument is a number. -/
theorem mem_foldl_iff (hchoose : Chooses key choose) (hstart : Outermost key start) :
    xs.foldl choose start ∈ xs ↔ ∃ x ∈ xs, isNaN x = false := by
  obtain ⟨hmem, hnumber, hle⟩ := foremost_foldl hchoose hstart.number xs
  constructor
  · exact fun h => ⟨_, h, hnumber⟩
  · rintro ⟨x, hx, hxnumber⟩
    -- If the start is what was kept, then it is no worse than `x`, which can only be the start.
    rcases List.mem_cons.1 hmem with heq | hmem
    · have hkey := hle x (.tail _ hx) hxnumber
      rw [heq] at hkey ⊢
      rwa [← hstart.eq x hxnumber hkey]
    · exact hmem

theorem foldl_eq_start (hchoose : Chooses key choose) (hstart : isNaN start = false)
    (h : ∀ x ∈ xs, isNaN x = true) : xs.foldl choose start = start := by
  obtain ⟨hmem, hnumber, -⟩ := foremost_foldl hchoose hstart xs
  rcases List.mem_cons.1 hmem with heq | hmem
  · exact heq
  · rw [h _ hmem] at hnumber
    cases hnumber

/-! ## The two choices -/

/-- The choice of the better of two numbers, and of the second of two equally good ones. -/
theorem chooses_better (better : Float → Float → Prop) [DecidableRel better]
    (hnumber : ∀ {x y}, better x y → isNaN x = false)
    (hkey : ∀ {x y}, isNaN x = false → isNaN y = false → (better x y ↔ key x ≤ key y)) :
    Chooses key fun x y => if isNaN x || better y x then y else x where
  mem x y := by
    split
    · exact .inr rfl
    · exact .inl rfl
  number {x y} hx := by
    rw [hx, Bool.false_or]
    split
    · next h => exact hnumber (of_decide_eq_true h)
    · exact hx
  le_left {x y} hx := by
    rw [hx, Bool.false_or]
    split
    · next h =>
      have h := of_decide_eq_true h
      exact (hkey (hnumber h) hx).1 h
    · exact Int.le_refl _
  le_right {x y} hx hy := by
    rw [hx, Bool.false_or]
    split
    · exact Int.le_refl _
    · next h =>
      have h : ¬ better y x := fun hbetter => h (decide_eq_true hbetter)
      rw [hkey hy hx] at h
      omega

theorem chooses_smaller : Chooses rank smaller :=
  chooses_better (fun x y => x ≤ y) (fun h => (isNaN_of_le h).1) le_iff_rank

theorem chooses_larger : Chooses (fun x => -rank x) larger :=
  chooses_better (fun x y => y ≤ x) (fun h => (isNaN_of_le h).2) fun hx hy => by
    rw [le_iff_rank hy hx]
    omega

/-- A search may start from an infinity if only that infinity is as bad. -/
theorem outermost_of_rank (negative : Bool)
    (hkey : ∀ x, isNaN x = false → key (ofMagnitude negative infinityBits) ≤ key x →
      rank x = withSign negative infinityBits) :
    Outermost key (ofMagnitude negative infinityBits) where
  number := by
    rw [isNaN, magnitudeBits_ofMagnitude negative (Nat.le_refl _)]
    exact decide_eq_false (Nat.lt_irrefl _)
  eq x hx hle := eq_of_rank hx (by decide) (hkey x hx hle)

theorem outermost_infinity : Outermost rank infinity :=
  outermost_of_rank false fun x hx hle => by
    have hbounds := rank_bounds hx
    rw [rank_ofMagnitude false (Nat.le_refl _), withSign_false] at hle
    rw [withSign_false]
    omega

theorem outermost_negativeInfinity : Outermost (fun x => -rank x) negativeInfinity :=
  outermost_of_rank true fun x hx hle => by
    have hbounds := rank_bounds hx
    rw [rank_ofMagnitude true (Nat.le_refl _), withSign_true] at hle
    rw [withSign_true]
    omega

/-! ## The two functions -/

/-- Whether two floats count as the same number.  The two zeros do, and so does what is not a
number with itself. -/
def Same (x y : Float) : Prop := isNaN x = true ∧ isNaN y = true ∨ (x == y) = true

/-- What the search for an extreme number finds. -/
structure Extreme (beyond : Float → Float → Prop) (start : Float) (xs : List Float) (r : Float) :
    Prop where
  /-- It is a number. -/
  number : isNaN r = false
  /-- No argument is beyond it. -/
  not_beyond : ∀ x ∈ xs, ¬ beyond x r
  /-- It is one of the arguments if one of them is a number. -/
  mem : (∃ x ∈ xs, isNaN x = false) → r ∈ xs
  /-- Otherwise it is where the search has started. -/
  eq_start : (∀ x ∈ xs, isNaN x = true) → r = start
  /-- So it counts as one of the arguments exactly if one of them is a number. -/
  same_iff : (∃ x ∈ xs, Same r x) ↔ ∃ x ∈ xs, isNaN x = false

theorem extreme_foldl {beyond : Float → Float → Prop} (hchoose : Chooses key choose)
    (hstart : Outermost key start)
    (hbeyond : ∀ {x y}, beyond x y → isNaN x = false ∧ key x < key y) (xs : List Float) :
    Extreme beyond start xs (xs.foldl choose start) where
  number := (foremost_foldl hchoose hstart.number xs).number
  not_beyond x hx h := by
    obtain ⟨hnumber, hlt⟩ := hbeyond h
    have hle := (foremost_foldl hchoose hstart.number xs).le x (.tail _ hx) hnumber
    omega
  mem := (mem_foldl_iff hchoose hstart).2
  eq_start := foldl_eq_start hchoose hstart.number
  same_iff := by
    have hnumber := (foremost_foldl hchoose hstart.number xs).number
    constructor
    · rintro ⟨x, hx, ⟨hnan, -⟩ | heq⟩
      · rw [hnumber] at hnan
        cases hnan
      · refine ⟨x, hx, Bool.eq_false_iff.2 fun hnan => ?_⟩
        rw [beq_of_isNaN (.inr hnan)] at heq
        cases heq
    · intro h
      exact ⟨_, (mem_foldl_iff hchoose hstart).2 h, .inr ((beq_iff_rank hnumber hnumber).2 rfl)⟩

/-! ## Arguments -/

/-- The numbers that floats and integers stand for. -/
inductive Numbers : List Value → List Float → Prop
  | nil : Numbers [] []
  | float {x : Float} {vs : List Value} {xs : List Float} :
      Numbers vs xs → Numbers (.float x :: vs) (x :: xs)
  | integer {n : Int} {vs : List Value} {xs : List Float} :
      Numbers vs xs → Numbers (.integer n :: vs) (ofInteger n :: xs)

/-- Whether a value gives a function the numbers of a list: as a single one, or as a tuple. -/
def Given (v : Value) (xs : List Float) : Prop :=
  Numbers [v] xs ∨ ∃ vs, v = .tuple vs ∧ Numbers vs xs

theorem mapM_of_numbers {vs : List Value} (h : Numbers vs xs) : vs.mapM Value.number = .ok xs := by
  induction h with
  | nil => rfl
  | float _ ih =>
    rw [List.mapM_cons, ih]
    rfl
  | integer _ ih =>
    rw [List.mapM_cons, ih]
    rfl

theorem arguments_of_given {v : Value} (h : Given v xs) : arguments v = .ok xs := by
  rcases h with h | ⟨vs, rfl, h⟩
  · cases h with
    | float h =>
      cases h
      rfl
    | integer h =>
      cases h
      rfl
  · exact mapM_of_numbers h

/-- A function that needs one argument or more is called with what is given. -/
theorem callFunction_some {f : Function} {operation : List Float → Float} {v : Value}
    (hf : ∀ xs, f.apply xs = f.some operation xs) (hgiven : Given v xs) (hne : xs ≠ []) :
    callFunction f.name v = .ok (.float (operation xs)) := by
  obtain ⟨x, rest, rfl⟩ := List.exists_cons_of_ne_nil hne
  rw [callFunction, ofName?_name]
  dsimp only
  rw [arguments_of_given hgiven]
  show (f.apply (x :: rest) >>= fun r => Except.ok (Value.float r)) = _
  rw [hf]
  rfl

/-- The answers of `MIN` and `MAX` for any numbers, of which there has to be one.  No argument is
beyond the answer, and the answer is one of the arguments if one of them is a number.  Where none
is a number, the answer is the infinity that the search starts from, which was not given. -/
theorem callFunction_extremes {v : Value} {xs : List Float} (hgiven : Given v xs) (hne : xs ≠ []) :
    (∃ r, callFunction "MIN".toList v = .ok (.float r) ∧
      Extreme (fun x r => x < r) infinity xs r) ∧
    ∃ r, callFunction "MAX".toList v = .ok (.float r) ∧
      Extreme (fun x r => r < x) negativeInfinity xs r := by
  refine ⟨⟨least xs, ?_, ?_⟩, greatest xs, ?_, ?_⟩
  · exact callFunction_some (f := .minimum) (fun _ => rfl) hgiven hne
  · refine extreme_foldl chooses_smaller outermost_infinity (fun hlt => ?_) xs
    obtain ⟨hx, hy⟩ := isNaN_of_lt hlt
    exact ⟨hx, (lt_iff_rank hx hy).1 hlt⟩
  · exact callFunction_some (f := .maximum) (fun _ => rfl) hgiven hne
  · refine extreme_foldl chooses_larger outermost_negativeInfinity (fun hlt => ?_) xs
    obtain ⟨hy, hx⟩ := isNaN_of_lt hlt
    exact ⟨hx, Int.neg_lt_neg ((lt_iff_rank hy hx).1 hlt)⟩

/-- What is not a number is skipped, and an integer is a number. -/
theorem callFunction_extremes_mixed :
    let v := Value.tuple [.float (0 / 0), .integer (-3), .float 0.5]
    let xs : List Float := [0 / 0, ofInteger (-3), 0.5]
    Given v xs ∧ xs ≠ [] ∧
      ∃ r, callFunction "MIN".toList v = .ok (.float r) ∧ r ∈ xs ∧ ∀ x ∈ xs, ¬ x < r := by
  intro v xs
  have hgiven : Given v xs := .inr ⟨_, rfl, .float (.integer (.float .nil))⟩
  obtain ⟨⟨r, hcall, hextreme⟩, -⟩ := callFunction_extremes hgiven (List.cons_ne_nil _ _)
  have hnumber : ∃ x ∈ xs, isNaN x = false := ⟨0.5, by simp [xs], by decide +kernel⟩
  exact ⟨hgiven, List.cons_ne_nil _ _, r, hcall, hextreme.mem hnumber, hextreme.not_beyond⟩

/-- The smallest of nothing but what is not a number is infinity, which is none of it. -/
theorem exists_invented :
    let v := Value.float (0 / 0)
    Given v [0 / 0] ∧ callFunction "MIN".toList v = .ok (.float infinity) ∧
      (∀ x ∈ [(0 / 0 : Float)], ¬ Same infinity x) ∧
      ((Calculator.evaluate ⟨Symbols.builtIn⟩ "MIN(0 / 0)".toList).toOption.map
        Answer.display) = some "Infinity".toList := by
  intro v
  have hgiven : Given v [0 / 0] := .inl (.float .nil)
  have hnan : isNaN (0 / 0) = true := by decide +kernel
  have hleast : least [0 / 0] = infinity :=
    foldl_eq_start chooses_smaller outermost_infinity.number (by simpa using hnan)
  refine ⟨hgiven, ?_, fun x hx hsame => ?_, by decide +kernel⟩
  · rw [← hleast]
    exact callFunction_some (f := .minimum) (fun _ => rfl) hgiven (List.cons_ne_nil _ _)
  · rw [List.mem_singleton.1 hx] at hsame
    rcases hsame with ⟨hinfinity, -⟩ | heq
    · rw [outermost_infinity.number] at hinfinity
      cases hinfinity
    · rw [beq_of_isNaN (.inr hnan)] at heq
      cases heq

end Reckoner.Formula
