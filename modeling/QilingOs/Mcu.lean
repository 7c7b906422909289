import QilingOs.Guest

/-!
# The MCU run loop

`QlOsMcu.run(count, end)` sets `runable`, then steps the microcontroller while `runable` is
set and the PC is not `end`, and leaves the loop once it has made `count` steps. A step runs one
instruction from the PC and then the peripherals; a hook may call `stop` during it, which clears
`runable`. `end` defaults to `-1` and `count` to `-1`, and on ARM the Thumb bit of the machine
`run` starts from is ORed into `end`.

The machine is abstract (`Mcu`): its PC, its Thumb bit, whether its architecture is a
`QlArchARM`, and its step, which also says whether a hook called `stop`. The loop runs on fuel.
`Mcu.after` is the machine after a number of steps, regardless of the loop, and `Mcu.Halted`
says that the loop's condition fails there; the loop makes as many steps as the first point
where it halts or, counted after a step, the count reaches zero (`Mcu.loop_of_stops`).
-/

namespace QilingOs

/-- The emulated microcontroller as `QlOsMcu` uses it: `ql.arch.get_pc()`, `ql.arch.thumb`,
whether `ql.arch` is a `QlArchARM`, and `step()`, which gives the machine after one instruction
and one step of the peripherals, and whether a hook called `stop()` during it. -/
structure Mcu (S : Type) where
  get_pc : S → Int
  thumb : S → Int
  isArm : Bool
  step : S → S × Bool

variable {S : Type} (M : Mcu S)

/-- The `end` the loop compares the PC with. -/
def Mcu.endAddress (end_ : Option Int) (s : S) : Int :=
  let end_ := end_.getD (-1)
  if M.isArm then Int.lor end_ (M.thumb s) else end_

/-- The `while` loop of `run`, on fuel: from the machine `s`, `runable` and `count`, the machine
it leaves the loop in, `runable` then, and how many times it called `step`; `none` when the fuel
runs out first. -/
def Mcu.loop (end_ : Int) : Nat → S → Bool → Int → Option (S × Bool × Nat)
  | 0, _, _, _ => none
  | fuel + 1, s, runable, count =>
    if runable ∧ M.get_pc s ≠ end_ then
      let (s, stopped) := M.step s
      let runable := runable && !stopped
      if count - 1 = 0 then some (s, runable, 1)
      else (Mcu.loop end_ fuel s runable (count - 1)).map fun (s, runable, n) => (s, runable, n + 1)
    else some (s, runable, 0)

/-- `run(count, end)` from the machine `s`. -/
def Mcu.run (count end_ : Option Int) (s : S) (fuel : Nat) : Option (S × Bool × Nat) :=
  M.loop (M.endAddress end_ s) fuel s true (count.getD (-1))

/-! ### Runs -/

/-- The machine after `k` steps from `s`, and whether a hook called `stop()` in one of them. -/
def Mcu.after : Nat → S → S × Bool
  | 0, s => (s, false)
  | k + 1, s =>
    let (s', stopped) := M.step s
    let (s'', stopped') := Mcu.after k s'
    (s'', stopped || stopped')

/-- After `k` steps from `s` the loop's condition fails: `stop()` was called, or the PC is
`end_`. -/
def Mcu.Halted (end_ : Int) (s : S) (k : Nat) : Prop :=
  (M.after k s).2 = true ∨ M.get_pc (M.after k s).1 = end_

instance (end_ : Int) (s : S) (k : Nat) : Decidable (M.Halted end_ s k) :=
  inferInstanceAs (Decidable (_ ∨ _))

/-- The loop leaves after `m` steps: it halts there, or the count reaches zero with the
`m`-th step. -/
def Mcu.Stops (end_ : Int) (s : S) (count : Int) (m : Nat) : Prop :=
  M.Halted end_ s m ∨ (1 ≤ m ∧ count = m)

theorem Mcu.after_succ_of_step {s s' : S} (h : M.step s = (s', false)) (k : Nat) :
  M.after (k + 1) s = M.after k s'
  := by
  simp [Mcu.after, h]

/-- A step that does not stop moves the question one step on, with the count one lower. -/
theorem Mcu.stops_succ_iff {end_ : Int} {s s' : S} {count : Int} (h : M.step s = (s', false))
    (hc : count ≠ 1) (j : Nat) :
  M.Stops end_ s count (j + 1) ↔ M.Stops end_ s' (count - 1) j
  := by
  simp only [Mcu.Stops, Mcu.Halted, M.after_succ_of_step h]
  exact or_congr_right (by push_cast; simp only [true_and]; omega)

/-- With more fuel than steps, the loop leaves at the first point where it stops, in the
machine after that many steps. -/
theorem Mcu.loop_of_stops (end_ : Int) :
  ∀ (m fuel : Nat) (s : S) (count : Int), M.Stops end_ s count m →
    (∀ j < m, ¬ M.Stops end_ s count j) → m < fuel →
    M.loop end_ fuel s true count = some ((M.after m s).1, !(M.after m s).2, m)
  | _, 0, _, _, _, _, hf => absurd hf (Nat.not_lt_zero _)
  | 0, fuel + 1, s, count, hs, _, _ => by
    have hpc : M.get_pc s = end_ := by simpa [Mcu.Stops, Mcu.Halted, Mcu.after] using hs
    simp [Mcu.loop, hpc, Mcu.after]
  | m + 1, fuel + 1, s, count, hs, hmin, hf => by
    have hpc : M.get_pc s ≠ end_ := fun h => hmin 0 (Nat.succ_pos m) (.inl (.inr h))
    rcases hstep : M.step s with ⟨s', stopped⟩
    have hone : M.Stops end_ s count 1 → m = 0 := fun h1 => by
      by_contra hm
      exact hmin 1 (by omega) h1
    by_cases hc : count = 1
    · obtain rfl := hone (.inr ⟨le_rfl, by rw [hc]; rfl⟩)
      simp [Mcu.loop, hpc, hstep, hc, Mcu.after]
    cases stopped with
    | true =>
      obtain rfl := hone (.inl (.inl (by simp [Mcu.after, hstep])))
      cases fuel with
      | zero => omega
      | succ fuel => simp [Mcu.loop, hpc, hstep, hc, Mcu.after, sub_eq_zero]
    | false =>
      have ih := Mcu.loop_of_stops end_ m fuel s' (count - 1) ((M.stops_succ_iff hstep hc m).mp hs)
        (fun j hj => (M.stops_succ_iff hstep hc j).not.mp (hmin (j + 1) (by omega))) (by omega)
      simp [Mcu.loop, hpc, hstep, sub_eq_zero.not.mpr hc, ih, M.after_succ_of_step hstep]

/-! ### `run` -/

/-- `run(count=n, end=e)` with `n ≥ 1` calls `step` `min n k` times, where `k` is the first
number of steps after which the loop halts, and `n` times when it does not halt before `n`
steps; `run(count=None, end=e)` calls it `k` times. Each returns with that much fuel. -/
theorem mcu_run_step_count (M : Mcu S) (s : S) (end_ : Option Int) :
  let e := M.endAddress end_ s
  (∀ n : Nat, 1 ≤ n → ∀ fuel, n < fuel →
    (∀ k, M.Halted e s k → (∀ j < k, ¬ M.Halted e s j) →
      (M.run (some n) end_ s fuel).map (·.2.2) = some (min n k)) ∧
    ((∀ j < n, ¬ M.Halted e s j) → (M.run (some n) end_ s fuel).map (·.2.2) = some n)) ∧
  (∀ k, M.Halted e s k → (∀ j < k, ¬ M.Halted e s j) → ∀ fuel, k < fuel →
    (M.run none end_ s fuel).map (·.2.2) = some k)
  := by
  intro e
  refine ⟨fun n hn fuel hf => ⟨fun k hk hmin => ?_, fun hmin => ?_⟩, fun k hk hmin fuel hf => ?_⟩
  · have hs : M.Stops e s n (min n k) := by
      rcases le_total k n with h | h
      · exact .inl (by rwa [min_eq_right h])
      · exact .inr (by rw [min_eq_left h]; omega)
    rw [Mcu.run, Option.getD_some, M.loop_of_stops e _ fuel s n hs
      (fun j hj hsj => hsj.elim (hmin j (by omega)) (by omega)) (by omega)]
    rfl
  · rw [Mcu.run, Option.getD_some, M.loop_of_stops e n fuel s n (.inr ⟨hn, rfl⟩)
      (fun j hj hsj => hsj.elim (hmin j hj) (by omega)) hf]
    rfl
  · rw [Mcu.run, Option.getD_none, M.loop_of_stops e k fuel s (-1) (.inl hk)
      (fun j hj hsj => hsj.elim (hmin j hj) (by omega)) hf]
    rfl

/-- A Thumb machine whose PC is the number of steps it made, and which no hook stops. -/
def thumbCounter : Mcu Nat :=
  ⟨fun s => s, fun _ => 1, true, fun s => (s + 1, false)⟩

/-- The counter runs to `end = 4` with the Thumb bit, that is to PC `5`: five steps, also with
a count of ten, and two with a count of two. -/
theorem mcu_run_step_count_thumb :
  (thumbCounter.run (some 10) (some 4) 0 11).map (·.2.2) = some 5 ∧
    (thumbCounter.run (some 2) (some 4) 0 3).map (·.2.2) = some 2 ∧
    (thumbCounter.run none (some 4) 0 6).map (·.2.2) = some 5
  := ⟨((mcu_run_step_count thumbCounter 0 (some 4)).1 10 (by decide) 11 (by decide)).1 5
      (by decide) (by decide),
    ((mcu_run_step_count thumbCounter 0 (some 4)).1 2 (by decide) 3 (by decide)).2 (by decide),
    (mcu_run_step_count thumbCounter 0 (some 4)).2 5 (by decide) (by decide) 6 (by decide)⟩

/-- A loop whose count never reaches zero, from a machine that never halts, runs out of every
fuel. -/
theorem Mcu.loop_eq_none (end_ : Int) :
  ∀ (fuel : Nat) (s : S) (count : Int), count ≤ 0 → (∀ j, ¬ M.Halted end_ s j) →
    M.loop end_ fuel s true count = none
  | 0, _, _, _, _ => rfl
  | fuel + 1, s, count, hc, hnever => by
    have hpc : M.get_pc s ≠ end_ := fun h => hnever 0 (.inr h)
    rcases hstep : M.step s with ⟨s', stopped⟩
    cases stopped with
    | true => exact absurd (.inl (by simp [Mcu.after, hstep])) (hnever 1)
    | false =>
      have ih := Mcu.loop_eq_none end_ fuel s' (count - 1) (by omega)
        (fun j hj => hnever (j + 1) (by rwa [Mcu.Halted, M.after_succ_of_step hstep]))
      simp [Mcu.loop, hpc, hstep, ih, show count - 1 ≠ 0 by omega]

/-- `run(count=None)` from a machine that never halts does not return. -/
theorem mcu_run_diverges (s : S) (end_ : Option Int)
    (hnever : ∀ j, ¬ M.Halted (M.endAddress end_ s) s j) (fuel : Nat) :
  M.run none end_ s fuel = none
  := M.loop_eq_none _ fuel s (-1) (by omega) hnever

theorem thumbCounter_after (k s : Nat) : thumbCounter.after k s = (s + k, false) := by
  induction k generalizing s with
  | zero => rfl
  | succ k ih => rw [thumbCounter.after_succ_of_step rfl, ih, Nat.add_right_comm]; rfl

/-- Started at PC `2` with `end = 0`, which the Thumb bit makes `1`, the counter never halts, so
no fuel is enough for a run without a count. -/
theorem mcu_run_diverges_thumb :
  (∀ j, ¬ thumbCounter.Halted (thumbCounter.endAddress (some 0) 2) 2 j) ∧
    thumbCounter.run none (some 0) 2 100 = none
  := by
  have he : thumbCounter.endAddress (some 0) 2 = 1 := by decide
  have hnever : ∀ j, ¬ thumbCounter.Halted (thumbCounter.endAddress (some 0) 2) 2 j := fun j h => by
    rw [Mcu.Halted, thumbCounter_after, he] at h
    simp only [Bool.false_eq_true, false_or] at h
    exact absurd h (by simp only [thumbCounter]; omega)
  exact ⟨hnever, mcu_run_diverges thumbCounter 2 (some 0) hnever 100⟩

/-- A count of zero or less never ends the loop: `run(count=n)` with `n ≤ 0` calls `step` as
often as `run(count=None)`. -/
theorem mcu_run_nonpositive_count (s : S) (end_ : Option Int) (n : Int) (hn : n ≤ 0) (k : Nat)
    (hk : M.Halted (M.endAddress end_ s) s k)
    (hmin : ∀ j < k, ¬ M.Halted (M.endAddress end_ s) s j) (fuel : Nat) (hf : k < fuel) :
  (M.run (some n) end_ s fuel).map (·.2.2) = some k
  := by
  rw [Mcu.run, Option.getD_some, M.loop_of_stops _ k fuel s n (.inl hk)
    (fun j hj hsj => hsj.elim (hmin j hj) (by omega)) hf]
  rfl

/-- `run(count=0, end=4)` on the Thumb counter makes the five steps `run(count=None, end=4)`
makes. -/
theorem mcu_run_nonpositive_count_thumb :
  thumbCounter.Halted (thumbCounter.endAddress (some 4) 0) 0 5 ∧
    (thumbCounter.run (some 0) (some 4) 0 6).map (·.2.2) = some 5
  := ⟨by decide, mcu_run_nonpositive_count thumbCounter 0 (some 4) 0 le_rfl 5 (by decide)
    (by decide) 6 (by decide)⟩

end QilingOs
