import StackMachine.Machine.Step

/-!
# Runs

A run repeats steps until the machine stops or a step fails, and flushes the output at its end.  The
limit on steps is looked at before every step, and before the end of the program is noticed.

A machine need not stop, so a run is given the most steps that it may attempt; it has no result if
it would need more.  A result does not depend on that number.

* `Machine.loop_eq_of_le`: a run with a result has the same result with more fuel.
-/

namespace StackMachine

/-- How a run ends. -/
abbrev RunResult := Except Failure Stop

namespace Machine

/-- Repeats steps until the machine stops or a step fails, at most `fuel` times. -/
def loop : Nat → Machine → Console → Option (RunResult × Machine × Console)
  | 0, _, _ => none
  | fuel + 1, m, c =>
      if m.limitReached then
        some (.ok .stepLimit, m, c)
      else
        match m.step c with
        | (.advanced, m', c') => loop fuel m' c'
        | (.stopped reason, m', c') => some (.ok reason, m', c')
        | (.failed e, m', c') => some (.error e, m', c')

/-- Runs a machine on a console. -/
def run (fuel : Nat) (m : Machine) (c : Console) : Option (RunResult × Machine × Console) :=
  (loop fuel m c).map fun (result, m', c') => (result, m', c'.flush)

theorem loop_succ
    {fuel : Nat} {m : Machine} {c : Console} {r : RunResult × Machine × Console}
    (h : loop fuel m c = some r) :
    loop (fuel + 1) m c = some r := by
  induction fuel generalizing m c with
  | zero => simp [loop] at h
  | succ fuel ih =>
      rw [loop] at h ⊢
      split at h
      · next hlimit => simpa [hlimit] using h
      · next hlimit =>
          simp only [hlimit]
          split at h
          · next m' c' hstep => simpa [hstep] using ih h
          · next hstep => simpa [hstep] using h
          · next hstep => simpa [hstep] using h

/-- A run with a result has the same result with more fuel. -/
theorem loop_eq_of_le
    {fuel more : Nat} {m : Machine} {c : Console} {r : RunResult × Machine × Console}
    (hle : fuel ≤ more)
    (h : loop fuel m c = some r) :
    loop more m c = some r := by
  induction hle with
  | refl => exact h
  | step _ ih => exact loop_succ ih

end Machine

end StackMachine
