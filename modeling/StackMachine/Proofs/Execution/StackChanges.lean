import StackMachine.Proofs.Codec.Word
import StackMachine.Proofs.Execution.Steps

/-!
# What an instruction does to the stack

An executed instruction pushes a number, replaces two numbers by their sum, changes one number by
one, or leaves the stack as it is.

* `Instruction.grows` and `Instruction.shrinks` tell the instructions that change the depth.
* `Changes` lists the ways to change the stack, and `Instruction.changes_of_execute` says that there
  are no others.
* `Changes.size` and `Changes.isWord` are what follows for the depth and for the numbers.
-/

namespace StackMachine

/-- The number fits in a word. -/
def IsWord (n : Int) : Prop :=
  0 ≤ n ∧ n < 2 ^ 64

/-- Executing the instruction makes the stack deeper by one. -/
def Instruction.grows : Instruction → Bool
  | push _ | readNumber | copy _ | readByte => true
  | printNumber _ | printText _ | add _ _ | jumpIfGreater _ _ _ | jumpIfEqual _ _ _ | jump _
  | decrement _ | increment _ | printByte _ => false

/-- Executing the instruction makes the stack shallower by one. -/
def Instruction.shrinks : Instruction → Bool
  | add _ _ => true
  | _ => false

/-- Executing the instruction on the first stack can leave the second one. -/
inductive Changes (stack : Stack) : Instruction → Stack → Prop
  | push
      (w : Word) :
      Changes stack (.push w) (stack.push w.toNat)
  | readNumber
      {n : Nat}
      (h : n ≤ Word.maximum) :
      Changes stack .readNumber (stack.push n)
  | readByte
      (b : UInt8) :
      Changes stack .readByte (stack.push b.toNat)
  | copy
      {p : Word} {n : Int}
      (hn : peek stack p = .ok n) :
      Changes stack (.copy p) (stack.push n)
  | add
      {a b : Word} {j k : Fin stack.size} {x y : Int}
      (hj : slot stack a = .ok j)
      (hk : slot stack b = .ok k)
      (hx : peek stack a = .ok x)
      (hy : peek stack b = .ok y)
      (hne : j ≠ k)
      (hfits : x + y ≤ Word.maximum) :
      Changes stack (.add a b) ((eraseTwo stack j k).push (x + y))
  | decrement
      {p : Word} {k : Fin stack.size} {n : Int}
      (hk : slot stack p = .ok k)
      (hn : peek stack p = .ok n)
      (hne : n ≠ 0) :
      Changes stack (.decrement p) (stack.set k (n - 1) k.isLt)
  | increment
      {p : Word} {k : Fin stack.size} {n : Int}
      (hk : slot stack p = .ok k)
      (hn : peek stack p = .ok n)
      (hne : n ≠ Word.maximum) :
      Changes stack (.increment p) (stack.set k (n + 1) k.isLt)
  | keep
      {i : Instruction}
      (hgrows : i.grows = false)
      (hshrinks : i.shrinks = false) :
      Changes stack i stack

variable {i : Instruction} {stack stack' : Stack} {c c' : Console} {target : Option Nat}

/-! ## Operations on slots -/

/-- What comes of two operations in a row comes of the second one. -/
theorem ok_of_bind
    {α β : Type} {x : Except Fault α} {f : α → Except Fault β} {y : β}
    (h : x >>= f = .ok y) :
    ∃ a : α, x = .ok a ∧ f a = .ok y := by
  cases x with
  | error f =>
      cases h
  | ok a =>
      exact ⟨a, rfl, h⟩

theorem mem_of_peek
    {p : Word} {n : Int}
    (h : peek stack p = .ok n) :
    n ∈ stack := by
  obtain ⟨k, -, hn⟩ := ok_of_bind h
  cases hn
  exact Array.getElem_mem k.isLt

theorem changes_of_addSlots
    {a b : Word}
    (h : addSlots stack a b = .ok stack') :
    Changes stack (.add a b) stack' := by
  obtain ⟨j, hj, hadd⟩ := ok_of_bind h
  obtain ⟨k, hk, hsum⟩ := ok_of_bind hadd
  have hx : peek stack a = .ok stack[j] := by rw [peek, hj]; rfl
  have hy : peek stack b = .ok stack[k] := by rw [peek, hk]; rfl
  split at hsum
  · cases hsum
  · next hne =>
      simp only at hsum
      split at hsum
      · next hfits =>
          cases hsum
          exact .add hj hk hx hy hne hfits
      · cases hsum

theorem changes_of_decrementSlot
    {p : Word}
    (h : decrementSlot stack p = .ok stack') :
    Changes stack (.decrement p) stack' := by
  obtain ⟨k, hk, hset⟩ := ok_of_bind h
  have hn : peek stack p = .ok stack[k] := by rw [peek, hk]; rfl
  split at hset
  · cases hset
  · next hne =>
      cases hset
      exact .decrement hk hn hne

theorem changes_of_incrementSlot
    {p : Word}
    (h : incrementSlot stack p = .ok stack') :
    Changes stack (.increment p) stack' := by
  obtain ⟨k, hk, hset⟩ := ok_of_bind h
  have hn : peek stack p = .ok stack[k] := by rw [peek, hk]; rfl
  split at hset
  · cases hset
  · next hne =>
      cases hset
      exact .increment hk hn hne

/-! ## Instructions -/

theorem ok_of_ofStack
    {result : Except Fault Stack}
    (h : Effect.ofStack result = .done stack' target) :
    result = .ok stack' := by
  cases result with
  | error f =>
      cases h
  | ok stack =>
      cases h
      rfl

theorem eq_of_ofCondition
    {result : Except Fault Bool} {t : Word}
    (h : Effect.ofCondition stack t result = .done stack' target) :
    stack' = stack := by
  rcases result with f | - | -
  · cases h
  · cases h
    rfl
  · cases h
    rfl

theorem changes_of_acceptNumber
    (h : acceptNumber stack c = (.done stack' target, c')) :
    Changes stack .readNumber stack' := by
  rw [acceptNumber] at h
  split at h
  · cases h
  · split at h
    · next n hparse =>
        cases h
        exact .readNumber (NumberLine.le_of_parse hparse)
    · cases h

theorem changes_of_acceptByte
    (h : acceptByte stack c = (.done stack' target, c')) :
    Changes stack .readByte stack' := by
  rw [acceptByte] at h
  split at h
  · cases h
  · next b _ _ =>
      cases h
      exact .readByte b

/-- An executed instruction changes the stack in one of the ways listed. -/
theorem Instruction.changes_of_execute
    (h : i.execute stack c = (.done stack' target, c')) :
    Changes stack i stack' := by
  have heffect := congrArg Prod.fst h
  cases i with
  | push w =>
      cases h
      exact .push w
  | printNumber p =>
      obtain ⟨rfl, -⟩ := accepted_of_emit h
      exact .keep rfl rfl
  | readNumber =>
      exact changes_of_acceptNumber h
  | printText text =>
      have hemit : emit stack c (.ok (textLine text)) = (.done stack' target, c') := h
      obtain ⟨rfl, -⟩ := accepted_of_emit hemit
      exact .keep rfl rfl
  | copy p =>
      have hpush : stack.push <$> peek stack p = .ok stack' := ok_of_ofStack heffect
      rcases hpeek : peek stack p with f | n
      · rw [hpeek] at hpush
        cases hpush
      · rw [hpeek] at hpush
        cases hpush
        exact .copy hpeek
  | add a b =>
      exact changes_of_addSlots (ok_of_ofStack heffect)
  | jumpIfGreater a b t =>
      obtain rfl := eq_of_ofCondition heffect
      exact .keep rfl rfl
  | jumpIfEqual a b t =>
      obtain rfl := eq_of_ofCondition heffect
      exact .keep rfl rfl
  | jump t =>
      cases h
      exact .keep rfl rfl
  | decrement p =>
      exact changes_of_decrementSlot (ok_of_ofStack heffect)
  | increment p =>
      exact changes_of_incrementSlot (ok_of_ofStack heffect)
  | readByte =>
      exact changes_of_acceptByte h
  | printByte p =>
      obtain ⟨rfl, -⟩ := accepted_of_emit h
      exact .keep rfl rfl

/-! ## Depth and numbers -/

theorem toList_eraseTwo
    (stack : Stack) (j k : Nat) :
    (eraseTwo stack j k).toList =
      (stack.toList.eraseIdx (min j k)).eraseIdx (max j k - 1) := by
  simp only [eraseTwo, Array.toList_eraseIdxIfInBounds]

theorem size_eraseTwo
    {j k : Nat}
    (hj : j < stack.size)
    (hk : k < stack.size)
    (hne : j ≠ k) :
    (eraseTwo stack j k).size + 2 = stack.size := by
  have hsize : stack.toList.length = stack.size := Array.length_toList
  have hlow : (stack.toList.eraseIdx (min j k)).length = stack.toList.length - 1 :=
    List.length_eraseIdx_of_lt (by omega)
  have hhigh : ((stack.toList.eraseIdx (min j k)).eraseIdx (max j k - 1)).length =
      (stack.toList.eraseIdx (min j k)).length - 1 :=
    List.length_eraseIdx_of_lt (by omega)
  rw [← Array.length_toList, toList_eraseTwo]
  omega

theorem mem_of_mem_eraseTwo
    {j k : Nat} {n : Int}
    (h : n ∈ eraseTwo stack j k) :
    n ∈ stack := by
  rw [← Array.mem_toList_iff, toList_eraseTwo] at h
  exact Array.mem_toList_iff.1 (List.mem_of_mem_eraseIdx (List.mem_of_mem_eraseIdx h))

/-- The depth changes as the instruction says. -/
theorem Changes.size
    (h : Changes stack i stack') :
    (stack'.size + if i.shrinks then 1 else 0) = stack.size + if i.grows then 1 else 0 := by
  cases h with
  | @add a b j k x y hj hk hx hy hne hfits =>
      have hsize := size_eraseTwo j.isLt k.isLt (mt Fin.ext hne)
      simp only [Array.size_push, Instruction.shrinks, Instruction.grows, Bool.false_eq_true,
        ↓reduceIte]
      omega
  | keep hgrows hshrinks =>
      rw [hgrows, hshrinks]
  | _ =>
      simp [Instruction.shrinks, Instruction.grows]

/-- Words stay words. -/
theorem Changes.isWord
    (h : Changes stack i stack')
    (hstack : ∀ n ∈ stack, IsWord n) :
    ∀ n ∈ stack', IsWord n := by
  have hmaximum := Word.maximum_eq
  have hpeek : ∀ (p : Word) (n : Int), peek stack p = .ok n → 0 ≤ n ∧ n < 2 ^ 64 :=
    fun p n h => hstack n (mem_of_peek h)
  intro n hn
  cases h with
  | push w =>
      have hw := w.toNat_lt
      rcases Array.mem_push.1 hn with hmem | rfl
      · exact hstack n hmem
      · constructor <;> omega
  | @readNumber n hle =>
      rcases Array.mem_push.1 hn with hmem | rfl
      · exact hstack _ hmem
      · constructor <;> omega
  | readByte b =>
      have hb := b.toNat_lt
      rcases Array.mem_push.1 hn with hmem | rfl
      · exact hstack n hmem
      · constructor <;> omega
  | copy hcopied =>
      rcases Array.mem_push.1 hn with hmem | rfl
      · exact hstack n hmem
      · exact hpeek _ _ hcopied
  | add hj hk hx hy hne hfits =>
      have hx := hpeek _ _ hx
      have hy := hpeek _ _ hy
      rcases Array.mem_push.1 hn with hmem | rfl
      · exact hstack n (mem_of_mem_eraseTwo hmem)
      · constructor <;> omega
  | decrement hk hold hne =>
      have hold := hpeek _ _ hold
      rcases Array.mem_or_eq_of_mem_set hn with hmem | rfl
      · exact hstack n hmem
      · constructor <;> omega
  | increment hk hold hne =>
      have hold := hpeek _ _ hold
      rcases Array.mem_or_eq_of_mem_set hn with hmem | rfl
      · exact hstack n hmem
      · constructor <;> omega
  | keep hgrows hshrinks =>
      exact hstack n hn

end StackMachine
