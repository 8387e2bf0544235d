import StackMachine.Listing

/-!
# The rows of a listing

The row at a position of a listing tells of the instruction at that position of the program.

* `Program.mem_targets`: the targets are the positions that the branches of the program name.
* `Listing.getElem?_rows`: what a row holds; its offset is the length of the records before it.
* `Listing.marks_iff`: the line of an instruction is marked if and only if some branch of the
  program may go to it.
-/

namespace StackMachine

variable {p : Program} {k : Nat}

/-! ## Targets -/

@[simp] theorem mem_dropRepeats
    {a : Nat} {l : List Nat} :
    a ∈ dropRepeats l ↔ a ∈ l := by
  fun_induction dropRepeats l with
  | case1 x rest ih =>
      rw [ih]
      simp
  | case2 x y rest hne ih =>
      rw [List.mem_cons, ih, ← List.mem_cons]
  | case3 short hshort =>
      rfl

/-- The targets are the positions that the branches of the program name. -/
theorem Program.mem_targets :
    k ∈ p.targets ↔ ∃ i ∈ p, i.target? = some k := by
  rw [Program.targets, mem_dropRepeats, List.mem_mergeSort, List.mem_filterMap]

namespace Listing

variable {targets : List Nat} {pc offset : Nat}

/-! ## Rows -/

/-- The rows that are done only stand before the ones to come. -/
theorem rowsFrom_eq_append
    (done : List Row) :
    rowsFrom targets pc offset done p = done.reverse ++ rowsFrom targets pc offset [] p := by
  induction p generalizing pc offset done with
  | nil =>
      simp [rowsFrom]
  | cons i rest ih =>
      rw [rowsFrom, ih, rowsFrom, ih [_]]
      simp

theorem rowsFrom_cons
    {i : Instruction} {rest : Program} :
    rowsFrom targets pc offset [] (i :: rest) =
      ⟨targets.contains pc, pc, offset, i⟩ ::
        rowsFrom targets (pc + 1) (offset + i.encode.length) [] rest := by
  rw [rowsFrom, rowsFrom_eq_append]
  rfl

@[simp] theorem length_rowsFrom :
    (rowsFrom targets pc offset [] p).length = p.length := by
  induction p generalizing pc offset with
  | nil =>
      rfl
  | cons i rest ih =>
      rw [rowsFrom_cons, List.length_cons, ih, List.length_cons]

theorem getElem?_rowsFrom :
    (rowsFrom targets pc offset [] p)[k]? =
      p[k]?.map fun i =>
        ⟨targets.contains (pc + k), pc + k, offset + (Program.encode (p.take k)).length, i⟩ := by
  induction p generalizing pc offset k with
  | nil =>
      rfl
  | cons i rest ih =>
      rw [rowsFrom_cons]
      cases k with
      | zero =>
          rfl
      | succ k =>
          rw [List.getElem?_cons_succ, ih, List.getElem?_cons_succ, List.take_succ_cons,
            Program.encode_cons, List.length_append]
          simp only [Nat.add_assoc, Nat.add_comm 1]

@[simp] theorem length_rows :
    (rows p).length = p.length :=
  length_rowsFrom

/-- A row tells whether some branch may go to its position, and where the record of its instruction
starts. -/
theorem getElem?_rows :
    (rows p)[k]? =
      p[k]?.map fun i =>
        ⟨p.targets.contains k, k, (Program.encode (p.take k)).length, i⟩ := by
  rw [rows, getElem?_rowsFrom]
  simp only [Nat.zero_add]

/-! ## Marks -/

/-- The first character of a line is its mark, or a space. -/
theorem head?_render
    (r : Row) :
    r.render.toList.head? = some (if r.marked then '>' else ' ') := by
  unfold Row.render
  cases r.marked <;> simp

/-- The lines of the instructions come after two lines of heading. -/
theorem getElem?_lines
    (hk : k < p.length) :
    (lines p)[k + 2]? = (rows p)[k]?.map Row.render := by
  have hrow : k < ((rows p).map Row.render).length := by
    rwa [List.length_map, length_rows]
  rw [lines, List.getElem?_cons_succ, List.getElem?_cons_succ, List.getElem?_append_left hrow,
    List.getElem?_map]

/-- The line of the instruction at a position is marked as a branch target. -/
def Marks (p : Program) (k : Nat) : Prop :=
  k < p.length ∧ ((lines p)[k + 2]?.bind fun line => line.toList.head?) = some '>'

instance (p : Program) (k : Nat) : Decidable (Marks p k) :=
  inferInstanceAs (Decidable (_ ∧ _))

/-- The marked positions are the targets within the program. -/
theorem marks_iff :
    Marks p k ↔ k < p.length ∧ k ∈ p.targets := by
  refine and_congr_right fun hk => ?_
  rw [getElem?_lines hk, getElem?_rows, List.getElem?_eq_getElem hk]
  simp only [Option.map_some, Option.bind_some, head?_render]
  by_cases htarget : k ∈ p.targets <;> simp [htarget]

end Listing
end StackMachine
