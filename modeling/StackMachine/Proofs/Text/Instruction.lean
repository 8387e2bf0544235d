import Mathlib.Data.List.Basic
import StackMachine.Instruction.Basic
import StackMachine.Proofs.Text.Quoted

/-!
# Instructions as text

An instruction is shown on one line, and no two instructions are shown alike.  The mnemonic ends at
the first bracket and tells which operands follow; a numeral ends where a comma or the last bracket
stands, and a text at its quote.

* `Operand.render_append_inj`: operands of one kind can be told apart from what follows them.
* `Instruction.delimited_render` and `Instruction.lineFeed_notMem_render` are the two statements.
-/

namespace StackMachine

open Text

/-! ## Operands -/

/-- An operand is read back, if its kind is known and it is not followed by a digit. -/
theorem Operand.render_append_inj
    {x y : Operand} {s t : List Char}
    (hkind : x.kind = y.kind)
    (hs : EndsNumeral s)
    (ht : EndsNumeral t)
    (heq : x.render.toList ++ s = y.render.toList ++ t) :
    x = y ∧ s = t := by
  cases x with
  | word w =>
      cases y with
      | word v =>
          simp only [render, Nat.toString_eq_repr, Nat.toList_repr] at heq
          obtain ⟨hnumber, hst⟩ := delimited_decimal _ _ s t hs ht heq
          rw [UInt64.toNat_inj.1 hnumber]
          exact ⟨rfl, hst⟩
      | text text =>
          cases hkind
  | text text =>
      cases y with
      | word v =>
          cases hkind
      | text text' =>
          obtain ⟨rfl, hst⟩ := delimited_quoteText text text' s t trivial trivial heq
          exact ⟨rfl, hst⟩

theorem Operand.lineFeed_notMem_render
    (x : Operand) :
    '\n' ∉ x.render.toList := by
  cases x with
  | word w =>
      simp [render]
  | text text =>
      exact lineFeed_notMem_quoteText text

namespace Instruction

/-- Operands with their names, the way they stand between the brackets. -/
def showOperands (fields : List (String × OperandKind)) (xs : List Operand) : List Char :=
  (", ".intercalate ((fields.zip xs).map fun pair => pair.1.1 ++ "=" ++ pair.2.render)).toList

theorem toList_render
    (i : Instruction) :
    i.render.toList =
      i.opcode.mnemonic.toList ++ '(' :: (showOperands i.opcode.operands i.operands ++ [')']) := by
  simp [render, showOperands]

theorem showOperands_single
    (f : String × OperandKind) (x : Operand) :
    showOperands [f] [x] = f.1.toList ++ '=' :: x.render.toList := by
  simp [showOperands]

theorem showOperands_cons_cons
    (f g : String × OperandKind) (fields : List (String × OperandKind))
    (x y : Operand) (xs : List Operand) :
    showOperands (f :: g :: fields) (x :: y :: xs) =
      f.1.toList ++ '=' :: (x.render.toList ++ ',' :: ' ' ::
        showOperands (g :: fields) (y :: xs)) := by
  simp [showOperands]

/-- Operands of known kinds and names are read back, up to the bracket behind them. -/
theorem showOperands_append_inj
    {fields : List (String × OperandKind)} {xs ys : List Operand} {s t : List Char}
    (hxs : xs.map Operand.kind = fields.map Prod.snd)
    (hys : ys.map Operand.kind = fields.map Prod.snd)
    (heq : showOperands fields xs ++ ')' :: s = showOperands fields ys ++ ')' :: t) :
    xs = ys ∧ s = t := by
  induction fields generalizing xs ys with
  | nil =>
      obtain rfl := List.map_eq_nil_iff.1 hxs
      obtain rfl := List.map_eq_nil_iff.1 hys
      exact ⟨rfl, (List.cons.inj (List.append_cancel_left heq)).2⟩
  | cons f fields ih =>
      obtain ⟨x, xs, rfl, hx, hxs'⟩ := List.map_eq_cons_iff.1 hxs
      obtain ⟨y, ys, rfl, hy, hys'⟩ := List.map_eq_cons_iff.1 hys
      have hkind := hx.trans hy.symm
      cases fields with
      | nil =>
          obtain rfl := List.map_eq_nil_iff.1 hxs'
          obtain rfl := List.map_eq_nil_iff.1 hys'
          simp only [showOperands_single, List.append_assoc, List.cons_append] at heq
          have hoperand := (List.cons.inj (List.append_cancel_left heq)).2
          obtain ⟨rfl, hrest⟩ := Operand.render_append_inj hkind (by simp) (by simp) hoperand
          exact ⟨rfl, (List.cons.inj hrest).2⟩
      | cons g fields =>
          obtain ⟨x', xs, rfl, -, -⟩ := List.map_eq_cons_iff.1 hxs'
          obtain ⟨y', ys, rfl, -, -⟩ := List.map_eq_cons_iff.1 hys'
          simp only [showOperands_cons_cons, List.append_assoc, List.cons_append] at heq
          have hoperand := (List.cons.inj (List.append_cancel_left heq)).2
          obtain ⟨rfl, hrest⟩ := Operand.render_append_inj hkind (by simp) (by simp) hoperand
          simp only [List.cons.injEq, true_and] at hrest
          obtain ⟨hothers, hst⟩ := ih hxs' hys' hrest
          exact ⟨by rw [hothers], hst⟩

theorem lineFeed_notMem_showOperands
    {fields : List (String × OperandKind)}
    (hfields : ∀ f ∈ fields, '\n' ∉ f.1.toList)
    (xs : List Operand) :
    '\n' ∉ showOperands fields xs := by
  apply notMem_intercalate
  · decide
  · intro text htext
    obtain ⟨⟨f, x⟩, hmem, rfl⟩ := List.mem_map.1 htext
    have hname := hfields f (List.of_mem_zip hmem).1
    simp [hname, Operand.lineFeed_notMem_render]

/-! ## Instructions -/

/-- The mnemonic of an operation tells the operation. -/
theorem mnemonic_inj
    {o o' : Opcode}
    (h : o.mnemonic = o'.mnemonic) :
    o = o' := by
  have hfind : ∀ o : Opcode, Opcode.all.find? (·.mnemonic == o.mnemonic) = some o := by
    intro o
    cases o <;> rfl
  have hboth := hfind o
  rw [h, hfind o'] at hboth
  exact (Option.some.inj hboth).symm

theorem bracket_notMem_mnemonic
    (o : Opcode) :
    '(' ∉ o.mnemonic.toList := by
  cases o <;> decide

/-- **No two instructions are shown alike**, whatever follows them. -/
theorem delimited_render :
    Delimited Anything fun i : Instruction => i.render.toList := by
  intro i j s t _ _ heq
  simp only [toList_render, List.append_assoc, List.cons_append, List.nil_append] at heq
  obtain ⟨hmnemonic, hoperands⟩ :=
    append_mark_inj (bracket_notMem_mnemonic i.opcode) (bracket_notMem_mnemonic j.opcode) heq
  have hopcode := mnemonic_inj (String.toList_inj.1 hmnemonic)
  rw [hopcode] at hoperands
  obtain ⟨hsame, hst⟩ :=
    showOperands_append_inj (hopcode ▸ i.kind_operands) j.kind_operands hoperands
  have hi := i.ofOperands?_operands
  rw [hopcode, hsame, j.ofOperands?_operands] at hi
  exact ⟨(Option.some.inj hi).symm, hst⟩

/-- An instruction is shown on one line. -/
theorem lineFeed_notMem_render
    (i : Instruction) :
    '\n' ∉ i.render.toList := by
  have hmnemonic : ∀ o : Opcode, '\n' ∉ o.mnemonic.toList := by
    intro o
    cases o <;> decide
  have hnames : ∀ o : Opcode, ∀ f ∈ o.operands, '\n' ∉ f.1.toList := by
    intro o
    cases o <;> decide
  have hoperands := lineFeed_notMem_showOperands (hnames i.opcode) i.operands
  simp [toList_render, hmnemonic, hoperands]

end Instruction
end StackMachine
