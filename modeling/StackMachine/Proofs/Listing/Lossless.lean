import StackMachine.Proofs.Listing.Rows
import StackMachine.Proofs.Text.Instruction

/-!
# Listings are lossless

The lines of a listing are found again in its text, since none of them holds a line feed, and the
program is found again in the lines.  A column keeps its length only as long as its number fits, so
a row is taken apart at the ends of its numerals, not at fixed places.

* `Listing.linesOf_text`: the lines of the text are the lines of the listing.
* `Listing.delimited_column` and `Listing.Row.render_inj`: a row is found again in its line.
* `Listing.text_lossless`: how many lines there are, and that the text tells the program.
-/

namespace StackMachine
namespace Listing

open Text

variable {p q : Program}

/-! ## Columns -/

/-- The number `n` in a column. -/
def column (width n : Nat) : List Char :=
  (alignRight width (toString n)).toList

theorem column_eq
    (width n : Nat) :
    column width n =
      List.replicate (width - (Nat.toDigits 10 n).length) ' ' ++ Nat.toDigits 10 n := by
  simp [column, alignRight, ← String.length_toList]

/-- A number is found again in its column, however many blanks there are before it. -/
theorem delimited_column
    (width : Nat) :
    Delimited EndsNumeral (column width) := by
  refine .of_reader (fun s => some (readNumeral s)) ?_
  intro n s hs
  have hread := readNumeral_append (width - (Nat.toDigits 10 n).length) 0 n hs
  rw [List.replicate_zero, List.nil_append, ← column_eq] at hread
  exact congrArg some hread

theorem lineFeed_notMem_column
    (width n : Nat) :
    '\n' ∉ column width n := by
  simp [column_eq]

/-! ## Rows -/

namespace Row

theorem toList_render
    (r : Row) :
    r.render.toList =
      (if r.marked then '>' else ' ') ::
        (column 5 r.pc ++ ' ' :: ' ' ::
          (column 8 r.offset ++ ' ' :: ' ' ::
            (column 3 r.instruction.opcode.tag.toNat ++ ' ' :: ' ' ::
              r.instruction.render.toList))) := by
  unfold render
  cases r.marked <;> simp [column]

/-- A row is found again in its line. -/
theorem render_inj
    {r r' : Row} :
    r.render = r'.render ↔ r = r' := by
  constructor
  · intro h
    have hlist := congrArg String.toList h
    simp only [toList_render, List.cons.injEq] at hlist
    obtain ⟨hmark, hlist⟩ := hlist
    obtain ⟨hpc, hlist⟩ := delimited_column 5 _ _ _ _ (by simp) (by simp) hlist
    simp only [List.cons.injEq, true_and] at hlist
    obtain ⟨hoffset, hlist⟩ := delimited_column 8 _ _ _ _ (by simp) (by simp) hlist
    simp only [List.cons.injEq, true_and] at hlist
    obtain ⟨-, hlist⟩ := delimited_column 3 _ _ _ _ (by simp) (by simp) hlist
    simp only [List.cons.injEq, true_and] at hlist
    have hinstruction :=
      (Instruction.delimited_render _ _ [] [] trivial trivial (by simpa using hlist)).1
    have hmarked : r.marked = r'.marked := by
      cases hr : r.marked <;> cases hr' : r'.marked <;> simp [hr, hr'] at hmark ⊢
    cases r
    cases r'
    rw [Row.mk.injEq]
    exact ⟨hmarked, hpc, hoffset, hinstruction⟩
  · rintro rfl
    rfl

theorem lineFeed_notMem_render
    (r : Row) :
    '\n' ∉ r.render.toList := by
  have hmark : '\n' ≠ if r.marked then '>' else ' ' := by
    cases r.marked <;> decide
  simp [toList_render, hmark, lineFeed_notMem_column, Instruction.lineFeed_notMem_render]

end Row

theorem map_instruction_rows
    (p : Program) :
    (rows p).map Row.instruction = p := by
  apply List.ext_getElem?
  intro k
  rw [List.getElem?_map, getElem?_rows, Option.map_map]
  simp [Function.comp_def]

/-! ## Lines -/

theorem lineFeed_notMem_footer
    (p : Program) :
    '\n' ∉ (footer p).toList := by
  simp [footer]

theorem lineFeed_notMem_lines
    (p : Program) :
    ∀ line ∈ lines p, '\n' ∉ line.toList := by
  intro line hline
  simp only [lines, List.mem_cons, List.mem_append, List.mem_map, List.not_mem_nil, or_false]
    at hline
  rcases hline with rfl | rfl | ⟨r, -, rfl⟩ | rfl | rfl
  · decide
  · decide
  · exact r.lineFeed_notMem_render
  · decide
  · exact lineFeed_notMem_footer p

/-- The lines of the text are the lines of the listing. -/
theorem linesOf_text
    (p : Program) :
    linesOf (text p) = lines p :=
  linesOf_intercalate (List.cons_ne_nil _ _) (lineFeed_notMem_lines p)

/-- There is a line for every instruction, and four more. -/
theorem length_lines
    (p : Program) :
    (lines p).length = p.length + 4 := by
  simp [lines]

/-- The lines of a listing tell the program. -/
theorem lines_inj :
    lines p = lines q ↔ p = q := by
  constructor
  · intro h
    have hlength : ((rows p).map Row.render).length = ((rows q).map Row.render).length := by
      have hcount := congrArg List.length h
      rw [length_lines, length_lines] at hcount
      simpa using hcount
    simp only [lines, List.cons.injEq, true_and] at h
    have hrendered := (List.append_inj h hlength).1
    have hrows : rows p = rows q :=
      List.map_injective_iff.2 (fun _ _ => Row.render_inj.1) hrendered
    rw [← map_instruction_rows p, hrows, map_instruction_rows]
  · rintro rfl
    rfl

/-- **Listings are lossless.**  The text of a listing has a line for every instruction of the
program and four more, whatever texts the instructions hold, and different programs have different
listings. -/
theorem text_lossless :
    (∀ p : Program, (linesOf (text p)).length = p.length + 4) ∧
    ∀ p q : Program, text p = text q ↔ p = q := by
  refine ⟨?_, ?_⟩
  · intro p
    rw [linesOf_text, length_lines]
  · intro p q
    rw [← lines_inj]
    constructor
    · intro h
      rw [← linesOf_text, h, linesOf_text]
    · intro h
      rw [text, h, text]

end Listing
end StackMachine
