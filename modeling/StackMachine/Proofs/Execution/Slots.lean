import Mathlib.Data.List.InsertIdx
import StackMachine.Proofs.Codec.Word
import StackMachine.Proofs.Execution.TopFirst

/-!
# Slots of a stack, read from the top

A machine keeps its stack bottom first and turns an offset from the top into an index.  Reversing
the stack turns these indices back into offsets: looking up, replacing and pushing commute with
reversal, and so does deleting two slots, although the second deletion works on indices that the
first one has shifted.

* `TopFirst.peek_bottomFirst`, `TopFirst.addSlots_bottomFirst`, `TopFirst.decrementSlot_bottomFirst`
  and `TopFirst.incrementSlot_bottomFirst` are the operations on slots, read from the top.
-/

namespace StackMachine
namespace TopFirst

/-! ## Lists -/

theorem eraseIdx_reverse
    {α : Type} {l : List α} {k : Nat}
    (h : k < l.length) :
    l.reverse.eraseIdx (l.length - 1 - k) = (l.eraseIdx k).reverse := by
  have hdrop : l.length - (l.length - 1 - k) = k + 1 := by omega
  have htake : l.length - (l.length - 1 - k + 1) = k := by omega
  rw [List.eraseIdx_eq_take_drop_succ, List.eraseIdx_eq_take_drop_succ, List.take_reverse,
    List.drop_reverse, hdrop, htake, List.reverse_append]

theorem set_reverse
    {α : Type} {l : List α} {k : Nat}
    (h : k < l.length)
    (a : α) :
    l.reverse.set (l.length - 1 - k) a = (l.set k a).reverse := by
  have hdrop : l.length - (l.length - 1 - k) = k + 1 := by omega
  have htake : l.length - (l.length - 1 - k + 1) = k := by omega
  have hlt : l.length - 1 - k < l.reverse.length := by
    rw [List.length_reverse]
    omega
  rw [List.set_eq_take_append_cons_drop, if_pos hlt, List.set_eq_take_append_cons_drop, if_pos h,
    List.take_reverse, List.drop_reverse, hdrop, htake]
  simp

/-- Leaving out one position of a list that is numbered from `n` on. -/
theorem filter_zipIdx_ne
    {α : Type} (l : List α) (n k : Nat) :
    ((l.zipIdx n).filter fun x => x.2 ≠ n + k).map Prod.fst = l.eraseIdx k := by
  induction l generalizing n k with
  | nil =>
      simp
  | cons x l ih =>
      rw [List.zipIdx_cons]
      cases k with
      | zero =>
          have hall : (l.zipIdx (n + 1)).filter (fun x => decide (x.2 ≠ n + 0)) =
              l.zipIdx (n + 1) := by
            rw [List.filter_eq_self]
            intro y hy
            have hle := List.le_snd_of_mem_zipIdx hy
            simp only [decide_eq_true_eq]
            omega
          rw [List.filter_cons_of_neg (by simp), hall]
          simp
      | succ k =>
          have hindex : n + (k + 1) = n + 1 + k := by omega
          rw [List.filter_cons_of_pos (by simp), List.map_cons, List.eraseIdx_cons_succ, hindex, ih]

/-- Leaving out two positions of a list that is numbered from `n` on. -/
theorem filter_zipIdx_ne_ne
    {α : Type} (l : List α) (n : Nat) {lo hi : Nat}
    (h : lo < hi) :
    ((l.zipIdx n).filter fun x => x.2 ≠ n + lo ∧ x.2 ≠ n + hi).map Prod.fst =
      (l.eraseIdx hi).eraseIdx lo := by
  induction l generalizing n lo hi with
  | nil =>
      simp
  | cons x l ih =>
      -- The head is at neither position, or it is at the lower one.
      obtain ⟨hi, rfl⟩ := Nat.exists_eq_succ_of_ne_zero (show hi ≠ 0 by omega)
      have hindex : n + (hi + 1) = n + 1 + hi := by omega
      rw [List.zipIdx_cons]
      cases lo with
      | zero =>
          have hrest : (l.zipIdx (n + 1)).filter
                (fun x => decide (x.2 ≠ n + 0 ∧ x.2 ≠ n + (hi + 1))) =
              (l.zipIdx (n + 1)).filter (fun x => decide (x.2 ≠ n + 1 + hi)) := by
            apply List.filter_congr
            intro y hy
            have hle := List.le_snd_of_mem_zipIdx hy
            rw [hindex, decide_eq_decide]
            omega
          rw [List.filter_cons_of_neg (by simp), hrest, filter_zipIdx_ne]
          simp
      | succ lo =>
          have hindex' : n + (lo + 1) = n + 1 + lo := by omega
          rw [List.filter_cons_of_pos (by simp), List.map_cons, List.eraseIdx_cons_succ,
            List.eraseIdx_cons_succ, hindex, hindex', ih (n + 1) (by omega)]

/-! ## Stacks -/

@[simp] theorem size_bottomFirst
    (s : List Word) :
    (bottomFirst s).size = s.length := by
  simp [bottomFirst]

theorem push_bottomFirst
    (s : List Word) (w : Word) :
    (bottomFirst s).push (w.toNat : Int) = bottomFirst (w :: s) := by
  simp [bottomFirst]

/-- A stack of words is the stack of its elements. -/
theorem bottomFirst_topFirst
    {stack : Stack}
    (h : ∀ n ∈ stack, 0 ≤ n ∧ n < 2 ^ 64) :
    bottomFirst (topFirst stack) = stack := by
  have hword : ∀ n ∈ stack.toList, ((UInt64.ofNat n.toNat).toNat : Int) = n := by
    intro n hn
    obtain ⟨hlow, hhigh⟩ := h n (Array.mem_toList_iff.1 hn)
    rw [UInt64.toNat_ofNat_of_lt' (show n.toNat < 2 ^ 64 by omega)]
    omega
  have hmap : stack.toList.map (fun n => ((UInt64.ofNat n.toNat).toNat : Int)) = stack.toList := by
    rw [List.map_congr_left hword, List.map_id']
  simp only [bottomFirst, topFirst, List.map_reverse, List.reverse_reverse, List.map_map]
  exact Array.toList_inj.1 hmap

theorem getElem_bottomFirst
    {s : List Word} {p : Word}
    (h : p.toNat < s.length)
    (hlt : s.length - 1 - p.toNat < (bottomFirst s).size) :
    (bottomFirst s)[s.length - 1 - p.toNat] = ((element s p).toNat : Int) := by
  have hposition : s.length - 1 - (s.length - 1 - p.toNat) = p.toNat := by omega
  simp [bottomFirst, element, hposition, List.getD_eq_getElem?_getD, h]

theorem set_bottomFirst
    {s : List Word} {p : Word}
    (h : p.toNat < s.length)
    (hlt : s.length - 1 - p.toNat < (bottomFirst s).size)
    (w : Word) :
    (bottomFirst s).set (s.length - 1 - p.toNat) (w.toNat : Int) =
      bottomFirst (s.set p.toNat w) := by
  simp only [bottomFirst, List.set_toArray]
  rw [← set_reverse h, List.map_set]

/-! ## Deleting two slots -/

theorem without_comm
    (s : List Word) (a b : Word) :
    without s a b = without s b a := by
  simp only [without, and_comm]

theorem without_of_lt
    {s : List Word} {a b : Word}
    (h : a.toNat < b.toNat) :
    without s a b = (s.eraseIdx b.toNat).eraseIdx a.toNat := by
  rw [without, ← filter_zipIdx_ne_ne s 0 h]
  simp only [Nat.zero_add]

theorem eraseTwo_comm
    (stack : Stack) (i j : Nat) :
    eraseTwo stack i j = eraseTwo stack j i := by
  simp only [eraseTwo, Nat.min_comm, Nat.max_comm]

/-- The slot at the larger offset has the smaller index and is deleted first, which moves the other
slot down by one. -/
theorem eraseTwo_bottomFirst_of_lt
    {s : List Word} {a b : Word}
    (hlt : a.toNat < b.toNat)
    (hb : b.toNat < s.length) :
    eraseTwo (bottomFirst s) (s.length - 1 - a.toNat) (s.length - 1 - b.toNat) =
      bottomFirst (without s a b) := by
  have hmin : min (s.length - 1 - a.toNat) (s.length - 1 - b.toNat) =
      s.length - 1 - b.toNat := by omega
  have hmax : max (s.length - 1 - a.toNat) (s.length - 1 - b.toNat) =
      s.length - 1 - a.toNat := by omega
  have hlength : (s.eraseIdx b.toNat).length = s.length - 1 := List.length_eraseIdx_of_lt hb
  have hindex : s.length - 1 - a.toNat - 1 = (s.eraseIdx b.toNat).length - 1 - a.toNat := by
    omega
  have hshort : a.toNat < (s.eraseIdx b.toNat).length := by omega
  rw [without_of_lt hlt]
  simp only [eraseTwo, bottomFirst, hmin, hmax, List.eraseIdxIfInBounds_toArray, List.eraseIdx_map]
  rw [eraseIdx_reverse hb, hindex, eraseIdx_reverse hshort]

theorem eraseTwo_bottomFirst
    {s : List Word} {a b : Word}
    (ha : a.toNat < s.length)
    (hb : b.toNat < s.length)
    (hne : a ≠ b) :
    eraseTwo (bottomFirst s) (s.length - 1 - a.toNat) (s.length - 1 - b.toNat) =
      bottomFirst (without s a b) := by
  have hneNat : a.toNat ≠ b.toNat := fun h => hne (UInt64.toNat_inj.1 h)
  rcases Nat.lt_or_gt_of_ne hneNat with hlt | hgt
  · exact eraseTwo_bottomFirst_of_lt hlt hb
  · rw [eraseTwo_comm, without_comm]
    exact eraseTwo_bottomFirst_of_lt hgt ha

/-! ## Operations on slots -/

theorem slot_bottomFirst
    {s : List Word} {p : Word}
    (h : p.toNat < s.length) :
    slot (bottomFirst s) p =
      .ok ⟨s.length - 1 - p.toNat, by rw [size_bottomFirst]; omega⟩ := by
  have hlt : p.toNat < (bottomFirst s).size := by rwa [size_bottomFirst]
  rw [slot, dif_pos hlt]
  simp only [size_bottomFirst]

theorem slot_of_le
    {s : List Word} {p : Word}
    (h : s.length ≤ p.toNat) :
    slot (bottomFirst s) p = .error (.offsetOutOfRange p.toNat s.length) := by
  have hle : ¬ p.toNat < (bottomFirst s).size := by
    rw [size_bottomFirst]
    omega
  rw [slot, dif_neg hle, size_bottomFirst]

theorem peek_bottomFirst
    {s : List Word} {p : Word}
    (h : p.toNat < s.length) :
    peek (bottomFirst s) p = .ok ((element s p).toNat : Int) := by
  rw [peek, slot_bottomFirst h]
  exact congrArg Except.ok (getElem_bottomFirst h _)

theorem peek_of_le
    {s : List Word} {p : Word}
    (h : s.length ≤ p.toNat) :
    peek (bottomFirst s) p = .error (.offsetOutOfRange p.toNat s.length) := by
  rw [peek, slot_of_le h]
  rfl

theorem compareSlots_bottomFirst
    {s : List Word} {a b : Word}
    (ha : a.toNat < s.length)
    (hb : b.toNat < s.length)
    (holds : Int → Int → Bool) :
    compareSlots (bottomFirst s) a b holds =
      .ok (holds (element s a).toNat (element s b).toNat) := by
  rw [compareSlots, peek_bottomFirst ha, peek_bottomFirst hb]
  rfl

theorem decrementSlot_bottomFirst
    {s : List Word} {p : Word}
    (h : p.toNat < s.length) :
    decrementSlot (bottomFirst s) p =
      if element s p = 0 then .error .decrementUnderflow
      else .ok (bottomFirst (s.set p.toNat (element s p - 1))) := by
  have hzero : ((element s p).toNat : Int) = 0 ↔ element s p = 0 := by
    rw [← UInt64.toNat_inj, UInt64.toNat_zero]
    omega
  rw [decrementSlot, slot_bottomFirst h]
  simp only [bind, Except.bind, Fin.getElem_fin, getElem_bottomFirst h, hzero]
  split
  · rfl
  · next hne =>
      have hpos : 1 ≤ (element s p).toNat := by
        rw [← hzero] at hne
        omega
      have hpred : ((element s p - 1).toNat : Int) = (element s p).toNat - 1 := by
        have hle : (1 : Word) ≤ element s p := UInt64.le_iff_toNat_le.2 hpos
        rw [UInt64.toNat_sub_of_le _ _ hle]
        exact Int.ofNat_sub hpos
      rw [← hpred, set_bottomFirst h]
      rfl

theorem incrementSlot_bottomFirst
    {s : List Word} {p : Word}
    (h : p.toNat < s.length) :
    incrementSlot (bottomFirst s) p =
      if (element s p).toNat = 2 ^ 64 - 1 then .error .incrementOverflow
      else .ok (bottomFirst (s.set p.toNat (element s p + 1))) := by
  have hmaximum : ((element s p).toNat : Int) = Word.maximum ↔
      (element s p).toNat = 2 ^ 64 - 1 := by
    rw [Word.maximum_eq]
    exact Int.ofNat_inj
  rw [incrementSlot, slot_bottomFirst h]
  simp only [bind, Except.bind, Fin.getElem_fin, getElem_bottomFirst h, hmaximum]
  split
  · rfl
  · next hne =>
      have hlt : (element s p).toNat < 2 ^ 64 := (element s p).toNat_lt
      have hsucc : ((element s p + 1).toNat : Int) = (element s p).toNat + 1 := by
        rw [UInt64.toNat_add, UInt64.toNat_one, Nat.mod_eq_of_lt (by omega)]
        rfl
      rw [← hsucc, set_bottomFirst h]
      rfl

/-- Adding deletes the summands and pushes their sum. -/
theorem addSlots_bottomFirst
    {s : List Word} {a b : Word}
    (ha : a.toNat < s.length)
    (hb : b.toNat < s.length) :
    addSlots (bottomFirst s) a b =
      if a = b then .error (.sameSlot a.toNat b.toNat s.length)
      else if 2 ^ 64 ≤ (element s a).toNat + (element s b).toNat then
        .error (.addOverflow (element s a).toNat (element s b).toNat)
      else .ok (bottomFirst ((element s a + element s b) :: without s a b)) := by
  have hsame : s.length - 1 - a.toNat = s.length - 1 - b.toNat ↔ a = b := by
    rw [← UInt64.toNat_inj]
    omega
  rw [addSlots, slot_bottomFirst ha, slot_bottomFirst hb]
  simp only [bind, Except.bind, Fin.getElem_fin, Fin.mk.injEq, getElem_bottomFirst ha,
    getElem_bottomFirst hb, size_bottomFirst, hsame]
  split
  · rfl
  · next hne =>
      have hmaximum := Word.maximum_eq
      rw [eraseTwo_bottomFirst ha hb hne]
      by_cases hsum : 2 ^ 64 ≤ (element s a).toNat + (element s b).toNat
      · rw [if_pos hsum, if_neg (by omega)]
        rfl
      · have hadd : ((element s a + element s b).toNat : Int) =
            (element s a).toNat + (element s b).toNat := by
          rw [UInt64.toNat_add, Nat.mod_eq_of_lt (by omega)]
          rfl
        rw [if_neg hsum, if_pos (by omega), ← hadd, push_bottomFirst]
        rfl

end TopFirst
end StackMachine
