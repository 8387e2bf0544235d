import StackMachine.ByteSource

/-!
# What reads deliver

How a source cuts its bytes into reads does not show in what is collected from it: collecting gives
the next bytes, all that are asked for or all that are left, and leaves the rest.

* `ByteSource.Delivers` relates a source to what is left of it after some bytes.
* `ByteSource.fst_collect` and `ByteSource.delivers_collect` say what collecting gives.
-/

namespace StackMachine
namespace ByteSource

/-- The source `s'` is what is left of the source `s` after the bytes `bs`. -/
structure Delivers (s : ByteSource) (bs : List UInt8) (s' : ByteSource) : Prop where
  bytes_eq : s.bytes = bs ++ s'.bytes
  position_eq : s'.position = s.position + bs.length

namespace Delivers

theorem refl
    (s : ByteSource) :
    Delivers s [] s :=
  ⟨rfl, rfl⟩

theorem trans
    {s s' s'' : ByteSource} {bs bs' : List UInt8}
    (h : Delivers s bs s')
    (h' : Delivers s' bs' s'') :
    Delivers s (bs ++ bs') s'' := by
  constructor
  · rw [h.bytes_eq, h'.bytes_eq, List.append_assoc]
  · rw [h'.position_eq, h.position_eq, List.length_append, Nat.add_assoc]

/-- A source that starts with given bytes still has what follows them after they are read. -/
theorem bytes_eq_of_append
    {s s' : ByteSource} {bs rest : List UInt8}
    (h : Delivers s bs s')
    (hbytes : s.bytes = bs ++ rest) :
    s'.bytes = rest := by
  rw [h.bytes_eq] at hbytes
  exact List.append_cancel_left hbytes

/-- What follows the bytes of one source in another still follows them after the same reading. -/
theorem bytes_append
    {s s' t t' : ByteSource} {used more : List UInt8}
    (hs : Delivers s used s')
    (ht : Delivers t used t')
    (hbytes : t.bytes = s.bytes ++ more) :
    t'.bytes = s'.bytes ++ more := by
  rw [hs.bytes_eq, List.append_assoc] at hbytes
  exact ht.bytes_eq_of_append hbytes

/-- The positions of the two sources tell how many bytes have been read. -/
theorem eq_take
    {s s' : ByteSource} {bs : List UInt8}
    (h : Delivers s bs s') :
    s.bytes.take (s'.position - s.position) = bs := by
  rw [h.position_eq, Nat.add_sub_cancel_left, h.bytes_eq, List.take_left]

theorem unique
    {s s' : ByteSource} {bs bs' : List UInt8}
    (h : Delivers s bs s')
    (h' : Delivers s bs' s') :
    bs = bs' := by
  rw [← h.eq_take, ← h'.eq_take]

end Delivers

/-! ## One read -/

theorem portion_le
    (s : ByteSource) (wanted : Nat) :
    s.portion wanted ≤ wanted := by
  unfold portion
  split
  · exact Nat.le_refl _
  · exact Nat.min_le_left _ _

theorem portion_pos
    (s : ByteSource) {wanted : Nat}
    (h : 0 < wanted) :
    0 < s.portion wanted := by
  unfold portion
  split <;> omega

theorem delivers_read
    (s : ByteSource) (wanted : Nat) :
    Delivers s (s.read wanted).1 (s.read wanted).2 := by
  constructor
  · exact (read_append s wanted).symm
  · rfl

theorem length_read
    (s : ByteSource) (wanted : Nat) :
    (s.read wanted).1.length = min (s.portion wanted) s.bytes.length := by
  simp [read]

/-- A read that asks for bytes comes back empty only from a source that has ended. -/
theorem bytes_eq_nil_of_read
    {s s' : ByteSource} {wanted : Nat}
    (hwanted : 0 < wanted)
    (h : s.read wanted = ([], s')) :
    s.bytes = [] := by
  have hlength := length_read s wanted
  have hportion := portion_pos s hwanted
  rw [h] at hlength
  simp only [List.length_nil] at hlength
  exact List.length_eq_zero_iff.1 (by omega)

/-- A read from a source that has ended comes back empty. -/
theorem read_of_nil
    {s : ByteSource}
    (h : s.bytes = [])
    (wanted : Nat) :
    ∃ s' : ByteSource, s.read wanted = ([], s') ∧ Delivers s [] s' := by
  have hchunk : (s.read wanted).1 = [] := by
    simp [read, h]
  have hdelivers := delivers_read s wanted
  rw [hchunk] at hdelivers
  exact ⟨(s.read wanted).2, by rw [← hchunk], hdelivers⟩

/-- A read of one byte takes the first byte of a source that has not ended. -/
theorem read_one
    {s : ByteSource} {b : UInt8} {bs : List UInt8}
    (h : s.bytes = b :: bs) :
    ∃ s' : ByteSource, s.read 1 = ([b], s') ∧ Delivers s [b] s' := by
  have hportion : s.portion 1 = 1 := by
    have hle := portion_le s 1
    have hpos := portion_pos s Nat.one_pos
    omega
  have hchunk : (s.read 1).1 = [b] := by
    simp [read, hportion, h]
  have hdelivers := delivers_read s 1
  rw [hchunk] at hdelivers
  exact ⟨(s.read 1).2, by rw [← hchunk], hdelivers⟩

/-! ## Collecting -/

/-- Collecting gives the next `missing` bytes, or all that are left if there are fewer. -/
theorem collectFrom_eq
    (missing : Nat) (got : List UInt8) (s : ByteSource) :
    (collectFrom missing got s).1 = (s.bytes.take missing).reverse ++ got ∧
    Delivers s (s.bytes.take missing) (collectFrom missing got s).2 := by
  induction missing using Nat.strongRecOn generalizing got s with
  | ind missing ih =>
      rw [collectFrom]
      split
      · next hzero =>
          subst hzero
          exact ⟨by simp, by simpa using Delivers.refl s⟩
      · next hmissing =>
          have hwanted : 0 < min missing largestRead := by
            unfold largestRead
            omega
          have hlength := length_read s (min missing largestRead)
          have hportion := portion_le s (min missing largestRead)
          have hread := delivers_read s (min missing largestRead)
          split
          · next s' hs =>
              have hnil := bytes_eq_nil_of_read hwanted hs
              rw [hs] at hread
              rw [hnil]
              exact ⟨by simp, by simpa using hread⟩
          · next b bs s' hs =>
              rw [hs] at hread hlength
              simp only [List.length_cons] at hlength
              obtain ⟨hgot, hrest⟩ :=
                ih (missing - (bs.length + 1)) (by omega) ((b :: bs).reverse ++ got) s'
              have htake : s.bytes.take missing =
                  (b :: bs) ++ s'.bytes.take (missing - (bs.length + 1)) := by
                rw [hread.bytes_eq, List.take_append,
                  List.take_of_length_le (by simp only [List.length_cons]; omega)]
                rfl
              rw [hgot, htake]
              exact ⟨by simp, hread.trans hrest⟩

theorem fst_collect
    (s : ByteSource) (size : Nat) :
    (s.collect size).1 = s.bytes.take size := by
  have h := (collectFrom_eq size [] s).1
  simp only [collect, h]
  simp

theorem delivers_collect
    (s : ByteSource) (size : Nat) :
    Delivers s (s.bytes.take size) (s.collect size).2 :=
  (collectFrom_eq size [] s).2

end ByteSource
end StackMachine
