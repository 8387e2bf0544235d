/-!
# Byte sources

A byte source delivers a fixed sequence of bytes, by reads that may each come short: a read gets at
least one byte while there are any, but not always as many as it asks for.  How many it gets is part
of the source, so a source stands for one way of delivering its bytes.

* `ByteSource.ofBytes` delivers as much as is asked for, `ByteSource.inPortions` at most a fixed
  number of bytes by each read.
* `ByteSource.collect` repeats reads until a given number of bytes has come or the source has ended.
  No read asks for more than `ByteSource.largestRead` bytes, so that a wrong number cannot claim
  much memory before the end of the source is noticed.
-/

namespace StackMachine

/-- A sequence of bytes, and how they are delivered. -/
structure ByteSource where
  /-- The bytes that have not been delivered. -/
  bytes : List UInt8
  /-- How many bytes have been delivered. -/
  position : Nat
  /-- How many reads there have been. -/
  reads : Nat
  /-- The most bytes that the read with a given number may deliver, if there is a bound. -/
  cap : Nat → Option Nat

namespace ByteSource

/-- The source that delivers as many bytes as it is asked for. -/
def ofBytes (bs : List UInt8) : ByteSource :=
  ⟨bs, 0, 0, fun _ => none⟩

/-- The source whose reads deliver at most `size` bytes each. -/
def inPortions (size : Nat) (bs : List UInt8) : ByteSource :=
  ⟨bs, 0, 0, fun _ => some size⟩

/-- The same source, with its position counted from its next byte. -/
def fromHere (s : ByteSource) : ByteSource :=
  { s with position := 0 }

/-- How many of the `wanted` bytes the next read may deliver; a read is never refused. -/
def portion (s : ByteSource) (wanted : Nat) : Nat :=
  match s.cap s.reads with
  | none => wanted
  | some most => min wanted (max most 1)

/-- One read: the bytes it delivers, and the source after it. -/
def read (s : ByteSource) (wanted : Nat) : List UInt8 × ByteSource :=
  let chunk := s.bytes.take (s.portion wanted)
  (chunk,
    { s with
      bytes := s.bytes.drop (s.portion wanted)
      position := s.position + chunk.length
      reads := s.reads + 1 })

/-- The most bytes that one read asks for. -/
def largestRead : Nat := 64 * 1024

/-- Reads until `missing` more bytes have come or the source has ended.  The bytes that came before
are in `got`, the latest first. -/
def collectFrom (missing : Nat) (got : List UInt8) (s : ByteSource) :
    List UInt8 × ByteSource :=
  if _h : missing = 0 then
    (got, s)
  else
    match s.read (min missing largestRead) with
    | ([], s') => (got, s')
    | (b :: bs, s') => collectFrom (missing - (bs.length + 1)) ((b :: bs).reverse ++ got) s'
termination_by missing

/-- Reads until `size` bytes have come or the source has ended. -/
def collect (s : ByteSource) (size : Nat) : List UInt8 × ByteSource :=
  let (got, s') := collectFrom size [] s
  (got.reverse, s')

/-- A read loses no byte. -/
theorem read_append
    (s : ByteSource) (wanted : Nat) :
    (s.read wanted).1 ++ (s.read wanted).2.bytes = s.bytes := by
  simp [read]

theorem length_read_le
    (s : ByteSource) (wanted : Nat) :
    (s.read wanted).2.bytes.length ≤ s.bytes.length := by
  simp [read]

theorem length_lt_of_read
    {s s' : ByteSource} {wanted : Nat} {b : UInt8} {bs : List UInt8}
    (h : s.read wanted = (b :: bs, s')) :
    s'.bytes.length < s.bytes.length := by
  have happend : b :: bs ++ s'.bytes = s.bytes := by
    have hread := read_append s wanted
    rwa [h] at hread
  rw [← happend, List.length_append, List.length_cons]
  omega

theorem length_collectFrom_le
    (missing : Nat) (got : List UInt8) (s : ByteSource) :
    (collectFrom missing got s).2.bytes.length ≤ s.bytes.length := by
  induction missing using Nat.strongRecOn generalizing got s with
  | ind missing ih =>
      rw [collectFrom]
      split
      · exact Nat.le_refl _
      · have hread := length_read_le s (min missing largestRead)
        split
        · next hs => simpa [hs] using hread
        · next b bs s' hs =>
            rw [hs] at hread
            exact Nat.le_trans (ih _ (by omega) _ _) hread

/-- Collecting bytes leaves no more of them than there were. -/
theorem length_collect_le
    (s : ByteSource) (size : Nat) :
    (s.collect size).2.bytes.length ≤ s.bytes.length :=
  length_collectFrom_le size [] s

end ByteSource

end StackMachine
