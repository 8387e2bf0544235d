/-!
# UTF-8

Well-formed UTF-8 has no overlong forms, no surrogates and nothing above U+10FFFF.  The lead byte
of a character fixes how many bytes follow it and which values the first of them may have; all
later ones are in 80–BF.

* `Utf8.encode` writes characters.
* `Utf8.decode` reads a block of bytes, or locates its first fault: a byte that starts no
  character, or the longest beginning of a character that its next byte, or the end of the block,
  cuts off.
-/

namespace StackMachine.Utf8

/-- Why bytes are not well-formed. -/
inductive Reason
  | invalidStart
  | invalidContinuation
  | unexpectedEnd
  deriving DecidableEq, Repr

/-- The wording of a reason. -/
def Reason.text : Reason → String
  | .invalidStart => "invalid start byte"
  | .invalidContinuation => "invalid continuation byte"
  | .unexpectedEnd => "unexpected end of data"

/-- The first fault of a block of bytes: the span of bytes that form no character. -/
structure Fault where
  /-- Where the span starts. -/
  position : Nat
  /-- How many bytes the span has, at least one. -/
  length : Nat
  /-- The byte at `position`. -/
  byte : UInt8
  reason : Reason
  deriving DecidableEq, Repr

/-- A byte as two lower-case hexadecimal digits. -/
def hexByte (b : UInt8) : String :=
  String.ofList [Nat.digitChar (b.toNat / 16), Nat.digitChar (b.toNat % 16)]

/-- A fault in words; a span of one byte is shown with its value. -/
def Fault.message (f : Fault) : String :=
  let place :=
    if f.length = 1 then
      "byte 0x" ++ hexByte f.byte ++ " in position " ++ toString f.position
    else
      "bytes in position " ++ toString f.position ++ "-" ++ toString (f.position + f.length - 1)
  "'utf-8' codec can't decode " ++ place ++ ": " ++ f.reason.text

/-- What a byte means where a character is expected. -/
inductive Lead
  /-- The byte is a character of its own. -/
  | single
  /-- No character starts with the byte. -/
  | invalid
  /-- The byte is followed by `tails` more; the first of them is between `low` and `high`, and the
  byte itself contributes `bits` to the code point. -/
  | multi (tails : Nat) (low high : UInt8) (bits : Nat)
  deriving DecidableEq, Repr

/-- Classifies a byte where a character is expected. -/
def lead (b : UInt8) : Lead :=
  if b < 0x80 then .single
  else if b < 0xC2 then .invalid
  else if b < 0xE0 then .multi 1 0x80 0xBF (b.toNat - 0xC0)
  else if b < 0xF0 then
    .multi 2 (if b = 0xE0 then 0xA0 else 0x80) (if b = 0xED then 0x9F else 0xBF) (b.toNat - 0xE0)
  else if b < 0xF5 then
    .multi 3 (if b = 0xF0 then 0x90 else 0x80) (if b = 0xF4 then 0x8F else 0xBF) (b.toNat - 0xF0)
  else .invalid

/-- The result of reading one character. -/
inductive Scan
  /-- A character that takes `length` bytes, and the bytes after it. -/
  | char (c : Char) (length : Nat) (rest : List UInt8)
  /-- A span of `length` bytes that forms no character. -/
  | fault (length : Nat) (reason : Reason)
  deriving Repr

/-- Reads the remaining bytes of a character, the first of them between `low` and `high`.  The bytes
read so far number `used` and contribute `bits`. -/
def scanTails : Nat → UInt8 → UInt8 → Nat → Nat → List UInt8 → Scan
  | 0, _, _, bits, used, rest => .char (Char.ofNat bits) used rest
  | _ + 1, _, _, _, used, [] => .fault used .unexpectedEnd
  | tails + 1, low, high, bits, used, b :: rest =>
      if low ≤ b ∧ b ≤ high then
        scanTails tails 0x80 0xBF (bits * 64 + (b.toNat - 0x80)) (used + 1) rest
      else
        .fault used .invalidContinuation

/-- Reads one character that starts with the byte `b`. -/
def scan (b : UInt8) (rest : List UInt8) : Scan :=
  match lead b with
  | .single => .char (Char.ofNat b.toNat) 1 rest
  | .invalid => .fault 1 .invalidStart
  | .multi tails low high bits => scanTails tails low high bits 1 rest

theorem length_le_of_scanTails
    {tails : Nat} {low high : UInt8} {bits used : Nat} {bs : List UInt8}
    {c : Char} {n : Nat} {rest : List UInt8}
    (h : scanTails tails low high bits used bs = .char c n rest) :
    rest.length ≤ bs.length := by
  induction tails generalizing low high bits used bs with
  | zero =>
      simp only [scanTails, Scan.char.injEq] at h
      simp [h.2.2]
  | succ tails ih =>
      cases bs with
      | nil => simp [scanTails] at h
      | cons b bs =>
          simp only [scanTails] at h
          split at h
          · exact Nat.le_succ_of_le (ih h)
          · simp at h

/-- Reading a character leaves no more bytes than follow its lead byte. -/
theorem length_le_of_scan
    {b : UInt8} {bs : List UInt8} {c : Char} {n : Nat} {rest : List UInt8}
    (h : scan b bs = .char c n rest) :
    rest.length ≤ bs.length := by
  unfold scan at h
  split at h
  · simp only [Scan.char.injEq] at h
    simp [h.2.2]
  · simp at h
  · exact length_le_of_scanTails h

/-- Reads bytes from the given position on; the characters read before it are in `read`, the latest
first. -/
def decodeFrom (position : Nat) (read : List Char) (bs : List UInt8) :
    Except Fault (List Char) :=
  match bs with
  | [] => .ok read.reverse
  | b :: rest =>
      match _h : scan b rest with
      | .char c n rest' => decodeFrom (position + n) (c :: read) rest'
      | .fault n reason => .error ⟨position, n, b, reason⟩
termination_by bs.length
decreasing_by exact Nat.lt_succ_of_le (length_le_of_scan ‹_›)

/-- The characters that a block of bytes spells, or its first fault. -/
def decode (bs : List UInt8) : Except Fault (List Char) :=
  decodeFrom 0 [] bs

/-- The bytes of a list of characters. -/
def encode (cs : List Char) : List UInt8 :=
  cs.flatMap String.utf8EncodeChar

@[simp] theorem encode_nil :
    encode [] = [] := rfl

end StackMachine.Utf8
