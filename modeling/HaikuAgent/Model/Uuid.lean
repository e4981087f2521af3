import Mathlib.Data.Int.Notation
import HaikuAgent.Model.Mgs

/-!
# Message ids (`util.cpp`)

`uuid4` prints sixteen bytes of `/dev/urandom`, or of the clock when it cannot be read, with the
version and the variant set.
-/

set_option autoImplicit false

namespace HaikuAgent.Model

open HaikuAgent.Foundation

/-- The bytes that stand in for a random id.
SRC: util.cpp:225-226 -/
def timeSeeded (nowMs : ℤ) : Vector UInt8 16 :=
  Vector.ofFn fun i =>
    UInt8.ofNat ((nowMs >>> (i.val % 8 * 8)) % 256).toNat ^^^ UInt8.ofNat (i.val * 31 % 256)

/-- `uuid4`; `urandom` is what sixteen bytes of `/dev/urandom` read as, unless the read falls short.
SRC: util.cpp:219-235 -/
def uuid4 (urandom : Option (Vector UInt8 16)) (nowMs : ℤ) : Bytes :=
  let b := urandom.getD (timeSeeded nowMs)
  let b := b.set 6 ((b[6] &&& 0x0F) ||| 0x40)
  let b := b.set 8 ((b[8] &&& 0x3F) ||| 0x80)
  -- `%02x` prints the two digits of a byte
  let hex (bytes : List UInt8) : Bytes := bytes.flatMap Mgs.hexPair
  let dash : Bytes := [45]
  hex [b[0], b[1], b[2], b[3]] ++ dash ++ hex [b[4], b[5]] ++ dash ++ hex [b[6], b[7]] ++ dash ++
    hex [b[8], b[9]] ++ dash ++ hex [b[10], b[11], b[12], b[13], b[14], b[15]]

end HaikuAgent.Model
