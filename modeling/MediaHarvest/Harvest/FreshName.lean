import MediaHarvest.Text.Hex

/-!
# Fresh names

A job without a name gets one of 128 bits: the milliseconds of the clock, then bits that are drawn
at random, so that later names come later in order.
-/

namespace MediaHarvest

/-- The last bytes of a name: random ones, with the version and the variant put in. -/
def nameTail : Bytes → Bytes
  | a :: b :: c :: rest => (0x70 ||| (a &&& 0x0f)) :: b :: (0x80 ||| (c &&& 0x3f)) :: rest
  | bytes => bytes

/-- A name from the milliseconds of the clock and ten random bytes. -/
def freshName (millis : Nat) (random : Bytes) : String :=
  let clock := (List.range 6).map fun index => UInt8.ofNat (millis / Nat.pow 256 (5 - index))
  let digits := (Text.hex (clock ++ nameTail (random.take 10))).toList
  let cut (start count : Nat) : String := String.ofList ((digits.drop start).take count)
  s!"{cut 0 8}-{cut 8 4}-{cut 12 4}-{cut 16 4}-{cut 20 12}"

end MediaHarvest
