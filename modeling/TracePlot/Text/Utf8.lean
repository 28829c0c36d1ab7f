/-! Decoding of UTF-8. A text that is not well formed is refused with the index of the first
byte that belongs to no well-formed sequence. -/

namespace TracePlot.Text.Utf8

def isContinuation (b : UInt8) : Bool :=
  0x80 ≤ b && b ≤ 0xBF

/-- The second bytes that may follow a lead byte of a sequence of three. -/
def followsThree (lead b : UInt8) : Bool :=
  if lead = 0xE0 then 0xA0 ≤ b && b ≤ 0xBF
  else if lead = 0xED then 0x80 ≤ b && b ≤ 0x9F
  else 0xE1 ≤ lead && lead ≤ 0xEF && isContinuation b

/-- The second bytes that may follow a lead byte of a sequence of four. -/
def followsFour (lead b : UInt8) : Bool :=
  if lead = 0xF0 then 0x90 ≤ b && b ≤ 0xBF
  else if lead = 0xF4 then 0x80 ≤ b && b ≤ 0x8F
  else 0xF1 ≤ lead && lead ≤ 0xF3 && isContinuation b

def low (bits : Nat) (b : UInt8) : Nat :=
  b.toNat % Nat.pow 2 bits

/-- Decodes from byte `at` on; `done` holds the characters so far, reversed. -/
def decodeFrom (start : Nat) (done : List Char) : List UInt8 → Except Nat (List Char)
  | [] => .ok done.reverse
  | a :: rest =>
    if a < 0x80 then decodeFrom (start + 1) (Char.ofNat a.toNat :: done) rest
    else
      match rest with
      | [] => .error start
      | b :: rest =>
        if 0xC2 ≤ a && a ≤ 0xDF && isContinuation b then
          decodeFrom (start + 2) (Char.ofNat (low 5 a * 0x40 + low 6 b) :: done) rest
        else
          match rest with
          | [] => .error start
          | c :: rest =>
            if followsThree a b && isContinuation c then
              let code := low 4 a * 0x1000 + low 6 b * 0x40 + low 6 c
              decodeFrom (start + 3) (Char.ofNat code :: done) rest
            else
              match rest with
              | [] => .error start
              | d :: rest =>
                if followsFour a b && isContinuation c && isContinuation d then
                  let code := low 3 a * 0x40000 + low 6 b * 0x1000 + low 6 c * 0x40 + low 6 d
                  decodeFrom (start + 4) (Char.ofNat code :: done) rest
                else .error start

/-- The characters of a byte text, or the index of the first byte that does not fit. -/
def decode (bytes : List UInt8) : Except Nat (List Char) :=
  decodeFrom 0 [] bytes

/-- How many bytes the characters take. -/
def size (cs : List Char) : Nat :=
  cs.foldl (fun n c => n + c.utf8Size) 0

end TracePlot.Text.Utf8
