/-! # Decoding UTF-8

A byte sequence is text if every sequence in it is the shortest form of a code point that is not
a surrogate. Otherwise the first fault is reported with the bytes at fault.
-/
namespace Starlark.Text

inductive DecodeReason
  | invalidStart | invalidContinuation | unexpectedEnd
deriving DecidableEq

def DecodeReason.text : DecodeReason → String
  | .invalidStart => "invalid start byte"
  | .invalidContinuation => "invalid continuation byte"
  | .unexpectedEnd => "unexpected end of data"

/-- The bytes at fault begin at `position`; the first of them is `byte`. -/
structure DecodeFault where
  reason : DecodeReason
  position : Nat
  length : Nat
  byte : Nat
deriving DecidableEq

def hexDigit (n : Nat) : Char :=
  if n < 10 then Char.ofNat (n + '0'.toNat) else Char.ofNat (n - 10 + 'a'.toNat)

def DecodeFault.message (f : DecodeFault) : String :=
  let place :=
    if f.length = 1 then
      "byte 0x" ++ String.ofList [hexDigit (f.byte / 16), hexDigit (f.byte % 16)]
        ++ s!" in position {f.position}"
    else s!"bytes in position {f.position}-{f.position + f.length - 1}"
  "'utf-8' codec can't decode " ++ place ++ ": " ++ f.reason.text

/-- The number of continuation bytes after a start byte, the range of the first of them, and the
bits that the start byte gives. -/
def lead? (b : Nat) : Option (Nat × Nat × Nat × Nat) :=
  if 0xC2 ≤ b && b ≤ 0xDF then some (1, 0x80, 0xBF, b - 0xC0)
  else if b = 0xE0 then some (2, 0xA0, 0xBF, 0)
  else if b = 0xED then some (2, 0x80, 0x9F, 0xD)
  else if 0xE1 ≤ b && b ≤ 0xEF then some (2, 0x80, 0xBF, b - 0xE0)
  else if b = 0xF0 then some (3, 0x90, 0xBF, 0)
  else if 0xF1 ≤ b && b ≤ 0xF3 then some (3, 0x80, 0xBF, b - 0xF0)
  else if b = 0xF4 then some (3, 0x80, 0x8F, 4)
  else none

/-- Reads `count` continuation bytes, the first within a range, and gives the code point and the
rest. A fault comes with the number of bytes read before it. -/
def continue? (low high : Nat) : (count seen value : Nat) → List Nat →
    Except (DecodeReason × Nat) (Nat × List Nat)
  | 0, _, value, bytes => .ok (value, bytes)
  | _ + 1, seen, _, [] => .error (.unexpectedEnd, seen)
  | count + 1, seen, value, b :: bytes =>
    if low ≤ b && b ≤ high then
      continue? 0x80 0xBF count (seen + 1) (64 * value + (b - 0x80)) bytes
    else .error (.invalidContinuation, seen)

/-- Decodes the bytes from a position on; each step takes at least one byte. -/
def decodeFrom : Nat → Nat → List Nat → Except DecodeFault (List Char)
  | 0, _, _ => .ok []
  | _, _, [] => .ok []
  | fuel + 1, position, b :: bytes =>
    if b < 0x80 then (decodeFrom fuel (position + 1) bytes).map (Char.ofNat b :: ·)
    else match lead? b with
      | none => .error ⟨.invalidStart, position, 1, b⟩
      | some (count, low, high, bits) =>
        match continue? low high count 1 bits bytes with
        | .error (reason, seen) => .error ⟨reason, position, seen, b⟩
        | .ok (value, rest) =>
          (decodeFrom fuel (position + count + 1) rest).map (Char.ofNat value :: ·)

def decodeUtf8 (bytes : List Nat) : Except DecodeFault (List Char) :=
  decodeFrom (bytes.length + 1) 0 bytes

/-- Turns every line ending, with or without a carriage return, into a line feed. -/
def unifyNewlines : List Char → List Char
  | [] => []
  | '\r' :: '\n' :: cs => '\n' :: unifyNewlines cs
  | c :: cs => (if c = '\r' then '\n' else c) :: unifyNewlines cs

end Starlark.Text
