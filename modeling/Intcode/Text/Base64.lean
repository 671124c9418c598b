import Intcode.Text.Codes

/-! Bytes written as text, six bits to a character. Characters that stand for no
bits are passed over. -/

namespace Intcode.Text.Base64

inductive Error where
  | lone (count : Nat)
  | padding
deriving DecidableEq, Repr

def Error.message : Error → String
  | lone count =>
    "Invalid base64-encoded string: number of data characters (" ++ toString (count + 1) ++
      ") cannot be 1 more than a multiple of 4"
  | padding => "Incorrect padding"

def bits? (code : Nat) : Option Nat :=
  if 0x41 ≤ code && code ≤ 0x5A then some (code - 0x41)
  else if 0x61 ≤ code && code ≤ 0x7A then some (code - 0x61 + 26)
  else if 0x30 ≤ code && code ≤ 0x39 then some (code - 0x30 + 52)
  else if code = 0x2B then some 62
  else if code = 0x2F then some 63
  else none

/-- The bytes of a text. `place` is the number of characters since the last whole
group of four, `rest` the bits that wait for more, and `pads` the number of padding
marks in a row. Enough padding ends the text. -/
def decodeFrom (place rest pads : Nat) (bytes : Array UInt8) : Codes → Except Error (Array UInt8)
  | [] =>
    if place = 0 then .ok bytes
    else if place = 1 then .error (.lone (bytes.size / 3 * 4))
    else .error .padding
  | code :: codes =>
    if code = '='.toNat then
      if 2 ≤ place && 4 ≤ place + pads + 1 then .ok bytes
      else decodeFrom place rest (if 2 ≤ place then pads + 1 else pads) bytes codes
    else
      match bits? code with
      | none => decodeFrom place rest pads bytes codes
      | some bits =>
        match place with
        | 0 => decodeFrom 1 bits 0 bytes codes
        | 1 => decodeFrom 2 (bits % 16) 0 (bytes.push (rest * 4 + bits / 16).toUInt8) codes
        | 2 => decodeFrom 3 (bits % 4) 0 (bytes.push (rest * 16 + bits / 4).toUInt8) codes
        | _ => decodeFrom 0 0 0 (bytes.push (rest * 64 + bits).toUInt8) codes

def decode (codes : Codes) : Except Error (List UInt8) :=
  (decodeFrom 0 0 0 #[] codes).map Array.toList

def symbol (bits : Nat) : Char :=
  if bits < 26 then Char.ofNat (0x41 + bits)
  else if bits < 52 then Char.ofNat (0x61 + (bits - 26))
  else if bits < 62 then Char.ofNat (0x30 + (bits - 52))
  else if bits = 62 then '+'
  else '/'

def encode : List UInt8 → List Char
  | [] => []
  | [a] =>
    let word := a.toNat * 16
    [symbol (word / 64), symbol (word % 64), '=', '=']
  | [a, b] =>
    let word := (a.toNat * 256 + b.toNat) * 4
    [symbol (word / 4096), symbol (word / 64 % 64), symbol (word % 64), '=']
  | a :: b :: c :: rest =>
    let word := (a.toNat * 256 + b.toNat) * 256 + c.toNat
    symbol (word / 262144) :: symbol (word / 4096 % 64) :: symbol (word / 64 % 64) ::
      symbol (word % 64) :: encode rest

end Intcode.Text.Base64
