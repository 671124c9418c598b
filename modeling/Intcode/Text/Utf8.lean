import Intcode.Text.Quoted

/-! Texts as bytes: a character takes one to four of them, and the first of them tells
how many. What bytes could be is settled one by one, so the first of them that cannot go
on is known. -/

namespace Intcode.Text.Utf8

inductive Reason where
  | badStart
  /-- The byte after some bytes of a character is none of its further bytes. -/
  | badContinuation
  | cutShort
deriving DecidableEq, Repr

structure Error where
  reason : Reason
  position : Nat
  count : Nat
  byte : UInt8
deriving DecidableEq, Repr

def Reason.text : Reason → String
  | badStart => "invalid start byte"
  | badContinuation => "invalid continuation byte"
  | cutShort => "unexpected end of data"

def Error.message (error : Error) : String :=
  let what :=
    if error.count = 1 then
      "byte 0x" ++ String.ofList (hex 2 error.byte.toNat) ++ " in position " ++
        toString error.position
    else
      "bytes in position " ++ toString error.position ++ "-" ++
        toString (error.position + error.count - 1)
  "\x27utf-8\x27 codec can\x27t decode " ++ what ++ ": " ++ error.reason.text

/-- A character of which some bytes have been read. -/
structure Pending where
  first : UInt8
  count : Nat
  /-- The number of bytes still to come. -/
  owed : Nat
  /-- The least that the next byte may be. -/
  least : Nat
  /-- The greatest that the next byte may be. -/
  greatest : Nat
  code : Nat

def leastTail : Nat := 0x80

def greatestTail : Nat := 0xBF

/-- What is known of a character of several bytes from its first byte. No character is
written with more bytes than it needs, none is one half of a surrogate pair, and none
lies beyond the last one. -/
def pending? (byte : UInt8) : Option Pending :=
  let begun (owed least greatest code : Nat) : Option Pending :=
    some { first := byte, count := 1, owed, least, greatest, code }
  let number := byte.toNat
  if 0xC2 ≤ number && number ≤ 0xDF then begun 1 leastTail greatestTail (number - 0xC0)
  else if 0xE0 ≤ number && number ≤ 0xEF then
    begun 2 (if number = 0xE0 then 0xA0 else leastTail)
      (if number = 0xED then 0x9F else greatestTail) (number - 0xE0)
  else if 0xF0 ≤ number && number ≤ 0xF4 then
    begun 3 (if number = 0xF0 then 0x90 else leastTail)
      (if number = 0xF4 then 0x8F else greatestTail) (number - 0xF0)
  else none

def Pending.take (pending : Pending) (byte : UInt8) : Pending :=
  { pending with
    count := pending.count + 1, owed := pending.owed - 1
    least := leastTail, greatest := greatestTail
    code := 64 * pending.code + (byte.toNat - leastTail) }

/-- The code points that bytes stand for, from a position on. -/
def decodeFrom (position : Nat) : Option Pending → List UInt8 → Except Error Codes
  | none, [] => .ok []
  | some pending, [] =>
    .error ⟨.cutShort, position - pending.count, pending.count, pending.first⟩
  | none, byte :: rest =>
    if byte.toNat < leastTail then do
      return byte.toNat :: (← decodeFrom (position + 1) none rest)
    else
      match pending? byte with
      | none => .error ⟨.badStart, position, 1, byte⟩
      | some pending => decodeFrom (position + 1) (some pending) rest
  | some pending, byte :: rest =>
    if byte.toNat < pending.least || pending.greatest < byte.toNat then
      .error ⟨.badContinuation, position - pending.count, pending.count, pending.first⟩
    else
      let taken := pending.take byte
      if taken.owed = 0 then do
        return taken.code :: (← decodeFrom (position + 1) none rest)
      else decodeFrom (position + 1) (some taken) rest

def decode (bytes : List UInt8) : Except Error Codes := decodeFrom 0 none bytes

end Intcode.Text.Utf8
