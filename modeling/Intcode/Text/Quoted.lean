import Intcode.Text.Codes
import Intcode.Text.Printable

/-! Quoted text. Single quotes are used unless the text holds one and no double
quote; what would break the line or not show is written as an escape. -/

namespace Intcode.Text

def hex : (width number : Nat) → List Char
  | 0, _ => []
  | width + 1, number => hex width (number / 16) ++ [Nat.digitChar (number % 16)]

def escapedCode (code : Nat) : List Char :=
  if code < 0x100 then '\\' :: 'x' :: hex 2 code
  else if code < 0x10000 then '\\' :: 'u' :: hex 4 code
  else '\\' :: 'U' :: hex 8 code

def escaped (quote : Char) (code : Nat) : List Char :=
  if code = quote.toNat || code = '\\'.toNat then ['\\', Char.ofNat code]
  else if code = '\n'.toNat then ['\\', 'n']
  else if code = '\r'.toNat then ['\\', 'r']
  else if code = '\t'.toNat then ['\\', 't']
  else if isPrintable code then [Char.ofNat code]
  else escapedCode code

def quoteFor (codes : Codes) : Char :=
  if codes.contains '\''.toNat && !codes.contains '"'.toNat then '"' else '\''

def quotedCodes (codes : Codes) : String :=
  let quote := quoteFor codes
  .ofList (quote :: codes.flatMap (escaped quote) ++ [quote])

def quoted (text : String) : String := quotedCodes (codesOf text)

def escapedByte (quote : Char) (byte : UInt8) : List Char :=
  if byte.toNat < 0x7F then escaped quote byte.toNat else escapedCode byte.toNat

def quotedBytes (bytes : List UInt8) : String :=
  let quote := quoteFor (bytes.map UInt8.toNat)
  .ofList ('b' :: quote :: bytes.flatMap (escapedByte quote) ++ [quote])

end Intcode.Text
