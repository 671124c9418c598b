import Intcode.Document.Complaint

/-! The tokens of a document. Indentation has become explicit in them: blocks
have a start and an end like bracketed collections. -/

namespace Intcode.Document

inductive Token where
  /-- The version of the language that the document is written in. -/
  | version (major minor : Nat)
  /-- A handle that tags may begin with, and what it stands for. -/
  | tagHandle (handle meaning : String)
  | directive
  | documentStart
  | documentEnd
  | blockSequenceStart
  | blockMappingStart
  | blockEnd
  | flowSequenceStart
  | flowSequenceEnd
  | flowMappingStart
  | flowMappingEnd
  | blockEntry
  | flowEntry
  | key
  | value
  | reference (name : String)
  | anchor (name : String)
  /-- A tag, in two parts if it begins with a handle. -/
  | tag (handle : Option String) (rest : String)
  | scalar (text : Text.Codes) (plain : Bool)
  | finish
deriving DecidableEq, Repr

namespace Token

def name : Token → String
  | version .. | tagHandle .. | directive => "<directive>"
  | documentStart => "<document start>"
  | documentEnd => "<document end>"
  | blockSequenceStart => "<block sequence start>"
  | blockMappingStart => "<block mapping start>"
  | blockEnd => "<block end>"
  | flowSequenceStart => "["
  | flowSequenceEnd => "]"
  | flowMappingStart => "\x7b"
  | flowMappingEnd => "\x7d"
  | blockEntry => "-"
  | flowEntry => ","
  | key => "?"
  | value => ":"
  | reference _ => "<alias>"
  | anchor _ => "<anchor>"
  | tag .. => "<tag>"
  | scalar .. => "<scalar>"
  | finish => "<stream end>"

def isDirective : Token → Bool
  | version .. | tagHandle .. | directive => true
  | _ => false

end Token

structure Lexeme where
  token : Token
  start : Place
  stop : Place
deriving DecidableEq, Repr

end Intcode.Document
