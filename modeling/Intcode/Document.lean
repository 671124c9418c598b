import Intcode.Document.Composing
import Intcode.Document.Construction

/-! Documents: text that holds a single value. -/

namespace Intcode

/-- What a text holds: objects, one of which contains the others, or nothing at all. -/
structure Document where
  objects : Document.Objects := #[]
  root : Option Document.NodeId := none

namespace Document

/-- The text with every line break of two characters or of a carriage return
alone turned into a line feed. -/
def unifyBreaks : List Char → List Char
  | [] => []
  | '\r' :: '\n' :: rest => '\n' :: unifyBreaks rest
  | '\r' :: rest => '\n' :: unifyBreaks rest
  | c :: rest => c :: unifyBreaks rest

def parse (text : String) : Except Error Document := do
  match ← compose text.toList with
  | (none, _) => return {}
  | (some root, nodes) => return { objects := ← construct nodes root, root := some root }

def value (document : Document) : Value :=
  match document.root with
  | none => .null
  | some root => document.objects.value root

def read (text : String) : Except Error Value := value <$> parse text

end Document
end Intcode
