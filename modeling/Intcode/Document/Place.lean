/-! A place in the text of a document. -/

namespace Intcode.Document

/-- A place in a text: the lines before it and the columns before it. -/
structure Place where
  line : Nat
  column : Nat
deriving DecidableEq, Repr

end Intcode.Document
