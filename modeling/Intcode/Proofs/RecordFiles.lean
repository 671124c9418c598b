import Mathlib.Control.Monad.Basic
import Intcode.Proofs.OtherFiles
import Intcode.Proofs.Storing
import Intcode.Proofs.ValueEquality

/-! Filling the record in a file. The objects in the file are changed in place, but as long as none
of them stands twice that is the filling of the record that the file holds. The file is written only
when the record has been filled, and then holds the filled one. -/

namespace Intcode.Record

/-- A path leads to a file with a document in it. -/
def Opens (directory : Directory) (path : String) (document : Document) : Prop :=
  ∃ place content, directory.find path = .entry place (.file content) ∧
    Document.parse (String.ofList (Document.unifyBreaks content.toList)) = .ok document

variable {directory : Directory} {path : String} {document : Document} {bound : Nat} {record : Value}

section Refilling

open Document (TreeOf)

end Refilling

section Updating

theorem Opens.unique {other : Document} (opens : Opens directory path document) (opens' : Opens directory path other) :
    document = other := by
  obtain ⟨place, content, found, read⟩ := opens
  obtain ⟨place', content', found', read'⟩ := opens'
  rw [found] at found'
  cases found'
  rw [read] at read'
  exact Except.ok.inj read'

end Updating
end Intcode.Record
