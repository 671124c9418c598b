import Intcode.Proofs.Decimals

/-! Reading a text back from its front. A scanner takes as much as it needs and hands on the rest; a
number ends where no further digit follows. Numbers of any length are read. -/

namespace Intcode.Text

/-- What stands at the front of a text, and the text behind it. -/
abbrev Scanner (α : Type) := StateT (List Char) Option α

namespace Scanner

variable {α β : Type}

def passing (word : String) : Scanner Unit := fun text =>
  if word.toList <+: text then some ((), text.drop word.toList.length) else none

def natural : Scanner Nat := fun text =>
  if text.takeWhile Char.isDigit = [] then none
  else some (Nat.ofDigitChars 10 (text.takeWhile Char.isDigit) 0, text.dropWhile Char.isDigit)

def negative : Scanner Int := do
  passing "-"
  let magnitude ← natural
  return -(magnitude : Int)

def integer : Scanner Int := negative <|> Int.ofNat <$> natural

def labelled (label : String) : Scanner Int := do
  passing label
  integer

def enclosed (before after : String) : Scanner Int := do
  let number ← labelled before
  passing after
  return number

def whole (scanner : Scanner α) (text : List Char) : Option α :=
  match scanner text with
  | some (value, []) => some value
  | _ => none

/-- No number goes on here. -/
def Stops (text : List Char) : Prop := ∀ c ∈ text.head?, c.isDigit = false

section Sequences

variable {scanner other : Scanner α} {next : α → Scanner β} {text rest : List Char} {value : α}

theorem bind_of_some (found : scanner text = some (value, rest)) : (scanner >>= next) text = next value rest := by
  change (scanner text).bind _ = _
  rw [found]
  rfl

theorem bind_of_none (missing : scanner text = none) : (scanner >>= next) text = none := by
  change (scanner text).bind _ = _
  rw [missing]
  rfl

theorem map_of_some (f : α → β) (found : scanner text = some (value, rest)) :
    (f <$> scanner) text = some (f value, rest) := by
  change (scanner text).bind _ = _
  rw [found]
  rfl

theorem map_of_none (f : α → β) (missing : scanner text = none) : (f <$> scanner) text = none := by
  change (scanner text).bind _ = _
  rw [missing]
  rfl

theorem orElse_of_some (found : scanner text = some (value, rest)) :
    (scanner <|> other) text = some (value, rest) := by
  change (scanner text <|> other text) = _
  rw [found]
  rfl

theorem orElse_of_none (missing : scanner text = none) : (scanner <|> other) text = other text := by
  change (scanner text <|> other text) = _
  rw [missing]
  rfl

theorem whole_of_some (found : scanner text = some (value, [])) : scanner.whole text = some value := by
  rw [whole, found]

end Sequences

section Numbers

variable {c : Char} {digits text rest : List Char} {before after : String}

theorem stops_nil : Stops [] := nofun

theorem stops_cons (other : c.isDigit = false) : Stops (c :: rest) := by
  intro first found
  cases found
  exact other

theorem passing_append (word : String) (rest : List Char) : passing word (word.toList ++ rest) = some ((), rest) := by
  rw [passing, if_pos (List.prefix_append _ _), List.drop_left]

/-- Another character stands where the text was to go on. -/
theorem passing_of_other {word : String} (shared : List Char) {more : List Char} {d : Char}
    (whole : word.toList = shared ++ c :: more) (other : c ≠ d) : passing word (shared ++ d :: text) = none := by
  refine if_neg ?_
  rw [whole, List.prefix_append_right_inj, List.cons_prefix_cons]
  exact fun both => other both.1

theorem enclosed_of_other (shared : List Char) {more : List Char} {d : Char}
    (whole : before.toList = shared ++ c :: more) (other : c ≠ d) : enclosed before after (shared ++ d :: text) = none :=
  bind_of_none (bind_of_none (passing_of_other shared whole other))

theorem natural_append (decimal : ∀ c ∈ digits, c.isDigit = true) (nonempty : digits ≠ []) (stops : Stops rest) :
    natural (digits ++ rest) = some (Nat.ofDigitChars 10 digits 0, rest) := by
  have nothing : rest.takeWhile Char.isDigit = [] := by
    cases rest with
    | nil => rfl
    | cons c rest => exact List.takeWhile_cons_of_neg (Bool.not_eq_true _ ▸ stops c rfl)
  have remains : rest.dropWhile Char.isDigit = rest := dropWhile_of_head stops
  have taken : (digits ++ rest).takeWhile Char.isDigit = digits := by
    rw [List.takeWhile_append_of_pos decimal, nothing, List.append_nil]
  rw [natural, taken, if_neg nonempty, List.dropWhile_append_of_pos decimal, remains]

theorem natural_toDigits_append (number : Nat) (stops : Stops rest) :
    natural (Nat.toDigits 10 number ++ rest) = some (number, rest) := by
  rw [natural_append (fun c => Numeral.digit_of_mem) Nat.toDigits_ne_nil stops,
    Nat.ofDigitChars_toDigits (by decide) (by decide)]

theorem integer_append (number : Int) (stops : Stops rest) :
    integer ((toString number).toList ++ rest) = some (number, rest) := by
  have magnitude := natural_toDigits_append number.natAbs stops
  rw [Numeral.toString_eq]
  by_cases below : number < 0
  · have value : -(number.natAbs : Int) = number := by omega
    have signed : negative ("-".toList ++ (Nat.toDigits 10 number.natAbs ++ rest)) = some (number, rest) := by
      rw [negative, bind_of_some (passing_append "-" _), bind_of_some magnitude, value]
      rfl
    rw [if_pos below]
    exact orElse_of_some signed
  · have value : Int.ofNat number.natAbs = number := Int.natAbs_of_nonneg (Int.not_lt.mp below)
    have missing : negative (Nat.toDigits 10 number.natAbs ++ rest) = none := by
      obtain ⟨c, digits, shape⟩ := List.exists_cons_of_ne_nil (Nat.toDigits_ne_nil (b := 10) (n := number.natAbs))
      have decimal : c.isDigit = true := Numeral.digit_of_mem (shape ▸ List.mem_cons_self)
      have other : '-' ≠ c := by
        rintro rfl
        cases decimal
      rw [shape]
      exact bind_of_none (passing_of_other [] rfl other)
    rw [if_neg below, integer, orElse_of_none missing, map_of_some Int.ofNat magnitude, value]

theorem labelled_append (label : String) (number : Int) (stops : Stops rest) :
    labelled label (label.toList ++ ((toString number).toList ++ rest)) = some (number, rest) := by
  rw [labelled, bind_of_some (passing_append label _)]
  exact integer_append number stops

theorem toList_between_append (before after : String) (number : Int) (rest : List Char) :
    (before ++ toString number ++ after).toList ++ rest =
      before.toList ++ ((toString number).toList ++ (after.toList ++ rest)) := by
  rw [String.toList_append, String.toList_append, List.append_assoc, List.append_assoc]

theorem enclosed_append (number : Int) (stops : Stops (after.toList ++ rest)) :
    enclosed before after ((before ++ toString number ++ after).toList ++ rest) = some (number, rest) := by
  rw [toList_between_append, enclosed, bind_of_some (labelled_append before number stops),
    bind_of_some (passing_append after rest)]
  rfl

theorem whole_labelled (label : String) (number : Int) :
    (labelled label).whole (label ++ toString number).toList = some number := by
  have read := labelled_append label number stops_nil
  rw [List.append_nil] at read
  rw [String.toList_append]
  exact whole_of_some read

theorem whole_enclosed (number : Int) (stops : Stops after.toList) :
    enclosed before after (before ++ toString number ++ after).toList = some (number, []) := by
  have found : enclosed before after ((before ++ toString number ++ after).toList ++ []) = some (number, []) := by
    apply enclosed_append
    rwa [List.append_nil]
  rwa [List.append_nil] at found

end Numbers

end Scanner
end Intcode.Text
