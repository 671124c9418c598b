import Intcode.Proofs.Decimals
import Intcode.Proofs.Grammar
import Intcode.Proofs.WordRange

/-! Printing and reading program texts. Words that are written in decimal, with commas between them
and any blanks around them, are read back as they were. A comma joins two texts to one that is read
as the words of both, and all that a machine ever reports can be written and read back in this way. -/

namespace Intcode

/-- The same token, told as part of another text. -/
def InvalidWord.within (error : InvalidWord) (text : String) : InvalidWord := ⟨error.token, text⟩

namespace Program

open Text (pieces trim)

def listed (words : List Int) : String := ",".intercalate (words.map toString)

/-- The piece is a word in decimal with blanks around it. -/
structure Pads (piece : String) (word : Int) : Prop where
  around : ∃ left right : String, piece = left ++ toString word ++ right ∧
    (∀ c ∈ left.toList, Text.isBlank c = true) ∧ ∀ c ∈ right.toList, Text.isBlank c = true
  least : -2 ^ 63 ≤ word
  greatest : word ≤ 2 ^ 63 - 1

section Decimals

variable {word : Int} {words : List Int} {piece : String}

private theorem digitsValue_eq_ofDigitChars (value : Nat) (digits : List Char) :
    digitsValue value digits = Nat.ofDigitChars 10 digits value := by
  induction digits generalizing value with
  | nil => rfl
  | cons digit digits ih => rw [digitsValue_cons, ih, Nat.ofDigitChars_cons]

private theorem natural_toDigits {number : Nat} (below : number ≤ 2 ^ 63) :
    natural? (Nat.toDigits 10 number) = some number := by
  -- A word in range has far fewer digits than are read.
  have few : (Nat.toDigits 10 number).length ≤ 20 := by
    rw [Nat.length_toDigits_le_iff (by decide) (by decide)]
    omega
  have accepted : (!(Nat.toDigits 10 number).isEmpty && (Nat.toDigits 10 number).all Char.isDigit &&
      decide ((Nat.toDigits 10 number).length ≤ maxDigits)) = true := by
    rw [Bool.and_eq_true, Bool.and_eq_true, Bool.not_eq_true', List.isEmpty_eq_false_iff, List.all_eq_true,
      decide_eq_true_eq]
    exact ⟨⟨Nat.toDigits_ne_nil, fun c => Text.Numeral.digit_of_mem⟩, Nat.le_trans few (by decide)⟩
  rw [natural?, if_pos accepted, digitsValue_eq_ofDigitChars, Nat.ofDigitChars_toDigits (by decide) (by decide)]

private theorem spells_toString (least : -2 ^ 63 ≤ word) (greatest : word ≤ 2 ^ 63 - 1) :
    Spells (toString word).toList word := by
  have below : word.natAbs ≤ 2 ^ 63 := by omega
  obtain ⟨numeral, value⟩ := natural_eq_some_iff.mp (natural_toDigits below)
  refine ⟨⟨Nat.toDigits 10 word.natAbs, numeral, ?_⟩, least, greatest⟩
  rw [Text.Numeral.toString_eq, value]
  split
  · exact .inr ⟨rfl, by omega⟩
  · exact .inl ⟨rfl, by omega⟩

theorem Pads.spells (pads : Pads piece word) : Spells (trim piece.toList) word := by
  obtain ⟨left, right, rfl, before, after⟩ := pads.around
  rw [String.toList_append, String.toList_append, Text.trim_append_right after, Text.trim_append_left before,
    Text.Numeral.trim_toString]
  exact spells_toString pads.least pads.greatest

theorem Pads.free (pads : Pads piece word) : ',' ∉ piece.toList := by
  obtain ⟨left, right, rfl, before, after⟩ := pads.around
  have solid : Text.isBlank ',' ≠ true := by decide
  rw [String.toList_append, String.toList_append, List.mem_append, List.mem_append]
  rintro ((member | member) | member)
  · exact solid (before _ member)
  · exact (Text.Numeral.toString_solid member).2.2.2 rfl
  · exact solid (after _ member)

private theorem free_of_pads {parts : List String} (pads : List.Forall₂ Pads parts words) :
    ∀ part ∈ parts, ',' ∉ part.toList := by
  induction pads with
  | nil => exact List.forall_mem_nil _
  | cons first _ ih => exact List.forall_mem_cons.mpr ⟨first.free, ih⟩

theorem parse_eq_ok_iff_pieces {text : String} {program : Program} : parse text = .ok program ↔
    List.Forall₂ (fun piece word => Spells (trim piece) word) (pieces ',' text.toList) program.words := by
  rw [parse_eq_ok_iff, ← List.forall₂_map_left_iff, tokens_eq, List.forall₂_map_left_iff]

private theorem parse_padded {parts : List String} (some : words ≠ []) (pads : List.Forall₂ Pads parts words) :
    parse (",".intercalate parts) = .ok ⟨words⟩ := by
  have nonempty : parts ≠ [] := by
    rintro rfl
    cases pads
    exact some rfl
  rw [parse_eq_ok_iff_pieces, Text.pieces_intercalate nonempty (free_of_pads pads), List.forall₂_map_left_iff]
  exact pads.imp fun _ _ pad => pad.spells

theorem parse_listed (some : words ≠ []) (fit : ∀ word ∈ words, Word.InRange word) :
    parse (listed words) = .ok ⟨words⟩ := by
  apply parse_padded some
  rw [List.forall₂_map_left_iff, List.forall₂_same]
  intro word member
  obtain ⟨least, greatest⟩ := inRange_iff.mp (fit word member)
  exact ⟨⟨"", "", by simp, nofun, nofun⟩, least, greatest⟩

/-- What is read from a text is one word at least, and all words are in range. -/
theorem words_of_parse {text : String} {program : Program} (read : parse text = .ok program) :
    program.words ≠ [] ∧ ∀ word ∈ program.words, Word.InRange word := by
  have spelled := parse_eq_ok_iff_pieces.mp read
  constructor
  · intro none
    rw [none, List.forall₂_nil_right_iff] at spelled
    exact Text.pieces_ne_nil _ spelled
  · generalize pieces ',' text.toList = parts, program.words = words at spelled ⊢
    induction spelled with
    | nil => exact List.forall_mem_nil _
    | cons first _ ih => exact List.forall_mem_cons.mpr ⟨inRange_iff.mpr ⟨first.least, first.greatest⟩, ih⟩

end Decimals

section Joining

variable {text : String}

private theorem tokens_append (left right : String) : tokens (left ++ "," ++ right) = tokens left ++ tokens right := by
  have whole : (left ++ "," ++ right).toList = left.toList ++ ',' :: right.toList := by simp
  apply List.map_injective_iff.mpr fun _ _ => String.toList_injective
  rw [List.map_append, tokens_eq, tokens_eq, tokens_eq, whole, Text.pieces_append_cons, List.map_append]

theorem wordsOf_within (text other : String) (tokens : List String) :
    wordsOf text tokens = (wordsOf other tokens).mapError (·.within text) := by
  induction tokens with
  | nil => rfl
  | cons token tokens ih =>
    rw [wordsOf, wordsOf, ih]
    cases word? token.toList with
    | none => rfl
    | some word => cases wordsOf other tokens <;> rfl

private theorem wordsOf_append (text : String) (first second : List String) :
    wordsOf text (first ++ second) = (do return (← wordsOf text first) ++ (← wordsOf text second)) := by
  induction first with
  | nil => cases read : wordsOf text second <;> simp [wordsOf, read]
  | cons token first ih =>
    rw [List.cons_append, wordsOf, wordsOf, ih]
    cases word? token.toList with
    | none => rfl
    | some word => cases wordsOf text first <;> cases wordsOf text second <;> rfl

/-- A text behind a comma is read after the text before it. -/
theorem parse_append (left right : String) : parse (left ++ "," ++ right) = (do
    let first ← (parse left).mapError (·.within (left ++ "," ++ right))
    let second ← (parse right).mapError (·.within (left ++ "," ++ right))
    return ⟨first.words ++ second.words⟩) := by
  rw [parse, tokens_append, wordsOf_append, wordsOf_within (left ++ "," ++ right) left (tokens left),
    wordsOf_within (left ++ "," ++ right) right (tokens right), parse, parse]
  cases wordsOf left (tokens left) <;> cases wordsOf right (tokens right) <;> rfl

theorem parse_append_ok_iff {left right : String} {program : Program} : parse (left ++ "," ++ right) = .ok program ↔
    ∃ first second, parse left = .ok first ∧ parse right = .ok second ∧
      program.words = first.words ++ second.words := by
  rw [parse_append]
  cases parse left with
  | error bad => exact ⟨nofun, nofun⟩
  | ok first =>
    cases parse right with
    | error bad => exact ⟨nofun, nofun⟩
    | ok second =>
      constructor
      · rintro ⟨⟩
        exact ⟨first, second, rfl, rfl, rfl⟩
      · rintro ⟨_, _, ⟨⟩, ⟨⟩, same⟩
        exact congrArg (Except.ok ∘ Program.mk) same.symm

private theorem error_of_parse {error : InvalidWord} (bad : parse text = .error error) : error.text = text := by
  rw [parse, Outcome.map_eq_error_iff, wordsOf_eq_error_iff] at bad
  exact bad.1

private theorem within_eq_iff {bad : InvalidWord} (told : bad.text = text) (whole : String) (error : InvalidWord) :
    bad.within whole = error ↔ error.text = whole ∧ bad = ⟨error.token, text⟩ := by
  obtain ⟨token, _⟩ := bad
  cases told
  constructor
  · rintro rfl
    exact ⟨rfl, rfl⟩
  · obtain ⟨token', text'⟩ := error
    rintro ⟨rfl, same⟩
    cases same
    rfl

private theorem parse_append_error_iff {left right : String} {error : InvalidWord} :
    parse (left ++ "," ++ right) = .error error ↔ error.text = left ++ "," ++ right ∧
      (parse left = .error ⟨error.token, left⟩ ∨
        (∃ first, parse left = .ok first) ∧ parse right = .error ⟨error.token, right⟩) := by
  rw [parse_append]
  cases one : parse left with
  | error bad =>
    have told := within_eq_iff (error_of_parse one) (left ++ "," ++ right) error
    simpa [Except.mapError] using told
  | ok first =>
    cases two : parse right with
    | error bad =>
      have told := within_eq_iff (error_of_parse two) (left ++ "," ++ right) error
      simpa [Except.mapError] using told
    | ok second => simp [Except.mapError]

end Joining

end Program

namespace Session

def reportedWords (observations : List Observation) : List Int := observations.flatMap (·.words)

/-- Whatever a host does, it is told no numbers but words. -/
theorem reportedWords_inRange {words : List Int} {trace : Bool} {limit : Option Int} {actions : List Action}
    {observations : List Observation} {session : Session}
    (history : History (load words trace limit) actions observations session) :
    ∀ word ∈ reportedWords observations, Word.InRange word := by
  intro word member
  obtain ⟨observation, stands, reported⟩ := List.mem_flatMap.mp member
  exact history.inRange.2 observation stands word reported

theorem history_of_drive {program : Program} {inputs : List Int} {trace : Bool} {limit : Option Int}
    {outcome : Except Fault Unit} {after : Exchange}
    (ends : Exchange.drive.Ends (program.exchange inputs trace limit) outcome after) :
    ∃ observations, History (load program.words trace limit) [.drive inputs] observations after.session ∧
      reportedWords observations = after.outputs.toList := by
  obtain ⟨bound, answered⟩ := ends
  have driven : (Action.drive inputs).perform.Ends (load program.words trace limit)
      (.ok (.drove outcome after.outputs.toList)) after.session :=
    ⟨bound, Option.map_eq_some_iff.mpr ⟨_, answered, rfl⟩⟩
  exact ⟨_, .next driven .start, List.append_nil _⟩

end Session

namespace Program

open Session (History reportedWords)

/-- Words in range are read back from their decimal text, whatever blanks are around them, and every
text is read as one that is written like that. A comma makes of two texts one with the tokens of
both, which is read as the words of both; otherwise the first token that is no word in the one or
else in the other is reported. So whatever a machine reports to its host, in any history and however
it ends, is read back from its text. -/
theorem parse_round_trips :
    (∀ parts words, words ≠ [] → List.Forall₂ Pads parts words → parse (",".intercalate parts) = .ok ⟨words⟩) ∧
    (∀ text (program : Program), parse text = .ok program → parse (listed program.words) = .ok program) ∧
    (∀ left right, tokens (left ++ "," ++ right) = tokens left ++ tokens right) ∧
    (∀ left right program, parse (left ++ "," ++ right) = .ok program ↔
      ∃ first second, parse left = .ok first ∧ parse right = .ok second ∧
        program.words = first.words ++ second.words) ∧
    (∀ left right error, parse (left ++ "," ++ right) = .error error ↔ error.text = left ++ "," ++ right ∧
      (parse left = .error ⟨error.token, left⟩ ∨
        (∃ first, parse left = .ok first) ∧ parse right = .error ⟨error.token, right⟩)) ∧
    (∀ words trace limit actions observations session, History (.load words trace limit) actions observations session →
      reportedWords observations ≠ [] →
        parse (listed (reportedWords observations)) = .ok ⟨reportedWords observations⟩) ∧
    ∀ (program : Program) inputs trace limit outcome after,
      Exchange.drive.Ends (program.exchange inputs trace limit) outcome after → after.outputs.toList ≠ [] →
        parse (listed after.outputs.toList) = .ok ⟨after.outputs.toList⟩ := by
  refine ⟨fun _ _ some pads => parse_padded some pads, ?_, tokens_append, fun _ _ _ => parse_append_ok_iff,
    fun _ _ _ => parse_append_error_iff, ?_, ?_⟩
  · intro text program read
    obtain ⟨some, fit⟩ := words_of_parse read
    exact parse_listed some fit
  · intro words trace limit actions observations session history some
    exact parse_listed some (Session.reportedWords_inRange history)
  · intro program inputs trace limit outcome after ends some
    obtain ⟨observations, history, same⟩ := Session.history_of_drive ends
    rw [← same] at some ⊢
    exact parse_listed some (Session.reportedWords_inRange history)

/-- A program that emits its own words emits its own text. -/
theorem parse_round_trips_quine : ∃ (program : Program) (after : Exchange),
    parse "109,1,204,-1,1001,100,1,100,1008,100,16,101,1006,101,0,99" = .ok program ∧
    Exchange.drive.Ends (program.exchange [] false none) (.ok ()) after ∧
    after.outputs.toList = program.words ∧ parse (listed after.outputs.toList) = .ok program := by
  obtain ⟨after, ends, outputs⟩ : ∃ after, Exchange.drive.Ends
      ((Program.mk [109, 1, 204, -1, 1001, 100, 1, 100, 1008, 100, 16, 101, 1006, 101, 0, 99]).exchange [] false none)
      (.ok ()) after ∧
      after.outputs.toList = [109, 1, 204, -1, 1001, 100, 1, 100, 1008, 100, 16, 101, 1006, 101, 0, 99] :=
    Call.ends_of_view (fun after : Exchange => after.outputs.toList) 40 (by decide +kernel)
  have some : after.outputs.toList ≠ [] := by
    rw [outputs]
    exact List.cons_ne_nil _ _
  have again := parse_round_trips.2.2.2.2.2.2 _ [] false none (.ok ()) after ends some
  refine ⟨_, after, ?_, ends, outputs, ?_⟩
  · decide +kernel
  · rw [again, outputs]

end Program
end Intcode
