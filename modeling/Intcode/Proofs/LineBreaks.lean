import Intcode.Document
import Intcode.Proofs.Grammar

/-! A program keeps its words when its text is read from a file, where every line break becomes a
line feed. Line breaks are blank, and no word holds one. -/

namespace Intcode

open Document (unifyBreaks)
open Text (isBlank pieces trim Trims)

namespace Document

variable {c : Char} {text left right : List Char}

private theorem unifyBreaks_return (other : text.head? ≠ some '\n') :
    unifyBreaks ('\r' :: text) = '\n' :: unifyBreaks text := by
  cases text with
  | nil => rfl
  | cons next rest =>
    apply unifyBreaks.eq_3
    intro more same
    cases same
    exact other rfl

theorem unifyBreaks_other (other : c ≠ '\r') : unifyBreaks (c :: text) = c :: unifyBreaks text := by
  apply unifyBreaks.eq_4
  · intro rest same _
    exact other same
  · intro same
    exact other same

private theorem mem_unifyBreaks (member : c ∈ unifyBreaks text) : c = '\n' ∨ c ∈ text := by
  fun_induction unifyBreaks text with
  | case1 => exact .inr member
  | case2 rest ih =>
    rcases List.mem_cons.mp member with same | later
    · exact .inl same
    · exact (ih later).imp_right fun later => List.mem_cons_of_mem _ (List.mem_cons_of_mem _ later)
  | case3 rest _ ih =>
    rcases List.mem_cons.mp member with same | later
    · exact .inl same
    · exact (ih later).imp_right (List.mem_cons_of_mem _)
  | case4 c rest _ _ ih =>
    rcases List.mem_cons.mp member with rfl | later
    · exact .inr List.mem_cons_self
    · exact (ih later).imp_right (List.mem_cons_of_mem _)

private theorem unifyBreaks_of_free (free : '\r' ∉ text) : unifyBreaks text = text := by
  induction text with
  | nil => rfl
  | cons c rest ih =>
    rw [List.mem_cons, not_or] at free
    rw [unifyBreaks_other (Ne.symm free.1), ih free.2]

private theorem newline_mem_unifyBreaks (member : '\r' ∈ text) : '\n' ∈ unifyBreaks text := by
  fun_induction unifyBreaks text with
  | case1 => cases member
  | case2 | case3 => exact List.mem_cons_self
  | case4 c rest _ other ih =>
    rcases List.mem_cons.mp member with same | later
    · exact (other same.symm).elim
    · exact List.mem_cons_of_mem _ (ih later)

theorem unifyBreaks_append (whole : left.getLast? = some '\r' → right.head? ≠ some '\n') :
    unifyBreaks (left ++ right) = unifyBreaks left ++ unifyBreaks right := by
  have later {c : Char} {rest : List Char} (whole : (c :: rest).getLast? = some '\r' → right.head? ≠ some '\n') :
      rest.getLast? = some '\r' → right.head? ≠ some '\n' := by
    intro last
    apply whole
    rw [List.getLast?_cons, last]
    rfl
  fun_induction unifyBreaks left with
  | case1 => rfl
  | case2 rest ih => exact congrArg ('\n' :: ·) (ih (later (later whole)))
  | case3 rest alone ih =>
    have other : (rest ++ right).head? ≠ some '\n' := by
      cases rest with
      | nil => exact whole rfl
      | cons next rest =>
        intro same
        cases same
        exact alone rest rfl
    rw [List.cons_append, unifyBreaks_return other, ih (later whole), List.cons_append]
  | case4 c rest _ other ih =>
    rw [List.cons_append, unifyBreaks_other other, ih (later whole), List.cons_append]

private theorem unifyBreaks_intercalate (parts : List (List Char)) :
    unifyBreaks ([','].intercalate parts) = [','].intercalate (parts.map unifyBreaks) := by
  induction parts with
  | nil => rfl
  | cons part parts ih =>
    cases parts with
    | nil => simp
    | cons next parts =>
      have comma (text : List Char) : unifyBreaks (',' :: text) = ',' :: unifyBreaks text :=
        unifyBreaks_other (by decide)
      have apart : unifyBreaks (part ++ ',' :: [','].intercalate (next :: parts)) =
          unifyBreaks part ++ unifyBreaks (',' :: [','].intercalate (next :: parts)) :=
        unifyBreaks_append fun _ => by simp
      simp only [List.intercalate_cons_cons, List.map_cons] at ih ⊢
      simpa [comma, ih] using apart

private theorem pieces_unifyBreaks (text : List Char) :
    pieces ',' (unifyBreaks text) = (pieces ',' text).map unifyBreaks := by
  obtain ⟨nonempty, free, joined⟩ := Text.pieces_eq_iff.mp (rfl : pieces ',' text = _)
  refine Text.pieces_eq_iff.mpr ⟨by simpa using nonempty, ?_, ?_⟩
  · intro part member comma
    obtain ⟨piece, present, rfl⟩ := List.mem_map.mp member
    rcases mem_unifyBreaks comma with impossible | stands
    · cases impossible
    · exact free piece present stands
  · rw [← unifyBreaks_intercalate, joined]

theorem blank_unifyBreaks (blank : ∀ c ∈ text, isBlank c = true) : ∀ c ∈ unifyBreaks text, isBlank c = true := by
  intro c member
  rcases mem_unifyBreaks member with rfl | stands
  · decide
  · exact blank c stands

theorem no_break (solid : isBlank c = false) : c ≠ '\r' ∧ c ≠ '\n' := by
  constructor <;> rintro rfl <;> exact absurd solid (by decide)

private theorem head_unifyBreaks (starts : ∀ c ∈ text.head?, isBlank c = false) :
    (unifyBreaks text).head? = text.head? := by
  cases text with
  | nil => rfl
  | cons c rest =>
    rw [unifyBreaks_other (no_break (starts c rfl)).1]
    rfl

private theorem last_unifyBreaks (stops : ∀ c ∈ text.getLast?, isBlank c = false) :
    (unifyBreaks text).getLast? = text.getLast? := by
  rcases text.eq_nil_or_concat' with rfl | ⟨initial, last, rfl⟩
  · rfl
  · obtain ⟨notReturn, notNewline⟩ := no_break (stops last List.getLast?_concat)
    have apart : initial.getLast? = some '\r' → [last].head? ≠ some '\n' := by
      intro _ same
      exact notNewline (Option.some.inj same)
    rw [unifyBreaks_append apart, unifyBreaks_other notReturn]
    exact List.getLast?_concat.trans List.getLast?_concat.symm

/-- What is left of a text without the blanks around it begins and ends with no part of a line break. -/
theorem trims_unifyBreaks {token : List Char} (trims : Trims text token) :
    Trims (unifyBreaks text) (unifyBreaks token) := by
  obtain ⟨⟨left, right, rfl, before, after⟩, starts, stops⟩ := trims
  refine ⟨?_, by rwa [head_unifyBreaks starts], by rwa [last_unifyBreaks stops]⟩
  by_cases nothing : token = []
  · subst nothing
    refine ⟨unifyBreaks (left ++ [] ++ right), [], by simp [unifyBreaks], blank_unifyBreaks ?_, nofun⟩
    intro c member
    rw [List.append_nil] at member
    exact (List.mem_append.mp member).elim (before c) (after c)
  · have front : left.getLast? = some '\r' → token.head? ≠ some '\n' := by
      intro _ same
      exact (no_break (starts _ same)).2 rfl
    have back : (left ++ token).getLast? = some '\r' → right.head? ≠ some '\n' := by
      intro same
      rw [List.getLast?_append_of_ne_nil left nothing] at same
      exact ((no_break (stops _ same)).1 rfl).elim
    refine ⟨unifyBreaks left, unifyBreaks right, ?_, blank_unifyBreaks before, blank_unifyBreaks after⟩
    rw [unifyBreaks_append back, unifyBreaks_append front]

private theorem trim_unifyBreaks (text : List Char) : trim (unifyBreaks text) = unifyBreaks (trim text) :=
  Text.trim_eq_iff.mpr (trims_unifyBreaks (Text.trims_trim text))

end Document

namespace Program

theorem Spells.solid {token : List Char} {word : Int} (spells : Spells token word) : ∀ c ∈ token, c ≠ '\r' ∧ c ≠ '\n' := by
  obtain ⟨digits, numeral, signed⟩ := spells.numeral
  have decimal {c : Char} (member : c ∈ digits) : c ≠ '\r' ∧ c ≠ '\n' := by
    have least := (numeral.decimal c member).1
    constructor <;> rintro rfl <;> exact absurd least (by decide)
  rcases signed with ⟨rfl, _⟩ | ⟨rfl, _⟩
  · exact fun c member => decimal member
  · intro c member
    rcases List.mem_cons.mp member with rfl | member
    · decide
    · exact decimal member

private theorem spells_unifyBreaks {token : List Char} {word : Int} :
    Spells (unifyBreaks token) word ↔ Spells token word := by
  by_cases broken : '\r' ∈ token
  · constructor
    · intro spells
      exact ((spells.solid _ (Document.newline_mem_unifyBreaks broken)).2 rfl).elim
    · intro spells
      exact ((spells.solid _ broken).1 rfl).elim
  · rw [Document.unifyBreaks_of_free broken]

/-- The words of a text do not depend on how its lines are broken. -/
theorem parse_unifyBreaks {text : String} {program : Program} :
    parse (String.ofList (unifyBreaks text.toList)) = .ok program ↔ parse text = .ok program := by
  have spelled (text : String) : parse text = .ok program ↔
      List.Forall₂ Spells ((pieces ',' text.toList).map trim) program.words := by
    rw [parse_eq_ok_iff, ← tokens_eq, List.forall₂_map_left_iff]
  have same : (unifyBreaks ∘ trim) = trim ∘ unifyBreaks := funext fun piece => (Document.trim_unifyBreaks piece).symm
  rw [spelled, spelled, String.toList_ofList, Document.pieces_unifyBreaks, List.map_map, ← same, ← List.map_map,
    List.forall₂_map_left_iff]
  simp only [spells_unifyBreaks]

end Program
end Intcode
