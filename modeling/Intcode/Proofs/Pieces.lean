import Mathlib.Data.List.TakeWhile
import Intcode.Text.Blank

/-! Trimming a text and cutting it at separators, told by what they leave. Since no separator is a
blank, it makes no difference whether the whole text is trimmed before its pieces are. -/

namespace Intcode.Text

variable {text token left right : List Char}

section Trimming

theorem dropWhile_of_head {p : Char → Bool} (starts : ∀ c ∈ text.head?, p c = false) :
    text.dropWhile p = text := by
  cases text with
  | nil => rfl
  | cons c rest => rw [List.dropWhile_cons_of_neg (Bool.not_eq_true _ ▸ starts c rfl)]

theorem head_of_dropWhile {p : Char → Bool} : ∀ c ∈ (text.dropWhile p).head?, p c = false := by
  intro c first
  have stopped := List.head?_dropWhile_not p text
  rw [Option.mem_def.mp first] at stopped
  exact stopped

/-- The token is the text without the blanks around it. -/
structure Trims (text token : List Char) : Prop where
  around : ∃ left right, text = left ++ token ++ right ∧
    (∀ c ∈ left, isBlank c = true) ∧ ∀ c ∈ right, isBlank c = true
  starts : ∀ c ∈ token.head?, isBlank c = false
  stops : ∀ c ∈ token.getLast?, isBlank c = false

theorem trim_append_left (blank : ∀ c ∈ left, isBlank c = true) : trim (left ++ text) = trim text := by
  rw [trim, List.dropWhile_append_of_pos blank, trim]

theorem trim_append_right (blank : ∀ c ∈ right, isBlank c = true) : trim (text ++ right) = trim text := by
  unfold trim
  rw [List.dropWhile_append]
  split
  next none =>
    rw [List.isEmpty_iff.mp none, List.dropWhile_eq_nil_iff.mpr blank]
  next =>
    rw [List.reverse_append, List.dropWhile_append_of_pos]
    simpa using blank

theorem trims_trim (text : List Char) : Trims text (trim text) := by
  let middle := text.dropWhile isBlank
  have back : middle.reverse.takeWhile isBlank ++ (trim text).reverse = middle.reverse := by
    rw [trim, List.reverse_reverse, List.takeWhile_append_dropWhile]
  refine ⟨⟨text.takeWhile isBlank, (middle.reverse.takeWhile isBlank).reverse, ?_, ?_, ?_⟩, ?_, ?_⟩
  · have whole := congrArg List.reverse back
    rw [List.reverse_append, List.reverse_reverse, List.reverse_reverse] at whole
    rw [List.append_assoc, whole, List.takeWhile_append_dropWhile]
  · exact fun c => List.mem_takeWhile_imp
  · exact fun c member => List.mem_takeWhile_imp (List.mem_reverse.mp member)
  · intro c first
    -- What is left of the front after the back was cut still begins as before.
    have same : middle.head? = some c := by
      rw [← List.getLast?_reverse, ← back, List.getLast?_append, List.getLast?_reverse, Option.mem_def.mp first]
      rfl
    exact head_of_dropWhile c same
  · intro c last
    rw [trim, List.getLast?_reverse] at last
    exact head_of_dropWhile c last

theorem trim_eq_iff : trim text = token ↔ Trims text token := by
  constructor
  · rintro rfl
    exact trims_trim text
  · rintro ⟨⟨left, right, rfl, before, after⟩, starts, stops⟩
    rw [trim_append_right after, trim_append_left before, trim, dropWhile_of_head starts]
    rw [dropWhile_of_head (by rwa [List.head?_reverse]), List.reverse_reverse]

end Trimming

section Pieces

variable {α : Type} [DecidableEq α] {separator : α} {text left right : List α} {parts : List (List α)}

theorem pieces_cons_self (text : List α) : pieces separator (separator :: text) = [] :: pieces separator text :=
  if_pos rfl

theorem pieces_ne_nil (text : List α) : pieces separator text ≠ [] := by
  cases text with
  | nil => exact List.cons_ne_nil _ _
  | cons c rest =>
    unfold pieces
    split
    · exact List.cons_ne_nil _ _
    · split <;> exact List.cons_ne_nil _ _

theorem pieces_cons_of_ne {c : α} (other : c ≠ separator) {first : List α} {others : List (List α)}
    (rest : pieces separator text = first :: others) :
    pieces separator (c :: text) = (c :: first) :: others := by
  rw [pieces, if_neg other, rest]

theorem exists_pieces (separator : α) (text : List α) :
    ∃ first others, pieces separator text = first :: others :=
  List.exists_cons_of_ne_nil (pieces_ne_nil text)

theorem free_of_mem_pieces : ∀ part ∈ pieces separator text, separator ∉ part := by
  induction text with
  | nil => simp [pieces]
  | cons c rest ih =>
    by_cases same : c = separator
    · rw [same, pieces_cons_self]
      exact List.forall_mem_cons.mpr ⟨List.not_mem_nil, ih⟩
    · obtain ⟨first, others, found⟩ := exists_pieces separator rest
      rw [found] at ih
      rw [pieces_cons_of_ne same found]
      obtain ⟨free, ih⟩ := List.forall_mem_cons.mp ih
      refine List.forall_mem_cons.mpr ⟨?_, ih⟩
      exact List.not_mem_cons_of_ne_of_not_mem (Ne.symm same) free

theorem length_pieces (text : List α) : (pieces separator text).length = text.count separator + 1 := by
  induction text with
  | nil => rfl
  | cons c rest ih =>
    by_cases same : c = separator
    · rw [same, pieces_cons_self, List.length_cons, ih, List.count_cons_self]
    · obtain ⟨first, others, found⟩ := exists_pieces separator rest
      rw [pieces_cons_of_ne same found, List.count_cons_of_ne same, ← ih, found]
      rfl

theorem pieces_eq_splitOn (text : List α) : pieces separator text = text.splitOn separator := by
  induction text with
  | nil => rw [List.splitOn_nil, pieces]
  | cons c rest ih =>
    rw [List.splitOn, List.splitOnP_cons_eq_if_modifyHead, ← List.splitOn, ← ih]
    by_cases same : c = separator
    · rw [same, pieces_cons_self, if_pos (beq_self_eq_true separator)]
    · obtain ⟨first, others, found⟩ := exists_pieces separator rest
      rw [pieces_cons_of_ne same found, if_neg (mt eq_of_beq same), found]
      rfl

/-- Pieces are what a text is joined from, as long as no separator stands in a piece. -/
theorem pieces_eq_iff : pieces separator text = parts ↔
    parts ≠ [] ∧ (∀ part ∈ parts, separator ∉ part) ∧ [separator].intercalate parts = text := by
  constructor
  · rintro rfl
    refine ⟨pieces_ne_nil text, free_of_mem_pieces, ?_⟩
    rw [pieces_eq_splitOn, List.intercalate_splitOn]
  · rintro ⟨nonempty, free, rfl⟩
    rw [pieces_eq_splitOn, List.splitOn_intercalate separator free nonempty]

theorem pieces_inj {other : List α} : pieces separator text = pieces separator other ↔ text = other := by
  refine ⟨fun same => ?_, congrArg _⟩
  rw [← (pieces_eq_iff.mp same).2.2, (pieces_eq_iff.mp rfl).2.2]

theorem pieces_intercalate {parts : List String} (some : parts ≠ []) (free : ∀ part ∈ parts, ',' ∉ part.toList) :
    pieces ',' (",".intercalate parts).toList = parts.map String.toList := by
  refine pieces_eq_iff.mpr ⟨mt List.map_eq_nil_iff.mp some, List.forall_mem_map.mpr free, ?_⟩
  rw [String.toList_intercalate]
  rfl

/-- A separator between two texts keeps their pieces apart. -/
theorem pieces_append_cons (left right : List α) :
    pieces separator (left ++ separator :: right) = pieces separator left ++ pieces separator right := by
  induction left with
  | nil => exact pieces_cons_self right
  | cons c rest ih =>
    by_cases same : c = separator
    · rw [same, List.cons_append, pieces_cons_self, pieces_cons_self, ih, List.cons_append]
    · obtain ⟨first, others, found⟩ := exists_pieces separator rest
      rw [found, List.cons_append] at ih
      rw [List.cons_append, pieces_cons_of_ne same ih, pieces_cons_of_ne same found, List.cons_append]

theorem pieces_append_left (free : separator ∉ left) {first : List α} {others : List (List α)}
    (found : pieces separator text = first :: others) :
    pieces separator (left ++ text) = (left ++ first) :: others := by
  induction left with
  | nil => exact found
  | cons c left ih =>
    have other : c ≠ separator := fun same => free (same ▸ List.mem_cons_self)
    exact pieces_cons_of_ne other (ih fun member => free (List.mem_cons_of_mem c member))

theorem pieces_of_free (free : separator ∉ text) : pieces separator text = [text] := by
  have alone : pieces separator (text ++ []) = [text ++ []] := pieces_append_left free rfl
  rwa [List.append_nil] at alone

theorem pieces_line (free : separator ∉ left) (right : List α) :
    pieces separator (left ++ separator :: right) = left :: pieces separator right := by
  rw [pieces_append_cons, pieces_of_free free, List.singleton_append]

/-- Lines that each end in a separator are cut off one by one. -/
theorem pieces_lines {lines : List (List α)} (free : ∀ line ∈ lines, separator ∉ line) (rest : List α) :
    pieces separator (lines.flatMap (· ++ [separator]) ++ rest) = lines ++ pieces separator rest := by
  induction lines with
  | nil => rfl
  | cons line lines ih =>
    obtain ⟨first, later⟩ := List.forall_mem_cons.mp free
    have cut := pieces_line first (lines.flatMap (· ++ [separator]) ++ rest)
    rw [ih later] at cut
    rw [List.flatMap_cons, List.append_assoc, List.append_assoc]
    exact cut

theorem lines_inj {lines others : List (List α)} (free : ∀ line ∈ lines, separator ∉ line)
    (plain : ∀ line ∈ others, separator ∉ line) :
    lines.flatMap (· ++ [separator]) = others.flatMap (· ++ [separator]) ↔ lines = others := by
  refine ⟨fun same => ?_, congrArg _⟩
  have cut := congrArg (fun text => pieces separator (text ++ [])) same
  rw [pieces_lines free, pieces_lines plain] at cut
  exact List.append_cancel_right cut

theorem pieces_append_right (text : List α) (free : separator ∉ right) :
    ∃ initial last, pieces separator text = initial ++ [last] ∧
      pieces separator (text ++ right) = initial ++ [last ++ right] := by
  induction text with
  | nil =>
    exact ⟨[], [], rfl, pieces_of_free free⟩
  | cons c rest ih =>
    obtain ⟨initial, last, whole, longer⟩ := ih
    by_cases same : c = separator
    · refine ⟨[] :: initial, last, ?_, ?_⟩
      · rw [same, pieces_cons_self, whole, List.cons_append]
      · rw [same, List.cons_append, pieces_cons_self, longer, List.cons_append]
    · cases initial with
      | nil => exact ⟨[], c :: last, pieces_cons_of_ne same whole, pieces_cons_of_ne same longer⟩
      | cons first others =>
        exact ⟨(c :: first) :: others, last, pieces_cons_of_ne same whole, pieces_cons_of_ne same longer⟩

end Pieces

/-- Trimming a text does not change its trimmed pieces. -/
theorem trimmed_pieces_trim {separator : Char} (solid : isBlank separator = false) (text : List Char) :
    (pieces separator (trim text)).map trim = (pieces separator text).map trim := by
  obtain ⟨⟨left, right, whole, before, after⟩, _, _⟩ := trims_trim text
  have free {blanks : List Char} (blank : ∀ c ∈ blanks, isBlank c = true) : separator ∉ blanks := by
    intro member
    rw [blank separator member] at solid
    cases solid
  obtain ⟨first, others, found⟩ := exists_pieces separator (trim text)
  obtain ⟨initial, last, same, longer⟩ := pieces_append_right (left ++ trim text) (free after)
  calc (pieces separator (trim text)).map trim
    _ = (pieces separator (left ++ trim text)).map trim := by
      rw [pieces_append_left (free before) found, found, List.map_cons, List.map_cons,
        trim_append_left before]
    _ = (pieces separator (left ++ trim text ++ right)).map trim := by
      rw [same, longer, List.map_append, List.map_append, List.map_singleton, List.map_singleton,
        trim_append_right after]
    _ = (pieces separator text).map trim := by rw [← whole]

end Intcode.Text
