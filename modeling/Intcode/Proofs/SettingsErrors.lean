import Mathlib.Control.Monad.Basic
import Intcode.Proofs.Answers
import Intcode.Settings

/-! Settings that cannot be used are refused. What gets in the way of a refusal is an infinite step
limit, a key that is no text (it can neither be put in order among texts nor be listed), a path that
is too long to be looked for, and a scalar or a nesting on which reading the file itself breaks down. -/

namespace Intcode.Settings

/-- The key can be put in order and listed: it is a text. -/
def Named (key : Value) : Prop := key.codes? ≠ none

private theorem isBefore_of_named {left right : Value} (first : Named left) (second : Named right) :
    ∃ before, left.isBefore right = .ok before := by
  cases left <;> cases right <;> first
    | exact ⟨_, rfl⟩
    | exact (first rfl).elim
    | exact (second rfl).elim

private theorem isKnown_named {key : Value} (known : isKnown key = true) : Named key := by
  cases key with
  | text name => exact nofun
  | _ => cases known

section Sorting

variable {key : Value} {keys sorted : List Value} {error : Error}

private theorem keyBefore_fails {other : Value} (failed : keyBefore key other = .error error) :
    error.kind = .mistyped := by
  unfold keyBefore at failed
  cases found : key.isBefore other with
  | ok before => rw [found] at failed; cases failed
  | error cause =>
    rw [found] at failed
    cases failed
    rfl

private theorem insertKey_fails (failed : insertKey key keys = .error error) : error.kind = .mistyped := by
  induction keys with
  | nil => cases failed
  | cons other rest ih =>
    rw [insertKey, Outcome.bind_eq_error_iff] at failed
    rcases failed with unordered | ⟨before, _, failed⟩
    · exact keyBefore_fails unordered
    · cases before with
      | true => cases failed
      | false =>
        rcases Outcome.bind_eq_error_iff.mp failed with failed | ⟨_, _, impossible⟩
        · exact ih failed
        · cases impossible

private theorem insertKey_perm (inserted : insertKey key keys = .ok sorted) : sorted.Perm (key :: keys) := by
  induction keys generalizing sorted with
  | nil =>
    cases inserted
    exact .refl _
  | cons other rest ih =>
    rw [insertKey, Outcome.bind_eq_ok_iff] at inserted
    obtain ⟨before, _, inserted⟩ := inserted
    cases before with
    | true =>
      cases inserted
      exact .refl _
    | false =>
      obtain ⟨tail, placed, same⟩ := Outcome.bind_eq_ok_iff.mp inserted
      cases same
      exact ((ih placed).cons other).trans (.swap key other rest)

private theorem insertKey_of_named (first : Named key) (all : ∀ other ∈ keys, Named other) :
    ∃ sorted, insertKey key keys = .ok sorted := by
  induction keys with
  | nil => exact ⟨_, rfl⟩
  | cons other rest ih =>
    obtain ⟨second, later⟩ := List.forall_mem_cons.mp all
    obtain ⟨before, ordered⟩ := isBefore_of_named first second
    have compared : keyBefore key other = .ok before := by rw [keyBefore, ordered]; rfl
    obtain ⟨tail, placed⟩ := ih later
    rw [insertKey, compared, Outcome.ok_bind]
    cases before with
    | true => exact ⟨_, rfl⟩
    | false => exact ⟨other :: tail, by rw [if_neg Bool.false_ne_true, placed]; rfl⟩

theorem sortKeys_fails (failed : sortKeys keys = .error error) : error.kind = .mistyped := by
  induction keys with
  | nil => cases failed
  | cons key rest ih =>
    rw [sortKeys, Outcome.bind_eq_error_iff] at failed
    rcases failed with failed | ⟨_, _, failed⟩
    · exact ih failed
    · exact insertKey_fails failed

theorem sortKeys_perm (ordered : sortKeys keys = .ok sorted) : sorted.Perm keys := by
  induction keys generalizing sorted with
  | nil =>
    cases ordered
    exact .refl _
  | cons key rest ih =>
    rw [sortKeys, Outcome.bind_eq_ok_iff] at ordered
    obtain ⟨tail, later, inserted⟩ := ordered
    exact (insertKey_perm inserted).trans ((ih later).cons key)

private theorem sortKeys_of_named (all : ∀ key ∈ keys, Named key) : ∃ sorted, sortKeys keys = .ok sorted := by
  induction keys with
  | nil => exact ⟨_, rfl⟩
  | cons key rest ih =>
    obtain ⟨first, later⟩ := List.forall_mem_cons.mp all
    obtain ⟨tail, ordered⟩ := ih later
    have named : ∀ other ∈ tail, Named other := fun other member =>
      later other ((sortKeys_perm ordered).mem_iff.mp member)
    rw [sortKeys, ordered, Outcome.ok_bind]
    exact insertKey_of_named first named

theorem names_fails (failed : names keys = .error error) : error.kind = .mistyped := by
  induction keys with
  | nil => cases failed
  | cons key rest ih =>
    unfold names at failed
    split at failed
    · exact ih (Outcome.map_eq_error_iff.mp failed)
    · cases failed
      rfl

private theorem names_ok_iff : (∃ texts, names keys = .ok texts) ↔ ∀ key ∈ keys, Named key := by
  induction keys with
  | nil => exact ⟨fun _ => List.forall_mem_nil _, fun _ => ⟨[], rfl⟩⟩
  | cons key rest ih =>
    rw [List.forall_mem_cons, ← ih, names, Named]
    cases key.codes? with
    | none => simp
    | some codes =>
      simp only [Outcome.map_eq_ok_iff, ne_eq, reduceCtorEq, not_false_eq_true, true_and]
      exact ⟨fun ⟨_, texts, listed, _⟩ => ⟨texts, listed⟩, fun ⟨texts, listed⟩ => ⟨_, texts, listed, rfl⟩⟩

end Sorting

section Entries

variable {entries : List (Value × Value)} {error : Error}

private theorem checkKeys_of_named (all : ∀ entry ∈ entries, Named entry.1)
    (failed : checkKeys entries = .error error) : error.kind = .refused := by
  unfold checkKeys at failed
  split at failed
  next => cases failed
  next unknown _ =>
    have named : ∀ key ∈ (entries.map Prod.fst).filter (!isKnown ·), Named key := by
      intro key member
      obtain ⟨entry, present, rfl⟩ := List.mem_map.mp (List.mem_filter.mp member).1
      exact all entry present
    obtain ⟨sorted, ordered⟩ := sortKeys_of_named named
    obtain ⟨texts, listed⟩ := names_ok_iff.mpr fun key member =>
      named key ((sortKeys_perm ordered).mem_iff.mp member)
    rw [ordered, Outcome.ok_bind, listed, Outcome.ok_bind] at failed
    cases failed
    rfl

private theorem checkKeys_of_nameless {entry : Value × Value} (member : entry ∈ entries)
    (nameless : entry.1.codes? = none) :
    ∃ error, checkKeys entries = .error error ∧ error.kind = .mistyped := by
  have stays : entry.1 ∈ (entries.map Prod.fst).filter (!isKnown ·) := by
    refine List.mem_filter.mpr ⟨List.mem_map_of_mem member, ?_⟩
    cases known : isKnown entry.1 with
    | true => exact (isKnown_named known nameless).elim
    | false => rfl
  unfold checkKeys
  split
  next unknown =>
    rw [unknown] at stays
    cases stays
  next =>
    cases ordered : sortKeys ((entries.map Prod.fst).filter (!isKnown ·)) with
    | error cause => exact ⟨cause, rfl, sortKeys_fails ordered⟩
    | ok sorted =>
      cases listed : names sorted with
      | error cause =>
        rw [Outcome.ok_bind, listed]
        exact ⟨cause, rfl, names_fails listed⟩
      | ok texts =>
        have present := (sortKeys_perm ordered).mem_iff.mpr stays
        exact (names_ok_iff.mp ⟨texts, listed⟩ _ present nameless).elim

/-- The values that are looked at before the keys can all be used. -/
structure Usable (entries : List (Value × Value)) : Prop where
  limit : ∃ limit, limitOf (Value.lookup "step_limit" entries) = .ok limit ∧
    limit.any (· ≤ 0) = false
  logfile : ∃ name, logfileOf (Value.lookup "logfile" entries) = .ok name ∧ name ≠ ""

private theorem integer_eq_infinite_iff {value : Value} :
    value.integer = .error .infinite ↔ ∃ negative, value = .float (.infinity negative) := by
  have numeral {outcome : Except Text.NumeralError Int} :
      outcome.mapError .numeral ≠ (.error .infinite : Except IntegerError Int) := by
    cases outcome <;> nofun
  constructor
  · intro failed
    cases value with
    | float number =>
      cases number with
      | infinity negative => exact ⟨negative, rfl⟩
      | nan | finite => cases failed
    | text | broken | bytes => exact (numeral failed).elim
    | _ => cases failed
  · rintro ⟨negative, rfl⟩
    rfl

theorem limitOf_fails {held : Option Value} (failed : limitOf held = .error error) :
    ∃ value cause, held = some value ∧ value.integer = .error cause ∧ error = .badLimit cause := by
  unfold limitOf at failed
  split at failed
  next => cases failed
  next => cases failed
  next value _ =>
    have cause := Outcome.map_eq_error_iff.mp failed
    cases found : value.integer with
    | ok number => rw [found] at cause; cases cause
    | error reason =>
      rw [found] at cause
      cases cause
      exact ⟨value, reason, rfl, found, rfl⟩

private theorem logfileOf_fails {held : Option Value} (failed : logfileOf held = .error error) :
    error.kind = .refused := by
  unfold logfileOf at failed
  split at failed
  · cases failed
  · cases failed
  · split at failed <;> cases failed
    rfl

theorem ofEntries_of_values {limit : Option Int} {name : String}
    (limited : limitOf (Value.lookup "step_limit" entries) = .ok limit)
    (named : logfileOf (Value.lookup "logfile" entries) = .ok name) :
    ofEntries entries =
      if limit.any (· ≤ 0) then .error .emptyBudget
      else if name = "" then .error .emptyLogfile
      else (fun _ => {
        trace := (Value.lookup "trace" entries).any flag, stepLimit := limit, logfile := name
        debug := (Value.lookup "debug" entries).any flag }) <$> checkKeys entries := by
  unfold ofEntries
  simp only [limited, named, Outcome.ok_bind]
  split
  · rfl
  · split
    · rfl
    · cases checkKeys entries <;> rfl

theorem ofEntries_fails (failed : ofEntries entries = .error error) :
    limitOf (Value.lookup "step_limit" entries) = .error error ∨ error.kind = .refused ∨
      Usable entries ∧ checkKeys entries = .error error := by
  cases limited : limitOf (Value.lookup "step_limit" entries) with
  | error cause =>
    rw [ofEntries, limited] at failed
    cases failed
    exact .inl rfl
  | ok limit =>
    cases named : logfileOf (Value.lookup "logfile" entries) with
    | error cause =>
      rw [ofEntries, limited, named] at failed
      cases failed
      exact .inr (.inl (logfileOf_fails named))
    | ok name =>
      rw [ofEntries_of_values limited named] at failed
      split at failed
      next =>
        cases failed
        exact .inr (.inl rfl)
      next positive =>
        split at failed
        next =>
          cases failed
          exact .inr (.inl rfl)
        next given =>
          have usable : Usable entries := ⟨⟨limit, limited, Bool.not_eq_true _ ▸ positive⟩, name, named, given⟩
          exact .inr (.inr ⟨usable, Outcome.map_eq_error_iff.mp failed⟩)

private theorem ofEntries_of_usable (usable : Usable entries) (failed : checkKeys entries = .error error) :
    ofEntries entries = .error error := by
  obtain ⟨⟨limit, limited, positive⟩, name, named, given⟩ := usable
  rw [ofEntries_of_values limited named, positive, if_neg Bool.false_ne_true, if_neg given, failed]
  rfl

/-- Where reading a mapping breaks down, and how it then fails. -/
inductive Trips (entries : List (Value × Value)) : Error.Kind → Prop where
  | infinite (held : Value.lookup "step_limit" entries = some (.float (.infinity negative))) :
    Trips entries .overflow
  | nameless (usable : Usable entries) (member : entry ∈ entries) (nameless : entry.1.codes? = none) :
    Trips entries .mistyped

theorem ofEntries_trips_iff {kind : Error.Kind} :
    (∃ error, ofEntries entries = .error error ∧ error.kind = kind ∧ kind ≠ .refused) ↔
      Trips entries kind := by
  constructor
  · rintro ⟨error, failed, rfl, escapes⟩
    rcases ofEntries_fails failed with failed | refused | ⟨usable, failed⟩
    · obtain ⟨value, cause, held, found, rfl⟩ := limitOf_fails failed
      cases cause with
      | infinite =>
        obtain ⟨negative, rfl⟩ := integer_eq_infinite_iff.mp found
        exact .infinite held
      | numeral | notANumber | wrongKind => exact (escapes rfl).elim
    · exact (escapes refused).elim
    · by_cases nameless : ∃ entry ∈ entries, entry.1.codes? = none
      · obtain ⟨entry, member, nameless⟩ := nameless
        obtain ⟨cause, found, kind⟩ := checkKeys_of_nameless member nameless
        rw [failed] at found
        cases found
        rw [kind]
        exact .nameless usable member nameless
      · have named : ∀ entry ∈ entries, Named entry.1 := fun entry member none =>
          nameless ⟨entry, member, none⟩
        exact (escapes (checkKeys_of_named named failed)).elim
  · intro trips
    cases trips with
    | infinite held =>
      refine ⟨.badLimit .infinite, ?_, rfl, nofun⟩
      rw [ofEntries, held]
      rfl
    | nameless usable member nameless =>
      obtain ⟨error, failed, kind⟩ := checkKeys_of_nameless member nameless
      exact ⟨error, ofEntries_of_usable usable failed, kind, nofun⟩

theorem ofEntries_positive {settings : Settings} {limit : Int} (accepted : ofEntries entries = .ok settings)
    (limited : settings.stepLimit = some limit) : 0 < limit := by
  cases found : limitOf (Value.lookup "step_limit" entries) with
  | error cause => rw [ofEntries, found] at accepted; cases accepted
  | ok number =>
    cases named : logfileOf (Value.lookup "logfile" entries) with
    | error cause => rw [ofEntries, found, named] at accepted; cases accepted
    | ok name =>
      rw [ofEntries_of_values found named] at accepted
      split at accepted
      next => cases accepted
      next positive =>
        split at accepted
        next => cases accepted
        next =>
          obtain ⟨_, _, rfl⟩ := Outcome.map_eq_ok_iff.mp accepted
          simp only at limited
          rw [limited] at positive
          simpa using positive

end Entries

/-- The file that a path leads to, and the outcome of reading a value from it. -/
def Reads (directory : Directory) (path : String) (outcome : Except Document.Error Value) : Prop :=
  ∃ place content, directory.findShown path = .entry place (.file content) ∧
    Document.read (String.ofList (Document.unifyBreaks content.toList)) = outcome

/-- Where loading settings breaks down, and how it then fails. -/
inductive Escapes (directory : Directory) : Value → Error.Kind → Prop where
  | mapping (trips : Trips entries kind) : Escapes directory (.mapping entries) kind
  | file (reads : Reads directory path (.ok (.mapping entries))) (trips : Trips entries kind) :
    Escapes directory (.text path) kind
  | scalar (reads : Reads directory path (.error (.scalar error))) :
    Escapes directory (.text path) (.scalar error)
  | endless (reads : Reads directory path (.error .endless)) : Escapes directory (.text path) .endless
  | unreachable (found : directory.findShown path = .tooLong) :
    Escapes directory (.text path) .unreachable

section Loading

variable {directory : Directory} {path : String} {kind : Error.Kind}

theorem not_trips_nil : ¬ Trips [] kind := by
  intro trips
  cases trips with
  | infinite held => cases held
  | nameless _ member => cases member

theorem ofDocument_fails_iff {value : Value} :
    (∃ error, ofDocument path value = .error error ∧ error.kind = kind ∧ kind ≠ .refused) ↔
      ∃ entries, value = .mapping entries ∧ Trips entries kind := by
  have empty : ¬ ∃ error, ofEntries [] = .error error ∧ error.kind = kind ∧ kind ≠ .refused :=
    mt ofEntries_trips_iff.mp not_trips_nil
  unfold ofDocument
  constructor
  · intro fails
    split at fails
    · split at fails
      next entries _ => exact ⟨entries, rfl, ofEntries_trips_iff.mp fails⟩
      next =>
        obtain ⟨_, same, rfl, escapes⟩ := fails
        cases same
        exact (escapes rfl).elim
    · exact (empty fails).elim
  · rintro ⟨entries, rfl, trips⟩
    cases entries with
    | nil => exact (not_trips_nil trips).elim
    | cons entry rest => exact ofEntries_trips_iff.mpr trips

private theorem ofFile_fails_iff :
    (∃ error, ofFile directory path = .error error ∧ error.kind = kind ∧ kind ≠ .refused) ↔
      Escapes directory (.text path) kind := by
  constructor
  · intro fails
    unfold ofFile at fails
    split at fails
    next =>
      obtain ⟨_, same, rfl, escapes⟩ := fails
      cases same
      exact (escapes rfl).elim
    next found =>
      obtain ⟨_, same, rfl, _⟩ := fails
      cases same
      exact .unreachable found
    next =>
      obtain ⟨_, same, rfl, escapes⟩ := fails
      cases same
      exact (escapes rfl).elim
    next place content found =>
      split at fails
      next error read =>
        obtain ⟨_, same, rfl, escapes⟩ := fails
        cases same
        cases error with
        | complaint | unacceptable => exact (escapes rfl).elim
        | scalar error => exact .scalar ⟨place, content, found, read⟩
        | endless => exact .endless ⟨place, content, found, read⟩
      next value read =>
        obtain ⟨entries, rfl, trips⟩ := ofDocument_fails_iff.mp fails
        exact .file ⟨place, content, found, read⟩ trips
  · intro escapes
    unfold ofFile
    cases escapes with
    | file reads trips =>
      obtain ⟨place, content, found, read⟩ := reads
      simp only [found, read]
      exact ofDocument_fails_iff.mpr ⟨_, rfl, trips⟩
    | scalar reads | endless reads =>
      obtain ⟨place, content, found, read⟩ := reads
      simp only [found, read]
      exact ⟨_, rfl, rfl, nofun⟩
    | unreachable found =>
      simp only [found]
      exact ⟨_, rfl, rfl, nofun⟩

/-- A step limit that is accepted allows something. -/
theorem load_positive {value : Value} {settings : Settings} {limit : Int}
    (loaded : load directory value = .ok settings) (limited : settings.stepLimit = some limit) : 0 < limit := by
  have read {path : String} {value : Value} (loaded : ofDocument path value = .ok settings) : 0 < limit := by
    unfold ofDocument at loaded
    split at loaded
    · split at loaded
      · exact ofEntries_positive loaded limited
      · cases loaded
    · exact ofEntries_positive loaded limited
  cases value with
  | null | mapping entries => exact ofEntries_positive loaded limited
  | text path =>
    change ofFile directory path = .ok settings at loaded
    unfold ofFile at loaded
    split at loaded
    · cases loaded
    · cases loaded
    · cases loaded
    · split at loaded
      · cases loaded
      · exact read loaded
  | _ => cases loaded

/-- Settings that cannot be used are refused, but for those on which loading breaks down; and these
show how they fail. -/
theorem load_escapes_iff (directory : Directory) (value : Value) :
    ((∃ settings, load directory value = .ok settings) ∨
      (∃ error, load directory value = .error error ∧ error.kind = .refused) ↔
      ¬ ∃ kind, Escapes directory value kind) ∧
    ∀ kind, (∃ error, load directory value = .error error ∧ error.kind = kind ∧ kind ≠ .refused) ↔
      Escapes directory value kind := by
  have how (kind : Error.Kind) :
      (∃ error, load directory value = .error error ∧ error.kind = kind ∧ kind ≠ .refused) ↔
        Escapes directory value kind := by
    cases value with
    | mapping entries =>
      rw [load, ofEntries_trips_iff]
      exact ⟨.mapping, fun | .mapping trips => trips⟩
    | text path => exact ofFile_fails_iff
    | null =>
      refine ⟨fun fails => (not_trips_nil (ofEntries_trips_iff.mp fails)).elim, nofun⟩
    | _ =>
      refine ⟨?_, nofun⟩
      rintro ⟨_, same, rfl, escapes⟩
      cases same
      exact (escapes rfl).elim
  refine ⟨⟨?_, fun steady => ?_⟩, how⟩
  · rintro (⟨settings, loaded⟩ | ⟨error, failed, refused⟩) ⟨kind, escapes⟩
    all_goals obtain ⟨cause, same, rfl, other⟩ := (how kind).mpr escapes
    · rw [loaded] at same
      cases same
    · rw [failed] at same
      cases same
      exact other refused
  · cases loaded : load directory value with
    | ok settings => exact .inl ⟨settings, rfl⟩
    | error error =>
      refine .inr ⟨error, rfl, Decidable.byContradiction fun other => ?_⟩
      exact steady ⟨error.kind, (how error.kind).mp ⟨error, loaded, rfl, other⟩⟩

/-- Loading breaks down on an infinite step limit, given outright or in a file, and on a file whose
key is a number. -/
theorem infinite_limit_escapes :
    load {} (.mapping [(.text "step_limit", .float (.infinity false))]) = .error (.badLimit .infinite) ∧
    load ⟨⟨[("cfg.yaml", .file "step_limit: .inf\n")]⟩⟩ (.text "cfg.yaml") =
      .error (.badLimit .infinite) ∧
    load ⟨⟨[("cfg.yaml", .file "1: 2\n")]⟩⟩ (.text "cfg.yaml") = .error (.unlistableKey "int") ∧
    Error.kind (.badLimit .infinite) = .overflow ∧ Error.kind (.unlistableKey "int") = .mistyped := by
  decide +kernel

end Loading
end Intcode.Settings
