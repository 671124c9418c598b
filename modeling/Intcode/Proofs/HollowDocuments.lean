import Intcode.Proofs.NormalSettings

/-! A settings file is to hold a mapping or nothing. What is demanded of a document is set against
what loading does with it: the two differ on hollow documents alone, which count as nothing before
anyone asks whether they are mappings. -/

namespace Intcode.Settings

/-- What a settings file should do, whatever document is in it. -/
def demanded (path : String) : Value → Except Error Settings
  | .null => ofEntries []
  | .mapping entries => ofEntries entries
  | _ => .error (.notMapping path)

/-- The document is neither nothing nor a mapping. -/
def Foreign (value : Value) : Prop := value ≠ .null ∧ ∀ entries, value ≠ .mapping entries

/-- An empty or zero value that is neither null nor a mapping. -/
inductive Hollow : Value → Prop where
  | no : Hollow (.bool false)
  | zero : Hollow (.int 0)
  | float : Hollow (.float (.finite negative 0 exponent))
  | text : Hollow (.text "")
  | bytes : Hollow (.bytes [])
  | list : Hollow (.list [])
  | set : Hollow (.set [])

section Demands

variable {directory : Directory} {path : String} {value : Value}

theorem demanded_of_foreign (foreign : Foreign value) : demanded path value = .error (.notMapping path) := by
  unfold demanded
  split
  next => exact (foreign.1 rfl).elim
  next entries => exact (foreign.2 entries rfl).elim
  next => rfl

theorem Hollow.foreign (hollow : Hollow value) : Foreign value := by
  cases hollow <;> exact ⟨nofun, nofun⟩

private theorem Hollow.not_isTruthy (hollow : Hollow value) : value.isTruthy = false := by
  cases hollow <;> rfl

private theorem hollow_iff : Hollow value ↔ value.isTruthy = false ∧ Foreign value := by
  refine ⟨fun hollow => ⟨hollow.not_isTruthy, hollow.foreign⟩, fun ⟨empty, foreign⟩ => ?_⟩
  cases value with
  | null => exact (foreign.1 rfl).elim
  | mapping entries => exact (foreign.2 entries rfl).elim
  | bool =>
    cases empty
    exact .no
  | int number =>
    obtain rfl : number = 0 := by simpa [Value.isTruthy] using empty
    exact .zero
  | float number =>
    cases number with
    | finite negative mantissa exponent =>
      obtain rfl : mantissa = 0 := by simpa [Value.isTruthy, Double.isZero] using empty
      exact .float
    | nan | infinity => cases empty
  | text word =>
    obtain rfl : word = "" := by simpa [Value.isTruthy] using empty
    exact .text
  | bytes content =>
    obtain rfl : content = [] := by simpa [Value.isTruthy] using empty
    exact .bytes
  | list items =>
    obtain rfl : items = [] := by simpa [Value.isTruthy] using empty
    exact .list
  | set items =>
    obtain rfl : items = [] := by simpa [Value.isTruthy] using empty
    exact .set
  | _ => cases empty

theorem ofEntries_nil : ofEntries [] = .ok {} := rfl

theorem ofEntries_ne_notMapping {entries : List (Value × Value)} : ofEntries entries ≠ .error (.notMapping path) := by
  have keys : checkKeys entries ≠ .error (.notMapping path) := by
    unfold checkKeys
    split
    · nofun
    · intro failed
      rcases Outcome.bind_eq_error_iff.mp failed with unordered | ⟨sorted, _, failed⟩
      · cases sortKeys_fails unordered
      rcases Outcome.bind_eq_error_iff.mp failed with unlisted | ⟨texts, _, failed⟩
      · cases names_fails unlisted
      · cases failed
  intro failed
  cases limited : limitOf (Value.lookup "step_limit" entries) with
  | error cause =>
    obtain ⟨_, _, _, _, rfl⟩ := limitOf_fails limited
    rw [ofEntries, limited] at failed
    cases failed
  | ok limit =>
    cases named : logfileOf (Value.lookup "logfile" entries) with
    | error cause =>
      rw [ofEntries, limited, named] at failed
      cases failed
      unfold logfileOf at named
      split at named
      · cases named
      · cases named
      · split at named <;> cases named
    | ok name =>
      rw [ofEntries_of_values limited named] at failed
      split at failed
      · cases failed
      · split at failed
        · cases failed
        · exact keys (Outcome.map_eq_error_iff.mp failed)

private theorem demanded_eq_notMapping_iff : demanded path value = .error (.notMapping path) ↔ Foreign value := by
  refine ⟨fun refused => ⟨?_, fun entries mapping => ?_⟩, demanded_of_foreign⟩
  · rintro rfl
    exact ofEntries_ne_notMapping refused
  · subst mapping
    exact ofEntries_ne_notMapping refused

theorem ofDocument_of_hollow (hollow : Hollow value) : ofDocument path value = .ok {} := by
  unfold ofDocument
  rw [hollow.not_isTruthy, if_neg Bool.false_ne_true, ofEntries_nil]

theorem ofDocument_of_solid (solid : ¬ Hollow value) : ofDocument path value = demanded path value := by
  unfold ofDocument
  split
  next full =>
    split
    next => rfl
    next notMapping =>
      have foreign : Foreign value := ⟨fun null => by simp [null, Value.isTruthy] at full, notMapping⟩
      exact (demanded_of_foreign foreign).symm
  next empty =>
    have plain : ¬ Foreign value := fun foreign =>
      solid (hollow_iff.mpr ⟨Bool.not_eq_true _ ▸ empty, foreign⟩)
    cases value with
    | null => rfl
    | mapping entries =>
      obtain rfl : entries = [] := by simpa [Value.isTruthy] using empty
      rfl
    | _ => exact (plain ⟨nofun, nofun⟩).elim

private theorem load_of_reads (reads : Reads directory path (.ok value)) :
    load directory (.text path) = ofDocument path value := by
  obtain ⟨place, content, found, read⟩ := reads
  simp only [load, ofFile, found, read]

/-- A file is loaded as demanded unless the document in it is hollow. A hollow one is taken for nothing
and leaves the defaults; every other document that is neither nothing nor a mapping is refused, and
the reason given is that it is no mapping. -/
theorem load_as_demanded_iff (reads : Reads directory path (.ok value)) :
    (load directory (.text path) = demanded path value ↔ ¬ Hollow value) ∧
    (Hollow value → load directory (.text path) = .ok {} ∧ demanded path value = .error (.notMapping path)) ∧
    (load directory (.text path) = .error (.notMapping path) ↔ Foreign value ∧ ¬ Hollow value) ∧
    Error.kind (.notMapping path) = .refused ∧
    Error.message (.notMapping path) = "Config file " ++ path ++ " does not contain a mapping" := by
  rw [load_of_reads reads]
  refine ⟨⟨fun same hollow => ?_, ofDocument_of_solid⟩,
    fun hollow => ⟨ofDocument_of_hollow hollow, demanded_of_foreign hollow.foreign⟩,
    ⟨fun refused => ?_, fun ⟨foreign, solid⟩ => ?_⟩, rfl, rfl⟩
  · rw [ofDocument_of_hollow hollow, demanded_of_foreign hollow.foreign] at same
    cases same
  · have solid : ¬ Hollow value := fun hollow => by
      rw [ofDocument_of_hollow hollow] at refused
      cases refused
    rw [ofDocument_of_solid solid] at refused
    exact ⟨demanded_eq_notMapping_iff.mp refused, solid⟩
  · rw [ofDocument_of_solid solid, demanded_of_foreign foreign]

/-- A file with a list of two numbers is refused. -/
theorem load_as_demanded_listed :
    let directory : Directory := ⟨⟨[("cfg.yaml", .file "- 1\n- 2\n")]⟩⟩
    Reads directory "cfg.yaml" (.ok (.list [.int 1, .int 2])) ∧
    load directory (.text "cfg.yaml") = .error (.notMapping "cfg.yaml") := by
  intro directory
  have reads : Reads directory "cfg.yaml" (.ok (.list [.int 1, .int 2])) :=
    ⟨{ names := ["cfg.yaml"] }, "- 1\n- 2\n", by decide +kernel, by decide +kernel⟩
  obtain ⟨_, _, refused, _⟩ := load_as_demanded_iff reads
  exact ⟨reads, refused.mpr ⟨⟨nofun, nofun⟩, nofun⟩⟩

/-- An empty list, a falsehood, a zero and an empty text are no mappings, but they load as the
defaults. -/
theorem hollow_documents_load :
    Document.read "[]\n" = .ok (.list []) ∧ demanded "cfg.yaml" (.list []) = .error (.notMapping "cfg.yaml") ∧
    load ⟨⟨[("cfg.yaml", .file "[]\n")]⟩⟩ (.text "cfg.yaml") = .ok {} ∧
    load ⟨⟨[("cfg.yaml", .file "false\n")]⟩⟩ (.text "cfg.yaml") = .ok {} ∧
    load ⟨⟨[("cfg.yaml", .file "0\n")]⟩⟩ (.text "cfg.yaml") = .ok {} ∧
    load ⟨⟨[("cfg.yaml", .file "''\n")]⟩⟩ (.text "cfg.yaml") = .ok {} := by
  decide +kernel

end Demands
end Intcode.Settings
