import Intcode.Proofs.Entries
import Intcode.Proofs.SettingsErrors
import Intcode.Proofs.ValueEquality

/-! Accepted settings are normal forms. What they are is said key by key, each by the value under
its own key alone; so they load as themselves, and no order of the keys matters. -/

namespace Intcode.Settings

/-- What a mapping holds under a name. A null counts as nothing. -/
def held (name : String) (given : List (Value × Value)) : Value := (Value.lookup name given).getD .null

def limitValue : Option Int → Value
  | none => .null
  | some limit => .int limit

def toEntries (settings : Settings) : List (Value × Value) :=
  [(.text "trace", .bool settings.trace), (.text "step_limit", limitValue settings.stepLimit),
    (.text "logfile", .text settings.logfile), (.text "debug", .bool settings.debug)]

/-- A mapping in which the entries of another are set, one after the other. -/
def overlay (base : List (Value × Value)) (given : List (Value × Value)) : List (Value × Value) :=
  given.foldl (fun laid entry => Value.assign entry.1 entry.2 laid) base

/-- Settings that a mapping is accepted as. -/
structure Settled (given : List (Value × Value)) (settings : Settings) : Prop where
  trace : settings.trace = flag (held "trace" given)
  debug : settings.debug = flag (held "debug" given)
  limit : limitOf (some (held "step_limit" given)) = .ok settings.stepLimit
  logfile : logfileOf (some (held "logfile" given)) = .ok settings.logfile
  positive : ∀ limit, settings.stepLimit = some limit → 0 < limit
  named : settings.logfile ≠ ""
  known : ∀ entry ∈ given, isKnown entry.1 = true

section Accepting

variable {given : List (Value × Value)} {settings : Settings}

theorem flag_held (name : String) (given : List (Value × Value)) :
    (Value.lookup name given).any flag = flag (held name given) := by
  unfold held
  cases Value.lookup name given <;> rfl

private theorem limitOf_held (given : List (Value × Value)) :
    limitOf (Value.lookup "step_limit" given) = limitOf (some (held "step_limit" given)) := by
  unfold held
  cases Value.lookup "step_limit" given <;> rfl

private theorem logfileOf_held (given : List (Value × Value)) :
    logfileOf (Value.lookup "logfile" given) = logfileOf (some (held "logfile" given)) := by
  unfold held
  cases Value.lookup "logfile" given <;> rfl

private theorem checkKeys_eq_ok_iff : checkKeys given = .ok () ↔ ∀ entry ∈ given, isKnown entry.1 = true := by
  have none : (given.map Prod.fst).filter (!isKnown ·) = [] ↔ ∀ entry ∈ given, isKnown entry.1 = true := by
    simp [List.filter_eq_nil_iff]
  rw [← none]
  unfold checkKeys
  split
  next known => exact ⟨fun _ => known, fun _ => rfl⟩
  next found =>
    refine ⟨fun passed => ?_, fun known => (found known).elim⟩
    obtain ⟨sorted, _, passed⟩ := Outcome.bind_eq_ok_iff.mp passed
    obtain ⟨texts, _, passed⟩ := Outcome.bind_eq_ok_iff.mp passed
    cases passed

private theorem isAboveZero_iff {limit : Option Int} :
    limit.any (· ≤ 0) = false ↔ ∀ number, limit = some number → 0 < number := by
  cases limit <;> simp

theorem ofEntries_eq_ok_iff : ofEntries given = .ok settings ↔ Settled given settings := by
  constructor
  · intro accepted
    cases limited : limitOf (Value.lookup "step_limit" given) with
    | error cause => rw [ofEntries, limited] at accepted; cases accepted
    | ok limit =>
      cases named : logfileOf (Value.lookup "logfile" given) with
      | error cause => rw [ofEntries, limited, named] at accepted; cases accepted
      | ok name =>
        rw [ofEntries_of_values limited named] at accepted
        split at accepted
        next => cases accepted
        next positive =>
          split at accepted
          next => cases accepted
          next nonempty =>
            obtain ⟨_, passed, rfl⟩ := Outcome.map_eq_ok_iff.mp accepted
            exact {
              trace := flag_held "trace" given
              debug := flag_held "debug" given
              limit := (limitOf_held given).symm.trans limited
              logfile := (logfileOf_held given).symm.trans named
              positive := isAboveZero_iff.mp (Bool.not_eq_true _ ▸ positive)
              named := nonempty
              known := checkKeys_eq_ok_iff.mp passed }
  · intro settled
    have limited := (limitOf_held given).trans settled.limit
    have named := (logfileOf_held given).trans settled.logfile
    rw [ofEntries_of_values limited named, isAboveZero_iff.mpr settled.positive, if_neg Bool.false_ne_true,
      if_neg settled.named, checkKeys_eq_ok_iff.mpr settled.known, flag_held, flag_held, ← settled.trace,
      ← settled.debug]
    rfl

/-- The conversions leave alone what they made, so settings load as themselves. -/
theorem Settled.again (settled : Settled given settings) : Settled settings.toEntries settings where
  trace := rfl
  debug := rfl
  limit := by
    change limitOf (some (limitValue settings.stepLimit)) = _
    cases settings.stepLimit <;> rfl
  logfile := rfl
  positive := settled.positive
  named := settled.named
  known := by simp [toEntries, isKnown, keys]

theorem Settled.of_held {other : List (Value × Value)} (settled : Settled given settings)
    (known : ∀ entry ∈ other, isKnown entry.1 = true) (same : ∀ name ∈ keys, held name other = held name given) :
    Settled other settings where
  trace := by rw [same "trace" (by decide), settled.trace]
  debug := by rw [same "debug" (by decide), settled.debug]
  limit := by rw [same "step_limit" (by decide), settled.limit]
  logfile := by rw [same "logfile" (by decide), settled.logfile]
  positive := settled.positive
  named := settled.named
  known := known

theorem Settled.perm {other : List (Value × Value)} (settled : Settled given settings)
    (distinct : (given.map Prod.fst).Nodup) (perm : given.Perm other) : Settled other settings := by
  refine settled.of_held (fun entry member => settled.known entry (perm.mem_iff.mpr member)) fun name _ => ?_
  rw [held, held, Value.lookup_perm distinct perm]

theorem Settled.lookup_eq {other : List (Value × Value)} {others : Settings} {name : String}
    (settled : Settled given settings) (settled' : Settled other others)
    (same : held name other = held name given) :
    Value.lookup name others.toEntries = Value.lookup name settings.toEntries := by
  simp only [toEntries, Value.lookup]
  by_cases first : "trace" = name
  · subst first
    rw [if_pos rfl, if_pos rfl, settled.trace, settled'.trace, same]
  rw [if_neg first, if_neg first]
  by_cases second : "step_limit" = name
  · subst second
    have limits := settled'.limit
    rw [same, settled.limit] at limits
    rw [if_pos rfl, if_pos rfl, Except.ok.inj limits]
  rw [if_neg second, if_neg second]
  by_cases third : "logfile" = name
  · subst third
    have logfiles := settled'.logfile
    rw [same, settled.logfile] at logfiles
    rw [if_pos rfl, if_pos rfl, Except.ok.inj logfiles]
  rw [if_neg third, if_neg third]
  by_cases fourth : "debug" = name
  · subst fourth
    rw [if_pos rfl, if_pos rfl, settled.debug, settled'.debug, same]
  rw [if_neg fourth, if_neg fourth]

private theorem settled_nil : Settled [] {} := ofEntries_eq_ok_iff.mp rfl

theorem overlay_known {limit : Value} {trace debug logfile : Value} (known : ∀ entry ∈ given, isKnown entry.1 = true) :
    ∃ trace' limit' logfile' debug', overlay [(.text "trace", trace), (.text "step_limit", limit),
        (.text "logfile", logfile), (.text "debug", debug)] given =
      [(.text "trace", trace'), (.text "step_limit", limit'), (.text "logfile", logfile'), (.text "debug", debug')] := by
  induction given generalizing trace limit logfile debug with
  | nil => exact ⟨trace, limit, logfile, debug, rfl⟩
  | cons entry rest ih =>
    obtain ⟨first, later⟩ := List.forall_mem_cons.mp known
    obtain ⟨key, value⟩ := entry
    cases key with
    | text name =>
      have named : name ∈ keys := List.contains_iff_mem.mp first
      simp only [keys, List.mem_cons, List.not_mem_nil, or_false] at named
      rcases named with rfl | rfl | rfl | rfl <;> exact ih later
    | _ => cases first

/-- The defaults, the given entries and then the converted values are laid over one another: what
is left are the converted values alone. -/
theorem Settled.overlay_eq (settled : Settled given settings) :
    overlay (overlay ({} : Settings).toEntries given) settings.toEntries = settings.toEntries := by
  obtain ⟨_, _, _, _, laid⟩ := overlay_known settled.known
  rw [toEntries, laid]
  rfl

end Accepting

/-- The entries that a source of settings gives: none, those of a mapping, or those of the mapping in
a file. -/
inductive Gives (directory : Directory) : Value → List (Value × Value) → Prop where
  | nothing : Gives directory .null []
  | mapping : Gives directory (.mapping given) given
  | file (reads : Reads directory path (.ok (.mapping given))) : Gives directory (.text path) given

theorem Gives.load_eq {directory : Directory} {source : Value} {given : List (Value × Value)}
    (gives : Gives directory source given) : load directory source = ofEntries given := by
  cases gives with
  | nothing | mapping => rfl
  | file reads =>
    obtain ⟨place, content, found, read⟩ := reads
    simp only [load, ofFile, found, read, ofDocument]
    cases given <;> rfl

/-- A mapping in a file loads as it does outright. The settings that it is accepted as are a mapping
of the four keys, with two truth values, a positive limit if there is one, and a file name; they are
accepted as themselves. Each of them follows from the value under its own key and is the default if
that is absent or null, in whatever order the keys come. -/
theorem load_normalizes {directory : Directory} {source : Value} {given : List (Value × Value)}
    (gives : Gives directory source given) :
    load directory source = load directory (.mapping given) ∧
    ∀ settings, load directory source = .ok settings →
      overlay (overlay ({} : Settings).toEntries given) settings.toEntries = settings.toEntries ∧
      settings.toEntries.map Prod.fst = [.text "trace", .text "step_limit", .text "logfile", .text "debug"] ∧
      (∀ limit, settings.stepLimit = some limit → 0 < limit) ∧ settings.logfile ≠ "" ∧
      load directory (.mapping settings.toEntries) = .ok settings ∧
      (∀ directory' source' given' settings', Gives directory' source' given' →
        load directory' source' = .ok settings' → ∀ name, held name given' = held name given →
        Value.lookup name settings'.toEntries = Value.lookup name settings.toEntries) ∧
      (∀ name, held name given = .null →
        Value.lookup name settings.toEntries = Value.lookup name ({} : Settings).toEntries) ∧
      (∀ given', (∀ entry ∈ given', isKnown entry.1 = true) →
        (∀ name ∈ keys, held name given' = held name given) → load directory (.mapping given') = .ok settings) ∧
      ∀ given', (given.map Prod.fst).Nodup → given.Perm given' → load directory (.mapping given') = .ok settings := by
  refine ⟨gives.load_eq, fun settings loaded => ?_⟩
  rw [gives.load_eq] at loaded
  have settled := ofEntries_eq_ok_iff.mp loaded
  refine ⟨settled.overlay_eq, rfl, settled.positive, settled.named, ofEntries_eq_ok_iff.mpr settled.again,
    ?_, fun name missing => settled_nil.lookup_eq settled missing, ?_, ?_⟩
  · intro directory' source' given' settings' gives' loaded' name same
    rw [gives'.load_eq] at loaded'
    exact settled.lookup_eq (ofEntries_eq_ok_iff.mp loaded') same
  · exact fun given' known same => ofEntries_eq_ok_iff.mpr (settled.of_held known same)
  · exact fun given' distinct perm => ofEntries_eq_ok_iff.mpr (settled.perm distinct perm)

/-- A padded word for the truth, digits with an underscore, a number for a file name and a null: the
settings in the file load as themselves, and with the keys in another order. -/
theorem load_normalizes_padded :
    let directory : Directory := ⟨⟨[("cfg.yaml", .file "logfile: 7\ntrace: ' Yes '\ndebug: ~\nstep_limit: '+5_00 '\n")]⟩⟩
    let given : List (Value × Value) := [(.text "logfile", .int 7), (.text "trace", .text " Yes "),
      (.text "debug", .null), (.text "step_limit", .text "+5_00 ")]
    Gives directory (.text "cfg.yaml") given ∧
    load directory (.text "cfg.yaml") = .ok { trace := true, stepLimit := some 500, logfile := "7" } ∧
    load directory (.mapping given.reverse) = .ok { trace := true, stepLimit := some 500, logfile := "7" } ∧
    load directory (.mapping [(.text "trace", .bool true), (.text "step_limit", .int 500),
      (.text "logfile", .text "7"), (.text "debug", .bool false)]) =
        .ok { trace := true, stepLimit := some 500, logfile := "7" } := by
  intro directory given
  have reads : Reads directory "cfg.yaml" (.ok (.mapping given)) :=
    ⟨{ names := ["cfg.yaml"] }, "logfile: 7\ntrace: ' Yes '\ndebug: ~\nstep_limit: '+5_00 '\n", by decide +kernel,
      by decide +kernel⟩
  have loaded : load directory (.text "cfg.yaml") = .ok { trace := true, stepLimit := some 500, logfile := "7" } := by
    decide +kernel
  obtain ⟨_, normal⟩ := load_normalizes (.file reads)
  obtain ⟨_, _, _, _, again, _, _, _, reordered⟩ := normal _ loaded
  exact ⟨.file reads, loaded, reordered _ (by decide) (List.reverse_perm _).symm, again⟩

end Intcode.Settings
