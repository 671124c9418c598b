import Mathlib.Data.List.Perm.Subperm
import Intcode.Document

/-! Objects that form a tree: no collection stands in two places, and none in itself. From
everywhere such an object looks like one value, whatever else is known about the objects, and that
value is the one a document shows. -/

namespace Intcode.Document

/-- A value that a scalar can have. -/
def Single (value : Value) : Prop := ∀ pairs, value ≠ .mapping pairs

mutual

/-- What an object looks like, and the collections in it, each as often as it stands there. -/
inductive Stands (objects : Objects) : NodeId → Value → List NodeId → Prop where
  | scalar {id : NodeId} (made : objects.object? id = some (.scalar key)) (single : Single key.value) :
      Stands objects id key.value []
  | list {id : NodeId} (made : objects.object? id = some (.list items)) (all : StandAll objects items values used)
      (apart : id ∉ used) : Stands objects id (.list values) (id :: used)
  | mapping {id : NodeId} (made : objects.object? id = some (.mapping entries))
      (all : StandUnder objects entries pairs used) (apart : id ∉ used) :
      Stands objects id (.mapping pairs) (id :: used)

/-- What the items of a list look like. -/
inductive StandAll (objects : Objects) : List NodeId → List Value → List NodeId → Prop where
  | nil : StandAll objects [] [] []
  | cons {id : NodeId} {value : Value} (first : Stands objects id value used)
      (rest : StandAll objects ids values others) : StandAll objects (id :: ids) (value :: values) (used ++ others)

/-- What the entries of a mapping look like. -/
inductive StandUnder (objects : Objects) : List (Key × NodeId) → List (Value × Value) → List NodeId → Prop where
  | nil : StandUnder objects [] [] []
  | cons {id : NodeId} {value : Value} (first : Stands objects id value used)
      (rest : StandUnder objects entries pairs others) :
      StandUnder objects ((key, id) :: entries) ((key.value, value) :: pairs) (used ++ others)

end

section Looks

variable {objects : Objects}

mutual

/-- An object looks like one value and holds the same collections each time. -/
theorem Stands.unique {id : NodeId} {value other : Value} {used used' : List NodeId}
    (stands : Stands objects id value used) (stands' : Stands objects id other used') : value = other ∧ used = used' := by
  cases stands with
  | scalar made =>
    cases stands' with
    | scalar made' =>
      rw [made] at made'
      cases made'
      exact ⟨rfl, rfl⟩
    | list made' | mapping made' =>
      rw [made] at made'
      cases made'
  | list made all =>
    cases stands' with
    | list made' all' =>
      rw [made] at made'
      cases made'
      obtain ⟨rfl, rfl⟩ := StandAll.unique all all'
      exact ⟨rfl, rfl⟩
    | scalar made' | mapping made' =>
      rw [made] at made'
      cases made'
  | mapping made all =>
    cases stands' with
    | mapping made' all' =>
      rw [made] at made'
      cases made'
      obtain ⟨rfl, rfl⟩ := StandUnder.unique all all'
      exact ⟨rfl, rfl⟩
    | scalar made' | list made' =>
      rw [made] at made'
      cases made'

theorem StandAll.unique {ids : List NodeId} {values others : List Value} {used used' : List NodeId}
    (all : StandAll objects ids values used) (all' : StandAll objects ids others used') :
    values = others ∧ used = used' := by
  cases all with
  | nil =>
    cases all'
    exact ⟨rfl, rfl⟩
  | cons first rest =>
    cases all' with
    | cons first' rest' =>
      obtain ⟨rfl, rfl⟩ := Stands.unique first first'
      obtain ⟨rfl, rfl⟩ := StandAll.unique rest rest'
      exact ⟨rfl, rfl⟩

theorem StandUnder.unique {entries : List (Key × NodeId)} {pairs pairs' : List (Value × Value)} {used used' : List NodeId}
    (all : StandUnder objects entries pairs used) (all' : StandUnder objects entries pairs' used') :
    pairs = pairs' ∧ used = used' := by
  cases all with
  | nil =>
    cases all'
    exact ⟨rfl, rfl⟩
  | cons first rest =>
    cases all' with
    | cons first' rest' =>
      obtain ⟨rfl, rfl⟩ := Stands.unique first first'
      obtain ⟨rfl, rfl⟩ := StandUnder.unique rest rest'
      exact ⟨rfl, rfl⟩

end

theorem object?_lt {id : NodeId} {object : Object} (made : objects.object? id = some object) : id < objects.size := by
  by_contra outside
  rw [Objects.object?, Array.getElem?_eq_none (Nat.not_lt.mp outside)] at made
  cases made

mutual

theorem Stands.lt_size {id : NodeId} {value : Value} {used : List NodeId} (stands : Stands objects id value used) :
    ∀ other ∈ used, other < objects.size := by
  cases stands with
  | scalar => exact List.forall_mem_nil _
  | list made all => exact List.forall_mem_cons.mpr ⟨object?_lt made, StandAll.lt_size all⟩
  | mapping made all => exact List.forall_mem_cons.mpr ⟨object?_lt made, StandUnder.lt_size all⟩

theorem StandAll.lt_size {ids : List NodeId} {values : List Value} {used : List NodeId}
    (all : StandAll objects ids values used) : ∀ other ∈ used, other < objects.size := by
  cases all with
  | nil => exact List.forall_mem_nil _
  | cons first rest => exact List.forall_mem_append.mpr ⟨Stands.lt_size first, StandAll.lt_size rest⟩

theorem StandUnder.lt_size {entries : List (Key × NodeId)} {pairs : List (Value × Value)} {used : List NodeId}
    (all : StandUnder objects entries pairs used) : ∀ other ∈ used, other < objects.size := by
  cases all with
  | nil => exact List.forall_mem_nil _
  | cons first rest => exact List.forall_mem_append.mpr ⟨Stands.lt_size first, StandUnder.lt_size rest⟩

end

end Looks

section Viewing

variable {objects : Objects}

/-- What is known of some objects is what they look like. -/
def Told (objects : Objects) (known : Known) : Prop :=
  ∀ id value, (known[id]?).join = some value → ∃ used, Stands objects id value used

/-- The collections on the way to an object do not stand in it. -/
structure Around (objects : Objects) (path used : List NodeId) : Prop where
  apart : ∀ id ∈ path, id ∉ used
  collections : ∀ id ∈ path, ∀ key, objects.object? id ≠ some (.scalar key)

theorem Around.mono {path used used' : List NodeId} (around : Around objects path used) (subset : used' ⊆ used) :
    Around objects path used' :=
  ⟨fun id member stands => around.apart id member (subset stands), around.collections⟩

theorem Around.inside {path used : List NodeId} {id : NodeId} {object : Object}
    (around : Around objects path (id :: used)) (made : objects.object? id = some object)
    (collection : ∀ key, object ≠ .scalar key) (apart : id ∉ used) : Around objects (id :: path) used where
  apart := List.forall_mem_cons.mpr ⟨apart, (around.mono (List.subset_cons_self ..)).apart⟩
  collections := List.forall_mem_cons.mpr ⟨fun key same => collection key (Option.some.inj (made.symm.trans same)),
    around.collections⟩

private theorem told_nothing (objects : Objects) (size : Nat) : Told objects (Array.replicate size none) := by
  intro id value known
  rw [Array.getElem?_replicate] at known
  split at known <;> cases known

theorem Told.set {known : Known} {id : NodeId} {value : Value} {used : List NodeId} (told : Told objects known)
    (stands : Stands objects id value used) : Told objects (known.setIfInBounds id (some value)) := by
  intro other held found
  rw [Array.getElem?_setIfInBounds] at found
  split at found
  next same =>
    subst same
    split at found
    · cases found
      exact ⟨used, stands⟩
    · cases found
  next => exact told other held found

def plain (values : List Value) : List View := values.map (⟨·, none⟩)

private theorem outermostOf_plain (values : List Value) : View.outermostOf (plain values) = none := by
  unfold View.outermostOf plain
  induction values with
  | nil => rfl
  | cons value rest ih => exact ih

private theorem values_plain (values : List Value) : (plain values).map View.value = values := by
  simp [plain, Function.comp_def]

variable {fuel : Nat} {path : List NodeId} {id : NodeId} {known known' : Known}

private theorem view_of_known {value : Value} (told : (known[id]?).join = some value) :
    (objects.view (fuel + 1) path id).run known = (⟨value, none⟩, known) := by
  rw [Objects.view]
  simp only [StateT.run_bind, StateT.run_get, told, pure_bind]
  rfl

private theorem view_of_scalar {key : Key} (untold : (known[id]?).join = none) (outside : id ∉ path)
    (made : objects.object? id = some (.scalar key)) :
    (objects.view (fuel + 1) path id).run known = (⟨key.value, none⟩, known) := by
  rw [Objects.view]
  simp only [StateT.run_bind, StateT.run_get, untold, pure_bind, made, List.idxOf?_eq_none_iff.mpr outside]
  rfl

private theorem view_of_list {items : List NodeId} {values : List Value} (untold : (known[id]?).join = none)
    (outside : id ∉ path) (made : objects.object? id = some (.list items))
    (all : (items.mapM (objects.view fuel (id :: path))).run known = (plain values, known')) :
    (objects.view (fuel + 1) path id).run known =
      (⟨.list values, none⟩, known'.setIfInBounds id (some (.list values))) := by
  rw [Objects.view]
  simp only [StateT.run_bind, StateT.run_get, untold, pure_bind, made, List.idxOf?_eq_none_iff.mpr outside]
  rw [show _ = (pure (plain values, known') : Id _) from all]
  simp only [pure_bind, outermostOf_plain, values_plain]
  rfl

private theorem view_of_mapping {entries : List (Key × NodeId)} {pairs : List (Value × Value)}
    (untold : (known[id]?).join = none) (outside : id ∉ path) (made : objects.object? id = some (.mapping entries))
    (keys : (entries.map fun entry => entry.1.value) = pairs.map Prod.fst)
    (all : (entries.mapM fun entry => objects.view fuel (id :: path) entry.2).run known =
      (plain (pairs.map Prod.snd), known')) :
    (objects.view (fuel + 1) path id).run known =
      (⟨.mapping pairs, none⟩, known'.setIfInBounds id (some (.mapping pairs))) := by
  rw [Objects.view]
  simp only [StateT.run_bind, StateT.run_get, untold, pure_bind, made, List.idxOf?_eq_none_iff.mpr outside]
  rw [show _ = (pure (plain (pairs.map Prod.snd), known') : Id _) from all]
  simp only [pure_bind, outermostOf_plain, values_plain, keys, ← List.zip_of_prod rfl rfl]
  rfl

theorem run_bind_of_run {σ α β : Type} {first : StateM σ α} {next : α → StateM σ β} {result : α} {before after : σ}
    (ran : first.run before = (result, after)) : (first >>= next).run before = (next result).run after := by
  rw [StateT.run_bind, ran]
  rfl

theorem mapM_cons_run {σ α β : Type} {f : α → StateM σ β} {item : α} {items : List α} {result : β}
    {results : List β} {before middle after : σ} (first : (f item).run before = (result, middle))
    (rest : (items.mapM f).run middle = (results, after)) :
    ((item :: items).mapM f).run before = (result :: results, after) := by
  rw [List.mapM_cons, run_bind_of_run first, run_bind_of_run rest]
  rfl

theorem lengths_lt {used others : List NodeId} (enough : (used ++ others).length < fuel) :
    used.length < fuel ∧ others.length < fuel := by
  rw [List.length_append] at enough
  omega

private theorem StandUnder.keys_eq {entries : List (Key × NodeId)} {pairs : List (Value × Value)} {used : List NodeId}
    (all : StandUnder objects entries pairs used) :
    (entries.map fun entry => entry.1.value) = pairs.map Prod.fst := by
  cases all with
  | nil => rfl
  | cons first rest => rw [List.map_cons, List.map_cons, rest.keys_eq]

theorem Around.left {path used others : List NodeId} (around : Around objects path (used ++ others)) :
    Around objects path used := around.mono (List.subset_append_left ..)

theorem Around.right {path used others : List NodeId} (around : Around objects path (used ++ others)) :
    Around objects path others := around.mono (List.subset_append_right ..)

mutual

/-- An object looks like its value from everywhere, given enough fuel for the collections in it. -/
theorem Stands.viewed {id : NodeId} {value : Value} {used : List NodeId} (stands : Stands objects id value used)
    {fuel : Nat} {path : List NodeId} {known : Known} (enough : used.length < fuel)
    (around : Around objects path used) (told : Told objects known) :
    ∃ known', (objects.view fuel path id).run known = (⟨value, none⟩, known') ∧ Told objects known' := by
  obtain ⟨fuel, rfl⟩ : ∃ less, fuel = less + 1 := ⟨fuel - 1, by omega⟩
  cases found : (known[id]?).join with
  | some held =>
    obtain ⟨used', stands'⟩ := told id held found
    rw [(stands.unique stands').1]
    exact ⟨known, view_of_known found, told⟩
  | none =>
    cases stands with
    | scalar made =>
      have outside : id ∉ path := fun inside => around.collections id inside _ made
      exact ⟨known, view_of_scalar found outside made, told⟩
    | list made all apart =>
      have outside : id ∉ path := fun inside => around.apart id inside List.mem_cons_self
      have fewer := Nat.lt_of_succ_lt_succ enough
      obtain ⟨known', viewed, told'⟩ := StandAll.viewed all fewer (around.inside made nofun apart) told
      exact ⟨_, view_of_list found outside made viewed, told'.set (.list made all apart)⟩
    | mapping made all apart =>
      have outside : id ∉ path := fun inside => around.apart id inside List.mem_cons_self
      have fewer := Nat.lt_of_succ_lt_succ enough
      obtain ⟨known', viewed, told'⟩ := StandUnder.viewed all fewer (around.inside made nofun apart) told
      exact ⟨_, view_of_mapping found outside made all.keys_eq viewed, told'.set (.mapping made all apart)⟩

theorem StandAll.viewed {ids : List NodeId} {values : List Value} {used : List NodeId}
    (all : StandAll objects ids values used) {fuel : Nat} {path : List NodeId} {known : Known}
    (enough : used.length < fuel) (around : Around objects path used) (told : Told objects known) :
    ∃ known', (ids.mapM (objects.view fuel path)).run known = (plain values, known') ∧ Told objects known' := by
  cases all with
  | nil => exact ⟨known, rfl, told⟩
  | cons first rest =>
    obtain ⟨few, fewer⟩ := lengths_lt enough
    obtain ⟨middle, viewed, told'⟩ := Stands.viewed first few around.left told
    obtain ⟨known', viewed', told''⟩ := StandAll.viewed rest fewer around.right told'
    exact ⟨known', mapM_cons_run viewed viewed', told''⟩

theorem StandUnder.viewed {entries : List (Key × NodeId)} {pairs : List (Value × Value)} {used : List NodeId}
    (all : StandUnder objects entries pairs used) {fuel : Nat} {path : List NodeId} {known : Known}
    (enough : used.length < fuel) (around : Around objects path used) (told : Told objects known) :
    ∃ known', (entries.mapM fun entry => objects.view fuel path entry.2).run known =
      (plain (pairs.map Prod.snd), known') ∧ Told objects known' := by
  cases all with
  | nil => exact ⟨known, rfl, told⟩
  | cons first rest =>
    obtain ⟨few, fewer⟩ := lengths_lt enough
    obtain ⟨middle, viewed, told'⟩ := Stands.viewed first few around.left told
    obtain ⟨known', viewed', told''⟩ := StandUnder.viewed rest fewer around.right told'
    exact ⟨known', mapM_cons_run viewed viewed', told''⟩

end

end Viewing

section Trees

/-- The object at a number is a tree of this value: no collection stands in it twice. -/
structure TreeOf (objects : Objects) (id : NodeId) (value : Value) (used : List NodeId) : Prop where
  stands : Stands objects id value used
  once : used.Nodup

variable {objects : Objects} {id : NodeId} {value : Value} {used : List NodeId}

private theorem around_nothing (objects : Objects) (used : List NodeId) : Around objects [] used :=
  ⟨List.forall_mem_nil _, List.forall_mem_nil _⟩

theorem length_le_size (once : used.Nodup) (below : ∀ id ∈ used, id < objects.size) : used.length ≤ objects.size := by
  have within : used ⊆ List.range objects.size := fun id member => List.mem_range.mpr (below id member)
  simpa using (List.subperm_of_subset once within).length_le

theorem Stands.looked (stands : Stands objects id value used) (enough : used.length < objects.size + 1)
    {known : Known} (told : Told objects known) :
    ∃ known', (objects.look id).run known = (value, known') ∧ Told objects known' := by
  obtain ⟨known', viewed, told'⟩ := stands.viewed enough (around_nothing objects used) told
  refine ⟨known', ?_, told'⟩
  rw [Objects.look, run_bind_of_run viewed]
  rfl

theorem StandUnder.looked {entries : List (Key × NodeId)} {pairs : List (Value × Value)} {used : List NodeId}
    (all : StandUnder objects entries pairs used) (enough : used.length < objects.size + 1) {known : Known}
    (told : Told objects known) :
    ∃ known', (entries.mapM fun (entry : Key × NodeId) => do return (entry.1.value, ← objects.look entry.2)).run known =
      (pairs, known') ∧ Told objects known' := by
  cases all with
  | nil => exact ⟨known, rfl, told⟩
  | cons first rest =>
    obtain ⟨few, fewer⟩ := lengths_lt enough
    obtain ⟨middle, looked, told'⟩ := first.looked few told
    obtain ⟨known', looked', told''⟩ := rest.looked fewer told'
    refine ⟨known', mapM_cons_run ?_ looked', told''⟩
    rw [run_bind_of_run looked]
    rfl

/-- A document shows the value that its tree is of. -/
theorem TreeOf.value_eq (tree : TreeOf objects id value used) : objects.value id = value := by
  obtain ⟨stands, once⟩ := tree
  have told := told_nothing objects objects.size
  have few := Nat.lt_succ_of_le (length_le_size once stands.lt_size)
  unfold Objects.value
  cases stands with
  | scalar made single =>
    obtain ⟨known, looked, _⟩ := (Stands.scalar made single).looked few told
    rw [made]
    exact congrArg Prod.fst looked
  | list made all apart =>
    obtain ⟨known, looked, _⟩ := (Stands.list made all apart).looked few told
    rw [made]
    exact congrArg Prod.fst looked
  | mapping made all apart =>
    obtain ⟨known, looked, _⟩ := all.looked (Nat.lt_of_succ_lt few) told
    rw [made]
    exact congrArg Prod.fst (run_bind_of_run looked)

end Trees
end Intcode.Document
