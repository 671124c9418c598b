import Intcode.Proofs.Filling
import Intcode.Proofs.ObjectTrees

/-! The results of a run are stored among the objects of a document: one block changes wherever it
stands. Where no collection stands twice, that is the change of one entry of the record's value, and
no collection stands twice afterwards. -/

namespace Intcode.Document

section Keeping

variable {objects objects' : Objects} {id : NodeId} {changed : List NodeId}

/-- No object is lost, and those that change are collections. -/
structure Keeps (objects objects' : Objects) (changed : List NodeId) : Prop where
  same : ∀ id object, objects.object? id = some object → id ∉ changed → objects'.object? id = some object
  collections : ∀ id ∈ changed, ∀ key, objects.object? id ≠ some (.scalar key)

theorem Keeps.trans {objects'' : Objects} {changed' : List NodeId} (first : Keeps objects objects' changed)
    (second : Keeps objects' objects'' changed') : Keeps objects objects'' (changed ++ changed') where
  same id object made apart := by
    rw [List.mem_append, not_or] at apart
    exact second.same id object (first.same id object made apart.1) apart.2
  collections id member key made := by
    by_cases before : id ∈ changed
    · exact first.collections id before key made
    · have after := (List.mem_append.mp member).resolve_left before
      exact second.collections id after key (first.same id _ made before)

mutual

/-- What no changed collection stands in looks the same afterwards. -/
theorem Stands.frame {id : NodeId} {value : Value} {used : List NodeId} (stands : Stands objects id value used)
    (keeps : Keeps objects objects' changed) (apart : ∀ other ∈ changed, other ∉ used) :
    Stands objects' id value used := by
  cases stands with
  | scalar made single =>
    have kept : id ∉ changed := fun member => keeps.collections id member _ made
    exact .scalar (keeps.same id _ made kept) single
  | list made all fresh =>
    have kept : id ∉ changed := fun member => apart id member List.mem_cons_self
    have below : ∀ other ∈ changed, _ := fun other member inside => apart other member (List.mem_cons_of_mem _ inside)
    exact .list (keeps.same id _ made kept) (StandAll.frame all keeps below) fresh
  | mapping made all fresh =>
    have kept : id ∉ changed := fun member => apart id member List.mem_cons_self
    have below : ∀ other ∈ changed, _ := fun other member inside => apart other member (List.mem_cons_of_mem _ inside)
    exact .mapping (keeps.same id _ made kept) (StandUnder.frame all keeps below) fresh

theorem StandAll.frame {ids : List NodeId} {values : List Value} {used : List NodeId}
    (all : StandAll objects ids values used) (keeps : Keeps objects objects' changed)
    (apart : ∀ other ∈ changed, other ∉ used) : StandAll objects' ids values used := by
  cases all with
  | nil => exact .nil
  | cons first rest =>
    exact .cons (Stands.frame first keeps fun other member inside => apart other member (List.mem_append_left _ inside))
      (StandAll.frame rest keeps fun other member inside => apart other member (List.mem_append_right _ inside))

theorem StandUnder.frame {entries : List (Key × NodeId)} {pairs : List (Value × Value)} {used : List NodeId}
    (all : StandUnder objects entries pairs used) (keeps : Keeps objects objects' changed)
    (apart : ∀ other ∈ changed, other ∉ used) : StandUnder objects' entries pairs used := by
  cases all with
  | nil => exact .nil
  | cons first rest =>
    exact .cons (Stands.frame first keeps fun other member inside => apart other member (List.mem_append_left _ inside))
      (StandUnder.frame rest keeps fun other member inside => apart other member (List.mem_append_right _ inside))

end

end Keeping

section Adding

end Adding

section Assigning

variable {objects : Objects} {name : String}

theorem isSame_name (key : Key) (name : String) : key.isSame ⟨.text name, none⟩ = key.value.sameKey (.text name) := by
  simp [Key.isSame, Value.isNaN]

private theorem lookup_cons_name (name : String) (entry : Key × NodeId) (rest : List (Key × NodeId)) :
    Objects.lookup name (entry :: rest) =
      if entry.1.value.sameKey (.text name) then some entry.2 else Objects.lookup name rest := by
  simp only [Objects.lookup, List.find?_cons, isSame_name]
  cases entry.1.value.sameKey (.text name) <;> rfl

private theorem assign_cons_name (name : String) (id : NodeId) (entry : Key × NodeId) (rest : List (Key × NodeId)) :
    Objects.assign ⟨.text name, none⟩ id (entry :: rest) =
      if entry.1.value.sameKey (.text name) then (entry.1, id) :: rest
      else entry :: Objects.assign ⟨.text name, none⟩ id rest := by
  rw [← isSame_name]
  rfl

theorem StandUnder.lookup {entries : List (Key × NodeId)} {pairs : List (Value × Value)} {used : List NodeId}
    (all : StandUnder objects entries pairs used) (name : String) :
    Objects.lookup name entries = none ∧ Value.lookup name pairs = none ∨
      ∃ id value own, Objects.lookup name entries = some id ∧ Value.lookup name pairs = some value ∧
        Stands objects id value own ∧ own ⊆ used := by
  cases all with
  | nil => exact .inl ⟨rfl, rfl⟩
  | @cons _ _ _ _ key id value first rest =>
    rw [lookup_cons_name, Value.lookup_cons]
    by_cases same : key.value.sameKey (.text name) = true
    · rw [if_pos same, if_pos same]
      exact .inr ⟨_, _, _, rfl, rfl, first, List.subset_append_left ..⟩
    · rw [if_neg same, if_neg same]
      rcases rest.lookup name with missing | ⟨id, value, own, found, found', stands, within⟩
      · exact .inl missing
      · exact .inr ⟨id, value, own, found, found', stands, List.subset_append_of_subset_right _ within⟩

theorem StandUnder.assign {entries : List (Key × NodeId)} {pairs : List (Value × Value)} {used : List NodeId}
    (all : StandUnder objects entries pairs used) {id : NodeId} {value : Value} {own : List NodeId}
    (stands : Stands objects id value own) (name : String) :
    ∃ used', StandUnder objects (Objects.assign ⟨.text name, none⟩ id entries)
      (Value.assign (.text name) value pairs) used' ∧ used'.Subperm (used ++ own) := by
  cases all with
  | nil =>
    have alone : StandUnder objects (Objects.assign ⟨.text name, none⟩ id []) (Value.assign (.text name) value [])
        (own ++ []) := .cons stands .nil
    exact ⟨own ++ [], alone, by rw [List.append_nil, List.nil_append]⟩
  | @cons own' _ _ others key id' value' first rest =>
    rw [assign_cons_name, Value.assign_cons]
    by_cases same : key.value.sameKey (.text name) = true
    · rw [if_pos same, if_pos same]
      refine ⟨own ++ others, .cons stands rest, ?_⟩
      rw [List.append_assoc]
      exact List.perm_append_comm.subperm.trans (List.sublist_append_right ..).subperm
    · rw [if_neg same, if_neg same]
      obtain ⟨used', all', fewer⟩ := rest.assign stands name
      refine ⟨own' ++ used', .cons first all', ?_⟩
      rw [List.append_assoc]
      exact (List.subperm_append_left own').mpr fewer

/-- Everything in a mapping looks the same but for one entry, whose object has changed. -/
theorem StandUnder.replace {objects' : Objects} {entries : List (Key × NodeId)} {pairs : List (Value × Value)}
    {used : List NodeId} (all : StandUnder objects entries pairs used) (once : used.Nodup) {id : NodeId}
    {value value' : Value} {own own' extra : List NodeId} (found : Objects.lookup name entries = some id)
    (stands : Stands objects id value own) (collection : id ∈ own) (keeps : Keeps objects objects' [id])
    (stands' : Stands objects' id value' own') (more : own'.Subperm (own ++ extra)) :
    ∃ used', StandUnder objects' entries (Value.assign (.text name) value' pairs) used' ∧
      used'.Subperm (used ++ extra) := by
  cases all with
  | nil => cases found
  | @cons first_own _ _ others key id' old first rest =>
    obtain ⟨_, once_rest, disjoint⟩ := List.nodup_append.mp once
    rw [lookup_cons_name] at found
    rw [Value.assign_cons]
    by_cases same : key.value.sameKey (.text name) = true
    · rw [if_pos same] at found ⊢
      cases found
      obtain ⟨rfl, rfl⟩ := first.unique stands
      have elsewhere : ∀ other ∈ [id'], other ∉ others :=
        List.forall_mem_singleton.mpr fun inside => disjoint id' collection id' inside rfl
      refine ⟨own' ++ others, .cons stands' (rest.frame keeps elsewhere), ?_⟩
      have swap : (first_own ++ extra ++ others).Perm (first_own ++ others ++ extra) := by
        rw [List.append_assoc, List.append_assoc]
        exact List.perm_append_comm.append_left first_own
      exact ((List.subperm_append_right others).mpr more).trans swap.subperm
    · rw [if_neg same] at found ⊢
      have within : id ∈ others := by
        rcases rest.lookup name with ⟨missing, _⟩ | ⟨_, _, _, found', _, stands'', within⟩
        · rw [found] at missing
          cases missing
        · rw [found] at found'
          cases found'
          rw [(stands.unique stands'').2] at collection
          exact within collection
      have elsewhere : ∀ other ∈ [id], other ∉ first_own :=
        List.forall_mem_singleton.mpr fun inside => disjoint id inside id within rfl
      obtain ⟨used', all', fewer⟩ := rest.replace once_rest found stands collection keeps stands' more
      refine ⟨first_own ++ used', .cons (first.frame keeps elsewhere) all', ?_⟩
      rw [List.append_assoc]
      exact (List.subperm_append_left first_own).mpr fewer

end Assigning

section Storing

open Record (observed observedObjects store blockKey blockEntries)

variable {objects : Objects} {id : NodeId} {block : List (Key × NodeId)} {pairs : List (Value × Value)}
  {used : List NodeId}

variable {document : Document} {root : NodeId} {record held : List (Value × Value)} {entries : List (Key × NodeId)}

section Blocks

variable {own : List NodeId}

end Blocks

end Storing
end Intcode.Document
