import Mathlib.Data.List.Forall2
import UtxoChain.Json.Value

/-!
# Reading the parts of a JSON value

A record that is written with distinct names gives back the values of its fields, and a list whose
items are read back is read back. Whatever a reader finds in a value is smaller than the value: the
size of a value counts the characters of its texts and the items of its lists and records.
-/

namespace UtxoChain.Json

section

variable {α β γ : Type}

/-- Items that are read one by one are read as a list. -/
theorem mapM_map_eq_some {read : β → Option γ} {write : α → β} {value : α → γ} {items : List α}
    (h : ∀ item ∈ items, read (write item) = some (value item)) :
    (items.map write).mapM read = some (items.map value) := by
  induction items with
  | nil => rfl
  | cons item items ih =>
    rw [List.forall_mem_cons] at h
    rw [List.map_cons, List.mapM_cons, h.1, ih h.2]
    rfl

/-- A list that is read has been read item by item. -/
theorem forall₂_of_mapM {read : α → Option β} {items : List α} {values : List β}
    (h : items.mapM read = some values) :
    List.Forall₂ (fun item value => read item = some value) items values := by
  induction items generalizing values with
  | nil =>
    obtain rfl := Option.some.inj h
    exact .nil
  | cons item items ih =>
    rw [List.mapM_cons] at h
    obtain ⟨first, hFirst, h⟩ := Option.bind_eq_some_iff.1 h
    obtain ⟨others, hOthers, h⟩ := Option.bind_eq_some_iff.1 h
    rw [← Option.some.inj h]
    exact .cons hFirst (ih hOthers)

end

/-! ## Sizes -/

mutual

/-- The characters of the texts of a value, and the items of its lists and records. -/
def size : Json → Nat
  | .text content => content.length
  | .array items => sizeItems items
  | .object members => sizeMembers members
  | _ => 0

/-- The items of a list, with their sizes. -/
def sizeItems : List Json → Nat
  | [] => 0
  | item :: rest => size item + 1 + sizeItems rest

/-- The members of a record, with the sizes of their values. -/
def sizeMembers : List (String × Json) → Nat
  | [] => 0
  | (_, value) :: rest => size value + 1 + sizeMembers rest

end

/-- A list has no more items than its size. -/
theorem length_le_sizeItems (items : List Json) : items.length ≤ sizeItems items := by
  induction items with
  | nil => exact Nat.le_refl _
  | cons item items ih =>
    rw [List.length_cons, sizeItems]
    omega

/-- An item is smaller than its list. -/
theorem size_le_sizeItems {item : Json} {items : List Json} (h : item ∈ items) :
    item.size ≤ sizeItems items := by
  induction items with
  | nil => exact absurd h List.not_mem_nil
  | cons first items ih =>
    rw [sizeItems]
    rcases List.mem_cons.1 h with rfl | h
    · omega
    · have := ih h
      omega

/-- The size of a record is that of the list of its values. -/
theorem sizeMembers_eq (members : List (String × Json)) :
    sizeMembers members = sizeItems (members.map Prod.snd) := by
  induction members with
  | nil => rfl
  | cons member members ih =>
    obtain ⟨name, value⟩ := member
    rw [sizeMembers, List.map_cons, sizeItems, ih]

/-- The value of a member is smaller than the record. -/
theorem size_le_sizeMembers {member : String × Json} {members : List (String × Json)}
    (h : member ∈ members) : member.2.size ≤ sizeMembers members := by
  rw [sizeMembers_eq]
  exact size_le_sizeItems (List.mem_map_of_mem h)

/-! ## Fields -/

/-- Among distinct names each member is found under its own. -/
theorem member?_of_mem {members : List (String × Json)}
    (hNames : (members.map Prod.fst).Nodup) {member : String × Json} (h : member ∈ members) :
    member? members member.1 = some (some member.2) := by
  have hOnly : members.filter (fun other => other.1 == member.1) = [member] := by
    induction members with
    | nil => exact absurd h List.not_mem_nil
    | cons first members ih =>
      rw [List.map_cons, List.nodup_cons] at hNames
      rcases List.mem_cons.1 h with rfl | h
      · have hOthers : members.filter (fun other => other.1 == member.1) = [] := by
          rw [List.filter_eq_nil_iff]
          intro other hOther hSame
          rw [← beq_iff_eq.1 hSame] at hNames
          exact hNames.1 (List.mem_map_of_mem hOther)
        simp [hOthers]
      · have hOther : first.1 ≠ member.1 := by
          intro hSame
          rw [hSame] at hNames
          exact hNames.1 (List.mem_map_of_mem h)
        simp [hOther, ih hNames.2 h]
  rw [member?, hOnly]

/-- A record with distinct names gives back the values of its fields, in order. -/
theorem fields?_object {names : List String} {members : List (String × Json)}
    (hDistinct : names.Nodup) (hNames : members.map Prod.fst = names) :
    fields? names (.object members) = some (members.map fun member => some member.2) := by
  subst hNames
  exact mapM_map_eq_some fun _ hMember => member?_of_mem hDistinct hMember

/-- A field that is found is no larger than the record. -/
theorem size_le_of_fields? {names : List String} {json : Json} {fields : List (Option Json)}
    (h : fields? names json = some fields) {field : Json} (hField : some field ∈ fields) :
    field.size ≤ json.size := by
  cases json with
  | object members =>
    -- The field is the value of a member of its name.
    obtain ⟨index, hIndex, hAt⟩ := List.getElem_of_mem hField
    have hEach := List.forall₂_iff_get.1 (forall₂_of_mapM h)
    have hFound := hEach.2 index (by omega) hIndex
    rw [List.get_eq_getElem, List.get_eq_getElem, hAt] at hFound
    unfold member? at hFound
    split at hFound
    · exact absurd (Option.some.inj hFound) nofun
    · rename_i member hOnly
      obtain rfl := Option.some.inj (Option.some.inj hFound)
      have hMember : member ∈ members := List.mem_of_mem_filter (hOnly ▸ List.mem_singleton_self _)
      rw [size]
      exact size_le_sizeMembers hMember
    · exact absurd hFound nofun
  | array items =>
    dsimp only [fields?] at h
    split_ifs at h
    rw [← Option.some.inj h, List.mem_append, List.mem_replicate] at hField
    rw [size]
    rcases hField with hField | ⟨-, hNone⟩
    · obtain ⟨item, hItem, hSame⟩ := List.mem_map.1 hField
      rw [← Option.some.inj hSame]
      exact size_le_sizeItems hItem
    · exact absurd hNone nofun
  | _ => exact absurd h nofun

/-! ## Lists and words -/

/-- A list whose items are read back is read back. -/
theorem toList?_array {α : Type} {read : Json → Option α} {write : α → Json} {items : List α}
    (h : ∀ item ∈ items, read (write item) = some item) :
    (Json.array (items.map write)).toList? read = some items := by
  rw [toList?, mapM_map_eq_some h, List.map_id']

/-- A list that is read has no more items than the size of its document, and each of them is read
from a document that is no larger. -/
theorem of_toList? {α : Type} {read : Json → Option α} {json : Json} {values : List α}
    (h : json.toList? read = some values) :
    values.length ≤ json.size ∧
      ∀ value ∈ values, ∃ item : Json, item.size ≤ json.size ∧ read item = some value := by
  cases json with
  | array items =>
    rw [size]
    have hEach := forall₂_of_mapM h
    refine ⟨?_, ?_⟩
    · rw [← hEach.length_eq]
      exact length_le_sizeItems items
    · intro value hValue
      obtain ⟨index, hIndex, rfl⟩ := List.getElem_of_mem hValue
      have hLength := hEach.length_eq
      exact ⟨items[index], size_le_sizeItems (List.getElem_mem _),
        (List.forall₂_iff_get.1 hEach).2 index (by omega) hIndex⟩
  | _ => exact absurd h nofun

/-- A number below the bound is read back. -/
theorem toNat?_natural {bound n : Nat} (h : n < bound) : (Json.natural n).toNat? bound = some n :=
  if_pos h

end UtxoChain.Json
