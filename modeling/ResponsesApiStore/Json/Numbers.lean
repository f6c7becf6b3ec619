import ResponsesApiStore.Json.Tree
import Mathlib.Logic.Function.Iterate

/-!
# Numbers of a document

`Json.mapNumbers f` replaces every number of a document by its value under `f` and leaves the
rest of the document as it is: members, strings and the order of everything. So it maps values to
values (`Value.mapNumbers`), and all that a program sees of a value besides its numbers, the names
of its members and its strings among them, is the same before and after.
-/

namespace Json

variable {N : Type} (f : N → N)

mutual

/-- Replace every number `n` by `f n`. -/
def mapNumbers : Json N → Json N
  | number n => number (f n)
  | array items => array (mapItems items)
  | object fields => object (mapFields fields)
  | null => null
  | bool b => bool b
  | string s => string s

def mapItems : List (Json N) → List (Json N)
  | [] => []
  | j :: items => j.mapNumbers :: mapItems items

def mapFields : List (String × Json N) → List (String × Json N)
  | [] => []
  | (key, j) :: fields => (key, j.mapNumbers) :: mapFields fields

end

theorem mapItems_eq (items : List (Json N)) : mapItems f items = items.map (mapNumbers f) := by
  induction items with
  | nil => rfl
  | cons j items ih => rw [mapItems, ih, List.map_cons]

theorem mapFields_eq (fields : List (String × Json N)) :
    mapFields f fields = fields.map fun g => (g.1, g.2.mapNumbers f) := by
  induction fields with
  | nil => rfl
  | cons g fields ih => rw [mapFields, ih, List.map_cons]

theorem lookupField_mapFields (key : String) (fields : List (String × Json N)) :
    lookupField key (mapFields f fields) = (lookupField key fields).map (mapNumbers f) := by
  induction fields with
  | nil => rfl
  | cons g fields ih =>
    rw [mapFields, lookupField, lookupField]
    split_ifs
    · rfl
    · exact ih

mutual

/-- The keys stay where they are. -/
theorem ordered_mapNumbers : {j : Json N} → j.Ordered → (j.mapNumbers f).Ordered
  | array items, h => by
    rw [mapNumbers]
    exact orderedItems_mapItems h
  | object fields, h => by
    have hkeys : (mapFields f fields).Pairwise fun a b => a.1 < b.1 := by
      rw [mapFields_eq, List.pairwise_map]
      exact h.1
    rw [mapNumbers]
    exact ⟨hkeys, orderedFields_mapFields h.2⟩
  | null, _ | bool _, _ | number _, _ | string _, _ => trivial

theorem orderedItems_mapItems : {items : List (Json N)} → OrderedItems items →
    OrderedItems (mapItems f items)
  | [], _ => trivial
  | _ :: _, h => ⟨ordered_mapNumbers h.1, orderedItems_mapItems h.2⟩

theorem orderedFields_mapFields : {fields : List (String × Json N)} → OrderedFields fields →
    OrderedFields (mapFields f fields)
  | [], _ => trivial
  | _ :: _, h => ⟨ordered_mapNumbers h.1, orderedFields_mapFields h.2⟩

end

mutual

/-- Numbers that are replaced by themselves. -/
theorem mapNumbers_of_fixed (hf : ∀ n, f n = n) : (j : Json N) → j.mapNumbers f = j
  | number n => by rw [mapNumbers, hf]
  | array items => by rw [mapNumbers, mapItems_of_fixed hf]
  | object fields => by rw [mapNumbers, mapFields_of_fixed hf]
  | null | bool _ | string _ => rfl

theorem mapItems_of_fixed (hf : ∀ n, f n = n) : (items : List (Json N)) → mapItems f items = items
  | [] => rfl
  | j :: items => by rw [mapItems, mapNumbers_of_fixed hf, mapItems_of_fixed hf]

theorem mapFields_of_fixed (hf : ∀ n, f n = n) :
    (fields : List (String × Json N)) → mapFields f fields = fields
  | [] => rfl
  | (key, j) :: fields => by rw [mapFields, mapNumbers_of_fixed hf, mapFields_of_fixed hf]

end

namespace Value

/-- Replace every number `n` of a value by `f n`. -/
def mapNumbers (v : Value N) : Value N := ⟨v.1.mapNumbers f, ordered_mapNumbers f v.2⟩

@[simp]
theorem mapNumbers_of_fixed (hf : ∀ n, f n = n) (v : Value N) : v.mapNumbers f = v :=
  Subtype.ext (Json.mapNumbers_of_fixed f hf v.1)

/-- A value that is read from its tree. -/
@[simp]
theorem ofTree_mapNumbers (v : Value N) : ofTree (v.1.mapNumbers f) = v.mapNumbers f :=
  ofTree_val (v.mapNumbers f)

@[simp]
theorem asStr_mapNumbers (v : Value N) : (v.mapNumbers f).asStr = v.asStr := by
  obtain ⟨j, hj⟩ := v
  cases j <;> rfl

theorem lookup_mapNumbers (v : Value N) (key : String) :
    (v.mapNumbers f).lookup key = (v.lookup key).map (Json.mapNumbers f) := by
  obtain ⟨j, hj⟩ := v
  cases j with
  | object fields => exact lookupField_mapFields f key fields
  | _ => rfl

@[simp]
theorem get_mapNumbers (v : Value N) (key : String) :
    (v.mapNumbers f).get key = (v.get key).map (mapNumbers f) := by
  have hval : ((v.mapNumbers f).get key).map Subtype.val =
      ((v.get key).map (mapNumbers f)).map Subtype.val := by
    have hget : ∀ v : Value N, (v.get key).map Subtype.val = v.lookup key := fun v => by
      rw [get, Option.map_pmap, Option.pmap_eq_map, Option.map_id']
    rw [hget, lookup_mapNumbers, ← hget, Option.map_map, Option.map_map]
    rfl
  exact Option.map_injective Subtype.val_injective hval

end Value

end Json
