import ResponsesApiStore.Json.Serde

/-!
# Nesting

The depth of a document is the number of arrays and objects that are open at its deepest point.
Readers bound it: `Serde.Limited limit S` says that `S` reads what it has printed exactly up to
the depth `limit`, and accepts nothing deeper. Normalising a document does not make it deeper
(`depth_normalise_le`), and an object is as deep as its members make it
(`Value.depth_le_succ_iff`).

`Serde.bounded` puts such a limit on a codec that has none.
-/

namespace Json

variable {N : Type}

/-! ### The depth of a document -/

mutual

/-- How many arrays and objects are open at the deepest point. -/
def depth : Json N → ℕ
  | array items => depthItems items + 1
  | object fields => depthFields fields + 1
  | _ => 0

def depthItems : List (Json N) → ℕ
  | [] => 0
  | j :: items => max j.depth (depthItems items)

def depthFields : List (String × Json N) → ℕ
  | [] => 0
  | (_, j) :: fields => max j.depth (depthFields fields)

end

theorem depthItems_le_iff {items : List (Json N)} {n : ℕ} :
    depthItems items ≤ n ↔ ∀ j ∈ items, j.depth ≤ n := by
  induction items with
  | nil => simp [depthItems]
  | cons j items ih => simp [depthItems, ih]

theorem depthFields_le_iff {fields : List (String × Json N)} {n : ℕ} :
    depthFields fields ≤ n ↔ ∀ f ∈ fields, f.2.depth ≤ n := by
  induction fields with
  | nil => simp [depthFields]
  | cons f fields ih => simp [depthFields, ih]

theorem depth_array_le_iff {items : List (Json N)} {n : ℕ} :
    (array items).depth ≤ n ↔ 1 ≤ n ∧ ∀ j ∈ items, j.depth + 1 ≤ n := by
  rw [depth]
  rcases n with _ | n
  · simp
  · simp [depthItems_le_iff]

theorem depth_object_le_iff {fields : List (String × Json N)} {n : ℕ} :
    (object fields).depth ≤ n ↔ 1 ≤ n ∧ ∀ f ∈ fields, f.2.depth + 1 ≤ n := by
  rw [depth]
  rcases n with _ | n
  · simp
  · simp [depthFields_le_iff]

mutual

/-- Normalising does not make a document deeper. -/
theorem depth_normalise_le : (j : Json N) → j.normalise.depth ≤ j.depth
  | array items => by
    rw [normalise, depth, depth]
    exact Nat.succ_le_succ (depthItems_normaliseItems_le items)
  | object fields => by
    rw [normalise, depth, depth]
    refine Nat.succ_le_succ ((depthFields_normaliseFields_le fields []).trans ?_)
    simp [depthFields]
  | null | bool _ | number _ | string _ => by simp [normalise, depth]

theorem depthItems_normaliseItems_le : (items : List (Json N)) →
    depthItems (normaliseItems items) ≤ depthItems items
  | [] => le_rfl
  | j :: items => by
    rw [normaliseItems, depthItems, depthItems]
    exact max_le_max (depth_normalise_le j) (depthItems_normaliseItems_le items)

theorem depthFields_normaliseFields_le : (fields acc : List (String × Json N)) →
    depthFields (normaliseFields acc fields) ≤ max (depthFields acc) (depthFields fields)
  | [], acc => le_max_left _ _
  | (key, j) :: fields, acc => by
    rw [normaliseFields]
    refine (depthFields_normaliseFields_le fields _).trans ?_
    have hinsert : depthFields (insertField key j.normalise acc) ≤
        max (depthFields acc) j.depth := by
      refine depthFields_le_iff.mpr fun f hf => ?_
      rcases mem_insertField hf with rfl | hf
      · exact (depth_normalise_le j).trans (le_max_right _ _)
      · exact (depthFields_le_iff.mp le_rfl f hf).trans (le_max_left _ _)
    rw [depthFields]
    omega

end

mutual

/-- Numbers do not nest. -/
@[simp]
theorem depth_mapNumbers (f : N → N) : (j : Json N) → (j.mapNumbers f).depth = j.depth
  | array items => by rw [mapNumbers, depth, depth, depthItems_mapItems]
  | object fields => by rw [mapNumbers, depth, depth, depthFields_mapFields]
  | null | bool _ | number _ | string _ => rfl

theorem depthItems_mapItems (f : N → N) : (items : List (Json N)) →
    depthItems (mapItems f items) = depthItems items
  | [] => rfl
  | j :: items => by
    rw [mapItems, depthItems, depthItems, depth_mapNumbers, depthItems_mapItems]

theorem depthFields_mapFields (f : N → N) : (fields : List (String × Json N)) →
    depthFields (mapFields f fields) = depthFields fields
  | [] => rfl
  | (key, j) :: fields => by
    rw [mapFields, depthFields, depthFields, depth_mapNumbers, depthFields_mapFields]

end

theorem depth_keepFields_mapNumbers (f : N → N) (names : List String) (j : Json N) :
    ((j.mapNumbers f).keepFields names).depth = (j.keepFields names).depth := by
  cases j with
  | object fields =>
    have hfilter : (mapFields f fields).filter (fun g => g.1 ∈ names) =
        mapFields f (fields.filter fun g => g.1 ∈ names) := by
      rw [mapFields_eq, mapFields_eq, List.filter_map]
      rfl
    rw [mapNumbers, keepFields, keepFields, hfilter, depth, depth, depthFields_mapFields]
  | array items => exact depth_mapNumbers f (array items)
  | _ => rfl

namespace Value

/-- The depth of a value. -/
def depth (v : Value N) : ℕ := v.1.depth

@[simp]
theorem depth_mapNumbers (f : N → N) (v : Value N) : (v.mapNumbers f).depth = v.depth :=
  Json.depth_mapNumbers f v.1

theorem depth_ofTree_le (j : Json N) : (ofTree j).depth ≤ j.depth := depth_normalise_le j

/-- An object is one deeper than its deepest member. -/
theorem depth_le_succ_iff {v : Value N} {n : ℕ} (hv : v.isObject = true) :
    v.depth ≤ n + 1 ↔ ∀ k x, v.get k = some x → x.depth ≤ n := by
  obtain ⟨t, ht⟩ := v
  cases t with
  | object fields =>
    rw [depth, Json.depth, Nat.succ_le_succ_iff, depthFields_le_iff]
    constructor
    · intro h k x hx
      exact h (k, x.1) (lookupField_mem (get_eq_some_iff.mp hx))
    · intro h f hf
      exact h f.1 ⟨f.2, orderedFields_iff.mp ht.2 f hf⟩
        (get_eq_some_iff.mpr (lookupField_of_mem ht.1 hf))
  | _ => cases hv

/-- An object built from members is at most one deeper than they are. -/
theorem depth_ofFields_le {fields : List (String × Value N)} {n : ℕ}
    (h : ∀ f ∈ fields, f.2.depth ≤ n) : (ofFields fields).depth ≤ n + 1 := by
  refine (depth_ofTree_le _).trans (Nat.succ_le_succ (depthFields_le_iff.mpr fun f hf => ?_))
  obtain ⟨g, hg, rfl⟩ := List.mem_map.mp hf
  exact h g hg

end Value

/-! ### Readers with a limit -/

namespace Serde

/-- A text that was printed is read exactly if its document is not nested deeper than `limit`,
into a structure exactly if the fields of the structure are not, and nothing deeper is accepted. -/
structure Limited (limit : ℕ) (S : Serde N) : Prop where
  reads_iff : ∀ {j : Json N} {s : String}, S.toString j = .ok s →
    ((∃ j', S.fromStr s = .ok j') ↔ j.depth ≤ limit)
  accepts : ∀ {j : Json N} {s : String}, S.fromStr s = .ok j → j.depth ≤ limit
  structs_iff : ∀ {names : List String} {j : Json N} {s : String}, S.toString j = .ok s →
    ((∃ j', S.fromStruct names s = .ok j') ↔ (j.keepFields names).depth ≤ limit)
  accepts_struct : ∀ {names : List String} {j : Json N} {s : String},
    S.fromStruct names s = .ok j → j.depth ≤ limit

/-- Refuse documents that are nested deeper than `limit`. -/
def atMost (limit : ℕ) (x : Except String (Json N)) : Except String (Json N) :=
  match x with
  | .ok j => if j.depth ≤ limit then .ok j else .error "recursion limit exceeded"
  | .error e => .error e

theorem atMost_eq_ok_iff {limit : ℕ} {x : Except String (Json N)} {j : Json N} :
    atMost limit x = .ok j ↔ x = .ok j ∧ j.depth ≤ limit := by
  rcases x with e | j'
  · simp [atMost]
  · rw [atMost]
    split_ifs with hdepth
    · constructor
      · rintro ⟨⟩
        exact ⟨rfl, hdepth⟩
      · rintro ⟨⟨⟩, -⟩
        rfl
    · constructor
      · intro h
        cases h
      · rintro ⟨⟨⟩, hle⟩
        exact absurd hle hdepth

/-- Read nothing that is nested deeper than `limit`. -/
def bounded (S : Serde N) (limit : ℕ) : Serde N :=
  { S with
    fromStr := fun s => atMost limit (S.fromStr s)
    fromStruct := fun names s => atMost limit (S.fromStruct names s)
    fromStr_toString := fun h h' => S.fromStr_toString h (atMost_eq_ok_iff.mp h').1
    fromStruct_toString := fun h h' => S.fromStruct_toString h (atMost_eq_ok_iff.mp h').1 }

/-- If a codec reads all it prints, then with a limit it reads all up to the limit. -/
theorem limited_bounded {S : Serde N} (limit : ℕ)
    (hreads : ∀ {j : Json N} {s : String}, S.toString j = .ok s →
      S.fromStr s = .ok (j.mapNumbers S.reread))
    (hstructs : ∀ {names : List String} {j : Json N} {s : String}, S.toString j = .ok s →
      S.fromStruct names s = .ok ((j.mapNumbers S.reread).keepFields names)) :
    (S.bounded limit).Limited limit where
  reads_iff := by
    intro j s h
    show (∃ j', atMost limit (S.fromStr s) = .ok j') ↔ _
    simp only [atMost_eq_ok_iff, hreads h, Except.ok.injEq, exists_eq_left', depth_mapNumbers]
  accepts h := (atMost_eq_ok_iff.mp h).2
  structs_iff := by
    intro names j s h
    show (∃ j', atMost limit (S.fromStruct names s) = .ok j') ↔ _
    simp only [atMost_eq_ok_iff, hstructs h, Except.ok.injEq, exists_eq_left',
      depth_keepFields_mapNumbers]
  accepts_struct h := (atMost_eq_ok_iff.mp h).2

section OfTable

variable [DecidableEq N] {table : List (Json N × String)} {hdistinct : (table.map Prod.snd).Nodup}
  {ofI64 : Int64 → N} {asI64 : N → Option Int64} {hI64 : ∀ n, asI64 (ofI64 n) = some n} {j : Json N}
  {s : String}

/-- What a table prints stands in it. -/
theorem mem_table (h : (ofTable table hdistinct ofI64 asI64 hI64).toString j = .ok s) :
    table.find? (fun p => p.2 = s) = some (j, s) := by
  have hmem : (j, s) ∈ table := by
    simp only [ofTable, ofTableRereading] at h
    split at h
    · rename_i p hp
      obtain rfl := Except.ok.inj h
      have hpj : p.1 = j := by simpa using List.find?_some hp
      exact hpj ▸ List.mem_of_find?_eq_some hp
    · cases h
  rcases hfind : table.find? (fun p => p.2 = s) with _ | p
  · exact absurd (List.find?_eq_none.mp hfind (j, s) hmem) (by simp)
  · have hps : p.2 = s := by simpa using List.find?_some hfind
    have hpair : p = (j, s) :=
      List.inj_on_of_nodup_map hdistinct (List.mem_of_find?_eq_some hfind) hmem hps
    rw [hfind, hpair]

/-- A codec given by a table reads all it prints. -/
theorem fromStr_ofTable (h : (ofTable table hdistinct ofI64 asI64 hI64).toString j = .ok s) :
    (ofTable table hdistinct ofI64 asI64 hI64).fromStr s = .ok (j.mapNumbers id) := by
  simp only [ofTable, ofTableRereading, mem_table h]

theorem fromStruct_ofTable (names : List String)
    (h : (ofTable table hdistinct ofI64 asI64 hI64).toString j = .ok s) :
    (ofTable table hdistinct ofI64 asI64 hI64).fromStruct names s =
      .ok ((j.mapNumbers id).keepFields names) := by
  simp only [ofTable, ofTableRereading, mem_table h]

/-- A table with a limit. -/
theorem limited_ofTable (limit : ℕ) :
    ((ofTable table hdistinct ofI64 asI64 hI64).bounded limit).Limited limit :=
  limited_bounded limit fromStr_ofTable (fromStruct_ofTable _)

end OfTable

end Serde

end Json
