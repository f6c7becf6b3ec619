import Mathlib.Data.String.Basic
import Mathlib.Data.List.Pairwise

/-!
# JSON documents and values

`Json N` is the tree of a JSON text, members in text order and duplicates kept, over an
arbitrary type `N` of numbers. A *value* is what a reader builds in memory from a document:
the same tree with every object a sorted map, its keys strictly increasing. `Json.Value N`
is the subtype of those trees, so an object with two members of one name, or two values that
differ only in member order, cannot be built.

* `Json.normalise` turns a document into a value: members are inserted one after the other,
  a later duplicate replacing an earlier one. It is the identity on values
  (`normalise_of_ordered`).
* `Value.get`, `Value.asStr`, `Value.isObject` and `Value.set` are the accessors. Assigning
  through `set` follows the indexing convention of dynamically typed JSON libraries: on an
  object the member is inserted or replaced, `null` turns into an object first, and every
  other value refuses with a message. `get_of_set` is the read-after-write law.
-/

/-- The tree of a JSON text, over numbers in `N`. -/
inductive Json (N : Type)
  | null
  | bool (b : Bool)
  | number (n : N)
  | string (s : String)
  | array (items : List (Json N))
  | object (fields : List (String × Json N))

namespace Json

variable {N : Type}

/-! ### Decidable equality -/

section DecidableEq

variable [DecidableEq N]

mutual

/-- Equality of trees is decided along the structure. -/
def decEq : (a b : Json N) → Decidable (a = b)
  | null, null => isTrue rfl
  | bool a, bool b => decidable_of_iff (a = b) (by simp)
  | number a, number b => decidable_of_iff (a = b) (by simp)
  | string a, string b => decidable_of_iff (a = b) (by simp)
  | array a, array b =>
    match decEqItems a b with
    | isTrue h => isTrue (h ▸ rfl)
    | isFalse h => isFalse fun he => h (array.inj he)
  | object a, object b =>
    match decEqFields a b with
    | isTrue h => isTrue (h ▸ rfl)
    | isFalse h => isFalse fun he => h (object.inj he)
  | null, bool _ | null, number _ | null, string _ | null, array _ | null, object _
  | bool _, null | bool _, number _ | bool _, string _ | bool _, array _ | bool _, object _
  | number _, null | number _, bool _ | number _, string _ | number _, array _
  | number _, object _ | string _, null | string _, bool _ | string _, number _
  | string _, array _ | string _, object _ | array _, null | array _, bool _
  | array _, number _ | array _, string _ | array _, object _ | object _, null
  | object _, bool _ | object _, number _ | object _, string _ | object _, array _ =>
    isFalse (by simp)

def decEqItems : (a b : List (Json N)) → Decidable (a = b)
  | [], [] => isTrue rfl
  | [], _ :: _ | _ :: _, [] => isFalse (by simp)
  | a :: as, b :: bs =>
    match decEq a b, decEqItems as bs with
    | isTrue h, isTrue hs => isTrue (h ▸ hs ▸ rfl)
    | isFalse h, _ => isFalse fun he => h (List.cons.inj he).1
    | _, isFalse hs => isFalse fun he => hs (List.cons.inj he).2

def decEqFields : (a b : List (String × Json N)) → Decidable (a = b)
  | [], [] => isTrue rfl
  | [], _ :: _ | _ :: _, [] => isFalse (by simp)
  | (k, a) :: as, (l, b) :: bs =>
    match decEq a b, decEqFields as bs with
    | isTrue h, isTrue hs =>
      if hk : k = l then isTrue (by rw [h, hs, hk])
      else isFalse fun he => hk (Prod.ext_iff.mp (List.cons.inj he).1).1
    | isFalse h, _ => isFalse fun he => h (Prod.ext_iff.mp (List.cons.inj he).1).2
    | _, isFalse hs => isFalse fun he => hs (List.cons.inj he).2

end

instance : DecidableEq (Json N) := decEq

end DecidableEq

/-! ### Ordered objects -/

mutual

/-- Every object of the tree has strictly increasing keys. -/
def Ordered : Json N → Prop
  | array items => OrderedItems items
  | object fields => fields.Pairwise (fun a b => a.1 < b.1) ∧ OrderedFields fields
  | _ => True

def OrderedItems : List (Json N) → Prop
  | [] => True
  | j :: items => j.Ordered ∧ OrderedItems items

def OrderedFields : List (String × Json N) → Prop
  | [] => True
  | (_, j) :: fields => j.Ordered ∧ OrderedFields fields

end

theorem orderedFields_iff {fields : List (String × Json N)} :
    OrderedFields fields ↔ ∀ f ∈ fields, f.2.Ordered := by
  induction fields with
  | nil => simp [OrderedFields]
  | cons f fields ih => simp [OrderedFields, ih]

/-- Insert a member into a sorted object, replacing the member of the same name. -/
def insertField (key : String) (j : Json N) : List (String × Json N) → List (String × Json N)
  | [] => [(key, j)]
  | (k, x) :: fields =>
    if key = k then (key, j) :: fields
    else if key < k then (key, j) :: (k, x) :: fields
    else (k, x) :: insertField key j fields

theorem mem_insertField {key : String} {j : Json N} {fields : List (String × Json N)}
    {f : String × Json N} (h : f ∈ insertField key j fields) : f = (key, j) ∨ f ∈ fields := by
  induction fields with
  | nil => simpa [insertField] using h
  | cons g fields ih =>
    rw [insertField] at h
    split_ifs at h
    · rcases List.mem_cons.mp h with h | h
      · exact .inl h
      · exact .inr (List.mem_cons_of_mem _ h)
    · rcases List.mem_cons.mp h with h | h
      · exact .inl h
      · exact .inr h
    · rcases List.mem_cons.mp h with h | h
      · exact .inr (h ▸ List.mem_cons_self)
      · rcases ih h with h | h
        · exact .inl h
        · exact .inr (List.mem_cons_of_mem _ h)

theorem pairwise_insertField {key : String} {j : Json N} {fields : List (String × Json N)}
    (h : fields.Pairwise fun a b => a.1 < b.1) :
    (insertField key j fields).Pairwise fun a b => a.1 < b.1 := by
  induction fields with
  | nil => simp [insertField]
  | cons g fields ih =>
    obtain ⟨hg, hfields⟩ := List.pairwise_cons.mp h
    rw [insertField]
    split_ifs with heq hlt
    · exact List.pairwise_cons.mpr ⟨fun f hf => heq ▸ hg f hf, hfields⟩
    · refine List.pairwise_cons.mpr ⟨fun f hf => ?_, h⟩
      rcases List.mem_cons.mp hf with rfl | hf
      · exact hlt
      · exact hlt.trans (hg f hf)
    · refine List.pairwise_cons.mpr ⟨fun f hf => ?_, ih hfields⟩
      rcases mem_insertField hf with rfl | hf
      · exact lt_of_le_of_ne (not_lt.mp hlt) (Ne.symm heq)
      · exact hg f hf

theorem insertField_eq_append {key : String} {j : Json N} {fields : List (String × Json N)}
    (h : ∀ f ∈ fields, f.1 < key) : insertField key j fields = fields ++ [(key, j)] := by
  induction fields with
  | nil => rfl
  | cons g fields ih =>
    have hg : g.1 < key := h g List.mem_cons_self
    rw [insertField, if_neg hg.ne', if_neg hg.not_gt, ih fun f hf =>
      h f (List.mem_cons_of_mem _ hf), List.cons_append]

/-- The member of a given name, the first if there are several. -/
def lookupField (key : String) : List (String × Json N) → Option (Json N)
  | [] => none
  | (k, j) :: fields => if key = k then some j else lookupField key fields

theorem lookupField_mem {key : String} {j : Json N} {fields : List (String × Json N)}
    (h : lookupField key fields = some j) : (key, j) ∈ fields := by
  induction fields with
  | nil => simp [lookupField] at h
  | cons g fields ih =>
    rw [lookupField] at h
    split_ifs at h with hk
    · obtain rfl := Option.some.inj h
      exact hk ▸ List.mem_cons_self
    · exact List.mem_cons_of_mem _ (ih h)

/-- In a sorted object every member is found under its name. -/
theorem lookupField_of_mem {fields : List (String × Json N)} {f : String × Json N}
    (hsorted : fields.Pairwise fun a b => a.1 < b.1) (h : f ∈ fields) :
    lookupField f.1 fields = some f.2 := by
  induction fields with
  | nil => cases h
  | cons g fields ih =>
    obtain ⟨hlt, hrest⟩ := List.pairwise_cons.mp hsorted
    rw [lookupField]
    rcases List.mem_cons.mp h with rfl | hmem
    · rw [if_pos rfl]
    · rw [if_neg (hlt f hmem).ne', ih hrest hmem]

theorem lookupField_insertField (key k : String) (j : Json N) (fields : List (String × Json N)) :
    lookupField k (insertField key j fields) =
      if k = key then some j else lookupField k fields := by
  induction fields with
  | nil => simp [insertField, lookupField]
  | cons g fields ih =>
    by_cases hk : k = key
    · subst hk
      rw [if_pos rfl] at ih ⊢
      rw [insertField]
      split_ifs with heq hlt
      · simp [lookupField]
      · simp [lookupField]
      · rw [lookupField, if_neg heq, ih]
    · rw [if_neg hk] at ih ⊢
      rw [insertField]
      split_ifs with heq hlt
      · simp [lookupField, hk, ← heq]
      · simp [lookupField, hk]
      · rw [lookupField, ih, lookupField]

/-! ### Normalisation of documents -/

mutual

/-- Build the sorted maps of a document, bottom up. -/
def normalise : Json N → Json N
  | array items => array (normaliseItems items)
  | object fields => object (normaliseFields [] fields)
  | null => null
  | bool b => bool b
  | number n => number n
  | string s => string s

def normaliseItems : List (Json N) → List (Json N)
  | [] => []
  | j :: items => j.normalise :: normaliseItems items

/-- Insert the members into `acc` one after the other. -/
def normaliseFields (acc : List (String × Json N)) :
    List (String × Json N) → List (String × Json N)
  | [] => acc
  | (key, j) :: fields => normaliseFields (insertField key j.normalise acc) fields

end

mutual

theorem ordered_normalise : (j : Json N) → j.normalise.Ordered
  | array items => by
    rw [normalise]
    exact orderedItems_normaliseItems items
  | object fields => by
    rw [normalise]
    exact ordered_normaliseFields fields [] List.Pairwise.nil trivial
  | null | bool _ | number _ | string _ => trivial

theorem orderedItems_normaliseItems : (items : List (Json N)) →
    OrderedItems (normaliseItems items)
  | [] => trivial
  | j :: items => ⟨ordered_normalise j, orderedItems_normaliseItems items⟩

theorem ordered_normaliseFields : (fields acc : List (String × Json N)) →
    acc.Pairwise (fun a b => a.1 < b.1) → OrderedFields acc →
    (object (normaliseFields acc fields)).Ordered
  | [], _, hp, ho => ⟨hp, ho⟩
  | (key, j) :: fields, acc, hp, ho => by
    rw [normaliseFields]
    refine ordered_normaliseFields fields _ (pairwise_insertField hp) ?_
    refine orderedFields_iff.mpr fun f hf => ?_
    rcases mem_insertField hf with rfl | hf
    · exact ordered_normalise j
    · exact orderedFields_iff.mp ho f hf

end

mutual

/-- Normalisation does nothing to a value. -/
theorem normalise_of_ordered : (j : Json N) → j.Ordered → j.normalise = j
  | array items, h => by rw [normalise, normaliseItems_of_ordered items h]
  | object fields, h => by
    rw [normalise, normaliseFields_of_ordered fields [] h.2 (by simpa using h.1),
      List.nil_append]
  | null, _ | bool _, _ | number _, _ | string _, _ => rfl

theorem normaliseItems_of_ordered : (items : List (Json N)) → OrderedItems items →
    normaliseItems items = items
  | [], _ => rfl
  | j :: items, h => by
    rw [normaliseItems, normalise_of_ordered j h.1, normaliseItems_of_ordered items h.2]

theorem normaliseFields_of_ordered : (fields acc : List (String × Json N)) →
    OrderedFields fields → (acc ++ fields).Pairwise (fun a b => a.1 < b.1) →
    normaliseFields acc fields = acc ++ fields
  | [], acc, _, _ => by rw [normaliseFields, List.append_nil]
  | (key, j) :: fields, acc, h, hp => by
    have hlt : ∀ f ∈ acc, f.1 < key := fun f hf =>
      (List.pairwise_append.mp hp).2.2 f hf _ List.mem_cons_self
    have hassoc : acc ++ (key, j) :: fields = (acc ++ [(key, j)]) ++ fields := by simp
    rw [normaliseFields, normalise_of_ordered j h.1, insertField_eq_append hlt,
      normaliseFields_of_ordered fields _ h.2 (hassoc ▸ hp), hassoc]

end

/-! ### Values -/

/-- A JSON value in memory: a tree all of whose objects are sorted maps. -/
abbrev Value (N : Type) : Type := { j : Json N // j.Ordered }

/-- The name of a tree's constructor, as error messages print it. -/
def kind : Json N → String
  | null => "null"
  | bool _ => "boolean"
  | number _ => "number"
  | string _ => "string"
  | array _ => "array"
  | object _ => "object"

namespace Value

/-- The value of a document. -/
def ofTree (j : Json N) : Value N := ⟨j.normalise, ordered_normalise j⟩

@[simp]
theorem ofTree_val (v : Value N) : ofTree v.1 = v :=
  Subtype.ext (normalise_of_ordered v.1 v.2)

def str (s : String) : Value N := ⟨string s, trivial⟩

def ofBool (b : Bool) : Value N := ⟨bool b, trivial⟩

/-- The text of a string value. -/
def asStr (v : Value N) : Option String :=
  match v.1 with
  | string s => some s
  | _ => none

def isObject (v : Value N) : Bool :=
  match v.1 with
  | object _ => true
  | _ => false

/-- The tree of a member of an object. -/
def lookup (v : Value N) (key : String) : Option (Json N) :=
  match v.1 with
  | object fields => lookupField key fields
  | _ => none

theorem lookup_ordered {v : Value N} {key : String} {j : Json N} (h : v.lookup key = some j) :
    j.Ordered := by
  obtain ⟨t, ht⟩ := v
  cases t with
  | object fields => exact orderedFields_iff.mp ht.2 _ (lookupField_mem h)
  | _ => simp [lookup] at h

/-- The member of an object; no other value has members. -/
def get (v : Value N) (key : String) : Option (Value N) :=
  (v.lookup key).pmap (fun j h => ⟨j, h⟩) fun _ h => lookup_ordered h

theorem get_eq_some_iff {v x : Value N} {key : String} :
    v.get key = some x ↔ v.lookup key = some x.1 := by
  simp only [get, Option.pmap_eq_some_iff]
  constructor
  · rintro ⟨j, _, hj, rfl⟩
    exact hj
  · intro h
    exact ⟨x.1, x.2, h, rfl⟩

/-- Assign a member: the object's own insertion, `null` becoming an object first; other
values refuse. -/
def set (v : Value N) (key : String) (x : Value N) : Except String (Value N) :=
  match v with
  | ⟨object fields, h⟩ =>
    .ok ⟨object (insertField key x.1 fields), pairwise_insertField h.1,
      orderedFields_iff.mpr fun f hf => by
        rcases mem_insertField hf with rfl | hf
        · exact x.2
        · exact orderedFields_iff.mp h.2 f hf⟩
  | ⟨null, _⟩ => .ok ⟨object [(key, x.1)], by simp, x.2, trivial⟩
  | ⟨j, _⟩ => .error ("cannot access key \"" ++ key ++ "\" in JSON " ++ j.kind)

/-- The read-after-write law of assignment. -/
theorem get_of_set {v v' x : Value N} {key : String} (h : v.set key x = .ok v') (k : String) :
    v'.get k = if k = key then some x else v.get k := by
  have hlookup : v'.lookup k = if k = key then some x.1 else v.lookup k := by
    obtain ⟨t, ht⟩ := v
    cases t with
    | object fields =>
      obtain rfl := Except.ok.inj h
      exact lookupField_insertField key k x.1 fields
    | null =>
      obtain rfl := Except.ok.inj h
      simp [lookup, lookupField]
    | _ => simp [set] at h
  refine Option.ext fun y => ?_
  rw [get_eq_some_iff, hlookup]
  split_ifs
  · simp [Subtype.ext_iff]
  · rw [get_eq_some_iff]

theorem isObject_of_set {v v' x : Value N} {key : String} (h : v.set key x = .ok v') :
    v'.isObject = true := by
  obtain ⟨t, ht⟩ := v
  cases t with
  | object fields =>
    obtain rfl := Except.ok.inj h
    rfl
  | null =>
    obtain rfl := Except.ok.inj h
    rfl
  | _ => simp [set] at h

/-- Assignment never refuses on an object. -/
theorem exists_set_of_isObject {v : Value N} (h : v.isObject = true) (key : String)
    (x : Value N) : ∃ v', v.set key x = .ok v' := by
  obtain ⟨t, ht⟩ := v
  cases t with
  | object fields => exact ⟨_, rfl⟩
  | _ => simp [isObject] at h

/-- A value with a member is an object. -/
theorem isObject_of_get {v x : Value N} {key : String} (h : v.get key = some x) :
    v.isObject = true := by
  rw [get_eq_some_iff] at h
  obtain ⟨t, ht⟩ := v
  cases t with
  | object fields => rfl
  | _ => simp [lookup] at h

/-- The object with the given members, inserted in turn. -/
def ofFields (fields : List (String × Value N)) : Value N :=
  ofTree (object (fields.map fun f => (f.1, f.2.1)))

theorem lookupField_normaliseFields (k : String) (fields : List (String × Value N))
    (acc : List (String × Json N)) :
    lookupField k (normaliseFields acc (fields.map fun f => (f.1, f.2.1))) =
      fields.foldl (fun o f => if k = f.1 then some f.2.1 else o) (lookupField k acc) := by
  induction fields generalizing acc with
  | nil => rw [List.map_nil, normaliseFields, List.foldl_nil]
  | cons f fields ih =>
    rw [List.map_cons, normaliseFields, ih, lookupField_insertField, List.foldl_cons,
      normalise_of_ordered _ f.2.2]

theorem foldl_map_val (k : String) (fields : List (String × Value N)) (o : Option (Value N)) :
    fields.foldl (fun o f => if k = f.1 then some f.2.1 else o) (o.map Subtype.val) =
      (fields.foldl (fun o f => if k = f.1 then some f.2 else o) o).map Subtype.val := by
  induction fields generalizing o with
  | nil => rfl
  | cons f fields ih =>
    rw [List.foldl_cons, List.foldl_cons, ← ih]
    split_ifs <;> rfl

/-- A member of an object built from members is the last one given under its name. -/
theorem get_ofFields (fields : List (String × Value N)) (k : String) :
    (ofFields fields).get k = fields.foldl (fun o f => if k = f.1 then some f.2 else o) none := by
  have hlookup : (ofFields fields).lookup k =
      fields.foldl (fun o f => if k = f.1 then some f.2.1 else o)
        ((none : Option (Value N)).map Subtype.val) :=
    lookupField_normaliseFields k fields []
  refine Option.ext fun x => ?_
  rw [get_eq_some_iff, hlookup, foldl_map_val]
  exact (Option.map_injective Subtype.val_injective).eq_iff (b := some x)

end Value

end Json
