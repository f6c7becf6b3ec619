import ResponsesApiStore.Json.Numbers
import Mathlib.Data.Int.Notation
import Mathlib.Data.List.Nodup

/-!
# The text codec of JSON documents

A `Serde N` is a JSON library seen from its interface: a printer of documents, a reader of
texts into values, a reader of texts into structures with given field names, and the embedding of
64-bit integers into the numbers `N`. None of these functions is defined here. What a program may
rely on is stated by the laws carried as fields.

* Two documents print to different texts.
* When a reader accepts a text the printer wrote, it reads back the document printed, except for
  its numbers: `reread n` is what `n` becomes when its text is read. An integer reads back as it
  was; the text of a float may be read as a neighbouring float.
* A reader may refuse a text the printer wrote, for instance one nested beyond its limit. A reader
  into a structure skips the members that are not fields of it, however deep they are.

`Serde.ofTable` is the codec of a finite table of documents and texts, which refuses
everything else; it gives the interface its concrete instances.
-/

namespace Json

/-- The members of an object that have one of the names; other documents stay as they are. -/
def keepFields {N : Type} (names : List String) : Json N → Json N
  | object fields => object (fields.filter fun g => g.1 ∈ names)
  | j => j

/-- A printer and two readers of JSON texts over numbers in `N`. -/
structure Serde (N : Type) where
  toString : Json N → Except String String
  /-- Read a text into a value. -/
  fromStr : String → Except String (Json N)
  /-- Read a text into a structure with these field names. -/
  fromStruct : List String → String → Except String (Json N)
  ofI64 : Int64 → N
  asI64 : N → Option Int64
  /-- A number after it was printed and read. -/
  reread : N → N
  toString_inj : ∀ {j j' : Json N} {s : String},
    toString j = .ok s → toString j' = .ok s → j = j'
  fromStr_toString : ∀ {j j' : Json N} {s : String},
    toString j = .ok s → fromStr s = .ok j' → j' = j.mapNumbers reread
  fromStruct_toString : ∀ {names : List String} {j j' : Json N} {s : String},
    toString j = .ok s → fromStruct names s = .ok j' →
      j' = (j.mapNumbers reread).keepFields names
  asI64_ofI64 : ∀ n, asI64 (ofI64 n) = some n
  reread_ofI64 : ∀ n, reread (ofI64 n) = ofI64 n

namespace Serde

variable {N : Type} (S : Serde N)

/-- Print a value. -/
def valueToString (v : Value N) : Except String String := S.toString v.1

/-- Read a value. -/
def valueFromStr (s : String) : Except String (Value N) := (S.fromStr s).map Value.ofTree

/-- When a printed value is read back, it is the value printed, with its numbers reread. -/
theorem valueFromStr_valueToString {v v' : Value N} {s : String}
    (h : S.valueToString v = .ok s) (h' : S.valueFromStr s = .ok v') :
    v' = v.mapNumbers S.reread := by
  rw [valueFromStr] at h'
  rcases hs : S.fromStr s with e | j
  · rw [hs] at h'
    cases h'
  · rw [hs] at h'
    have hj : j = v.1.mapNumbers S.reread := S.fromStr_toString h hs
    have hv : Value.ofTree j = v' := Except.ok.inj h'
    rw [← hv, hj, Value.ofTree_mapNumbers]

/-! ### Codecs given by a table -/

/-- Integers that stand for themselves. -/
theorem some_id (n : Int64) : some (id n) = some n := rfl

/-- The pair that is found under a text is the one that printed it. -/
theorem document_of_find [DecidableEq N] {table : List (Json N × String)}
    (hdistinct : (table.map Prod.snd).Nodup) {j : Json N} {s : String} {q : Json N × String}
    (h : (match table.find? fun p => p.1 = j with
      | some p => .ok p.2
      | none => .error "not in the table" : Except String String) = .ok s)
    (hq : (table.find? fun p => p.2 = s) = some q) : q.1 = j := by
  split at h
  · rename_i p hp
    have hpj : p.1 = j := by simpa using List.find?_some hp
    have hqs : q.2 = s := by simpa using List.find?_some hq
    have hps : p.2 = s := Except.ok.inj h
    have hpq : p = q := List.inj_on_of_nodup_map hdistinct (List.mem_of_find?_eq_some hp)
      (List.mem_of_find?_eq_some hq) (hps.trans hqs.symm)
    rw [← hpq, hpj]
  · cases h

/-- A text that was printed is found. -/
theorem find_of_printed [DecidableEq N] {table : List (Json N × String)} {j : Json N} {s : String}
    (h : (match table.find? fun p => p.1 = j with
      | some p => .ok p.2
      | none => .error "not in the table" : Except String String) = .ok s) :
    table.find? (fun p => p.2 = s) ≠ none := by
  split at h
  · rename_i p hp
    have hps : p.2 = s := Except.ok.inj h
    intro hnone
    exact absurd hps (by simpa using List.find?_eq_none.mp hnone p (List.mem_of_find?_eq_some hp))
  · cases h

/-- The codec that prints exactly the documents of a table, whose texts are distinct, and reads
these texts, with every number as `reread` says, and some others. -/
def ofTableRereading [DecidableEq N] (table others : List (Json N × String))
    (hdistinct : (table.map Prod.snd).Nodup) (ofI64 : Int64 → N) (asI64 : N → Option Int64)
    (hI64 : ∀ n, asI64 (ofI64 n) = some n) (reread : N → N)
    (hreread : ∀ n, reread (ofI64 n) = ofI64 n) : Serde N where
  toString j := match table.find? fun p => p.1 = j with
    | some p => .ok p.2
    | none => .error "not in the table"
  fromStr s := match table.find? fun p => p.2 = s with
    | some p => .ok (p.1.mapNumbers reread)
    | none => match others.find? fun p => p.2 = s with
      | some p => .ok p.1
      | none => .error "not in the table"
  fromStruct names s := match table.find? fun p => p.2 = s with
    | some p => .ok ((p.1.mapNumbers reread).keepFields names)
    | none => .error "not in the table"
  ofI64 := ofI64
  asI64 := asI64
  reread := reread
  toString_inj := by
    intro j j' s h h'
    split at h
    · rename_i p hp
      split at h'
      · rename_i q hq
        have hpj : p.1 = j := by simpa using List.find?_some hp
        have hqj : q.1 = j' := by simpa using List.find?_some hq
        have hps : p.2 = s := Except.ok.inj h
        have hqs : q.2 = s := Except.ok.inj h'
        -- two pairs with one text are one pair
        have hpq : p = q := List.inj_on_of_nodup_map hdistinct (List.mem_of_find?_eq_some hp)
          (List.mem_of_find?_eq_some hq) (hps.trans hqs.symm)
        rw [← hpj, hpq, hqj]
      · cases h'
    · cases h
  fromStr_toString := by
    intro j j' s h h'
    split at h'
    · rename_i q hq
      rw [document_of_find hdistinct h hq] at h'
      exact (Except.ok.inj h').symm
    · rename_i hnone
      exact absurd hnone (find_of_printed h)
  fromStruct_toString := by
    intro names j j' s h h'
    split at h'
    · rename_i q hq
      rw [document_of_find hdistinct h hq] at h'
      exact (Except.ok.inj h').symm
    · cases h'
  asI64_ofI64 := hI64
  reread_ofI64 := hreread

/-- The codec that prints and reads exactly the pairs of a table whose texts are distinct. -/
def ofTable [DecidableEq N] (table : List (Json N × String))
    (hdistinct : (table.map Prod.snd).Nodup) (ofI64 : Int64 → N) (asI64 : N → Option Int64)
    (hI64 : ∀ n, asI64 (ofI64 n) = some n) : Serde N :=
  ofTableRereading table [] hdistinct ofI64 asI64 hI64 id fun _ => rfl

end Serde

end Json
