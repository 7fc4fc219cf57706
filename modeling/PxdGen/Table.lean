/-! # Tables

A table maps keys to values and remembers the order in which keys first came. Giving a present key a
new value moves nothing; a new key goes to the end.
-/

namespace PxdGen

structure Table (κ : Type) (α : Type) where
  entries : Array (κ × α) := #[]
deriving Repr

namespace Table

variable {κ α : Type} [BEq κ]

def empty : Table κ α := {}

def get? (t : Table κ α) (k : κ) : Option α :=
  (t.entries.find? (·.1 == k)).map (·.2)

def contains (t : Table κ α) (k : κ) : Bool := t.entries.any (·.1 == k)

def insert (t : Table κ α) (k : κ) (v : α) : Table κ α :=
  match t.entries.findIdx? (·.1 == k) with
  | some i => ⟨t.entries.modify i fun (k', _) => (k', v)⟩
  | none => ⟨t.entries.push (k, v)⟩

def erase (t : Table κ α) (k : κ) : Table κ α := ⟨t.entries.filter (·.1 != k)⟩

def keys (t : Table κ α) : List κ := t.entries.toList.map (·.1)

def values (t : Table κ α) : List α := t.entries.toList.map (·.2)

def toList (t : Table κ α) : List (κ × α) := t.entries.toList

def ofList (entries : List (κ × α)) : Table κ α :=
  entries.foldl (fun t (k, v) => t.insert k v) empty

end Table

end PxdGen
