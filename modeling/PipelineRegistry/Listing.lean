/-! # Listings

A listing is an ordered collection of entities, each of which carries the key it is listed under.
New entities go to the end; replacing or changing an entity keeps its place; removing one keeps
the order of the others.  `toList` is the view through which every operation is described.

Two listings can hold the same entities in different orders: `agrees` compares them as maps from
keys to entities, while `=` also compares the order. -/

namespace PipelineRegistry

/-- An entity that carries the key it is listed under. -/
class Keyed (α : Type) (κ : outParam Type) where
  key : α → κ

/-- Entities in listing order. -/
structure Listing (α : Type) where
  ofList ::
  toList : List α
deriving DecidableEq, Repr

namespace Listing
variable {α κ : Type} [Keyed α κ] [DecidableEq κ]

/-- The listing without entities. -/
def empty : Listing α := ⟨[]⟩

/-- Number of entities. -/
def size (l : Listing α) : Nat := l.toList.length

/-- Keys in listing order. -/
def keys (l : Listing α) : List κ := l.toList.map Keyed.key

/-- The entity listed under `k`. -/
def get? (l : Listing α) (k : κ) : Option α := l.toList.find? fun x => Keyed.key x = k

/-- Whether an entity is listed under `k`. -/
def contains (l : Listing α) (k : κ) : Bool := (l.get? k).isSome

/-- Lists `x` in the place of the entity with its key, or at the end when there is none. -/
def insert (l : Listing α) (x : α) : Listing α :=
  if l.contains (Keyed.key x) then
    ⟨l.toList.map fun y => if Keyed.key y = Keyed.key x then x else y⟩
  else ⟨l.toList ++ [x]⟩

/-- Takes the entity listed under `k` out. -/
def erase (l : Listing α) (k : κ) : Listing α := ⟨l.toList.filter fun x => Keyed.key x ≠ k⟩

/-- Changes the entity listed under `k` in its place. -/
def modify (l : Listing α) (k : κ) (f : α → α) : Listing α :=
  ⟨l.toList.map fun x => if Keyed.key x = k then f x else x⟩

/-- Whether both listings hold the same entities, as `same` tells them apart, in any order. -/
def agrees (same : α → α → Bool) (l m : Listing α) : Bool :=
  l.size == m.size && l.toList.all fun x => (m.get? (Keyed.key x)).any (same x)

/-- The first key of `xs` that an earlier element already carries; `seen` holds the earlier keys. -/
def firstRepeated? (seen : List κ) : List α → Option κ
  | [] => none
  | x :: xs =>
    if Keyed.key x ∈ seen then some (Keyed.key x) else firstRepeated? (Keyed.key x :: seen) xs

/-- The listing of `xs` in their order, or the first key that occurs twice. -/
def ofList? (xs : List α) : Except κ (Listing α) :=
  match firstRepeated? [] xs with
  | some k => .error k
  | none => .ok ⟨xs⟩

@[simp] theorem toList_empty : (empty : Listing α).toList = [] := rfl

@[simp] theorem toList_erase (l : Listing α) (k : κ) :
    (l.erase k).toList = l.toList.filter fun x => Keyed.key x ≠ k := rfl

@[simp] theorem toList_modify (l : Listing α) (k : κ) (f : α → α) :
    (l.modify k f).toList = l.toList.map fun x => if Keyed.key x = k then f x else x := rfl

/-- A key that is not listed goes to the end. -/
theorem toList_insert_of_not_contains (l : Listing α) (x : α)
    (h : l.contains (Keyed.key x) = false) : (l.insert x).toList = l.toList ++ [x] := by
  simp [insert, h]

end Listing
end PipelineRegistry
