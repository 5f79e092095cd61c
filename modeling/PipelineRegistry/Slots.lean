/-! # Slots

A slot for each key, which is empty or holds a value of the type that belongs to the key.  Fields of a
record and options of a command are collected in slots while they are read. -/

namespace PipelineRegistry

/-- For each key nothing or a value of its type. -/
def Slots {Key : Type} (Value : Key → Type) : Type := (k : Key) → Option (Value k)

namespace Slots
variable {Key : Type} [DecidableEq Key] {Value : Key → Type}

/-- Nothing in any slot. -/
def empty : Slots Value := fun _ => none

/-- Puts a value into the slot of a key. -/
def set (s : Slots Value) (k : Key) (v : Value k) : Slots Value := fun l =>
  if h : k = l then some (h ▸ v) else s l

@[simp] theorem set_self (s : Slots Value) (k : Key) (v : Value k) : s.set k v k = some v := by
  simp [set]

theorem set_of_ne (s : Slots Value) {k l : Key} (v : Value k) (h : k ≠ l) : s.set k v l = s l := by
  simp [set, h]

end Slots
end PipelineRegistry
