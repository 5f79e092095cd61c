import Mathlib
import PipelineRegistry.Document.Decode
import PipelineRegistry.Proofs.Chain

/-! # What a record holds once it has been read

Whatever the text was, each value that comes out of a record has been read as a value of its field,
or stands for an absent field.  What is true of all values that a field can be read as is therefore
true of the value that an entity has. -/

namespace PipelineRegistry

open Chain Document Json

/-! ### Records -/

namespace Document.Record

variable {Field : Type} {R : Record Field}

/-- Each value in a slot has been read as a value of its field. -/
def Slots.Filled (s : R.Slots) : Prop := ∀ f x, s f = some x → ∃ v, R.read f v = .ok x

theorem filled_empty : Slots.Filled (R := R) .empty := by
  intro f x h
  cases h

/-- What holds of all values that a field can be read as, and of the value that stands for it where
it is absent, holds of the value that comes out of the record. -/
theorem Slots.Filled.get {s : R.Slots} (hs : s.Filled) {f : Field} {x : R.Value f}
    (h : s.get f = .ok x) (P : R.Value f → Prop) (hread : ∀ v x, R.read f v = .ok x → P x)
    (habsent : ∀ x ∈ R.absent f, P x) : P x := by
  unfold Slots.get at h
  split at h
  · rename_i hf
    cases h
    obtain ⟨v, hv⟩ := hs _ _ hf
    exact hread v _ hv
  · rename_i hf
    cases h
    exact habsent _ hf
  · cases h

variable [DecidableEq Field]

theorem Slots.Filled.set {s : R.Slots} (hs : s.Filled) {f : Field} {v : Reading} {x : R.Value f}
    (hx : R.read f v = .ok x) : Slots.Filled (R := R) (s.set f x) := by
  intro f' x' h
  by_cases hf : f = f'
  · subst hf
    rw [PipelineRegistry.Slots.set_self, Option.some_inj] at h
    exact ⟨v, h ▸ hx⟩
  · rw [PipelineRegistry.Slots.set_of_ne _ _ hf] at h
    exact hs f' x' h

theorem Slots.Filled.readMember {s s' : R.Slots} (hs : s.Filled) {key : String} {v : Reading}
    (h : R.readMember s key v = .ok s') : s'.Filled := by
  unfold Record.readMember at h
  cases hf : R.field? key with
  | none =>
      simp only [hf, bind_eq_ok, pure_eq_ok] at h
      obtain ⟨-, -, rfl⟩ := h
      exact hs
  | some f =>
      simp only [hf, check_eq_ok, bind_eq_ok, pure_eq_ok] at h
      obtain ⟨-, x, hx, rfl⟩ := h
      exact hs.set hx

theorem Slots.Filled.readMembers {s s' : R.Slots} (hs : s.Filled) {members : List (Key × Reading)}
    {ending : Ending} (h : R.readMembers s members ending = .ok s') : s'.Filled := by
  induction members generalizing s with
  | nil =>
      cases ending with
      | closed =>
          cases h
          exact hs
      | cut fault => cases h
  | cons member members ih =>
      obtain ⟨key | key, v⟩ := member
      · cases h
      · rw [Record.readMembers, bind_eq_ok] at h
        obtain ⟨s₁, hs₁, h⟩ := h
        exact ih (hs.readMember hs₁) h

theorem Slots.Filled.readItems {s s' : R.Slots} (hs : s.Filled) {fields : List Field}
    {items : List Reading} {ending : Ending} (h : R.readItems s fields items ending = .ok s') :
    s'.Filled := by
  induction fields generalizing s items with
  | nil =>
      cases items with
      | nil =>
          rw [Record.readItems, bind_eq_ok] at h
          obtain ⟨-, -, h⟩ := h
          cases h
          exact hs
      | cons item items => cases h
  | cons f fields ih =>
      cases items with
      | nil =>
          cases ending with
          | closed =>
              unfold Record.readItems at h
              split at h
              · cases h
                exact hs
              · cases h
          | cut fault => cases h
      | cons item items =>
          rw [Record.readItems, bind_eq_ok] at h
          obtain ⟨x, hx, h⟩ := h
          exact ih (hs.set hx) h

theorem filled_of_readSlots {v : Reading} {s : R.Slots} (h : R.readSlots v = .ok s) : s.Filled := by
  unfold readSlots at h
  split at h
  · exact filled_empty.readMembers h
  · exact filled_empty.readItems h
  · cases h

end Document.Record

/-! ### Values -/

namespace Json.Reading

/-- A value that may be null is absent or has been read. -/
theorem optional_ok {α : Type} {readSome : Reading → Except DecodeError α} {v : Reading}
    {x : Option α} (h : v.optional readSome = .ok x) :
    x = none ∨ ∃ y, x = some y ∧ readSome v = .ok y := by
  unfold optional at h
  split at h
  · cases h
    exact .inl rfl
  · obtain ⟨y, hy, rfl⟩ := map_eq_ok.mp h
    exact .inr ⟨y, rfl, hy⟩

end Json.Reading
end PipelineRegistry
