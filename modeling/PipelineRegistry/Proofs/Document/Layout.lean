import Mathlib
import PipelineRegistry.Proofs.Document.Refinement
import PipelineRegistry.Proofs.Json.Reader

/-! # Ways to lay out a record

A record can be laid out as an array of all its fields in their order, or as an object.  In an object the
fields may come in any order, some may be left out, and there may be other members with any values
between them.  Whichever layout is taken, the record is read from it, and the values of its fields come
out of the slots. -/

namespace PipelineRegistry

open Chain Document Json

/-- A complete value can be passed over. -/
theorem Json.Reading.Complete.skip {v : Reading} (hv : v.Complete) : v.skip = .ok () := by
  cases hv <;> rfl

namespace Document.Record

variable {Field : Type} [DecidableEq Field]

/-- The field that a member belongs to, if any. -/
def fieldOf? (R : Record Field) (m : Key × Reading) : Option Field := m.1.toOption.bind R.field?

/-- The fields that the members belong to. -/
def fieldsOf (R : Record Field) (members : List (Key × Reading)) : List Field :=
  members.filterMap R.fieldOf?

/-- The value is a layout of a record whose fields may be given by the values in `Shows`, and of which
the fields in `Omissible` may be left out. -/
inductive Layout (R : Record Field) (Shows : Field → Reading → Prop) (Omissible : Field → Prop) :
    Reading → Prop
  /-- An array of all fields in their order. -/
  | array {items : List Reading} (h : List.Forall₂ Shows R.fields items) :
      Layout R Shows Omissible (.array items .closed)
  /-- An object with any members, no two of which belong to one field. -/
  | object {members : List (Key × Reading)} (named : ∀ m ∈ members, ∃ key, m.1 = .ok key)
      (shown : ∀ m ∈ members, ∀ f ∈ R.fieldOf? m, Shows f m.2) (once : (R.fieldsOf members).Nodup)
      (omitted : ∀ f ∈ R.fields, f ∉ R.fieldsOf members → Omissible f) :
      Layout R Shows Omissible (.object members .closed)

variable {R : Record Field} {Holds : (f : Field) → R.Value f → Prop} {s : R.Slots}

/-- What has been read fits, and the fields that have been read are filled in. -/
def Fills (R : Record Field) (Holds : (f : Field) → R.Value f → Prop) (s t : R.Slots)
    (fields : List Field) : Prop :=
  t.Fit Holds ∧ ∀ f, t f = none → s f = none ∧ f ∉ fields

theorem Fills.set {t : R.Slots} {f : Field} {x : R.Value f} {fields : List Field}
    (h : R.Fills Holds (s.set f x) t fields) : R.Fills Holds s t (f :: fields) := by
  refine ⟨h.1, ?_⟩
  intro g hg
  obtain ⟨hset, hfields⟩ := h.2 g hg
  have hne : f ≠ g := by
    rintro rfl
    rw [PipelineRegistry.Slots.set_self] at hset
    cases hset
  rw [PipelineRegistry.Slots.set_of_ne _ _ hne] at hset
  exact ⟨hset, List.not_mem_cons_of_ne_of_not_mem hne.symm hfields⟩

/-- The members of an object are read if each field occurs once and has a value that can be read. -/
theorem exists_readMembers {members : List (Key × Reading)}
    (hnamed : ∀ m ∈ members, ∃ key, m.1 = .ok key) (hcomplete : ∀ m ∈ members, m.2.Complete)
    (hread : ∀ m ∈ members, ∀ f ∈ R.fieldOf? m, ∃ x, R.read f m.2 = .ok x ∧ Holds f x)
    (honce : (R.fieldsOf members).Nodup) (hs : s.Fit Holds)
    (hempty : ∀ f ∈ R.fieldsOf members, s f = none) :
    ∃ t, R.readMembers s members .closed = .ok t ∧ R.Fills Holds s t (R.fieldsOf members) := by
  induction members generalizing s with
  | nil => exact ⟨s, rfl, hs, fun f hf => ⟨hf, List.not_mem_nil⟩⟩
  | cons m members ih =>
      rw [List.forall_mem_cons] at hnamed hcomplete hread
      obtain ⟨_, v⟩ := m
      obtain ⟨key, rfl⟩ := hnamed.1
      have hfield : R.fieldOf? (.ok key, v) = R.field? key := rfl
      rw [fieldsOf, List.filterMap_cons, hfield] at honce hempty ⊢
      rw [readMembers, readMember]
      cases hf : R.field? key with
      | none =>
          simp only [hf] at honce hempty ⊢
          rw [hcomplete.1.skip]
          exact ih hnamed.2 hcomplete.2 hread.2 honce hs hempty
      | some f =>
          simp only [hf] at honce hempty ⊢
          obtain ⟨x, hx, hholds⟩ := hread.1 f (hfield.trans hf)
          obtain ⟨hnot, honce⟩ := List.nodup_cons.mp honce
          rw [List.forall_mem_cons] at hempty
          have hrest : ∀ g ∈ R.fieldsOf members, (s.set f x : R.Slots) g = none := by
            intro g hg
            have hne : f ≠ g := fun heq => hnot (heq ▸ hg)
            rw [PipelineRegistry.Slots.set_of_ne _ _ hne]
            exact hempty.2 g hg
          obtain ⟨t, ht, hfills⟩ := ih hnamed.2 hcomplete.2 hread.2 honce (Refined.fit_set hs hholds) hrest
          simp only [hempty.1, Option.isSome_none, Bool.false_eq_true, if_false, hx]
          exact ⟨t, ht, hfills.set⟩

/-- The items of an array are read if they are values of the fields in their order. -/
theorem exists_readItems {fields : List Field} {items : List Reading}
    (hread : List.Forall₂ (fun f v => ∃ x, R.read f v = .ok x ∧ Holds f x) fields items)
    (hs : s.Fit Holds) :
    ∃ t, R.readItems s fields items .closed = .ok t ∧ R.Fills Holds s t fields := by
  induction hread generalizing s with
  | nil => exact ⟨s, rfl, hs, fun f hf => ⟨hf, List.not_mem_nil⟩⟩
  | cons hfirst _ ih =>
      obtain ⟨x, hx, hholds⟩ := hfirst
      obtain ⟨t, ht, hfills⟩ := ih (Refined.fit_set hs hholds)
      refine ⟨t, ?_, hfills.set⟩
      rw [readItems, hx]
      exact ht

/-- A record is read from any of its layouts, and what comes out of the slots holds of each field. -/
theorem Layout.exists_slots {Shows : Field → Reading → Prop} {Omissible : Field → Prop} {v : Reading}
    (hv : R.Layout Shows Omissible v) (Holds : (f : Field) → R.Value f → Prop)
    (hcomplete : v.Complete) (hfields : ∀ f, f ∈ R.fields)
    (hread : ∀ f v, v.Complete → Shows f v → ∃ x, R.read f v = .ok x ∧ Holds f x)
    (habsent : ∀ f, Omissible f → ∃ x, R.absent f = some x ∧ Holds f x) :
    ∃ s, R.readSlots v = .ok s ∧ ∀ f, ∃ x, s.get f = .ok x ∧ Holds f x := by
  have hempty : Slots.Fit Holds (.empty : R.Slots) := by
    rintro f x ⟨⟩
  -- a field without a value in its slot has been left out
  have hget : ∀ {t : R.Slots} {fields : List Field}, R.Fills Holds .empty t fields →
      (∀ f, f ∉ fields → Omissible f) → ∀ f, ∃ x, t.get f = .ok x ∧ Holds f x := by
    intro t fields hfills homitted f
    cases ht : t f with
    | some x => exact ⟨x, Slots.get_of_eq_some ht, hfills.1 f x ht⟩
    | none =>
        obtain ⟨x, hx, hholds⟩ := habsent f (homitted f (hfills.2 f ht).2)
        refine ⟨x, ?_, hholds⟩
        rw [Slots.get, ht, hx]
  cases hv with
  | @array items h =>
      have hitems : ∀ v ∈ items, v.Complete := by
        cases hcomplete with
        | array h => exact h
      have hvalues : List.Forall₂ (fun f v => ∃ x, R.read f v = .ok x ∧ Holds f x) R.fields items :=
        ((List.forall₂_and_left _ _).mpr ⟨hitems, h.flip⟩).flip.imp fun f v hv => hread f v hv.1 hv.2
      obtain ⟨t, ht, hfills⟩ := exists_readItems hvalues hempty
      exact ⟨t, ht, hget hfills fun f hf => absurd (hfields f) hf⟩
  | @object members named shown once omitted =>
      have hmembers : ∀ m ∈ members, m.2.Complete := by
        cases hcomplete with
        | object h => exact h
      obtain ⟨t, ht, hfills⟩ := exists_readMembers named hmembers
        (fun m hm f hf => hread f m.2 (hmembers m hm) (shown m hm f hf)) once hempty fun _ _ => rfl
      exact ⟨t, ht, hget hfills fun f hf => omitted f (hfields f) hf⟩

end Document.Record
end PipelineRegistry
