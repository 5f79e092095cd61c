import Mathlib
import PipelineRegistry.Proofs.Document.Record
import PipelineRegistry.Proofs.Listing

/-! # Strict readers and complete readers

A strict reader refuses some of what another reader, the complete one, still reads.  `Refines` says
which part of it is left: the strict reader takes a text exactly if the complete one does and what
it reads fits, and it gives the same value, converted.  Readers of arrays and of whole records inherit
this from the readers of their items and fields. -/

namespace PipelineRegistry

open Chain Document Json

/-- `strict` reads what `complete` reads, provided that this fits, and converts it. -/
def Refines {α α' : Type} (strict : Reading → Except DecodeError α)
    (complete : Reading → Except DecodeError α') (Fits : α' → Prop) (convert : α' → α) : Prop :=
  ∀ v x, strict v = .ok x ↔ ∃ x', complete v = .ok x' ∧ Fits x' ∧ convert x' = x

namespace Refines

variable {α α' α'' : Type}

/-- Every reader refines itself. -/
theorem refl (read : Reading → Except DecodeError α) :
    Refines read read (fun _ => True) fun x => x := by
  intro v x
  simp

/-- A reader refines the one that keeps an absent value apart from one that is written. -/
theorem some_map (read : Reading → Except DecodeError α) (default : α) :
    Refines read (fun v => some <$> read v) (fun _ => True) (·.getD default) := by
  intro v x
  constructor
  · intro h
    exact ⟨some x, map_eq_ok.mpr ⟨x, h, rfl⟩, trivial, rfl⟩
  · rintro ⟨_, h, -, rfl⟩
    obtain ⟨x, hx, rfl⟩ := map_eq_ok.mp h
    exact hx

theorem trans {strict : Reading → Except DecodeError α} {middle : Reading → Except DecodeError α'}
    {complete : Reading → Except DecodeError α''} {Fits : α' → Prop} {Fits' : α'' → Prop}
    {convert : α' → α} {convert' : α'' → α'} (h : Refines strict middle Fits convert)
    (h' : Refines middle complete Fits' convert') : Refines strict complete
      (fun x => Fits' x ∧ Fits (convert' x)) (fun x => convert (convert' x)) := by
  intro v x
  rw [h v x]
  constructor
  · rintro ⟨x', hx', hfits, rfl⟩
    obtain ⟨x'', hx'', hfits', rfl⟩ := (h' v x').mp hx'
    exact ⟨x'', hx'', ⟨hfits', hfits⟩, rfl⟩
  · rintro ⟨x'', hx'', ⟨hfits', hfits⟩, rfl⟩
    exact ⟨convert' x'', (h' v _).mpr ⟨x'', hx'', hfits', rfl⟩, hfits, rfl⟩

end Refines

/-! ### Arrays -/

namespace Json.Reading

variable {α α' : Type} {strict : Reading → Except DecodeError α}
  {complete : Reading → Except DecodeError α'} {Fits : α' → Prop} {convert : α' → α}

/-- Reads an array, whatever identifiers its items have. -/
def items (readItem : Reading → Except DecodeError α) : Reading → Except DecodeError (List α)
  | array items ending => do
    let xs ← items.mapM readItem
    checkEnd ending
    return xs
  | v => .error (v.mismatch .sequence)

theorem items_eq_ok {readItem : Reading → Except DecodeError α} {v : Reading} {xs : List α} :
    v.items readItem = .ok xs ↔ ∃ vs ending, v = .array vs ending ∧
      vs.mapM readItem = .ok xs ∧ checkEnd ending = .ok () := by
  unfold items
  split
  · rename_i vs ending
    simp only [bind_eq_ok, pure_eq_ok]
    constructor
    · rintro ⟨_, hxs, _, hend, rfl⟩
      exact ⟨vs, ending, rfl, hxs, hend⟩
    · rintro ⟨_, _, ⟨⟩, hxs, hend⟩
      exact ⟨xs, hxs, (), hend, rfl⟩
  · rename_i hv
    constructor
    · intro h
      cases h
    · rintro ⟨vs, ending, rfl, -⟩
      exact absurd rfl (hv vs ending)

/-- A list of entities is an array of them in which no identifier occurs twice. -/
theorem listing_refines [Keyed α UInt64] (readItem : Reading → Except DecodeError α) :
    Refines (·.listing readItem) (·.items readItem) (fun xs => (xs.map Keyed.key).Nodup)
      Listing.ofList := by
  intro v l
  change v.listing readItem = .ok l ↔ ∃ xs, v.items readItem = .ok xs ∧ _ ∧ _
  unfold listing items
  split
  · simp only [bind_eq_ok, pure_eq_ok]
    constructor
    · rintro ⟨xs, hxs, _, hend, h⟩
      cases hl : Listing.ofList? xs with
      | error id => simp [hl, throw_eq_ok] at h
      | ok l' =>
          simp only [hl, pure_eq_ok] at h
          subst h
          obtain ⟨hnodup, rfl⟩ := Listing.ofList?_eq_ok_iff.mp hl
          exact ⟨xs, ⟨xs, hxs, (), hend, rfl⟩, hnodup, rfl⟩
    · rintro ⟨_, ⟨xs, hxs, _, hend, rfl⟩, hnodup, rfl⟩
      refine ⟨xs, hxs, (), hend, ?_⟩
      rw [Listing.ofList?_eq_ok_iff.mpr ⟨hnodup, rfl⟩]
      rfl
  · simp

/-- An array of entities is read item by item, and their identifiers differ. -/
theorem listing_ok [Keyed α UInt64] {readItem : Reading → Except DecodeError α} {v : Reading}
    {l : Listing α} (h : v.listing readItem = .ok l) :
    l.keys.Nodup ∧ ∀ x ∈ l.toList, ∃ item, readItem item = .ok x := by
  obtain ⟨xs, hxs, hnodup, rfl⟩ := (listing_refines readItem v l).mp h
  obtain ⟨vs, ending, -, hread, -⟩ := items_eq_ok.mp hxs
  refine ⟨hnodup, ?_⟩
  intro x hx
  obtain ⟨item, -, hitem⟩ := exists_of_mem_mapM hread hx
  exact ⟨item, hitem⟩

theorem forall₂_iff (h : Refines strict complete Fits convert) {vs : List Reading} {xs : List α} :
    List.Forall₂ (fun item x => strict item = .ok x) vs xs ↔
      ∃ xs', List.Forall₂ (fun item x => complete item = .ok x) vs xs' ∧ (∀ x ∈ xs', Fits x) ∧
        xs'.map convert = xs := by
  induction vs generalizing xs with
  | nil =>
      constructor
      · rintro ⟨⟩
        exact ⟨[], .nil, nofun, rfl⟩
      · rintro ⟨_, ⟨⟩, -, rfl⟩
        exact .nil
  | cons v vs ih =>
      constructor
      · rintro (_ | ⟨hx, hxs⟩)
        obtain ⟨x', hx', hfits, rfl⟩ := (h _ _).mp hx
        obtain ⟨xs', hxs', hfits', rfl⟩ := ih.mp hxs
        exact ⟨x' :: xs', .cons hx' hxs', List.forall_mem_cons.mpr ⟨hfits, hfits'⟩, rfl⟩
      · rintro ⟨_, _ | ⟨hx', hxs'⟩, hfits, rfl⟩
        obtain ⟨hfits, hfits'⟩ := List.forall_mem_cons.mp hfits
        exact .cons ((h _ _).mpr ⟨_, hx', hfits, rfl⟩) (ih.mpr ⟨_, hxs', hfits', rfl⟩)

/-- Arrays are refined item by item. -/
theorem items_refines (h : Refines strict complete Fits convert) :
    Refines (·.items strict) (·.items complete) (fun xs => ∀ x ∈ xs, Fits x) (·.map convert) := by
  intro v xs
  simp only [items_eq_ok, mapM_eq_ok, forall₂_iff h]
  constructor
  · rintro ⟨vs, ending, rfl, ⟨xs', hxs', hfits, rfl⟩, hend⟩
    exact ⟨xs', ⟨vs, ending, rfl, hxs', hend⟩, hfits, rfl⟩
  · rintro ⟨xs', ⟨vs, ending, rfl, hxs', hend⟩, hfits, rfl⟩
    exact ⟨vs, ending, rfl, ⟨xs', hxs', hfits, rfl⟩, hend⟩

/-- Lists of entities are refined item by item. -/
theorem listing_refines_items [Keyed α UInt64] (h : Refines strict complete Fits convert) :
    Refines (·.listing strict) (·.items complete)
      (fun xs => (∀ x ∈ xs, Fits x) ∧ (xs.map fun x => (Keyed.key (convert x) : UInt64)).Nodup)
      (fun xs => ⟨xs.map convert⟩) := by
  have htrans := (listing_refines strict).trans (items_refines h)
  simpa only [List.map_map, Function.comp_def] using htrans

end Json.Reading

/-! ### Records -/

namespace Slots

variable {Key : Type} {V W : Key → Type}

/-- The slots with all their values converted. -/
def map (convert : (k : Key) → V k → W k) (s : Slots V) : Slots W := fun k => (s k).map (convert k)

theorem map_set [DecidableEq Key] (convert : (k : Key) → V k → W k) (s : Slots V) (k : Key)
    (v : V k) : (s.set k v).map convert = (s.map convert).set k (convert k v) := by
  funext l
  by_cases hl : k = l
  · subst hl
    rw [set_self, map, set_self]
    rfl
  · rw [set_of_ne _ _ hl, map, set_of_ne _ _ hl]
    rfl

end Slots

namespace Document.Record

variable {Field : Type} [DecidableEq Field]

/-! ### What is read stays in its slot -/

section keep

variable {R : Record Field} {s t : R.Slots} {f : Field} {x : R.Value f}

theorem readMember_keep {key : String} {v : Reading} (h : R.readMember s key v = .ok t)
    (hs : s f = some x) : t f = some x := by
  unfold readMember at h
  split at h
  · obtain ⟨-, -, h⟩ := bind_eq_ok.mp h
    rw [← pure_eq_ok.mp h]
    exact hs
  · rename_i g _
    obtain ⟨hempty, h⟩ := check_eq_ok.mp h
    obtain ⟨y, -, h⟩ := bind_eq_ok.mp h
    have hne : g ≠ f := by
      rintro rfl
      exact hempty (hs ▸ rfl)
    rw [← pure_eq_ok.mp h, PipelineRegistry.Slots.set_of_ne _ _ hne]
    exact hs

theorem readMembers_keep {members : List (Key × Reading)} {ending : Ending}
    (h : R.readMembers s members ending = .ok t) (hs : s f = some x) : t f = some x := by
  induction members generalizing s with
  | nil =>
      cases ending with
      | closed =>
          cases h
          exact hs
      | cut fault => cases h
  | cons member members ih =>
      obtain ⟨key | key, v⟩ := member
      · cases h
      · rw [readMembers, bind_eq_ok] at h
        obtain ⟨s₁, hs₁, h⟩ := h
        exact ih h (readMember_keep hs₁ hs)

theorem readItems_keep {fields : List Field} {items : List Reading} {ending : Ending}
    (h : R.readItems s fields items ending = .ok t) (hf : f ∉ fields) (hs : s f = some x) :
    t f = some x := by
  induction fields generalizing s items with
  | nil =>
      cases items with
      | nil =>
          rw [readItems, bind_eq_ok] at h
          obtain ⟨-, -, h⟩ := h
          cases h
          exact hs
      | cons item items => cases h
  | cons g fields ih =>
      obtain ⟨hne, hf⟩ := not_or.mp (mt List.mem_cons.mpr hf)
      cases items with
      | nil =>
          cases ending with
          | closed =>
              unfold readItems at h
              split at h
              · cases h
                exact hs
              · cases h
          | cut fault => cases h
      | cons item items =>
          rw [readItems, bind_eq_ok] at h
          obtain ⟨y, -, h⟩ := h
          refine ih h hf ?_
          rw [PipelineRegistry.Slots.set_of_ne _ _ (Ne.symm hne)]
          exact hs

end keep

/-! ### Refinement -/

/-- Two descriptions of one kind of record, the first of which reads its fields more strictly and
has the other's absent values, converted. -/
structure Refined (R R' : Record Field) (Fits : (f : Field) → R'.Value f → Prop)
    (convert : (f : Field) → R'.Value f → R.Value f) : Prop where
  fields_eq : R.fields = R'.fields
  fields_nodup : R'.fields.Nodup
  key_eq : R.key = R'.key
  read : ∀ f, Refines (R.read f) (R'.read f) (Fits f) (convert f)
  absent_eq : ∀ f, R.absent f = (R'.absent f).map (convert f)
  absent_fits : ∀ f, ∀ x ∈ R'.absent f, Fits f x

/-- What is in the slots fits. -/
def Slots.Fit {R' : Record Field} (Fits : (f : Field) → R'.Value f → Prop) (s : R'.Slots) : Prop :=
  ∀ f, ∀ x ∈ s f, Fits f x

omit [DecidableEq Field] in
theorem Slots.get_of_eq_some {R : Record Field} {s : R.Slots} {f : Field} {x : R.Value f}
    (h : s f = some x) : s.get f = .ok x := by
  rw [Slots.get, h]

namespace Refined

variable {R R' : Record Field} {Fits : (f : Field) → R'.Value f → Prop}
  {convert : (f : Field) → R'.Value f → R.Value f}

theorem fit_set {s : R'.Slots} (hs : s.Fit Fits) {f : Field} {x : R'.Value f} (hx : Fits f x) :
    Slots.Fit Fits (s.set f x : R'.Slots) := by
  intro g y hy
  by_cases hg : f = g
  · subst hg
    rw [PipelineRegistry.Slots.set_self, Option.mem_some_iff] at hy
    exact hy ▸ hx
  · rw [PipelineRegistry.Slots.set_of_ne _ _ hg] at hy
    exact hs g y hy

theorem readMembers_iff (h : R.Refined R' Fits convert) {s : R'.Slots} (hs : s.Fit Fits)
    {t : R.Slots} {members : List (Key × Reading)} {ending : Ending} :
    R.readMembers (s.map convert) members ending = .ok t ↔
      ∃ t', R'.readMembers s members ending = .ok t' ∧ t'.Fit Fits ∧ t'.map convert = t := by
  induction members generalizing s with
  | nil =>
      cases ending with
      | closed =>
          constructor
          · rintro ⟨⟩
            exact ⟨s, rfl, hs, rfl⟩
          · rintro ⟨_, ⟨⟩, -, rfl⟩
            rfl
      | cut fault =>
          constructor
          · rintro ⟨⟩
          · rintro ⟨_, ⟨⟩, -⟩
  | cons member members ih =>
      obtain ⟨key | key, v⟩ := member
      · constructor
        · rintro ⟨⟩
        · rintro ⟨_, ⟨⟩, -⟩
      · have hfield : R.field? key = R'.field? key := by
          rw [field?, field?, h.fields_eq, h.key_eq]
        simp only [readMembers, bind_eq_ok, readMember, hfield]
        cases R'.field? key with
        | none =>
            simp only [bind_eq_ok, pure_eq_ok]
            constructor
            · rintro ⟨_, ⟨_, hskip, rfl⟩, ht⟩
              obtain ⟨t', ht', hfit, rfl⟩ := (ih hs).mp ht
              exact ⟨t', ⟨s, ⟨(), hskip, rfl⟩, ht'⟩, hfit, rfl⟩
            · rintro ⟨t', ⟨_, ⟨_, hskip, rfl⟩, ht'⟩, hfit, rfl⟩
              exact ⟨_, ⟨(), hskip, rfl⟩, (ih hs).mpr ⟨t', ht', hfit, rfl⟩⟩
        | some f =>
            have hset : (s.map convert f).isSome = (s f).isSome := Option.isSome_map
            simp only [hset, check_eq_ok, bind_eq_ok, pure_eq_ok, (h.read f) _ _]
            constructor
            · rintro ⟨_, ⟨hempty, _, ⟨x, hx, hfits, rfl⟩, rfl⟩, ht⟩
              rw [← PipelineRegistry.Slots.map_set] at ht
              obtain ⟨t', ht', hfit, rfl⟩ := (ih (fit_set hs hfits)).mp ht
              exact ⟨t', ⟨_, ⟨hempty, x, hx, rfl⟩, ht'⟩, hfit, rfl⟩
            · rintro ⟨t', ⟨_, ⟨hempty, x, hx, rfl⟩, ht'⟩, hfit, rfl⟩
              -- what was put into the slot is still there at the end, so it fits
              have hfits : Fits f x :=
                hfit f x (readMembers_keep ht' (PipelineRegistry.Slots.set_self s f x))
              refine ⟨_, ⟨hempty, _, ⟨x, hx, hfits, rfl⟩, rfl⟩, ?_⟩
              rw [← PipelineRegistry.Slots.map_set]
              exact (ih (fit_set hs hfits)).mpr ⟨t', ht', hfit, rfl⟩

theorem readItems_iff (h : R.Refined R' Fits convert) {s : R'.Slots} (hs : s.Fit Fits)
    {t : R.Slots} {fields : List Field} (hfields : fields.Nodup) {items : List Reading}
    {ending : Ending} : R.readItems (s.map convert) fields items ending = .ok t ↔
      ∃ t', R'.readItems s fields items ending = .ok t' ∧ t'.Fit Fits ∧ t'.map convert = t := by
  induction fields generalizing s items with
  | nil =>
      cases items with
      | nil =>
          simp only [readItems, bind_eq_ok, pure_eq_ok]
          constructor
          · rintro ⟨_, hend, rfl⟩
            exact ⟨s, ⟨(), hend, rfl⟩, hs, rfl⟩
          · rintro ⟨_, ⟨_, hend, rfl⟩, -, rfl⟩
            exact ⟨(), hend, rfl⟩
      | cons item items =>
          constructor
          · rintro ⟨⟩
          · rintro ⟨_, ⟨⟩, -⟩
  | cons f fields ih =>
      obtain ⟨hf, hfields⟩ := List.nodup_cons.mp hfields
      cases items with
      | nil =>
          cases ending with
          | closed =>
              have habsent : (fun g => (R.absent g).isNone) = fun g => (R'.absent g).isNone := by
                funext g
                rw [h.absent_eq, Option.isNone_map]
              simp only [readItems, habsent]
              cases (f :: fields).find? fun g => (R'.absent g).isNone with
              | none =>
                  constructor
                  · rintro ⟨⟩
                    exact ⟨s, rfl, hs, rfl⟩
                  · rintro ⟨_, ⟨⟩, -, rfl⟩
                    rfl
              | some g =>
                  constructor
                  · rintro ⟨⟩
                  · rintro ⟨_, ⟨⟩, -⟩
          | cut fault =>
              constructor
              · rintro ⟨⟩
              · rintro ⟨_, ⟨⟩, -⟩
      | cons item items =>
          simp only [readItems, bind_eq_ok, (h.read f) _ _]
          constructor
          · rintro ⟨_, ⟨x, hx, hfits, rfl⟩, ht⟩
            rw [← PipelineRegistry.Slots.map_set] at ht
            obtain ⟨t', ht', hfit, rfl⟩ := (ih (fit_set hs hfits) hfields).mp ht
            exact ⟨t', ⟨x, hx, ht'⟩, hfit, rfl⟩
          · rintro ⟨t', ⟨x, hx, ht'⟩, hfit, rfl⟩
            have hfits : Fits f x :=
              hfit f x (readItems_keep ht' hf (PipelineRegistry.Slots.set_self s f x))
            refine ⟨_, ⟨x, hx, hfits, rfl⟩, ?_⟩
            rw [← PipelineRegistry.Slots.map_set]
            exact (ih (fit_set hs hfits) hfields).mpr ⟨t', ht', hfit, rfl⟩

/-- A record is read strictly exactly if it is read completely and its fields fit. -/
theorem readSlots_iff (h : R.Refined R' Fits convert) {v : Reading} {t : R.Slots} :
    R.readSlots v = .ok t ↔
      ∃ t', R'.readSlots v = .ok t' ∧ t'.Fit Fits ∧ t'.map convert = t := by
  have hempty : Slots.Fit Fits (.empty : R'.Slots) := by
    rintro f x ⟨⟩
  unfold readSlots
  split
  · exact h.readMembers_iff hempty
  · rw [h.fields_eq]
    exact h.readItems_iff hempty h.fields_nodup
  · constructor
    · rintro ⟨⟩
    · rintro ⟨_, ⟨⟩, -⟩

omit [DecidableEq Field] in
/-- Fields come out of the record converted. -/
theorem get_map (h : R.Refined R' Fits convert) {s : R'.Slots} {f : Field} {x : R.Value f} :
    Slots.get (R := R) (s.map convert) f = .ok x ↔
      ∃ x', s.get f = .ok x' ∧ convert f x' = x := by
  unfold Slots.get
  rw [h.absent_eq, PipelineRegistry.Slots.map]
  cases s f with
  | some y => simp
  | none => cases R'.absent f <;> simp

omit [DecidableEq Field] in
/-- Fields that come out of a record that fits do fit. -/
theorem get_fits (h : R.Refined R' Fits convert) {s : R'.Slots} (hs : s.Fit Fits) {f : Field}
    {x : R'.Value f} (hx : s.get f = .ok x) : Fits f x := by
  unfold Slots.get at hx
  split at hx
  · rename_i hf
    cases hx
    exact hs _ _ hf
  · rename_i hf
    cases hx
    exact h.absent_fits _ _ hf
  · cases hx

end Refined
end Document.Record
end PipelineRegistry
