import Mathlib
import PipelineRegistry.Proofs.Registry.Ids
import PipelineRegistry.Proofs.Registry.Valid

/-! # Adoption of pointers

A project that adopts a pointer lists it at the end under its next identifier, which no pointer of
the project has, and counts on.  Everything else of the pointer stays as it was, its pipeline above
all. -/

namespace PipelineRegistry.Project

variable {p p' : Project} {q q' : Pointer}

theorem adopt?_eq_some_iff : p.adopt? q = some (q', p') ↔ p.nextPointerId + 1 ≠ 0 ∧
    q' = { q with projectId := p.id, id := p.nextPointerId } ∧
    p' = { p with nextPointerId := p.nextPointerId + 1, pointers := p.pointers.insert q' } := by
  unfold adopt?
  split
  · simp_all
  · rename_i hne
    rw [Option.some_inj, Prod.mk.injEq]
    constructor
    · rintro ⟨rfl, rfl⟩
      exact ⟨hne, rfl, rfl⟩
    · rintro ⟨-, rfl, rfl⟩
      exact ⟨rfl, rfl⟩

theorem adopt?_frame (h : p.adopt? q = some (q', p')) :
    p'.id = p.id ∧ p'.name = p.name ∧ q'.pipeline = q.pipeline := by
  obtain ⟨-, rfl, rfl⟩ := adopt?_eq_some_iff.mp h
  exact ⟨rfl, rfl, rfl⟩

theorem Valid.next_not_mem (hp : p.Valid) : p.nextPointerId ∉ p.pointers.keys := by
  intro h
  obtain ⟨q, hq, hid⟩ := Listing.mem_keys.mp h
  have hlt := hp.pointer_lt q hq
  rw [show q.id = p.nextPointerId from hid] at hlt
  exact absurd hlt (Std.lt_irrefl)

theorem Valid.toList_adopt? (hp : p.Valid) (h : p.adopt? q = some (q', p')) :
    p'.pointers.toList = p.pointers.toList ++ [q'] := by
  obtain ⟨-, rfl, rfl⟩ := adopt?_eq_some_iff.mp h
  exact Listing.toList_insert hp.next_not_mem

theorem Valid.adopt? (hp : p.Valid) (h : p.adopt? q = some (q', p')) : p'.Valid := by
  have hlist := hp.toList_adopt? h
  obtain ⟨hne, rfl, rfl⟩ := adopt?_eq_some_iff.mp h
  have hlt := lt_add_one_of_ne_zero hne
  constructor
  case pointer_keys =>
    have hkeys := Listing.keys_insert (x := { q with projectId := p.id, id := p.nextPointerId })
      hp.next_not_mem
    rw [hkeys]
    refine List.nodup_append.mpr ⟨hp.pointer_keys, List.nodup_singleton _, ?_⟩
    rintro k hk _ hk' rfl
    rw [List.mem_singleton.mp hk'] at hk
    exact hp.next_not_mem hk
  case pointer_project =>
    intro q₁ hq₁
    rw [hlist, List.mem_append, List.mem_singleton] at hq₁
    rcases hq₁ with hq₁ | rfl
    · exact hp.pointer_project q₁ hq₁
    · rfl
  case pointer_lt =>
    intro q₁ hq₁
    rw [hlist, List.mem_append, List.mem_singleton] at hq₁
    rcases hq₁ with hq₁ | rfl
    · exact Std.lt_trans (hp.pointer_lt q₁ hq₁) hlt
    · exact hlt

theorem Valid.adoptAll? (hp : p.Valid) {qs : List Pointer} (h : p.adoptAll? qs = some p') :
    p'.Valid ∧ p'.id = p.id ∧ p'.name = p.name := by
  induction qs generalizing p with
  | nil =>
      cases h
      exact ⟨hp, rfl, rfl⟩
  | cons q qs ih =>
      rw [Project.adoptAll?, Option.bind_eq_some_iff] at h
      obtain ⟨⟨q', p₁⟩, hadopt, h⟩ := h
      obtain ⟨hvalid, hid, hname⟩ := ih (hp.adopt? hadopt) h
      obtain ⟨hid₁, hname₁, -⟩ := adopt?_frame hadopt
      exact ⟨hvalid, hid.trans hid₁, hname.trans hname₁⟩

/-! ### Adoption of several pointers at once -/

variable {qs : List Pointer}

/-- Pointers as pointers of this project, under the identifiers that come next. -/
def numbered (p : Project) (qs : List Pointer) : List Pointer :=
  qs.mapIdx fun i q => { q with projectId := p.id, id := p.nextPointerId + i.toUInt64 }

/-- The project with pointers at the end of its own. -/
def takeIn (p : Project) (qs : List Pointer) : Project :=
  { p with
    nextPointerId := p.nextPointerId + qs.length.toUInt64
    pointers := ⟨p.pointers.toList ++ p.numbered qs⟩ }

@[simp] theorem takeIn_nil (p : Project) : p.takeIn [] = p := by
  simp [takeIn, numbered]

theorem takeIn_cons (p : Project) (q : Pointer) (qs : List Pointer) :
    p.takeIn (q :: qs) = (p.takeIn [q]).takeIn qs := by
  have hsucc : ∀ n : Nat, p.nextPointerId + 1 + n.toUInt64 = p.nextPointerId + (n + 1).toUInt64 := by
    intro n
    have hadd : (n + 1).toUInt64 = n.toUInt64 + 1 := UInt64.ofNat_add n 1
    rw [hadd, UInt64.add_assoc, UInt64.add_comm 1]
  simp [takeIn, numbered, hsucc]

/-- A project adopts pointers as long as its identifiers last. -/
theorem Valid.adoptAll?_eq (hp : p.Valid) (qs : List Pointer) : p.adoptAll? qs =
    if p.nextPointerId.toNat + qs.length < UInt64.size then some (p.takeIn qs) else none := by
  induction qs generalizing p with
  | nil => simp [Project.adoptAll?, p.nextPointerId.toNat_lt_size]
  | cons q qs ih =>
      by_cases hnext : p.nextPointerId + 1 = 0
      · have hlast : ¬ p.nextPointerId.toNat + (q :: qs).length < UInt64.size := by
          have hzero := congrArg UInt64.toNat hnext
          have := p.nextPointerId.toNat_lt_size
          rw [UInt64.toNat_add] at hzero
          simp only [UInt64.toNat_one, UInt64.toNat_zero, List.length_cons, UInt64.size] at *
          omega
        rw [Project.adoptAll?, Project.adopt?, if_pos hnext, if_neg hlast]
        rfl
      · have hadopt : p.adopt? q = some
            ({ q with projectId := p.id, id := p.nextPointerId }, p.takeIn [q]) := by
          refine adopt?_eq_some_iff.mpr ⟨hnext, rfl, ?_⟩
          have hinsert : p.pointers.insert { q with projectId := p.id, id := p.nextPointerId } =
              ⟨p.pointers.toList ++ [{ q with projectId := p.id, id := p.nextPointerId }]⟩ :=
            congrArg Listing.ofList (Listing.toList_insert hp.next_not_mem)
          rw [hinsert]
          simp [takeIn, numbered]
        have hcount : (p.takeIn [q]).nextPointerId.toNat = p.nextPointerId.toNat + 1 :=
          toNat_add_one_of_ne_zero hnext
        rw [Project.adoptAll?, hadopt, Option.bind_some, ih (hp.adopt? hadopt), hcount,
          takeIn_cons p q qs, List.length_cons, Nat.add_right_comm, Nat.add_assoc]

theorem Valid.adoptAll?_eq_some_iff (hp : p.Valid) : p.adoptAll? qs = some p' ↔
    p.nextPointerId.toNat + qs.length < UInt64.size ∧ p' = p.takeIn qs := by
  rw [hp.adoptAll?_eq]
  split
  · rename_i hfit
    simp [hfit, eq_comm]
  · rename_i hfit
    simp [hfit]

/-- The counter counts what is taken in. -/
theorem toNat_nextPointerId_takeIn (h : p.nextPointerId.toNat + qs.length < UInt64.size) :
    (p.takeIn qs).nextPointerId.toNat = p.nextPointerId.toNat + qs.length :=
  toNat_add_of_lt h

/-- What is taken in is numbered from the counter on. -/
theorem ids_numbered (h : p.nextPointerId.toNat + qs.length < UInt64.size) :
    (p.numbered qs).map (·.id.toNat) = List.range' p.nextPointerId.toNat qs.length := by
  refine List.ext_getElem (by simp [numbered]) ?_
  intro i hi _
  have hlt : i < qs.length := by simpa [numbered] using hi
  have hid : (p.nextPointerId + i.toUInt64).toNat = p.nextPointerId.toNat + i :=
    toNat_add_of_lt (by omega)
  simpa [numbered] using hid

/-- Adoption appends the pointers; whatever does not depend on the project and the identifier of a
pointer is as it was. -/
theorem Valid.map_adoptAll? {α : Type} (view : Pointer → α)
    (hview : ∀ (q : Pointer) projectId id, view { q with projectId, id } = view q) (hp : p.Valid)
    {qs : List Pointer} (h : p.adoptAll? qs = some p') :
    p'.pointers.toList.map view = p.pointers.toList.map view ++ qs.map view := by
  obtain ⟨-, rfl⟩ := hp.adoptAll?_eq_some_iff.mp h
  have hnumbered : (p.numbered qs).map view = qs.map view :=
    List.ext_getElem (by simp [numbered]) fun i _ _ => by simp [numbered, hview]
  rw [takeIn, List.map_append, hnumbered]

/-- Adopted pointers are numbered from the counter on, and the counter counts them. -/
theorem Valid.exists_adopted (hp : p.Valid) {qs : List Pointer} (h : p.adoptAll? qs = some p') :
    ∃ adopted, p'.pointers.toList = p.pointers.toList ++ adopted ∧
      adopted.map (·.id.toNat) = List.range' p.nextPointerId.toNat adopted.length ∧
      p'.nextPointerId.toNat = p.nextPointerId.toNat + adopted.length := by
  obtain ⟨hfit, rfl⟩ := hp.adoptAll?_eq_some_iff.mp h
  have hlength : (p.numbered qs).length = qs.length := List.length_mapIdx
  refine ⟨p.numbered qs, rfl, ?_⟩
  rw [hlength]
  exact ⟨ids_numbered hfit, toNat_nextPointerId_takeIn hfit⟩

end PipelineRegistry.Project
