import Mathlib
import PipelineRegistry.Registry.Ids

/-! # New identifiers are new

One more than the greatest identifier in use is not in use, as long as counting on does not start
over at zero.  It does so at the last identifier only, so nothing new is left only where both the
proposed identifier and the last one are in use.  What is found depends on which identifiers are in use
alone, and is their number as long as they have no holes. -/

namespace PipelineRegistry

/-- The greatest identifier there is. -/
def lastId : UInt64 := UInt64.ofNat (UInt64.size - 1)

theorem toNat_lastId : lastId.toNat = UInt64.size - 1 :=
  UInt64.toNat_ofNat_of_lt (Nat.sub_lt (by decide) Nat.one_pos)

theorem le_lastId (id : UInt64) : id ≤ lastId := by
  rw [UInt64.le_iff_toNat_le]
  exact Nat.le_pred_of_lt id.toNat_lt_size

theorem add_one_eq_zero_iff {id : UInt64} : id + 1 = 0 ↔ id = lastId := by
  constructor
  · intro h
    have hnat := congrArg UInt64.toNat h
    have := id.toNat_lt
    rw [UInt64.toNat_add] at hnat
    rw [← UInt64.toNat_inj]
    simp [lastId] at hnat ⊢
    omega
  · rintro rfl
    rfl

theorem toNat_add_one_of_ne_zero {id : UInt64} (h : id + 1 ≠ 0) : (id + 1).toNat = id.toNat + 1 := by
  rw [ne_eq, ← UInt64.toNat_inj, UInt64.toNat_add] at h
  rw [UInt64.toNat_add]
  have := id.toNat_lt
  simp only [UInt64.toNat_one, UInt64.toNat_zero] at h ⊢
  omega

theorem toNat_add_of_lt {id : UInt64} {n : Nat} (h : id.toNat + n < UInt64.size) :
    (id + n.toUInt64).toNat = id.toNat + n := by
  have hn : n.toUInt64.toNat = n := UInt64.toNat_ofNat_of_lt (by omega)
  rw [UInt64.toNat_add, hn]
  exact Nat.mod_eq_of_lt h

theorem lt_add_one_of_ne_zero {id : UInt64} (h : id + 1 ≠ 0) : id < id + 1 := by
  rw [UInt64.lt_iff_toNat_lt, toNat_add_one_of_ne_zero h]
  exact Nat.lt_succ_self _

theorem max_eq_ite (a b : UInt64) : max a b = if a ≤ b then b else a := rfl

theorem lawfulOrderMax : Std.LawfulOrderMax UInt64 := by
  have hmax : ∀ a b : UInt64, max a b = a ∧ b ≤ a ∨ max a b = b ∧ a ≤ b := by
    intro a b
    rw [max_eq_ite]
    split
    · rename_i hab
      exact .inr ⟨rfl, hab⟩
    · rename_i hab
      exact .inl ⟨rfl, Std.le_of_not_ge hab⟩
  refine { max_eq_or := fun a b => (hmax a b).imp And.left And.left, max_le_iff := ?_ }
  intro a b c
  rcases hmax a b with ⟨heq, hle⟩ | ⟨heq, hle⟩ <;> rw [heq]
  · exact ⟨fun h => ⟨h, Std.le_trans hle h⟩, And.left⟩
  · exact ⟨fun h => ⟨Std.le_trans hle h, h⟩, And.right⟩

theorem greatestId?_eq_some_iff {ids : List UInt64} {id : UInt64} :
    greatestId? ids = some id ↔ id ∈ ids ∧ ∀ other ∈ ids, other ≤ id := by
  have := lawfulOrderMax
  exact List.max?_eq_some_iff

theorem succId?_eq_some_iff {id id' : UInt64} :
    succId? id = some id' ↔ id + 1 ≠ 0 ∧ id' = id + 1 := by
  unfold succId?
  split
  · simp_all
  · simp_all [eq_comm]

theorem succId?_eq_none_iff {id : UInt64} : succId? id = none ↔ id = lastId := by
  rw [← add_one_eq_zero_iff, succId?]
  split <;> simp_all

/-! ### The new identifier -/

theorem nextFreeId?_of_not_mem {taken : List UInt64} {count : UInt64} (h : count ∉ taken) :
    nextFreeId? taken count = some count := if_neg h

/-- Where the proposed identifier is in use, the one behind the greatest in use is taken, if there is
one. -/
theorem nextFreeId?_of_mem {taken : List UInt64} {count : UInt64} (h : count ∈ taken) :
    ∃ greatest ∈ taken, (∀ other ∈ taken, other ≤ greatest) ∧
      nextFreeId? taken count = succId? greatest := by
  rw [nextFreeId?, if_pos h]
  cases hgreatest : greatestId? taken with
  | none =>
      rw [greatestId?, List.max?_eq_none_iff] at hgreatest
      rw [hgreatest] at h
      cases h
  | some greatest =>
      obtain ⟨hmem, hle⟩ := greatestId?_eq_some_iff.mp hgreatest
      exact ⟨greatest, hmem, hle, rfl⟩

/-- There is no new identifier where the proposed one and the last one are both in use. -/
theorem nextFreeId?_eq_none_iff {taken : List UInt64} {count : UInt64} :
    nextFreeId? taken count = none ↔ count ∈ taken ∧ lastId ∈ taken := by
  by_cases hcount : count ∈ taken
  · obtain ⟨greatest, hmem, hle, hnext⟩ := nextFreeId?_of_mem hcount
    rw [hnext, succId?_eq_none_iff]
    constructor
    · rintro rfl
      exact ⟨hcount, hmem⟩
    · rintro ⟨-, hlast⟩
      exact Std.le_antisymm (le_lastId greatest) (hle lastId hlast)
  · rw [nextFreeId?_of_not_mem hcount]
    simp [hcount]

/-- The order of the identifiers in use does not count. -/
theorem nextFreeId?_of_perm {taken taken' : List UInt64} (h : taken.Perm taken') (count : UInt64) :
    nextFreeId? taken count = nextFreeId? taken' count := by
  have hgreatest : greatestId? taken = greatestId? taken' := by
    ext id
    simp only [greatestId?_eq_some_iff, h.mem_iff]
  simp only [nextFreeId?, h.mem_iff, hgreatest]

theorem not_mem_of_nextFreeId? {taken : List UInt64} {count id : UInt64}
    (h : nextFreeId? taken count = some id) : id ∉ taken := by
  by_cases hcount : count ∈ taken
  · obtain ⟨greatest, -, hle, hnext⟩ := nextFreeId?_of_mem hcount
    obtain ⟨hne, rfl⟩ := succId?_eq_some_iff.mp (hnext.symm.trans h)
    intro hmem
    exact absurd (lt_add_one_of_ne_zero hne) (Std.not_lt.mpr (hle _ hmem))
  · rw [nextFreeId?_of_not_mem hcount] at h
    exact Option.some_inj.mp h ▸ hcount

/-- A new identifier is at most one more than those in use, unless more are counted. -/
theorem toNat_le_of_nextFreeId? {taken : List UInt64} {count id : UInt64} {n : Nat}
    (h : nextFreeId? taken count = some id) (htaken : ∀ other ∈ taken, other.toNat ≤ n)
    (hcount : count.toNat ≤ n + 1) : id.toNat ≤ n + 1 := by
  by_cases hmem : count ∈ taken
  · obtain ⟨greatest, hgreatest, -, hnext⟩ := nextFreeId?_of_mem hmem
    obtain ⟨hne, rfl⟩ := succId?_eq_some_iff.mp (hnext.symm.trans h)
    rw [toNat_add_one_of_ne_zero hne]
    exact Nat.succ_le_succ (htaken greatest hgreatest)
  · rw [nextFreeId?_of_not_mem hmem] at h
    exact Option.some_inj.mp h ▸ hcount

/-- There is a new identifier unless the greatest one there is is in use. -/
theorem nextFreeId?_ne_none {taken : List UInt64} {n : Nat}
    (htaken : ∀ other ∈ taken, other.toNat ≤ n) (hn : n < UInt64.size - 1) (count : UInt64) :
    nextFreeId? taken count ≠ none := by
  rw [ne_eq, nextFreeId?_eq_none_iff]
  rintro ⟨-, hlast⟩
  have hle := htaken lastId hlast
  rw [toNat_lastId] at hle
  omega

/-! ### Beside identifiers that are counted -/

/-- Distinct identifiers are those from 0 on without a hole exactly where each is below their number. -/
theorem perm_range_iff {ids : List UInt64} (hdistinct : ids.Nodup) :
    (ids.map UInt64.toNat).Perm (List.range ids.length) ↔ ∀ id ∈ ids, id.toNat < ids.length := by
  constructor
  · intro hperm id hid
    exact List.mem_range.mp (hperm.subset (List.mem_map_of_mem hid))
  · intro hbelow
    have hnodup : (ids.map UInt64.toNat).Nodup := hdistinct.map fun _ _ => UInt64.toNat_inj.mp
    have hsubset : ids.map UInt64.toNat ⊆ List.range ids.length := by
      intro n hn
      obtain ⟨id, hid, rfl⟩ := List.mem_map.mp hn
      exact List.mem_range.mpr (hbelow id hid)
    refine (hnodup.subperm hsubset).perm_of_length_le ?_
    rw [List.length_range, List.length_map]

/-- What is answered where an identifier is asked for beside `ids` and `count` is proposed. -/
structure GivesNewId (ids : List UInt64) (count : UInt64) (answer : Option UInt64) : Prop where
  none_iff : answer = none ↔ count ∈ ids ∧ lastId ∈ ids
  not_mem : ∀ id, answer = some id → id ∉ ids
  counted : count ∉ ids → answer = some count
  beyond : count ∈ ids → lastId ∉ ids → ∃ greatest ∈ ids, (∀ other ∈ ids, other ≤ greatest) ∧
    ∃ id, answer = some id ∧ id.toNat = greatest.toNat + 1

theorem givesNewId_nextFreeId? (ids : List UInt64) (count : UInt64) :
    GivesNewId ids count (nextFreeId? ids count) where
  none_iff := nextFreeId?_eq_none_iff
  not_mem _ := not_mem_of_nextFreeId?
  counted := nextFreeId?_of_not_mem
  beyond := by
    intro hcount hlast
    obtain ⟨greatest, hmem, hle, hnext⟩ := nextFreeId?_of_mem hcount
    have hne : greatest + 1 ≠ 0 := by
      rw [ne_eq, add_one_eq_zero_iff]
      rintro rfl
      exact hlast hmem
    refine ⟨greatest, hmem, hle, greatest + 1, ?_, toNat_add_one_of_ne_zero hne⟩
    rw [hnext, succId?_eq_some_iff]
    exact ⟨hne, rfl⟩

/-- Beside distinct identifiers, of which there are fewer than there are identifiers at all, a new one is
found unless their number and the last identifier are both in use: their number, or else one more than the
greatest.  Their order does not count, and where they have no holes it is their number. -/
theorem newId_beside {ids : List UInt64} (hdistinct : ids.Nodup) (hlength : ids.length < UInt64.size) :
    ids.length.toUInt64.toNat = ids.length ∧
    GivesNewId ids ids.length.toUInt64 (nextFreeId? ids ids.length.toUInt64) ∧
    (∀ ids', ids'.Perm ids →
      nextFreeId? ids' ids'.length.toUInt64 = nextFreeId? ids ids.length.toUInt64) ∧
    ((ids.map UInt64.toNat).Perm (List.range ids.length) ↔ ∀ id ∈ ids, id < ids.length.toUInt64) ∧
    ((∀ id ∈ ids, id < ids.length.toUInt64) →
      nextFreeId? ids ids.length.toUInt64 = some ids.length.toUInt64) := by
  have hcount : ids.length.toUInt64.toNat = ids.length := UInt64.toNat_ofNat_of_lt hlength
  refine ⟨hcount, givesNewId_nextFreeId? ids _, ?_, ?_, ?_⟩
  · intro ids' hperm
    rw [hperm.length_eq, nextFreeId?_of_perm hperm]
  · simp only [perm_range_iff hdistinct, UInt64.lt_iff_toNat_lt, hcount]
  · intro hbelow
    refine nextFreeId?_of_not_mem fun hmem => ?_
    exact absurd (hbelow _ hmem) Std.lt_irrefl

/-- Their number is in use, then the last identifier too, and then there are no holes. -/
theorem newId_beside_gapped : GivesNewId [4, 0, 7, 2] 4 (some 8) ∧
    nextFreeId? [7, 4, 2, 0] 4 = nextFreeId? [4, 0, 7, 2] 4 ∧
    GivesNewId [lastId, 3, 0] 3 none ∧ nextFreeId? [2, 0, 1] 3 = some 3 := by
  have hdistinct : ([4, 0, 7, 2] : List UInt64).Nodup ∧ [lastId, 3, 0].Nodup ∧
      ([2, 0, 1] : List UInt64).Nodup := by
    decide
  obtain ⟨-, hgapped, horder, -⟩ := newId_beside hdistinct.1 (by decide)
  obtain ⟨-, hlast, -⟩ := newId_beside hdistinct.2.1 (by decide)
  obtain ⟨-, -, -, -, hfull⟩ := newId_beside hdistinct.2.2 (by decide)
  exact ⟨hgapped, horder _ (by decide), hlast, hfull (by simp)⟩

end PipelineRegistry
