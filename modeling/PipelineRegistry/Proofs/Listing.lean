import Mathlib
import PipelineRegistry.Listing

/-! # Listings with different keys

A listing whose keys are pairwise different is a map from keys to entities together with an order.
Around the entity with a key the listing splits into what stands before it and what stands behind
it (`Splits`); changing the entity in its place and taking it out act on that middle part only.
What an operation does to the places of a listing is read off the split. -/

namespace PipelineRegistry.Listing

variable {α κ : Type} [Keyed α κ] [DecidableEq κ] {l : Listing α} {k : κ} {x : α}

/-! ### Looking up -/

omit [DecidableEq κ] in
theorem mem_keys : k ∈ l.keys ↔ ∃ x ∈ l.toList, Keyed.key x = k := List.mem_map

theorem mem_of_get? (h : l.get? k = some x) : x ∈ l.toList := List.mem_of_find?_eq_some h

theorem key_of_get? (h : l.get? k = some x) : Keyed.key x = k := by
  simpa using List.find?_some h

theorem mem_keys_of_get? (h : l.get? k = some x) : k ∈ l.keys :=
  mem_keys.mpr ⟨x, mem_of_get? h, key_of_get? h⟩

theorem get?_eq_none_iff : l.get? k = none ↔ k ∉ l.keys := by
  simp [get?, mem_keys, List.find?_eq_none]

theorem contains_iff : l.contains k = true ↔ k ∈ l.keys := by
  rw [contains, Option.isSome_iff_ne_none, ne_eq, get?_eq_none_iff, not_not]

theorem contains_eq_false_iff : l.contains k = false ↔ k ∉ l.keys := by
  rw [← contains_iff, Bool.not_eq_true]

/-- Where keys differ, an entity is listed under its own key. -/
theorem get?_key (hl : l.keys.Nodup) (hx : x ∈ l.toList) : l.get? (Keyed.key x) = some x := by
  cases hg : l.get? (Keyed.key x) with
  | none => exact absurd (mem_keys.mpr ⟨x, hx, rfl⟩) (get?_eq_none_iff.mp hg)
  | some y =>
      have hxy : y = x := List.inj_on_of_nodup_map hl (mem_of_get? hg) hx (key_of_get? hg)
      rw [hxy]

theorem get?_eq_some_iff (hl : l.keys.Nodup) :
    l.get? k = some x ↔ x ∈ l.toList ∧ Keyed.key x = k := by
  constructor
  · intro h
    exact ⟨mem_of_get? h, key_of_get? h⟩
  · rintro ⟨hx, rfl⟩
    exact get?_key hl hx

/-! ### The place of an entity -/

/-- `l` lists `a`, then `x` under the key `k`, then `b`, and `k` nowhere else. -/
structure Splits (l : Listing α) (k : κ) (a : List α) (x : α) (b : List α) : Prop where
  toList_eq : l.toList = a ++ x :: b
  key_eq : Keyed.key x = k
  before_ne : ∀ y ∈ a, Keyed.key y ≠ k
  behind_ne : ∀ y ∈ b, Keyed.key y ≠ k

/-- Where keys differ, a listing splits around each of its entities. -/
theorem exists_splits (hl : l.keys.Nodup) (h : l.get? k = some x) : ∃ a b, l.Splits k a x b := by
  obtain ⟨a, b, hab⟩ := List.append_of_mem (mem_of_get? h)
  have hk := key_of_get? h
  rw [keys, hab, List.map_append, List.map_cons, List.nodup_middle, List.nodup_cons, hk,
    List.mem_append, not_or] at hl
  refine ⟨a, b, hab, hk, ?_, ?_⟩
  · intro y hy hyk
    exact hl.1.1 (hyk ▸ List.mem_map_of_mem hy)
  · intro y hy hyk
    exact hl.1.2 (hyk ▸ List.mem_map_of_mem hy)

namespace Splits

variable {a b : List α}

theorem get?_eq (h : l.Splits k a x b) : l.get? k = some x := by
  have ha : a.find? (fun y => decide (Keyed.key y = k)) = none := by
    simpa [List.find?_eq_none] using h.before_ne
  rw [get?, h.toList_eq, List.find?_append, ha, List.find?_cons_of_pos (by simpa using h.key_eq)]
  rfl

theorem mem (h : l.Splits k a x b) : x ∈ l.toList := mem_of_get? h.get?_eq

theorem toList_modify (h : l.Splits k a x b) (f : α → α) :
    (l.modify k f).toList = a ++ f x :: b := by
  have hc : ∀ c : List α, (∀ y ∈ c, Keyed.key y ≠ k) →
      c.map (fun y => if Keyed.key y = k then f y else y) = c := by
    intro c hc
    refine (List.map_congr_left ?_).trans (List.map_id c)
    intro y hy
    rw [if_neg (hc y hy)]
    rfl
  rw [Listing.toList_modify, h.toList_eq, List.map_append, List.map_cons, hc a h.before_ne,
    hc b h.behind_ne, if_pos h.key_eq]

theorem toList_erase (h : l.Splits k a x b) : (l.erase k).toList = a ++ b := by
  have hc : ∀ c : List α, (∀ y ∈ c, Keyed.key y ≠ k) →
      c.filter (fun y => decide (Keyed.key y ≠ k)) = c := by
    intro c hc
    rw [List.filter_eq_self]
    simpa using hc
  rw [Listing.toList_erase, h.toList_eq, List.filter_append,
    List.filter_cons_of_neg (by simpa using h.key_eq), hc a h.before_ne, hc b h.behind_ne]

end Splits

/-! ### Changing a listing -/

/-- Changing the entity under one key changes what is listed under that key only. -/
theorem get?_modify {f : α → α} (hf : ∀ x, Keyed.key x = k → Keyed.key (f x) = k) (k' : κ) :
    (l.modify k f).get? k' = if k' = k then (l.get? k).map f else l.get? k' := by
  have hkey : ∀ y : α, Keyed.key (if Keyed.key y = k then f y else y) = Keyed.key y := by
    intro y
    split
    · rename_i hy
      exact (hf y hy).trans hy.symm
    · rfl
  rw [get?, toList_modify, List.find?_map]
  simp only [Function.comp_def, hkey]
  change (l.get? k').map _ = _
  cases hget : l.get? k' with
  | none =>
      split
      · rename_i hk
        rw [← hk, hget]
        rfl
      · rfl
  | some y =>
      have hy := key_of_get? hget
      split
      · rename_i hk
        rw [← hk, hget, Option.map_some, Option.map_some, if_pos hy]
      · rename_i hk
        rw [Option.map_some, if_neg fun h => hk (hy.symm.trans h)]

/-- A change in place leaves all keys as they are. -/
theorem keys_modify {f : α → α} (hf : ∀ x, Keyed.key x = k → Keyed.key (f x) = k) :
    (l.modify k f).keys = l.keys := by
  rw [keys, toList_modify, List.map_map]
  refine List.map_congr_left ?_
  intro y _
  change Keyed.key (ite _ _ _) = Keyed.key y
  split
  · rename_i hy
    exact (hf y hy).trans hy.symm
  · rfl

theorem toList_insert (h : Keyed.key x ∉ l.keys) : (l.insert x).toList = l.toList ++ [x] :=
  toList_insert_of_not_contains l x (contains_eq_false_iff.mpr h)

theorem keys_insert (h : Keyed.key x ∉ l.keys) : (l.insert x).keys = l.keys ++ [Keyed.key x] := by
  rw [keys, toList_insert h, List.map_append]
  rfl

/-- What is put under a key is found there, and nothing else changes its place. -/
theorem get?_insert (x : α) (k : κ) :
    (l.insert x).get? k = if k = Keyed.key x then some x else l.get? k := by
  unfold insert
  split
  · rename_i hcontains
    have hmodify := get?_modify (l := l) (k := Keyed.key x) (f := fun _ => x) (fun _ _ => rfl) k
    obtain ⟨y, hy⟩ := Option.isSome_iff_exists.mp hcontains
    rw [hy] at hmodify
    exact hmodify
  · rename_i hcontains
    rw [get?, List.find?_append]
    by_cases hk : k = Keyed.key x
    · have hnone : l.get? k = none := by
        rw [hk, get?_eq_none_iff, ← contains_iff]
        exact hcontains
      have hlast : [x].find? (fun y => decide (Keyed.key y = k)) = some x := by simp [hk]
      rw [if_pos hk, hlast]
      change (l.get? k).or _ = _
      rw [hnone, Option.none_or]
    · have hlast : [x].find? (fun y => decide (Keyed.key y = k)) = none := by simp [Ne.symm hk]
      rw [if_neg hk, hlast]
      exact Option.or_none

/-- A change of all entities that leaves their keys alone commutes with looking up. -/
theorem get?_map {f : α → α} (hf : ∀ x : α, Keyed.key (f x) = Keyed.key x) (k : κ) :
    (⟨l.toList.map f⟩ : Listing α).get? k = (l.get? k).map f := by
  rw [get?, List.find?_map]
  simp only [Function.comp_def, hf]
  rfl

/-- Nothing is found under a key that has been taken out, and nothing else has gone. -/
theorem get?_erase (l : Listing α) (k k' : κ) :
    (l.erase k).get? k' = if k' = k then none else l.get? k' := by
  rw [get?, Listing.toList_erase, List.find?_filter]
  split
  · rename_i hk
    simp [hk]
  · rename_i hk
    refine congrArg (l.toList.find? ·) ?_
    funext x
    by_cases hx : Keyed.key x = k' <;> simp [hx, hk]

theorem erase_eq_self (h : k ∉ l.keys) : l.erase k = l := by
  refine congrArg Listing.ofList (List.filter_eq_self.mpr ?_)
  intro x hx
  exact decide_eq_true fun hk => h (mem_keys.mpr ⟨x, hx, hk⟩)

theorem modify_of_not_mem (h : k ∉ l.keys) (f : α → α) : l.modify k f = l := by
  refine congrArg Listing.ofList ((List.map_congr_left ?_).trans (List.map_id _))
  intro x hx
  exact if_neg fun hk => h (mem_keys.mpr ⟨x, hx, hk⟩)

/-- A change of the entity under a key may be stated for the entity that is there. -/
theorem modify_eq_const (hl : l.keys.Nodup) (hx : l.get? k = some x) (f : α → α) :
    l.modify k f = l.modify k fun _ => f x := by
  refine congrArg Listing.ofList (List.map_congr_left ?_)
  intro y hy
  split
  · rename_i hyk
    have hfound := get?_key hl hy
    rw [hyk, hx, Option.some_inj] at hfound
    rw [hfound]
  · rfl

theorem modify_id (l : Listing α) (k : κ) : l.modify k (fun x => x) = l := by
  simp [modify]

theorem keys_erase_sublist (l : Listing α) (k : κ) : (l.erase k).keys.Sublist l.keys :=
  List.filter_sublist.map _

theorem keys_erase (hl : l.keys.Nodup) (k : κ) : (l.erase k).keys = l.keys.erase k := by
  rw [hl.erase_eq_filter, keys, keys, List.filter_map, toList_erase]
  refine congrArg (List.map Keyed.key) (List.filter_congr ?_)
  intro y _
  rw [Function.comp_apply, Bool.eq_iff_iff, decide_eq_true_iff, bne_iff_ne]

theorem mem_keys_erase {k' : κ} : k' ∈ (l.erase k).keys ↔ k' ∈ l.keys ∧ k' ≠ k := by
  simp only [mem_keys, Listing.toList_erase, List.mem_filter, decide_eq_true_eq]
  constructor
  · rintro ⟨y, ⟨hy, hyk⟩, rfl⟩
    exact ⟨⟨y, hy, rfl⟩, hyk⟩
  · rintro ⟨⟨y, hy, rfl⟩, hk⟩
    exact ⟨y, ⟨hy, hk⟩, rfl⟩

/-! ### What holds of all entities -/

theorem forall_insert {P : α → Prop} (hl : ∀ y ∈ l.toList, P y) (hx : P x) :
    ∀ y ∈ (l.insert x).toList, P y := by
  intro y hy
  unfold insert at hy
  split at hy
  · obtain ⟨z, hz, rfl⟩ := List.mem_map.mp hy
    split
    · exact hx
    · exact hl z hz
  · rcases List.mem_append.mp hy with hy | hy
    · exact hl y hy
    · exact List.mem_singleton.mp hy ▸ hx

theorem forall_erase {P : α → Prop} (hl : ∀ y ∈ l.toList, P y) (k : κ) :
    ∀ y ∈ (l.erase k).toList, P y :=
  fun y hy => hl y (List.mem_of_mem_filter hy)

theorem forall_modify {P : α → Prop} (hl : ∀ y ∈ l.toList, P y) {f : α → α}
    (hf : ∀ y, P y → P (f y)) (k : κ) : ∀ y ∈ (l.modify k f).toList, P y := by
  intro y hy
  obtain ⟨z, hz, rfl⟩ := List.mem_map.mp hy
  split
  · exact hf z (hl z hz)
  · exact hl z hz

/-! ### Listings of lists -/

theorem firstRepeated?_eq_none_iff {seen : List κ} {xs : List α} :
    firstRepeated? seen xs = none ↔
      (xs.map Keyed.key).Nodup ∧ ∀ x ∈ xs, (Keyed.key x : κ) ∉ seen := by
  induction xs generalizing seen with
  | nil => simp [firstRepeated?]
  | cons x xs ih =>
      unfold firstRepeated?
      split
      · rename_i hseen
        simp [hseen]
      · rename_i hseen
        rw [ih, List.map_cons, List.nodup_cons, List.forall_mem_cons]
        simp only [List.mem_cons, not_or, List.mem_map, not_exists, not_and]
        constructor
        · rintro ⟨hnodup, hnot⟩
          exact ⟨⟨fun y hy => (hnot y hy).1, hnodup⟩, hseen, fun y hy => (hnot y hy).2⟩
        · rintro ⟨⟨hne, hnodup⟩, -, hnot⟩
          exact ⟨hnodup, fun y hy => ⟨hne y hy, hnot y hy⟩⟩

theorem ofList?_eq_ok_iff {xs : List α} :
    ofList? xs = .ok l ↔ (xs.map Keyed.key).Nodup ∧ l = ⟨xs⟩ := by
  have hnone : firstRepeated? ([] : List κ) xs = none ↔ _ := firstRepeated?_eq_none_iff
  unfold ofList?
  split
  · simp_all
  · simp_all [eq_comm]

/-! ### Agreement -/

section agreement

variable {same : α → α → Bool} {m : Listing α} {f : α → α}

theorem size_eq_of_agrees (h : l.agrees same m) : l.size = m.size := by
  rw [agrees, Bool.and_eq_true] at h
  exact beq_iff_eq.mp h.1

theorem exists_of_agrees (h : l.agrees same m) (hx : x ∈ l.toList) :
    ∃ y, m.get? (Keyed.key x) = some y ∧ same x y := by
  rw [agrees, Bool.and_eq_true] at h
  exact (Option.any_eq_true _ _).mp (List.all_eq_true.mp h.2 x hx)

/-- Listings of the same entities in any order agree. -/
theorem agrees_of_perm (hm : m.keys.Nodup) (hperm : l.toList.Perm m.toList)
    (hsame : ∀ x ∈ m.toList, same x x) : l.agrees same m := by
  rw [agrees, Bool.and_eq_true, beq_iff_eq, List.all_eq_true]
  refine ⟨hperm.length_eq, ?_⟩
  intro x hx
  have hx := hperm.mem_iff.mp hx
  rw [get?_key hm hx]
  exact hsame x hx

/-- An entity that is changed in its place has to agree with itself as it was. -/
theorem same_of_agrees_modify (hx : l.get? k = some x) (hf : Keyed.key (f x) = k)
    (h : (l.modify k f).agrees same l) : same (f x) x := by
  have hmem : f x ∈ (l.modify k f).toList := by
    rw [Listing.toList_modify]
    exact List.mem_map.mpr ⟨x, mem_of_get? hx, if_pos (key_of_get? hx)⟩
  obtain ⟨y, hy, hsame⟩ := exists_of_agrees h hmem
  rw [hf, hx] at hy
  obtain rfl := Option.some_inj.mp hy
  exact hsame

theorem modify_eq_self (hl : l.keys.Nodup) (hx : l.get? k = some x) (hf : f x = x) :
    l.modify k f = l := by
  obtain ⟨a, b, hsplits⟩ := exists_splits hl hx
  have htoList : (l.modify k f).toList = l.toList := by
    rw [hsplits.toList_modify, hf, hsplits.toList_eq]
  exact congrArg Listing.ofList htoList

theorem size_erase_lt (h : k ∈ l.keys) : (l.erase k).size < l.size := by
  obtain ⟨x, hx, hk⟩ := mem_keys.mp h
  unfold size
  rw [Listing.toList_erase, List.length_filter_lt_length_iff_exists]
  exact ⟨x, hx, by simpa using hk⟩

end agreement

end PipelineRegistry.Listing
