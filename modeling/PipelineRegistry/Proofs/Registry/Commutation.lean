import Mathlib
import PipelineRegistry.Proofs.Registry.Dissolution

/-! # Changes of different entities

An edit and a hard removal are addressed to one entity.  All they do to the groups is to change that
entity in its place or to take it out, whatever else the registry holds.  Changes of different entities
therefore commute, also where one entity holds the other: an edit leaves alone what an entity holds, and
a change of what it holds leaves alone its labels.

This is shown level by level, from pointers up to groups, and carried over to runs of operations.  The
index of owners follows, since a valid registry is determined by its groups. -/

namespace PipelineRegistry

open Calendar

/-! ### One place of a listing -/

/-- Two changes give the same in either order. -/
def Commuting {α : Type} (f f' : α → Option α) : Prop := ∀ x, (f x).bind f' = (f' x).bind f

theorem Commuting.symm {α : Type} {f f' : α → Option α} (h : Commuting f f') : Commuting f' f :=
  fun x => (h x).symm

theorem Commuting.id_left {α : Type} (f : α → Option α) : Commuting some f :=
  fun _ => (Option.bind_some _ f).trans (Option.bind_fun_some _).symm

theorem Commuting.some {α : Type} {f f' : α → α} (h : ∀ x, f' (f x) = f (f' x)) :
    Commuting (fun x => some (f x)) (fun x => some (f' x)) :=
  fun x => congrArg Option.some (h x)

namespace Listing

variable {α κ : Type} [Keyed α κ] [DecidableEq κ] {k k' : κ} {f f' : α → Option α}

/-- The change that `f` is for the entity under `k`, and none for the others. -/
def only (k : κ) (f : α → Option α) (x : α) : Option α := if Keyed.key x = k then f x else some x

/-- Puts what `f` makes of the entity under `k` in its place, or takes the entity out. -/
def alter (l : Listing α) (k : κ) (f : α → Option α) : Listing α := ⟨l.toList.filterMap (only k f)⟩

/-- What becomes of an entity is listed under the same key. -/
def KeepsKey (f : α → Option α) : Prop := ∀ x, ∀ y ∈ f x, Keyed.key y = Keyed.key x

theorem alter_some (l : Listing α) (k : κ) (f : α → α) :
    l.alter k (fun x => some (f x)) = l.modify k f := by
  rw [alter, modify, ← List.filterMap_eq_map']
  refine congrArg Listing.ofList (List.filterMap_congr ?_)
  intro x _
  rw [only]
  split <;> rfl

theorem alter_none (l : Listing α) (k : κ) : l.alter k (fun _ => none) = l.erase k := by
  rw [alter, erase, ← List.filterMap_eq_filter]
  refine congrArg Listing.ofList (List.filterMap_congr ?_)
  intro x _
  by_cases hx : Keyed.key x = k <;> simp [only, Option.guard, hx]

theorem alter_id (l : Listing α) (k : κ) : l.alter k some = l := by
  rw [alter_some, modify_id]

/-- Changes of different entities commute, and changes of the same entity if they do themselves. -/
theorem commuting_only (hf : KeepsKey f) (hf' : KeepsKey f') (h : k = k' → Commuting f f') :
    Commuting (only k f) (only k' f') := by
  have hmiss : ∀ {f : α → Option α}, KeepsKey f → ∀ {x k'}, Keyed.key x ≠ k' →
      ∀ f' : α → Option α, (f x).bind (only k' f') = f x := by
    intro f hf x k' hx f'
    cases hfx : f x with
    | none => rfl
    | some y => exact if_neg fun hy => hx ((hf x y hfx).symm.trans hy)
  have hhit : ∀ {f : α → Option α}, KeepsKey f → ∀ {x k'}, Keyed.key x = k' →
      ∀ f' : α → Option α, (f x).bind (only k' f') = (f x).bind f' := by
    intro f hf x k' hx f'
    cases hfx : f x with
    | none => rfl
    | some y => exact if_pos ((hf x y hfx).trans hx)
  intro x
  by_cases hk : Keyed.key x = k <;> by_cases hk' : Keyed.key x = k'
  · rw [only, if_pos hk, only, if_pos hk', hhit hf hk', hhit hf' hk]
    exact h (hk.symm.trans hk') x
  · rw [only, if_pos hk, only, if_neg hk', hmiss hf hk', Option.bind_some, only, if_pos hk]
  · rw [only, if_neg hk, only, if_pos hk', hmiss hf' hk, Option.bind_some, only, if_pos hk']
  · rw [only, if_neg hk, only, if_neg hk', Option.bind_some, Option.bind_some, only, if_neg hk',
      only, if_neg hk]

theorem filterMap_comm (h : Commuting f f') (xs : List α) :
    (xs.filterMap f).filterMap f' = (xs.filterMap f').filterMap f := by
  rw [List.filterMap_filterMap, List.filterMap_filterMap]
  exact List.filterMap_congr fun x _ => h x

theorem alter_comm (hf : KeepsKey f) (hf' : KeepsKey f') (h : k = k' → Commuting f f')
    (l : Listing α) : (l.alter k f).alter k' f' = (l.alter k' f').alter k f :=
  congrArg Listing.ofList (filterMap_comm (commuting_only hf hf' h) l.toList)

end Listing

open Listing (only alter KeepsKey commuting_only alter_comm)

/-! ### Addresses and effects -/

/-- Where an entity is found. -/
inductive Address where
  | group (g : GroupId)
  | project (p : ProjectId)
  | pointer (p : ProjectId) (q : PointerId)
deriving DecidableEq, Repr

/-- What becomes of the entity that is addressed. -/
inductive Effect where
  | change (now : Timestamp) (edit : Edit)
  | removal
  | nothing

/-- The entity to which an edit, a removal of a pointer or a hard removal is addressed. -/
def Operation.address? : Operation → Option Address
  | .editGroup g _ | .deleteGroup g true => some (.group g)
  | .editProject p _ | .deleteProject _ p true => some (.project p)
  | .editPointer p q _ | .deletePointer p q => some (.pointer p q)
  | _ => none

/-- What an operation at the time `now` does to the entity it is addressed to. -/
def Operation.effect (now : Timestamp) : Operation → Effect
  | .editGroup _ edit | .editProject _ edit | .editPointer _ _ edit => .change now edit
  | .deleteProject _ p _ => if p = securedProjectId then .nothing else .removal
  | _ => .removal

/-- The effect on an entity that edits change in this way. -/
def Effect.on {α : Type} (edited : α → Timestamp → Edit → α) : Effect → α → Option α
  | .change now edit, x => some (edited x now edit)
  | .removal, _ => none
  | .nothing, x => some x

/-- The effect on a group itself. -/
def Effect.onGroup : Effect → Group → Option Group := Effect.on Group.edited

/-- The effect on a project itself. -/
def Effect.onProject : Effect → Project → Option Project := Effect.on Project.edited

/-- The effect on a pointer itself. -/
def Effect.onPointer : Effect → Pointer → Option Pointer := Effect.on fun q _ edit => q.edited edit

/-- The project when one of its pointers is changed. -/
def Project.alterPointer (q : PointerId) (f : Pointer → Option Pointer) (p : Project) : Project :=
  { p with pointers := p.pointers.alter q f }

/-- The group when one of its projects is changed. -/
def Group.alterProject (p : ProjectId) (f : Project → Option Project) (g : Group) : Group :=
  { g with projects := g.projects.alter p f }

/-- What becomes of a group when the entity at an address is affected. -/
def Address.onGroup (effect : Effect) : Address → Group → Option Group
  | .group g => only g effect.onGroup
  | .project p => fun group => some (group.alterProject p effect.onProject)
  | .pointer p q => fun group =>
      some (group.alterProject p fun project => some (project.alterPointer q effect.onPointer))

/-- What becomes of a group when an operation at the time `now` is performed. -/
def Operation.onGroup (operation : Operation) (now : Timestamp) : Group → Option Group :=
  operation.address?.elim some (·.onGroup (operation.effect now))

theorem Operation.onGroup_eq {operation : Operation} {address : Address}
    (h : operation.address? = some address) (now : Timestamp) :
    operation.onGroup now = address.onGroup (operation.effect now) := by
  rw [onGroup, h, Option.elim_some]

theorem Operation.onGroup_of_none {operation : Operation} (h : operation.address? = none)
    (now : Timestamp) : operation.onGroup now = some := by
  rw [onGroup, h, Option.elim_none]

/-! ### Effects at different addresses -/

section effects

variable {effect effect' : Effect}

theorem Effect.keepsKey_on {α κ : Type} [Keyed α κ] {edited : α → Timestamp → Edit → α}
    (hedited : ∀ x now edit, Keyed.key (edited x now edit) = Keyed.key x) (effect : Effect) :
    KeepsKey (effect.on edited) := by
  intro x y hy
  cases effect with
  | change now edit =>
      cases hy
      exact hedited x now edit
  | removal => cases hy
  | nothing =>
      cases hy
      rfl

/-- An effect commutes with a change that edits do not notice. -/
theorem Effect.commuting_on {α : Type} {edited : α → Timestamp → Edit → α} {f : α → α}
    (hf : ∀ x now edit, edited (f x) now edit = f (edited x now edit)) (effect : Effect) :
    Commuting (effect.on edited) (fun x => some (f x)) := by
  intro x
  cases effect with
  | change now edit => exact congrArg some (hf x now edit).symm
  | removal => rfl
  | nothing => rfl

theorem Effect.keepsKey_onGroup (effect : Effect) : KeepsKey effect.onGroup :=
  effect.keepsKey_on fun x now edit => x.id_edited now edit

theorem Effect.keepsKey_onProject (effect : Effect) : KeepsKey effect.onProject :=
  effect.keepsKey_on fun x now edit => x.id_edited now edit

theorem Effect.keepsKey_onPointer (effect : Effect) : KeepsKey effect.onPointer :=
  effect.keepsKey_on fun x _ edit => x.id_edited edit

theorem keepsKey_alterPointer (q : PointerId) (f : Pointer → Option Pointer) :
    KeepsKey fun p : Project => some (p.alterPointer q f) := by
  rintro p - ⟨⟩
  rfl

/-- A project is edited and one of its pointers changed. -/
theorem Effect.commuting_onProject (effect : Effect) (q : PointerId) (f : Pointer → Option Pointer) :
    Commuting effect.onProject fun p => some (p.alterPointer q f) :=
  effect.commuting_on fun p now edit => by cases edit <;> rfl

/-- A group is edited and one of its projects changed. -/
theorem Effect.commuting_onGroup (effect : Effect) (p : ProjectId) (f : Project → Option Project) :
    Commuting effect.onGroup fun g => some (g.alterProject p f) :=
  effect.commuting_on fun g now edit => by cases edit <;> rfl

theorem commuting_alterPointer {q q' : PointerId} (hq : q ≠ q') :
    Commuting (fun p : Project => some (p.alterPointer q effect.onPointer))
      (fun p => some (p.alterPointer q' effect'.onPointer)) := by
  refine .some fun p => ?_
  exact congrArg (fun pointers => { p with pointers })
    (alter_comm effect.keepsKey_onPointer effect'.keepsKey_onPointer (absurd · hq) p.pointers)

theorem commuting_alterProject {p p' : ProjectId} {f f' : Project → Option Project}
    (hf : KeepsKey f) (hf' : KeepsKey f') (h : p = p' → Commuting f f') :
    Commuting (fun g : Group => some (g.alterProject p f)) (fun g => some (g.alterProject p' f')) := by
  refine .some fun g => ?_
  exact congrArg (fun projects => { g with projects }) (alter_comm hf hf' h g.projects)

/-- A group is affected itself, and a project of some group is changed. -/
theorem commuting_only_alterProject (g : GroupId) (effect : Effect) (p : ProjectId)
    (f : Project → Option Project) :
    Commuting (only g effect.onGroup) (fun group => some (group.alterProject p f)) := by
  intro group
  change _ = only g effect.onGroup (group.alterProject p f)
  have hkey : Keyed.key (group.alterProject p f) = Keyed.key group := rfl
  simp only [only, hkey]
  split
  · exact effect.commuting_onGroup p f group
  · rfl

/-- Effects at different addresses commute. -/
theorem Address.commuting_onGroup {s t : Address} (h : s ≠ t) :
    Commuting (s.onGroup effect) (t.onGroup effect') := by
  cases s with
  | group g =>
      cases t with
      | group g' =>
          refine commuting_only effect.keepsKey_onGroup effect'.keepsKey_onGroup ?_
          rintro rfl
          exact absurd rfl h
      | project p => exact commuting_only_alterProject g effect p _
      | pointer p q => exact commuting_only_alterProject g effect p _
  | project p =>
      cases t with
      | group g => exact (commuting_only_alterProject g effect' p _).symm
      | project p' =>
          refine commuting_alterProject effect.keepsKey_onProject effect'.keepsKey_onProject ?_
          rintro rfl
          exact absurd rfl h
      | pointer p' q =>
          exact commuting_alterProject effect.keepsKey_onProject (keepsKey_alterPointer q _)
            fun _ => effect.commuting_onProject q _
  | pointer p q =>
      cases t with
      | group g => exact (commuting_only_alterProject g effect' p _).symm
      | project p' =>
          exact commuting_alterProject (keepsKey_alterPointer q _) effect'.keepsKey_onProject
            fun _ => (effect'.commuting_onProject q _).symm
      | pointer p' q' =>
          refine commuting_alterProject (keepsKey_alterPointer q _) (keepsKey_alterPointer q' _) ?_
          rintro rfl
          refine commuting_alterPointer ?_
          rintro rfl
          exact absurd rfl h

/-- Operations at different addresses do to groups what commutes. -/
theorem Operation.commuting_onGroup {a b : Operation} (hne : a.address? ≠ b.address?)
    (now now' : Timestamp) : Commuting (a.onGroup now) (b.onGroup now') := by
  cases ha : a.address? with
  | none =>
      rw [a.onGroup_of_none ha]
      exact .id_left _
  | some s =>
      cases hb : b.address? with
      | none =>
          rw [b.onGroup_of_none hb]
          exact (Commuting.id_left _).symm
      | some t =>
          rw [onGroup_eq ha, onGroup_eq hb]
          exact Address.commuting_onGroup fun h => hne (by rw [ha, hb, h])

end effects

/-! ### Registries -/

namespace Registry

variable {r r' : Registry} {now : Timestamp} {g : GroupId} {p : ProjectId} {operation : Operation}
  {outcome : Outcome}

/-- A valid registry is determined by its groups. -/
theorem Valid.eq_of_groups (hr : r.Valid) (hr' : r'.Valid) (hgroups : r.groups = r'.groups) :
    r = r' := by
  refine eq_of_toList_of_ownerOf? (congrArg Listing.toList hgroups) ?_
  intro p
  refine Option.ext fun g => ?_
  rw [hr.owner_iff, hr'.owner_iff, group?, group?, hgroups]

theorem groups_modifyGroup (r : Registry) (g : GroupId) (now : Timestamp) (edit : Edit) :
    (r.modifyGroup g (·.edited now edit)).groups =
      ⟨r.groups.toList.filterMap (Address.onGroup (.change now edit) (.group g))⟩ :=
  (r.groups.alter_some g (·.edited now edit)).symm

theorem groups_eraseGroup {group : Group} (hgroup : r.group? g = some group) :
    (r.eraseGroup group).groups =
      ⟨r.groups.toList.filterMap (Address.onGroup .removal (.group g))⟩ := by
  have hid : group.id = g := Listing.key_of_get? hgroup
  exact hid ▸ (r.groups.alter_none group.id).symm

/-- What is done to a project is done to its group, and to no other. -/
theorem Valid.groups_eraseProject_eq_filterMap (hr : r.Valid) (howner : r.ownerOf? p = some g) :
    (r.eraseProject g p).groups =
      ⟨r.groups.toList.filterMap (Address.onGroup .removal (.project p))⟩ := by
  have hchange : Address.onGroup .removal (.project p) =
      fun group => some { group with projects := group.projects.erase p } := by
    funext group
    exact congrArg (fun projects => some { group with projects }) (group.projects.alter_none p)
  rw [hr.groups_eraseProject howner, hchange, List.filterMap_eq_map']

theorem Valid.groups_modifyProject_eq_filterMap (hr : r.Valid) (p : ProjectId)
    (f : Project → Project) : (r.modifyProject p f).groups =
      ⟨r.groups.toList.filterMap fun group =>
        some (group.alterProject p fun project => some (f project))⟩ := by
  simp only [hr.groups_modifyProject, List.filterMap_eq_map', Group.alterProject, Listing.alter_some]

theorem groups_eq_filterMap_nothing (r : Registry) (p : ProjectId) :
    r.groups = ⟨r.groups.toList.filterMap (Address.onGroup .nothing (.project p))⟩ := by
  have hchange : Address.onGroup .nothing (.project p) = some := by
    funext group
    exact congrArg (fun projects => some { group with projects }) (group.projects.alter_id p)
  rw [hchange, List.filterMap_some]

/-- What an operation addressed to one entity makes of the groups. -/
theorem Valid.groups_of_perform (hr : r.Valid) (haddressed : operation.address?.isSome)
    (h : operation.perform now r = .ok (outcome, r')) :
    r'.groups = ⟨r.groups.toList.filterMap (operation.onGroup now)⟩ := by
  obtain ⟨address, haddress⟩ := Option.isSome_iff_exists.mp haddressed
  rw [Operation.onGroup_eq haddress]
  replace h := makes_of_perform h
  cases operation <;> obtain ⟨entity, h⟩ := h <;> unfold Operation.address? at haddress
  case createGroup | createProject | createPointer => cases haddress
  case deleteGroup g hard =>
    cases hard <;> cases haddress
    obtain ⟨hgroup, -, rfl⟩ := deleteGroup_ok h
    exact groups_eraseGroup hgroup
  case deleteProject g p hard =>
    cases hard <;> cases haddress
    obtain ⟨-, -, -, ⟨hp, -, rfl⟩ | ⟨hp, owner, _, howner, -, -, hdone⟩⟩ := deleteProject_ok h
    · rw [Operation.effect, if_pos hp]
      exact groups_eq_filterMap_nothing _ p
    · rcases hdone with ⟨-, rfl⟩ | ⟨⟨⟩, -⟩
      rw [Operation.effect, if_neg hp]
      exact hr.groups_eraseProject_eq_filterMap howner
  case deletePointer p q =>
    cases haddress
    obtain ⟨-, -, -, rfl⟩ := deletePointer_ok h
    rw [hr.groups_modifyProject_eq_filterMap]
    simp only [← Listing.alter_none]
    rfl
  case editGroup g edit =>
    cases haddress
    obtain ⟨-, -, -, -, rfl⟩ := editGroup_ok h
    exact groups_modifyGroup r g now edit
  case editProject p edit =>
    cases haddress
    obtain ⟨-, -, -, -, rfl⟩ := editProject_ok h
    rw [hr.groups_modifyProject_eq_filterMap]
    rfl
  case editPointer p q edit =>
    cases haddress
    obtain ⟨-, -, -, -, -, -, rfl⟩ := editPointer_ok h
    rw [hr.groups_modifyProject_eq_filterMap]
    simp only [← Listing.alter_some]
    rfl

/-! ### Orders of operations -/

/-- Performs operations one after the other, each at its own time, as long as they succeed. -/
def performTimed (r : Registry) : List (Timestamp × Operation) → Except RegistryError Registry
  | [] => .ok r
  | (now, operation) :: operations =>
    (operation.perform now r).bind fun changed => changed.2.performTimed operations

theorem performTimed_cons_eq_ok {operations : List (Timestamp × Operation)} :
    r.performTimed ((now, operation) :: operations) = .ok r' ↔ ∃ outcome r₁,
      operation.perform now r = .ok (outcome, r₁) ∧ r₁.performTimed operations = .ok r' := by
  rw [performTimed]
  cases operation.perform now r with
  | error e => simp [Except.bind]
  | ok changed =>
      obtain ⟨outcome, r₁⟩ := changed
      simp [Except.bind]

/-- What operations make of the groups is the composition of what each of them does. -/
theorem Valid.performTimed (hr : r.Valid) {operations : List (Timestamp × Operation)}
    (haddressed : ∀ o ∈ operations, o.2.address?.isSome)
    (h : r.performTimed operations = .ok r') : r'.Valid ∧ r'.groups.toList =
      operations.foldl (fun groups o => groups.filterMap (o.2.onGroup o.1)) r.groups.toList := by
  induction operations generalizing r with
  | nil =>
      cases h
      exact ⟨hr, rfl⟩
  | cons o operations ih =>
      obtain ⟨now, operation⟩ := o
      obtain ⟨outcome, r₁, hfirst, hrest⟩ := performTimed_cons_eq_ok.mp h
      rw [List.forall_mem_cons] at haddressed
      obtain ⟨hvalid, hgroups⟩ := ih (hr.perform hfirst) haddressed.2 hrest
      refine ⟨hvalid, ?_⟩
      rw [hgroups, hr.groups_of_perform haddressed.1 hfirst, List.foldl_cons]

/-- Operations addressed to different entities come to the same registry in every order in which they
succeed. -/
theorem Valid.performTimed_perm (hr : r.Valid) {operations operations' : List (Timestamp × Operation)}
    (hperm : operations.Perm operations') (haddressed : ∀ o ∈ operations, o.2.address?.isSome)
    (hnodup : (operations.map fun o => o.2.address?).Nodup)
    (h : r.performTimed operations = .ok r') {r'' : Registry}
    (h' : r.performTimed operations' = .ok r'') : r' = r'' := by
  obtain ⟨hvalid, hgroups⟩ := hr.performTimed haddressed h
  obtain ⟨hvalid', hgroups'⟩ := hr.performTimed (fun o ho => haddressed o (hperm.mem_iff.mpr ho)) h'
  refine hvalid.eq_of_groups hvalid' (congrArg Listing.ofList ?_)
  rw [hgroups, hgroups']
  refine hperm.foldl_eq' ?_ _
  intro o ho o' ho' groups
  by_cases haddress : o.2.address? = o'.2.address?
  · rw [List.inj_on_of_nodup_map hnodup ho ho' haddress]
  · exact Listing.filterMap_comm (Operation.commuting_onGroup haddress o.1 o'.1) groups

end Registry
end PipelineRegistry
