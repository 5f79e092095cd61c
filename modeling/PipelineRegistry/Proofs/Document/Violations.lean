import Mathlib
import PipelineRegistry.Proofs.Document.Acceptance

/-! # Which rule is reported

A document that lists no identifier twice can break many rules at once.  `Tree.violations` lists all of
them, in the order in which the rules are laid down: first those of the secured group and project, then,
as the groups are gone through one after the other, what offends against what came before.  The check
reports the first of them, although it goes by what it has met on its way (`Met`) and stops there.

What a chain of checks reports is put together step by step (`Reports`): where nothing is found the chain
goes on, and the first finding ends it. -/

namespace PipelineRegistry.Document

open Calendar Chain Registry

/-! ### Findings -/

section findings

variable {α β : Type} {found : List α → α → List β}

/-- What is found in a list, one element after the other, each in view of those that come before it. -/
def findings (found : List α → α → List β) (before : List α) : List α → List β
  | [] => []
  | x :: xs => found before x ++ findings found (before ++ [x]) xs

theorem mem_findings {before xs : List α} {b : β} : b ∈ findings found before xs ↔
    ∃ A x B, xs = A ++ x :: B ∧ b ∈ found (before ++ A) x := by
  induction xs generalizing before with
  | nil => simp [findings]
  | cons y ys ih =>
      rw [findings, List.mem_append, ih]
      constructor
      · rintro (hb | ⟨A, x, B, rfl, hb⟩)
        · exact ⟨[], y, ys, rfl, by rwa [List.append_nil]⟩
        · exact ⟨y :: A, x, B, rfl, by rwa [List.append_assoc] at hb⟩
      · rintro ⟨A, x, B, hsplit, hb⟩
        rcases List.cons_eq_append_iff.mp hsplit with ⟨rfl, hcons⟩ | ⟨A, rfl, rfl⟩
        · cases hcons
          exact .inl (by rwa [List.append_nil] at hb)
        · exact .inr ⟨A, x, B, rfl, by rwa [List.append_assoc]⟩

end findings

/-- The violation where the rule is broken. -/
def violatedIf (broken : Prop) [Decidable broken] (v : Violation) : List Violation :=
  if broken then [v] else []

theorem mem_violatedIf {broken : Prop} [Decidable broken] {v v' : Violation} :
    v ∈ violatedIf broken v' ↔ broken ∧ v = v' := by
  rw [violatedIf]
  split <;> simp_all

/-! ### Violations in their order -/

/-- What is wrong with the secured group and project. -/
def Tree.securedViolations (t : Tree) : List Violation :=
  (t.groups.find? (·.id = 0)).elim [.missingSecuredGroup] fun g =>
    violatedIf (g.name ≠ "other") (.securedNameChanged .group g.name) ++
      (g.projects.find? (·.id = 0)).elim [.missingSecuredProject] fun p =>
        violatedIf (p.name ≠ "other") (.securedNameChanged .project p.name) ++
          violatedIf (g.projects.head?.map ProjectNode.id ≠ some 0) .securedProjectNotFirst

/-- What is wrong with a pointer of project `p` that comes behind the pointers `before`. -/
def pointerViolations (p : ProjectId) (before : List Pointer) (q : Pointer) : List Violation :=
  violatedIf (q.projectId ≠ p) (.danglingPointer q.id q.projectId p) ++
    violatedIf (∃ q' ∈ before, q'.pipeline = q.pipeline) (.duplicatePipelineId q.pipeline)

/-- What is wrong with a project that comes behind the groups `groups` and, in its own group, behind the
projects `before`. -/
def projectViolations (groups : List GroupNode) (before : List ProjectNode) (p : ProjectNode) :
    List Violation :=
  violatedIf (∃ g ∈ groups, ∃ p' ∈ g.projects, p'.id = p.id) (.duplicateProjectId p.id) ++
    findings (pointerViolations p.id)
      ((groups.flatMap GroupNode.projects ++ before).flatMap ProjectNode.pointers) p.pointers ++
    violatedIf (∃ q ∈ p.pointers, q.id.toNat = 2 ^ 64 - 1) (.pointerIdsExhausted p.id)

/-- What is wrong with a group that comes behind the groups `before`. -/
def groupViolations (before : List GroupNode) (g : GroupNode) : List Violation :=
  violatedIf (∃ g' ∈ before, g'.name = g.name) (.duplicateGroupName g.name) ++
    findings (projectViolations before) [] g.projects

/-- What is wrong with a document. -/
def Tree.violations (t : Tree) : List Violation :=
  t.securedViolations ++ findings groupViolations [] t.groups

/-! ### What a chain of checks reports -/

/-- The first of some violations is reported, or where there is none the result is as described. -/
def Reports {α : Type} (result : Except Violation α) (violations : List Violation)
    (Holds : α → Prop) : Prop :=
  match violations with
  | [] => ∃ a, result = .ok a ∧ Holds a
  | v :: _ => result = .error v

namespace Reports

variable {α β γ : Type} {x : Except Violation α} {f : α → Except Violation β}
  {violations violations' : List Violation} {Holds : α → Prop} {Holds' : β → Prop}

theorem ok {a : α} (h : Holds a) : Reports (.ok a) [] Holds := ⟨a, rfl, h⟩

theorem bind (hx : Reports x violations Holds) (hf : ∀ a, Holds a → Reports (f a) violations' Holds') :
    Reports (x >>= f) (violations ++ violations') Holds' := by
  cases violations with
  | nil =>
      obtain ⟨a, rfl, ha⟩ := hx
      exact hf a ha
  | cons v violations =>
      obtain rfl : x = .error v := hx
      rfl

/-- A check in front of the other steps. -/
theorem check {broken broken' : Prop} [Decidable broken] [Decidable broken'] {v : Violation}
    (hbroken : broken ↔ broken') (hx : Reports x violations Holds) :
    Reports (if broken then .error v else x) (violatedIf broken' v ++ violations) Holds := by
  by_cases h : broken
  · rw [if_pos h, violatedIf, if_pos (hbroken.mp h)]
    rfl
  · rw [if_neg h, violatedIf, if_neg fun h' => h (hbroken.mpr h')]
    exact hx

/-- A scan reports the first finding, if each step does. -/
theorem foldlM {step : β → γ → Except Violation β} {found : List γ → γ → List Violation}
    {I : List γ → β → Prop} {before xs : List γ}
    (hstep : ∀ A y B, xs = A ++ y :: B → ∀ b, I (before ++ A) b →
      Reports (step b y) (found (before ++ A) y) (I (before ++ A ++ [y])))
    {b : β} (hb : I before b) :
    Reports (xs.foldlM step b) (findings found before xs) (I (before ++ xs)) := by
  induction xs generalizing before b with
  | nil =>
      rw [List.append_nil]
      exact .ok hb
  | cons y ys ih =>
      have hfirst := hstep [] y ys rfl b (by rwa [List.append_nil])
      simp only [List.append_nil] at hfirst
      rw [List.foldlM_cons, findings, List.append_cons before y ys]
      refine hfirst.bind fun b' hb' => ih ?_ hb'
      intro A z B hsplit
      have hrest := hstep (y :: A) z B (by rw [hsplit, List.cons_append])
      rwa [List.append_cons before y A] at hrest

end Reports

/-! ### What has been met -/

/-- The check has met groups with these names, these projects and these pointers. -/
structure Met (c : Checked) (names : List String) (projects : List ProjectNode)
    (pointers : List Pointer) : Prop where
  names : ∀ name, name ∈ c.groupNames ↔ name ∈ names
  projects : ∀ p, p ∈ c.owners ↔ ∃ n ∈ projects, n.id = p
  pipelines : ∀ pipeline, pipeline ∈ c.pipelines ↔ ∃ q ∈ pointers, q.pipeline = pipeline

theorem exists_mem_concat {α : Type} {P : α → Prop} {xs : List α} {x : α} :
    (∃ y ∈ xs ++ [x], P y) ↔ P x ∨ ∃ y ∈ xs, P y := by
  simp only [List.mem_append, List.mem_singleton, or_and_right, exists_or, exists_eq_left, or_comm]

namespace Met

variable {c : Checked} {names : List String} {projects : List ProjectNode} {pointers : List Pointer}

theorem nothing : Met .nothing [] [] [] where
  names _ := Iff.rfl
  projects p := by simp [Checked.nothing]
  pipelines pipeline := by simp [Checked.nothing]

theorem name (h : Met c names projects pointers) (name : String) :
    Met { c with groupNames := name :: c.groupNames } (names ++ [name]) projects pointers where
  names n := by rw [List.mem_cons, h.names, List.mem_append, List.mem_singleton, or_comm]
  projects := h.projects
  pipelines := h.pipelines

theorem project (h : Met c names projects pointers) (p : ProjectNode) (g : GroupId) :
    Met { c with owners := c.owners.insert p.id g } names (projects ++ [p]) pointers where
  names := h.names
  projects id := by
    rw [Std.ExtTreeMap.mem_insert, Std.compare_eq_iff_eq, h.projects, exists_mem_concat]
  pipelines := h.pipelines

theorem pointer (h : Met c names projects pointers) (q : Pointer) :
    Met { c with pipelines := q.pipeline :: c.pipelines } names projects (pointers ++ [q]) where
  names := h.names
  projects := h.projects
  pipelines pipeline := by
    rw [List.mem_cons, h.pipelines, exists_mem_concat, eq_comm]

/-- The check of a pointer. -/
theorem reports_pointer (h : Met c names projects pointers) (p : ProjectId) (q : Pointer) :
    Reports (Checked.pointer p c q) (pointerViolations p pointers q)
      (Met · names projects (pointers ++ [q])) := by
  unfold Checked.pointer pointerViolations
  rw [← List.append_nil (violatedIf (∃ q' ∈ pointers, _) _)]
  exact .check Iff.rfl (.check (h.pipelines _) (.ok (h.pointer q)))

/-- The check of a project with its pointers.  A project that was met in its own group has another
identifier. -/
theorem reports_project {groups : List GroupNode} {before : List ProjectNode} {p : ProjectNode}
    (h : Met c names (groups.flatMap GroupNode.projects ++ before)
      ((groups.flatMap GroupNode.projects ++ before).flatMap ProjectNode.pointers))
    (hne : ∀ p' ∈ before, p'.id ≠ p.id) (g : GroupId) :
    Reports (Checked.project g c p.project) (projectViolations groups before p)
      (Met · names (groups.flatMap GroupNode.projects ++ (before ++ [p]))
        ((groups.flatMap GroupNode.projects ++ (before ++ [p])).flatMap ProjectNode.pointers)) := by
  have hid : p.id ∈ c.owners ↔ ∃ g ∈ groups, ∃ p' ∈ g.projects, p'.id = p.id := by
    rw [h.projects]
    constructor
    · rintro ⟨p', hp', hid⟩
      rcases List.mem_append.mp hp' with hp' | hp'
      · obtain ⟨g, hg, hp'⟩ := List.mem_flatMap.mp hp'
        exact ⟨g, hg, p', hp', hid⟩
      · exact absurd hid (hne p' hp')
    · rintro ⟨g, hg, p', hp', hid⟩
      exact ⟨p', List.mem_append_left _ (List.mem_flatMap.mpr ⟨g, hg, hp'⟩), hid⟩
  have hids : p.project.idsExhausted = true ↔ ∃ q ∈ p.pointers, q.id.toNat = 2 ^ 64 - 1 := by
    have hlast : ∀ id : UInt64, id + 1 = 0 ↔ id.toNat = 2 ^ 64 - 1 := by
      intro id
      have hlt : id + 1 ≠ 0 ↔ id.toNat < 2 ^ 64 - 1 := add_one_ne_zero_iff
      have hmax := id.toNat_lt
      grind
    rw [← not_iff_not, Bool.not_eq_true, Project.idsExhausted_eq_false_iff]
    simp only [ne_eq, hlast, not_exists, not_and]
    rfl
  have hpointers : ((groups.flatMap GroupNode.projects ++ before ++ [p]).flatMap
      ProjectNode.pointers) = (groups.flatMap GroupNode.projects ++ before).flatMap
        ProjectNode.pointers ++ p.pointers := by
    rw [List.flatMap_append, List.flatMap_singleton]
  rw [← List.append_assoc, hpointers]
  unfold Checked.project projectViolations
  rw [List.append_assoc]
  have hscan := Reports.foldlM (I := fun pointers c => Met c names _ pointers)
    (fun A q B (_ : p.pointers = A ++ q :: B) c' hc' => hc'.reports_pointer p.id q) (h.project p g)
  refine Reports.check hid (hscan.bind ?_)
  intro c' hc'
  rw [← List.append_nil (violatedIf _ (.pointerIdsExhausted _))]
  exact .check hids (.ok hc')

/-- The check of a group with its projects. -/
theorem reports_group {before : List GroupNode}
    (h : Met c (before.map GroupNode.name) (before.flatMap GroupNode.projects)
      ((before.flatMap GroupNode.projects).flatMap ProjectNode.pointers)) {g : GroupNode}
    (hg : (g.projects.map ProjectNode.id).Nodup) :
    Reports (Checked.group c g.group) (groupViolations before g)
      (Met · ((before ++ [g]).map GroupNode.name) ((before ++ [g]).flatMap GroupNode.projects)
        (((before ++ [g]).flatMap GroupNode.projects).flatMap ProjectNode.pointers)) := by
  have hname : g.name ∈ c.groupNames ↔ ∃ g' ∈ before, g'.name = g.name := by
    rw [h.names, List.mem_map]
  rw [List.map_append, List.map_singleton, List.flatMap_append, List.flatMap_singleton]
  have hprojects : ∀ c, g.group.projects.toList.foldlM (Checked.project g.id) c =
      g.projects.foldlM (fun c p => Checked.project g.id c p.project) c := fun _ => List.foldlM_map
  unfold Checked.group groupViolations
  refine .check hname ?_
  change Reports (g.group.projects.toList.foldlM (Checked.project g.id) _) _ _
  rw [hprojects]
  refine Reports.foldlM (I := fun projects c => Met c _
    (before.flatMap GroupNode.projects ++ projects)
    ((before.flatMap GroupNode.projects ++ projects).flatMap ProjectNode.pointers)) ?_ ?_
  · intro A p B hsplit c' hc'
    refine hc'.reports_project ?_ g.id
    rw [hsplit, List.map_append, List.map_cons] at hg
    intro p' hp'
    exact (List.nodup_append.mp hg).2.2 p'.id (List.mem_map_of_mem hp') p.id List.mem_cons_self
  · rw [List.append_nil]
    exact h.name g.name

end Met

/-! ### The whole check -/

namespace Tree

variable {t : Tree} {s : String}

theorem reports_secured (t : Tree) :
    Reports (checkSecured t.listing) t.securedViolations fun _ => True := by
  have hgroup : t.listing.get? securedGroupId =
      (t.groups.find? (·.id = 0)).map GroupNode.group := List.find?_map
  have hproject : ∀ g : GroupNode, g.group.projects.get? securedProjectId =
      (g.projects.find? (·.id = 0)).map ProjectNode.project := fun g => List.find?_map
  have hfirst : ∀ g : GroupNode,
      g.group.projects.keys.head? = g.projects.head?.map ProjectNode.id := by
    intro g
    rw [Listing.keys, GroupNode.group, List.map_map, List.head?_map]
    rfl
  unfold checkSecured securedViolations
  rw [hgroup]
  cases t.groups.find? (·.id = 0) with
  | none => rfl
  | some g =>
      simp only [Option.map_some, hproject, hfirst]
      refine .check Iff.rfl ?_
      cases g.projects.find? (·.id = 0) with
      | none => rfl
      | some p =>
          refine .check Iff.rfl ?_
          rw [← List.append_nil (violatedIf _ .securedProjectNotFirst)]
          exact .check Iff.rfl (.ok trivial)

/-- The check of a document that lists no identifier twice. -/
theorem reports_violations (ht : t.Distinct) :
    Reports (ofGroups? t.listing) t.violations fun _ => True := by
  have hgroups : ∀ c, t.listing.toList.foldlM Checked.group c =
      t.groups.foldlM (fun c g => Checked.group c g.group) c := fun _ => List.foldlM_map
  rw [ofGroups?, hgroups, violations, ← List.append_nil (findings _ _ _)]
  refine (reports_secured t).bind fun _ _ => Reports.bind (Reports.foldlM (I := fun groups c =>
    Met c (groups.map GroupNode.name) (groups.flatMap GroupNode.projects)
      ((groups.flatMap GroupNode.projects).flatMap ProjectNode.pointers)) ?_ Met.nothing)
    fun _ _ => .ok trivial
  intro A g B hsplit c hc
  exact hc.reports_group (ht.1 g (by rw [hsplit]; simp)).2

theorem parse_registry_eq (hs : parse s = .ok t) (ht : t.Distinct) :
    Registry.parse s = (ofGroups? t.listing).mapError .inconsistent := by
  obtain ⟨hread, hend⟩ := decode_eq_ok.mp hs
  have hgroups := (ofReading_refines _ _).mpr ⟨t, hread, ht, rfl⟩
  unfold Registry.parse decode
  generalize Json.read s.toList = reading at hread hend hgroups
  obtain ⟨v, more⟩ := reading
  obtain rfl : more = false := hend
  simp only [Registry.ofReading, hgroups]
  change ((ofGroups? t.listing).mapError Corruption.inconsistent >>= fun r => pure r) = _
  rw [bind_pure]

/-! ### Every broken rule is listed -/

/-- The document breaks a rule, and the violation names who breaks it. -/
def Breaks (t : Tree) : Violation → Prop
  | .missingSecuredGroup => ∀ g ∈ t.groups, g.id ≠ 0
  | .securedNameChanged .group name => ∃ g ∈ t.groups, g.id = 0 ∧ g.name = name ∧ name ≠ "other"
  | .missingSecuredProject => ∃ g ∈ t.groups, g.id = 0 ∧ ∀ p ∈ g.projects, p.id ≠ 0
  | .securedNameChanged .project name =>
    ∃ g ∈ t.groups, g.id = 0 ∧ ∃ p ∈ g.projects, p.id = 0 ∧ p.name = name ∧ name ≠ "other"
  | .securedNameChanged .pointer _ => False
  | .securedProjectNotFirst =>
    ∃ g ∈ t.groups, g.id = 0 ∧ ∃ p ps, g.projects = p :: ps ∧ p.id ≠ 0 ∧ ∃ p' ∈ ps, p'.id = 0
  | .duplicateGroupName name =>
    ∃ A g B, t.groups = A ++ g :: B ∧ g.name = name ∧ ∃ g' ∈ A, g'.name = name
  | .duplicateProjectId id => ∃ A g B, t.groups = A ++ g :: B ∧ (∃ p ∈ g.projects, p.id = id) ∧
    ∃ g' ∈ A, ∃ p' ∈ g'.projects, p'.id = id
  | .danglingPointer id claimed actual => claimed ≠ actual ∧ ∃ p ∈ t.projects, p.id = actual ∧
    ∃ q ∈ p.pointers, q.id = id ∧ q.projectId = claimed
  | .duplicatePipelineId pipeline =>
    ∃ A q B, t.pointers = A ++ q :: B ∧ q.pipeline = pipeline ∧ ∃ q' ∈ A, q'.pipeline = pipeline
  | .pointerIdsExhausted id =>
    ∃ p ∈ t.projects, p.id = id ∧ ∃ q ∈ p.pointers, q.id.toNat = 2 ^ 64 - 1

theorem mem_elim {α β : Type} {x : Option α} {b b' : β} {f : α → List β} :
    b ∈ x.elim [b'] f ↔ x = none ∧ b = b' ∨ ∃ a, x = some a ∧ b ∈ f a := by
  cases x <;> simp

theorem find?_eq_some_iff_of_nodup {α : Type} {id : α → UInt64} {xs : List α}
    (hxs : (xs.map id).Nodup) {x : α} :
    xs.find? (fun y => decide (id y = 0)) = some x ↔ x ∈ xs ∧ id x = 0 := by
  constructor
  · intro h
    exact ⟨List.mem_of_find?_eq_some h, by simpa using List.find?_some h⟩
  · rintro ⟨hx, hid⟩
    cases hfind : xs.find? fun y => decide (id y = 0) with
    | none => exact absurd hid (by simpa using List.find?_eq_none.mp hfind x hx)
    | some y =>
        have hy : id y = 0 := by simpa using List.find?_some hfind
        rw [List.inj_on_of_nodup_map hxs (List.mem_of_find?_eq_some hfind) hx (hy.trans hid.symm)]

theorem mem_securedViolations (ht : t.Distinct) {v : Violation} : v ∈ t.securedViolations ↔
    (∀ g ∈ t.groups, g.id ≠ 0) ∧ v = .missingSecuredGroup ∨ ∃ g ∈ t.groups, g.id = 0 ∧
      (g.name ≠ "other" ∧ v = .securedNameChanged .group g.name ∨
        (∀ p ∈ g.projects, p.id ≠ 0) ∧ v = .missingSecuredProject ∨ ∃ p ∈ g.projects, p.id = 0 ∧
          (p.name ≠ "other" ∧ v = .securedNameChanged .project p.name ∨
            g.projects.head?.map ProjectNode.id ≠ some 0 ∧ v = .securedProjectNotFirst)) := by
  simp only [securedViolations, mem_elim, List.mem_append, mem_violatedIf, List.find?_eq_none,
    decide_eq_true_eq, find?_eq_some_iff_of_nodup ht.2, and_assoc]
  refine or_congr Iff.rfl (exists_congr fun g => and_congr_right fun hg => and_congr_right fun _ => ?_)
  simp only [find?_eq_some_iff_of_nodup (ht.1 g hg).2, and_assoc]

theorem mem_findings_iff {v : Violation} : v ∈ findings groupViolations [] t.groups ↔
    ∃ A g B, t.groups = A ++ g :: B ∧ ((∃ g' ∈ A, g'.name = g.name) ∧ v = .duplicateGroupName g.name ∨
      ∃ C p D, g.projects = C ++ p :: D ∧
        (((∃ g' ∈ A, ∃ p' ∈ g'.projects, p'.id = p.id) ∧ v = .duplicateProjectId p.id ∨
          ∃ E q F, p.pointers = E ++ q :: F ∧
            (q.projectId ≠ p.id ∧ v = .danglingPointer q.id q.projectId p.id ∨
              (∃ q' ∈ (A.flatMap GroupNode.projects ++ C).flatMap ProjectNode.pointers ++ E,
                q'.pipeline = q.pipeline) ∧ v = .duplicatePipelineId q.pipeline)) ∨
        (∃ q ∈ p.pointers, q.id.toNat = 2 ^ 64 - 1) ∧ v = .pointerIdsExhausted p.id)) := by
  simp only [mem_findings, List.nil_append, groupViolations, projectViolations, pointerViolations,
    List.mem_append, mem_violatedIf]

theorem mem_projects_iff {p : ProjectNode} : p ∈ t.projects ↔
    ∃ A g B, t.groups = A ++ g :: B ∧ ∃ C D, g.projects = C ++ p :: D := by
  rw [projects, List.mem_flatMap]
  constructor
  · rintro ⟨g, hg, hp⟩
    obtain ⟨A, B, hAB⟩ := List.append_of_mem hg
    exact ⟨A, g, B, hAB, List.append_of_mem hp⟩
  · rintro ⟨A, g, B, hAB, C, D, hCD⟩
    exact ⟨g, hAB ▸ List.mem_append_right A List.mem_cons_self,
      hCD ▸ List.mem_append_right C List.mem_cons_self⟩

/-- What is reported of the document is true of it. -/
theorem breaks_of_mem (ht : t.Distinct) {v : Violation} (hv : v ∈ t.violations) : t.Breaks v := by
  rw [violations, List.mem_append, mem_securedViolations ht, mem_findings_iff] at hv
  rcases hv with (⟨hnone, rfl⟩ | ⟨g, hg, hid, ⟨hname, rfl⟩ | ⟨hnone, rfl⟩ | ⟨p, hp, hpid,
    ⟨hname, rfl⟩ | ⟨hfirst, rfl⟩⟩⟩) | ⟨A, g, B, hg, ⟨hname, rfl⟩ | ⟨C, p, D, hp, (⟨hid, rfl⟩ |
    ⟨E, q, F, hq, ⟨hne, rfl⟩ | ⟨hpipeline, rfl⟩⟩) | ⟨hmax, rfl⟩⟩⟩
  · exact hnone
  · exact ⟨g, hg, hid, rfl, hname⟩
  · exact ⟨g, hg, hid, hnone⟩
  · exact ⟨g, hg, hid, p, hp, hpid, rfl, hname⟩
  · cases hps : g.projects with
    | nil => simp [hps] at hp
    | cons p' ps =>
        have hne : p'.id ≠ 0 := by simpa [hps] using hfirst
        refine ⟨g, hg, hid, p', ps, hps, hne, p, ?_, hpid⟩
        rw [hps, List.mem_cons] at hp
        exact hp.resolve_left fun h => hne (h ▸ hpid)
  · exact ⟨A, g, B, hg, rfl, hname⟩
  · exact ⟨A, g, B, hg, ⟨p, hp ▸ List.mem_append_right C List.mem_cons_self, rfl⟩, hid⟩
  · exact ⟨hne, p, mem_projects_iff.mpr ⟨A, g, B, hg, C, D, hp⟩, rfl, q,
      hq ▸ List.mem_append_right E List.mem_cons_self, rfl, rfl⟩
  · refine ⟨_, q, F ++ (D ++ B.flatMap GroupNode.projects).flatMap ProjectNode.pointers, ?_, rfl,
      hpipeline⟩
    simp only [pointers, projects, hg, hp, hq, List.flatMap_append, List.flatMap_cons,
      List.append_assoc, List.cons_append]
  · exact ⟨p, mem_projects_iff.mpr ⟨A, g, B, hg, C, D, hp⟩, rfl, hmax⟩

/-- An element that is found behind others in lists put together is in one of these lists, and the
others are before it there or in the lists before. -/
theorem exists_of_flatMap_eq {α β : Type} {f : α → List β} {xs : List α} {A B : List β} {y : β}
    (h : xs.flatMap f = A ++ y :: B) : ∃ C x D E F, xs = C ++ x :: D ∧ f x = E ++ y :: F ∧
      A = C.flatMap f ++ E := by
  induction xs generalizing A with
  | nil => simp at h
  | cons x xs ih =>
      rw [List.flatMap_cons] at h
      rcases List.append_eq_append_iff.mp h with ⟨A', rfl, hrest⟩ | ⟨E, hx, hrest⟩
      · obtain ⟨C, x', D, E, F, rfl, hx', rfl⟩ := ih hrest
        exact ⟨x :: C, x', D, E, F, rfl, hx', by rw [List.flatMap_cons, List.append_assoc]⟩
      · cases E with
        | nil =>
            obtain ⟨C, x', D, E, F, rfl, hx', hE⟩ := ih (A := []) hrest.symm
            refine ⟨x :: C, x', D, E, F, rfl, hx', ?_⟩
            rw [List.flatMap_cons, List.append_assoc, ← hE, hx, List.append_nil, List.append_nil]
        | cons z E =>
            cases hrest
            exact ⟨[], x, xs, A, E, rfl, hx, rfl⟩

/-- Every rule that the document breaks is among its violations. -/
theorem mem_of_breaks (ht : t.Distinct) {v : Violation} (hv : t.Breaks v) : v ∈ t.violations := by
  rw [violations, List.mem_append, mem_securedViolations ht, mem_findings_iff]
  cases v with
  | missingSecuredGroup => exact .inl (.inl ⟨hv, rfl⟩)
  | missingSecuredProject =>
      obtain ⟨g, hg, hid, hnone⟩ := hv
      exact .inl (.inr ⟨g, hg, hid, .inr (.inl ⟨hnone, rfl⟩)⟩)
  | securedNameChanged kind name =>
      cases kind with
      | group =>
          obtain ⟨g, hg, hid, rfl, hname⟩ := hv
          exact .inl (.inr ⟨g, hg, hid, .inl ⟨hname, rfl⟩⟩)
      | project =>
          obtain ⟨g, hg, hid, p, hp, hpid, rfl, hname⟩ := hv
          exact .inl (.inr ⟨g, hg, hid, .inr (.inr ⟨p, hp, hpid, .inl ⟨hname, rfl⟩⟩)⟩)
      | pointer => cases hv
  | securedProjectNotFirst =>
      obtain ⟨g, hg, hid, p, ps, hps, hne, p', hp', hid'⟩ := hv
      refine .inl (.inr ⟨g, hg, hid, .inr (.inr ⟨p', ?_, hid', .inr ⟨?_, rfl⟩⟩)⟩)
      · exact hps ▸ List.mem_cons_of_mem p hp'
      · rw [hps]
        exact fun h => hne (Option.some_inj.mp h)
  | duplicateGroupName name =>
      obtain ⟨A, g, B, hg, rfl, hname⟩ := hv
      exact .inr ⟨A, g, B, hg, .inl ⟨hname, rfl⟩⟩
  | duplicateProjectId id =>
      obtain ⟨A, g, B, hg, ⟨p, hp, rfl⟩, hid⟩ := hv
      obtain ⟨C, D, hCD⟩ := List.append_of_mem hp
      exact .inr ⟨A, g, B, hg, .inr ⟨C, p, D, hCD, .inl (.inl ⟨hid, rfl⟩)⟩⟩
  | danglingPointer id claimed actual =>
      obtain ⟨hne, p, hp, rfl, q, hq, rfl, rfl⟩ := hv
      obtain ⟨A, g, B, hg, C, D, hCD⟩ := mem_projects_iff.mp hp
      obtain ⟨E, F, hEF⟩ := List.append_of_mem hq
      exact .inr ⟨A, g, B, hg, .inr ⟨C, p, D, hCD, .inl (.inr ⟨E, q, F, hEF, .inl ⟨hne, rfl⟩⟩)⟩⟩
  | duplicatePipelineId pipeline =>
      obtain ⟨Q, q, R, hQ, rfl, hpipeline⟩ := hv
      obtain ⟨P, p, _, E, F, hP, hEF, rfl⟩ := exists_of_flatMap_eq hQ
      obtain ⟨A, g, B, C, D, hg, hCD, rfl⟩ := exists_of_flatMap_eq hP
      exact .inr ⟨A, g, B, hg, .inr ⟨C, p, D, hCD, .inl (.inr ⟨E, q, F, hEF,
        .inr ⟨hpipeline, rfl⟩⟩)⟩⟩
  | pointerIdsExhausted id =>
      obtain ⟨p, hp, rfl, hmax⟩ := hv
      obtain ⟨A, g, B, hg, C, D, hCD⟩ := mem_projects_iff.mp hp
      exact .inr ⟨A, g, B, hg, .inr ⟨C, p, D, hCD, .inr ⟨hmax, rfl⟩⟩⟩

/-! ### The first violation -/

/-- A document that lists no identifier twice is accepted if it breaks no rule, and otherwise the first
of its violations is reported. -/
theorem parse_registry_of_violations (hs : parse s = .ok t) (ht : t.Distinct) :
    match t.violations with
    | [] => ∃ r, Registry.parse s = .ok r
    | v :: _ => Registry.parse s = .error (.inconsistent v) := by
  have hreports := reports_violations ht
  rw [parse_registry_eq hs ht]
  cases hv : t.violations with
  | nil =>
      rw [hv] at hreports
      obtain ⟨r, hr, -⟩ := hreports
      exact ⟨r, by rw [hr]; rfl⟩
  | cons v vs =>
      rw [hv] at hreports
      have hr : ofGroups? t.listing = .error v := hreports
      rw [hr]
      rfl

end Tree

/-- Whatever text a document is read from that lists no identifier twice: if it is refused, the first of
its violations is reported.  These are the rules it breaks, with those named who break them. -/
theorem first_violation_of_parse {s : String} {t : Tree} (hs : Tree.parse s = .ok t) (ht : t.Distinct)
    (hrefused : ∀ r, Registry.parse s ≠ .ok r) :
    (∃ v vs, t.violations = v :: vs ∧ Registry.parse s = .error (.inconsistent v)) ∧
      ∀ v, v ∈ t.violations ↔ t.Breaks v := by
  refine ⟨?_, fun v => ⟨Tree.breaks_of_mem ht, Tree.mem_of_breaks ht⟩⟩
  have hparse := Tree.parse_registry_of_violations hs ht
  cases hv : t.violations with
  | nil =>
      rw [hv] at hparse
      obtain ⟨r, hr⟩ := hparse
      exact absurd hr (hrefused r)
  | cons v vs =>
      rw [hv] at hparse
      exact ⟨v, vs, rfl, hparse⟩

/-- A document with a pointer of another project and the greatest identifier in its second group, and a
third group with the name of the second and a project of it. -/
def tangledTree : Tree :=
  let now : Timestamp := ⟨⟨2024, 2, 29⟩, 720, 30, 0⟩
  let stray : Pointer := ⟨7, 0xffffffffffffffff, "build", "build", .ofString "/w/Easefile",
    .ofString "/w/build.pipe", none, none, now⟩
  let project (id : ProjectId) (name : String) (pointers : List Pointer) : ProjectNode :=
    ⟨id, name, none, none, now, none, none, pointers⟩
  let group (id : GroupId) (name : String) (projects : List ProjectNode) : GroupNode :=
    ⟨id, name, none, none, now, none, projects⟩
  ⟨[group 0 "other" [project 0 "other" []], group 1 "team" [project 1 "app" [stray]],
    group 2 "team" [project 1 "app" []]]⟩

theorem tangledTree_writable : tangledTree.Writable := by
  have hnow : Timestamp.IsValid ⟨⟨2024, 2, 29⟩, 720, 30, 0⟩ := by decide
  constructor
  case dated =>
    rintro _ (_ | ⟨_, _ | ⟨_, _ | ⟨_, ⟨⟩⟩⟩⟩) <;> refine ⟨hnow, nofun, ?_⟩ <;>
      rintro _ (_ | ⟨_, ⟨⟩⟩) <;> refine ⟨hnow, nofun, ?_⟩
    · exact nofun
    · rintro _ (_ | ⟨_, ⟨⟩⟩)
      exact hnow
    · exact nofun
  case paths =>
    rintro _ (_ | ⟨_, ⟨⟩⟩)
    simp only [Path.text?_ofString]
    exact ⟨rfl, rfl⟩

/-- The pointer is reported, although the name and the project of the third group offend as well. -/
theorem first_violation_of_parse_tangled : ∃ s, Tree.parse s = .ok tangledTree ∧
    Registry.parse s = .error (.inconsistent (.danglingPointer 0xffffffffffffffff 7 1)) ∧
    tangledTree.Breaks (.duplicateGroupName "team") ∧ tangledTree.Breaks (.duplicateProjectId 1) := by
  obtain ⟨s, hs⟩ := Tree.exists_parse tangledTree_writable
  have hdistinct : tangledTree.Distinct := Tree.distinct_iff.mpr (by decide +kernel)
  have hviolations : tangledTree.violations = [.danglingPointer 0xffffffffffffffff 7 1,
      .pointerIdsExhausted 1, .duplicateGroupName "team", .duplicateProjectId 1] := by decide +kernel
  have hrefused : ∀ r, Registry.parse s ≠ .ok r := by
    intro r hr
    have hrules := (Tree.parse_registry_iff hs).mp hr
    exact absurd hrules.1.group_names (by decide +kernel)
  obtain ⟨⟨v, vs, hv, hparse⟩, hbreaks⟩ := first_violation_of_parse hs hdistinct hrefused
  rw [hviolations] at hv
  obtain ⟨rfl, rfl⟩ := List.cons.inj hv
  refine ⟨s, hs, hparse, (hbreaks _).mp ?_, (hbreaks _).mp ?_⟩ <;> rw [hviolations] <;> decide

end PipelineRegistry.Document
