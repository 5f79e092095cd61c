import Mathlib
import PipelineRegistry.Proofs.Storage.Usability

/-! # The draft stands beside the document

Paths are compared by their components, so that doubled separators, `.` and separators at the end make
no difference.  The components of a path are its anchor and the location that its names spell, those of
its parent are the same without the last one, and joining a name to a path puts it behind them.  A draft
is joined to the parent of its document.  So the two have the same parent and differ in their last
component alone, and two documents share a draft only if they are the same.

Below a home directory the parent of the document is even spelled as the directory is, since a name that
has been joined is cut off again as it was put there. -/

namespace PipelineRegistry

namespace Path

variable {p q dir : Path} {name last : FileName}

/-! ### Components -/

theorem spelled_named (ps : List (List UInt8)) : spelled (named ps) = ps.filter (!isSkipped ·) := by
  rw [spelled, named, List.filter_filter]
  apply List.filter_congr
  intro piece _
  rw [isSkipped, Bool.decide_or, Bool.not_or, Bool.and_comm, ← decide_not, ← decide_not]
  rfl

/-- The components of a path are its anchor and the location that its names spell. -/
theorem components_eq (p : Path) : p.components = (p.anchor, spelled p.names) := by
  have hanchor : spelled (named (pieces p.anchor)) = [] :=
    filter_eq_nil_of_dots fun _ => eq_currentName_of_mem_anchor
  rw [names_eq, spelled_append, hanchor, List.nil_append, spelled_named]
  rfl

theorem agrees_iff : p.agrees q ↔ p.components = q.components := beq_iff_eq

/-- The last component of a path is the name of a file. -/
def EndsIn (p : Path) (name : FileName) : Prop :=
  p.components.2.getLast? = some name ∧ name ≠ parentName

instance (p : Path) (name : FileName) : Decidable (p.EndsIn name) := inferInstanceAs (Decidable (_ ∧ _))

theorem endsIn_iff : p.EndsIn name ↔ p.fileName = some name := by
  have hlast : p.components.2.getLast? = p.last? := (getLast?_trimmed p.body).symm
  rw [EndsIn, hlast, fileName, Option.filter_eq_some_iff]
  exact and_congr_right fun _ => decide_eq_true_iff.symm

theorem pieces_joined_front (hlast : p.last? = some last) (h : p.front ≠ []) :
    pieces (joined p.front) = p.front := by
  obtain ⟨between, behind, hbody, -⟩ := exists_body_eq hlast
  refine pieces_joined h fun piece hpiece => not_mem_of_mem_pieces (?_ : piece ∈ p.body)
  rw [hbody, List.append_assoc]
  exact List.mem_append_left _ hpiece

/-- A path has the anchor of its parent. -/
theorem anchor_parent (hlast : p.last? = some last) (hdir : p.parent = some dir) :
    dir.anchor = p.anchor := by
  obtain ⟨tail, hbytes⟩ := parent_prefix hlast hdir
  have hcut : p.anchor ++ joined p.front = dir.bytes := by
    rw [parent_of_last? hlast] at hdir
    exact congrArg bytes (Option.some_inj.mp hdir)
  obtain ⟨bytes⟩ := dir
  -- the anchor is told from two bytes, so that a longer parent shows it as the path does
  rcases bytes with _ | ⟨b, _ | ⟨c, rest⟩⟩
  · exact (List.append_eq_nil_iff.mp hcut).1.symm
  · rcases p.anchor_eq.2 with hanchor | hanchor | ⟨hanchor, -⟩
    · -- as a piece the byte stands for something, since nothing else ends a parent
      rw [hanchor, List.nil_append] at hcut
      have hne : p.front ≠ [] := by
        intro hnil
        rw [hnil] at hcut
        cases hcut
      have hfront : pieces [b] = p.front :=
        (congrArg pieces hcut).symm.trans (pieces_joined_front hlast hne)
      have htrimmed : trimmed (pieces [b]) = pieces [b] := hfront ▸ trimmed_trimmed _
      rw [hanchor]
      refine if_neg ?_
      rintro (rfl | rfl)
      · exact absurd htrimmed (by decide)
      · exact absurd htrimmed (by decide)
    · rw [hanchor] at hcut ⊢
      rw [← (List.cons.inj hcut).1]
      rfl
    · rw [hanchor] at hcut ⊢
      rw [← (List.cons.inj hcut).1]
      rfl
  · obtain ⟨bytes⟩ := p
    rw [← show b :: c :: rest ++ tail = bytes from hbytes]
    rfl

/-! ### Down and up -/

theorem components_join (dir : Path) (h : IsFileName name) :
    (dir.join ⟨name⟩).components = (dir.components.1, dir.components.2 ++ [name]) := by
  rw [components_eq, components_eq, anchor_join dir h, names_join dir h.ne_nil h.not_mem, spelled_append,
    spelled_singleton h.ne_current]

/-- The components of a path are those of its parent and the last one. -/
theorem components_of_last? (hlast : p.last? = some last) (hdir : p.parent = some dir) :
    p.components = (dir.components.1, dir.components.2 ++ [last]) := by
  obtain ⟨between, behind, hnames, hdots⟩ := exists_names_eq hlast hdir
  have hbetween : spelled between = [] :=
    filter_eq_nil_of_dots fun x hx => hdots x (List.mem_append_left _ hx)
  have hbehind : spelled behind = [] :=
    filter_eq_nil_of_dots fun x hx => hdots x (List.mem_append_right _ hx)
  rw [components_eq, components_eq, anchor_parent hlast hdir, hnames, ← List.singleton_append,
    spelled_append, spelled_append, spelled_append, spelled_singleton (ne_currentName_of_last? hlast),
    hbetween, hbehind, List.append_nil, List.append_nil]

/-- A path with a file name has a parent, and its components are those of the parent and the name. -/
theorem exists_components_eq (h : p.fileName = some name) : ∃ dir, p.parent = some dir ∧
    p.components = (dir.components.1, dir.components.2 ++ [name]) := by
  obtain ⟨hlast, -⟩ := Option.filter_eq_some_iff.mp h
  exact ⟨_, parent_of_last? hlast, components_of_last? hlast (parent_of_last? hlast)⟩

/-- The parent of what is joined to a path agrees with the path. -/
theorem exists_parent_join (dir : Path) (h : IsFileName name) :
    ∃ dir', (dir.join ⟨name⟩).parent = some dir' ∧ dir'.agrees dir := by
  obtain ⟨dir', hparent, hcomponents⟩ := exists_components_eq (fileName_join dir h)
  rw [components_join dir h] at hcomponents
  obtain ⟨hanchor, hconcat⟩ := Prod.mk.inj hcomponents
  refine ⟨dir', hparent, agrees_iff.mpr ?_⟩
  exact Prod.ext hanchor.symm (List.append_cancel_right hconcat).symm

end Path

/-! ### Drafts -/

namespace Workspace

variable {document other dir : Path} {name otherName : FileName}

theorem fileName_draft (h : document.fileName = some name) :
    (draft document).fileName = some (name ++ draftSuffix) := by
  rw [draft_eq, Path.fileName_join _ (isFileName_draftName document), draftName, h]
  rfl

theorem draft_of_parent (h : document.fileName = some name) (hdir : document.parent = some dir) :
    draft document = dir.join ⟨name ++ draftSuffix⟩ := by
  rw [draft_eq, draftDirectory, draftName, h, hdir]
  rfl

theorem components_draft (h : document.fileName = some name) (hdir : document.parent = some dir) :
    (draft document).components = (dir.components.1, dir.components.2 ++ [name ++ draftSuffix]) := by
  rw [draft_of_parent h hdir]
  exact Path.components_join dir (Path.isFileName_of_fileName (fileName_draft h))

/-- Two documents with agreeing drafts agree. -/
theorem agrees_of_agrees_draft (h : document.fileName = some name)
    (hother : other.fileName = some otherName) (hagrees : (draft other).agrees (draft document)) :
    otherName = name ∧ other.agrees document := by
  obtain ⟨dir, hdir, hcomponents⟩ := Path.exists_components_eq h
  obtain ⟨otherDir, hotherDir, hotherComponents⟩ := Path.exists_components_eq hother
  rw [Path.agrees_iff, components_draft h hdir, components_draft hother hotherDir] at hagrees
  obtain ⟨hanchor, hconcat⟩ := Prod.mk.inj hagrees
  obtain ⟨hfront, hlast⟩ := List.append_inj' hconcat rfl
  have hname : otherName = name := List.append_cancel_right (List.singleton_inj.mp hlast)
  refine ⟨hname, Path.agrees_iff.mpr ?_⟩
  rw [hotherComponents, hcomponents, hanchor, hfront, hname]

/-- `draft` is the sibling of `document` whose name is that of the document, `name`, with `.tmp` behind
it.  On no disk does it lead to where the document is. -/
structure StandsBeside (draft document : Path) (name : FileName) : Prop where
  parent : ∃ dir dir', document.parent = some dir ∧ draft.parent = some dir' ∧ dir'.agrees dir
  fileName : draft.fileName = some (name ++ (Path.ofString ".tmp").bytes)
  differs : ¬ draft.agrees document
  elsewhere : ∀ (d : Disk) l s, d.locate document = .ok l → d.locate draft = .ok s → s ≠ l

theorem standsBeside_draft (h : document.fileName = some name) :
    StandsBeside (draft document) document name := by
  obtain ⟨dir, hdir, hcomponents⟩ := Path.exists_components_eq h
  have hname := fileName_draft h
  constructor
  case parent =>
    obtain ⟨dir', hdir', hagrees⟩ :=
      Path.exists_parent_join dir (Path.isFileName_of_fileName hname)
    exact ⟨dir, dir', hdir, draft_of_parent h hdir ▸ hdir', hagrees⟩
  case fileName => exact hname
  case differs =>
    rw [Path.agrees_iff, components_draft h hdir, hcomponents]
    intro heq
    have hlast := List.append_cancel_left (Prod.mk.inj heq).2
    exact absurd (List.append_right_eq_self.mp (List.singleton_inj.mp hlast)) (by decide)
  case elsewhere =>
    intro d l s hl hs
    exact (Storage.locate_draft_ne hl hs).symm

/-- The draft of the document below a home directory, as it is spelled. -/
theorem draft_document (home : Path) :
    draft (Workspace.document home) =
      (directory home).join (.ofString "projects-structure.json.tmp") := by
  have hdraft : (Path.ofString "projects-structure.json").bytes ++ draftSuffix =
      (Path.ofString "projects-structure.json.tmp").bytes := by decide +kernel
  rw [draft_of_parent (fileName_document home) (parent_document home), hdraft]

/-- The draft of a document that ends in a file name stands beside it, and no document of another name has
the same draft.  Below a home directory it stands in the directory of the registry. -/
theorem drafts_stand_beside :
    (∀ document name, document.EndsIn name → StandsBeside (draft document) document name ∧
      ∀ other otherName, other.EndsIn otherName → (draft other).agrees (draft document) →
        otherName = name ∧ other.agrees document) ∧
    ∀ home, draft (Workspace.document home) =
      (directory home).join (.ofString "projects-structure.json.tmp") := by
  refine ⟨?_, draft_document⟩
  intro document name hends
  have hname := Path.endsIn_iff.mp hends
  refine ⟨standsBeside_draft hname, ?_⟩
  intro other otherName hother hagrees
  exact agrees_of_agrees_draft hname (Path.endsIn_iff.mp hother) hagrees

/-- A path with all that stands for nothing in it, and another spelling of it. -/
theorem drafts_stand_beside_spelled :
    StandsBeside (.ofString "..//a/real.json.tmp") (.ofString "..//a/.//real.json/./")
      (Path.ofString "real.json").bytes ∧
    (Path.ofString "../a/./real.json").agrees (.ofString "..//a/.//real.json/./") := by
  have hends : (Path.ofString "..//a/.//real.json/./").EndsIn (Path.ofString "real.json").bytes := by
    decide +kernel
  have hother : (Path.ofString "../a/./real.json").EndsIn (Path.ofString "real.json").bytes := by
    decide +kernel
  have hdraft : draft (.ofString "..//a/.//real.json/./") = .ofString "..//a/real.json.tmp" := by
    decide +kernel
  obtain ⟨hbeside, hsame⟩ := drafts_stand_beside.1 _ _ hends
  rw [hdraft] at hbeside hsame
  exact ⟨hbeside, (hsame _ _ hother (by decide +kernel)).2⟩

end Workspace
end PipelineRegistry
