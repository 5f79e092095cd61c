import Mathlib
import PipelineRegistry.Proofs.Storage.Agreement

/-! # What a commit leaves in the document

A commit saves the changed registry unless it agrees with the registry as it was.  A change that is
not saved is remembered all the same.  So the document holds what is remembered up to the order of
listings and the spelling of paths, and exactly what is remembered unless the change was one of order
and spelling alone: a registry whose groups have only been put in another order is never written. -/

namespace PipelineRegistry

open Calendar Storage

variable {α : Type} {h h' : Handle} {d d' : Disk} {now : Timestamp} {current working : Registry}
  {a a' : α} {change : Registry → Except RegistryError (α × Registry)} {groups : List Group}

/-! ### Order alone -/

theorem Mirrored.reordered {document : Path} (hcurrent : Mirrored document current d)
    (hperm : groups.Perm current.groups.toList) :
    (current.reordered groups).Valid ∧ (current.reordered groups).Dated :=
  ⟨hcurrent.valid.reordered hperm, fun g hg => hcurrent.dated g (hperm.mem_iff.mp hg)⟩

/-- A registry whose groups have been put in another order is remembered, and nothing is written. -/
theorem Handle.exclusively_reordered (hmemory : h.memory = some current) (hvalid : current.Valid)
    (hperm : groups.Perm current.groups.toList) (now : Timestamp) (d : Disk) :
    (h.exclusively now (fun _ => .ok ((), current.reordered groups)) : StateM Disk _) d =
      ((.ok (), { h with memory := some (current.reordered groups) }), d) :=
  exclusively_of_agrees hmemory rfl (hvalid.reordered_agrees hperm) now d

/-! ### Any change -/

/-- After a change that succeeds the changed registry is remembered.  The document holds it too,
unless the registry as it was agrees with it and was left there; the written forms differ exactly if
the registry that was left there is not the same. -/
theorem document_of_exclusively (hmemory : h.memory = some current)
    (hcurrent : Mirrored h.document current d) (hchange : change current = .ok (a, working))
    (hvalid : working.Valid) (hdated : working.Dated)
    (hrun : (h.exclusively now change : StateM Disk _) d = ((.ok a', h'), d')) :
    h'.memory = some working ∧ ∃ stored,
      (load h.document : StateM Disk _) d' = (.ok stored, d') ∧
      stored = (if working.agrees current then current else working) ∧ working.agrees stored ∧
      (stored.render? = working.render? ↔ (working.agrees current → working = current)) := by
  obtain ⟨working', hchange', rfl, hcommit⟩ := Handle.exclusively_ok hmemory hrun
  obtain ⟨rfl, rfl⟩ := Prod.mk.inj (Except.ok.inj (hchange.symm.trans hchange'))
  unfold Handle.commit at hcommit
  by_cases hagrees : working.agrees current
  · rw [if_pos hagrees] at hcommit
    cases hcommit
    refine ⟨rfl, current, hcurrent.load_eq, (if_pos hagrees).symm, hagrees, ?_⟩
    constructor
    · intro htext _
      exact (hcurrent.valid.eq_of_render?_eq hcurrent.dated hvalid hdated hcurrent.isSome_render?
        htext).symm
    · intro heq
      rw [heq hagrees]
  · rw [if_neg hagrees] at hcommit
    refine ⟨rfl, working, (Mirrored.of_save hvalid hdated hcommit).load_eq, (if_neg hagrees).symm,
      hvalid.agrees_self, ?_⟩
    exact ⟨fun _ hagrees' => absurd hagrees' hagrees, fun _ => rfl⟩

/-- A session that creates two groups. -/
def twoGroupsSession : Except RegistryError Handle × Disk :=
  let now : Timestamp := ⟨⟨2024, 2, 29⟩, 720, 30, 0⟩
  (session (.ofString "home/registry.json") now
    [⟨now, .change (.createGroup ⟨"a", none, none⟩)⟩,
      ⟨now, .change (.createGroup ⟨"b", none, none⟩)⟩] : StateM Disk _) .empty

/-- The session ends with the groups in memory and in the document, and written the other way round
they are another text. -/
theorem twoGroupsSession_ended : ∃ h d r, twoGroupsSession = (.ok h, d) ∧ h.memory = some r ∧
    Mirrored h.document r d ∧
    ∃ text, (r.reordered r.groups.toList.reverse).render? = some text ∧ r.render? ≠ some text := by
  have hresult : (twoGroupsSession.1.toOption.bind Handle.memory).any (fun r =>
      (r.reordered r.groups.toList.reverse).render?.any (r.render? ≠ some ·)) = true := by
    decide +kernel
  obtain ⟨h, d, r, hrun, hmemory, htext⟩ := exists_of_any_memory hresult
  obtain ⟨text, htext, hne⟩ := (Option.any_eq_true _ _).mp htext
  have hnow : Timestamp.IsValid ⟨⟨2024, 2, 29⟩, 720, 30, 0⟩ := by decide
  have hremembers := (kept_mirrored _).session ⟨hnow, nofun⟩ (by
    simp only [List.mem_cons, List.not_mem_nil, or_false]
    rintro call (rfl | rfl) <;> exact ⟨hnow, by rintro _ ⟨⟩; trivial⟩) hrun
  have hr := hremembers.memory r hmemory
  rw [← hremembers.document_eq] at hr
  exact ⟨h, d, r, hrun, hmemory, hr, text, htext, of_decide_eq_true hne⟩

theorem document_of_exclusively_reordered : ∃ h d r, twoGroupsSession = (.ok h, d) ∧
    h.memory = some r ∧ ∃ stored, (load h.document : StateM Disk _) d = (.ok stored, d) ∧
      (r.reordered r.groups.toList.reverse).agrees stored := by
  obtain ⟨h, d, r, hrun, hmemory, hr, -⟩ := twoGroupsSession_ended
  have hperm := r.groups.toList.reverse_perm
  obtain ⟨hvalid, hdated⟩ := hr.reordered hperm
  have hreordered := Handle.exclusively_reordered hmemory hr.valid hperm
    ⟨⟨2024, 2, 29⟩, 720, 30, 0⟩ d
  obtain ⟨-, stored, hload, -, hagrees, -⟩ := document_of_exclusively hmemory hr rfl hvalid hdated
    hreordered
  exact ⟨h, d, r, hrun, hmemory, stored, hload, hagrees⟩

/-- A commit that succeeds can leave a document behind that does not hold the written form of what is
remembered: when two groups change places, nothing is written. -/
theorem document_left_behind : ∃ h d r r' h', twoGroupsSession = (.ok h, d) ∧
    h.memory = some r ∧ (load h.document : StateM Disk _) d = (.ok r, d) ∧
    r'.Valid ∧ r'.render?.isSome ∧
    (h.exclusively ⟨⟨2024, 2, 29⟩, 720, 30, 0⟩ (fun _ => .ok ((), r')) : StateM Disk _) d =
      ((.ok (), h'), d) ∧
    h'.memory = some r' ∧ r'.render? ≠ r.render? := by
  obtain ⟨h, d, r, hrun, hmemory, hr, text, htext, hne⟩ := twoGroupsSession_ended
  have hperm := r.groups.toList.reverse_perm
  refine ⟨h, d, r, _, _, hrun, hmemory, hr.load_eq, hr.valid.reordered hperm, ?_,
    Handle.exclusively_reordered hmemory hr.valid hperm _ d, rfl, ?_⟩
  · rw [htext]
    rfl
  · rw [htext]
    exact hne.symm

end PipelineRegistry
