/-
Module: Batpak.Proofs.DiskInvariant
Purpose: Properties of every frame in the files and of every footer row, kept by the writer
  when the events it stages and the batch markers have them.
Trusted boundary: none
Main exports: AppendEffect.diskAll, BatchEffect.diskAll
-/
import Batpak.Proofs.DiskEffects
import Batpak.Proofs.DurableHonesty
import Batpak.Proofs.WriterInvariant

namespace Batpak.Store

open Batpak.Util

variable {nowUs : Int} {staged : List StagedCommittedEvent}

/-- Every frame has `F`; every footer row, written or still collected, has `R`. -/
structure DiskAll (F : Frame → Prop) (R : SidxEntry → Prop) (d : DiskView) : Prop where
  frames : ∀ seg ∈ d.segments, ∀ f ∈ seg.frames, F f
  rows : ∀ seg ∈ d.segments, ∀ rows, seg.footer = some rows → ∀ row ∈ rows, R row
  collected : ∀ row ∈ d.collector, R row

section Moves

variable {F : Frame → Prop} {R : SidxEntry → Prop} {d : DiskView}

/-- The frame of a chunk, if it is whole, has the property. -/
def Chunk.Has (F : Frame → Prop) : Chunk → Prop
  | .frame f _ => F f
  | .torn _ => True

theorem DiskAll.put (h : DiskAll F R d) {c : Chunk} (hc : c.Has F) : DiskAll F R (d.put c) where
  frames seg hseg f hf := by
    rcases List.mem_append.mp hseg with hseg | hseg
    · exact h.frames seg (List.mem_append_left _ hseg) f hf
    · rw [List.mem_singleton.mp hseg] at hf
      unfold Segment.frames at hf
      rw [show (d.put c).active.chunks = d.active.chunks ++ [c] from rfl,
        List.filterMap_append] at hf
      rcases List.mem_append.mp hf with hf | hf
      · exact h.frames d.active (List.mem_append_right _ (List.mem_singleton_self _)) f hf
      · cases c with
        | frame g length =>
            rw [List.mem_singleton.mp hf]
            exact hc
        | torn k => cases hf
  rows seg hseg rows hrows := by
    rcases List.mem_append.mp hseg with hseg | hseg
    · exact h.rows seg (List.mem_append_left _ hseg) rows hrows
    · rw [List.mem_singleton.mp hseg] at hrows
      exact h.rows d.active (List.mem_append_right _ (List.mem_singleton_self _)) rows hrows
  collected := h.collected

theorem DiskAll.putAll {cs : List Chunk} (h : DiskAll F R d) (hcs : ∀ c ∈ cs, c.Has F) :
    DiskAll F R (d.putAll cs) := by
  induction cs generalizing d with
  | nil => exact h
  | cons c rest ih =>
      exact ih (h.put (hcs c List.mem_cons_self)) fun c' hc' => hcs c' (List.mem_cons_of_mem _ hc')

theorem DiskAll.collect (h : DiskAll F R d) {rows : List SidxEntry} (hrows : ∀ row ∈ rows, R row) :
    DiskAll F R (d.collect rows) where
  frames := h.frames
  rows := h.rows
  collected row hrow := by
    rcases List.mem_append.mp hrow with hrow | hrow
    · exact h.collected row hrow
    · exact hrows row hrow

/-- Replacing the active file by one with the same frames and an old or no footer. -/
theorem DiskAll.setActive (h : DiskAll F R d) {active : Segment}
    (hframes : ∀ f ∈ active.frames, F f)
    (hrows : ∀ rows, active.footer = some rows → ∀ row ∈ rows, R row) :
    DiskAll F R { d with active := active } where
  frames seg hseg f hf := by
    rcases List.mem_append.mp hseg with hseg | hseg
    · exact h.frames seg (List.mem_append_left _ hseg) f hf
    · rw [List.mem_singleton.mp hseg] at hf
      exact hframes f hf
  rows seg hseg rows hfooter := by
    rcases List.mem_append.mp hseg with hseg | hseg
    · exact h.rows seg (List.mem_append_left _ hseg) rows hfooter
    · rw [List.mem_singleton.mp hseg] at hfooter
      exact hrows rows hfooter
  collected := h.collected

theorem mem_active (d : DiskView) : d.active ∈ d.segments :=
  List.mem_append_right _ (List.mem_singleton_self _)

theorem DiskAll.sync (h : DiskAll F R d) : DiskAll F R d.sync :=
  h.setActive (h.frames d.active (mem_active d)) (h.rows d.active (mem_active d))

/-- The footer takes the collected rows. -/
theorem DiskAll.footer (h : DiskAll F R d) :
    DiskAll F R { d with active := d.active.writeSidxFooter d.collector } := by
  refine h.setActive (h.frames d.active (mem_active d)) ?_
  rintro rows ⟨⟩
  exact h.collected

theorem DiskAll.rotated {cfg : StoreConfig} {d' : DiskView} (h : DiskAll F R d)
    (hrotated : MayRotate cfg d d') : DiskAll F R d' := by
  cases hrotated with
  | stay => exact h
  | rotate footerFails full =>
      have hold : DiskAll F R { d with active :=
          if footerFails then d.active.sync else d.active.sync.writeSidxFooter d.collector } := by
        cases footerFails with
        | true => exact h.sync
        | false => exact h.sync.footer
      exact {
        frames := fun seg hseg f hf => by
          rcases List.mem_append.mp hseg with hseg | hseg
          · exact hold.frames seg hseg f hf
          · rw [List.mem_singleton.mp hseg] at hf
            cases hf
        rows := fun seg hseg rows hrows => by
          rcases List.mem_append.mp hseg with hseg | hseg
          · exact hold.rows seg hseg rows hrows
          · rw [List.mem_singleton.mp hseg] at hrows
            cases hrows
        collected := fun row hrow => by cases hrow }

theorem DiskAll.mono {F' : Frame → Prop} {R' : SidxEntry → Prop} (h : DiskAll F R d)
    (hF : ∀ f, F f → F' f) (hR : ∀ row, R row → R' row) : DiskAll F' R' d where
  frames seg hseg f hf := hF f (h.frames seg hseg f hf)
  rows seg hseg rows hrows row hrow := hR row (h.rows seg hseg rows hrows row hrow)
  collected row hrow := hR row (h.collected row hrow)

end Moves

/-! ### Appends and batches -/

section Effects

variable {F : Frame → Prop} {R : SidxEntry → Prop} {cfg : StoreConfig} {rt : Runtime}
  {flt : Faults} {s s' : WriterCore}

theorem AppendEffect.diskAll {req : AppendRequest} {fenced : Bool}
    (heffect : AppendEffect cfg rt flt req fenced s s') (h : DiskAll F R s.disk)
    (hstaged : ∀ st, StagedAppend rt req fenced s st → F st.frame ∧ ∀ pos, R (st.sidxEntry pos)) :
    DiskAll F R s'.disk := by
  cases heffect with
  | failed disk inserted latest =>
      obtain ⟨d₁, left, hrotated, hleft, hdisk⟩ := disk
      rw [hdisk]
      apply (h.rotated hrotated).putAll
      intro c hc
      cases hleft with
      | nothing => cases hc
      | torn k tears =>
          rw [List.mem_singleton.mp hc]
          trivial
      | orphan st hst =>
          rw [List.mem_singleton.mp hc]
          exact (hstaged st hst).1
  | committed st pos staged disk inserted latest =>
      obtain ⟨d₁, hrotated, -, hdisk⟩ := disk
      obtain ⟨hframe, hrow⟩ := hstaged st staged
      have hput : DiskAll F R (d₁.put (frameChunk rt st.frame)) := (h.rotated hrotated).put hframe
      rw [hdisk]
      apply hput.collect
      intro row hrow'
      rw [List.mem_singleton.mp hrow']
      exact hrow pos

theorem envelope_has {batchId : Nat} {nowMs : Nat} (hstaged : ∀ st ∈ staged, F st.frame)
    (hmarker : ∀ kind size, F (batchMarkerFrame batchId kind size nowUs nowMs)) :
    ∀ c ∈ envelope rt batchId nowUs nowMs staged, c.Has F := by
  intro c hc
  rcases List.mem_cons.mp hc with rfl | hc
  · exact hmarker _ _
  · rcases List.mem_append.mp hc with hc | hc
    · obtain ⟨st, hst, rfl⟩ := List.mem_map.mp hc
      exact hstaged st hst
    · rw [List.mem_singleton.mp hc]
      exact hmarker _ _

theorem Leftover.has {whole left : List Chunk} (h : Leftover flt whole left)
    (hwhole : ∀ c ∈ whole, c.Has F) : ∀ c ∈ left, c.Has F := by
  cases h with
  | part n => exact fun c hc => hwhole c (List.mem_of_mem_take hc)
  | torn n k more tears =>
      intro c hc
      rcases List.mem_append.mp hc with hc | hc
      · exact hwhole c (List.mem_of_mem_take hc)
      · rw [List.mem_singleton.mp hc]
        trivial

theorem WrittenBatchDisk.diskAll {firstSeq : Nat} {d d' : DiskView} {places : List DiskPos}
    (hwritten : WrittenBatchDisk cfg rt firstSeq nowUs d staged places d') (h : DiskAll F R d)
    (hstaged : ∀ st ∈ staged, F st.frame)
    (hmarker : ∀ batchId kind size nowUs nowMs, F (batchMarkerFrame batchId kind size nowUs nowMs)) :
    DiskAll F R d' := by
  obtain ⟨d₁, nowMs, hrotated, -, -, rfl⟩ := hwritten
  exact ((h.rotated hrotated).putAll
    (envelope_has hstaged fun kind size => hmarker _ _ _ _ _)).sync

theorem batchRows_has {receipts : List AppendReceipt}
    (hstaged : ∀ st ∈ staged, ∀ pos, R (st.sidxEntry pos)) :
    ∀ row ∈ batchRows staged receipts, R row := by
  intro row hrow
  obtain ⟨p, hp, rfl⟩ := List.mem_map.mp hrow
  exact hstaged p.1 (List.of_mem_zip hp).1 p.2

theorem BatchEffect.diskAll {items : List BatchAppendItem} {fenced : Bool}
    (heffect : BatchEffect cfg rt flt nowUs items fenced s s') (h : DiskAll F R s.disk)
    (hstaged : ∀ staged, BatchStaged rt items s.index.globalSequence fenced s staged →
      ∀ st ∈ staged, F st.frame ∧ ∀ pos, R (st.sidxEntry pos))
    (hmarker : ∀ batchId kind size nowUs nowMs, F (batchMarkerFrame batchId kind size nowUs nowMs)) :
    DiskAll F R s'.disk := by
  cases heffect with
  | failed d₁ left rotated leftover disk inserted latest =>
      rw [disk]
      apply (h.rotated rotated).putAll
      cases leftover with
      | nothing =>
          intro c hc
          cases hc
      | part staged nowMs left hbatch hleft =>
          exact hleft.has (envelope_has (fun st hst => (hstaged staged hbatch st hst).1)
            fun kind size => hmarker _ _ _ _ _)
  | unrecorded staged receipts d₁ n batch written disk inserted latest =>
      have hwritten := written.diskAll h (fun st hst => (hstaged staged batch st hst).1) hmarker
      rw [disk]
      apply hwritten.collect
      intro row hrow
      exact batchRows_has (fun st hst => (hstaged staged batch st hst).2) row
        (List.mem_of_mem_take hrow)
  | committed staged receipts d₁ nonempty batch written disk inserted latest =>
      have hwritten := written.diskAll h (fun st hst => (hstaged staged batch st hst).1) hmarker
      rw [disk]
      exact hwritten.collect (batchRows_has fun st hst => (hstaged staged batch st hst).2)

end Effects

/-! ### Service commands -/

theorem beginVisibilityFence_disk (token : Nat) (s : WriterCore) :
    (finalState (beginVisibilityFence token s)).disk = s.disk :=
  beginVisibilityFence_cases rfl fun _ _ _ => rfl

theorem commitVisibilityFence_disk (token : Nat) (s : WriterCore) :
    (finalState (commitVisibilityFence token s)).disk = s.disk :=
  commitVisibilityFence_cases rfl (fun _ _ _ _ _ => rfl) fun _ _ _ _ _ => rfl

theorem cancelVisibilityFence_disk (flt : Faults) (token : Nat) (s : WriterCore) :
    (finalState (cancelVisibilityFence flt token s)).disk = s.disk :=
  cancelVisibilityFence_cases rfl (fun _ _ _ _ => rfl) fun _ _ _ => rfl

theorem autoCancelFenceOnShutdown_disk (flt : Faults) (s : WriterCore) :
    (autoCancelFenceOnShutdown flt s).disk = s.disk :=
  autoCancelFenceOnShutdown_cases (fun _ => rfl) fun _ _ => rfl

/-- What a sync and the closing footer keep of the files, every service command keeps. -/
theorem serviceRules_disk {P : DiskView → Prop} (hsync : ∀ d, P d → P d.sync)
    (hfooter : ∀ d, P d → P { d with active := d.active.writeSidxFooter d.collector }) :
    ServiceRules (fun s => P s.disk) fun _ _ => True where
  reply _ _ h := h
  beginFence token h := by
    rw [beginVisibilityFence_disk]
    exact h
  commitFence token h := by
    rw [commitVisibilityFence_disk]
    exact h
  cancelFence flt token h := by
    rw [cancelVisibilityFence_disk]
    exact h
  autoCancel flt h := by
    rw [autoCancelFenceOnShutdown_disk]
    exact h
  footer h := hfooter _ h
  sync flt h _ := by
    unfold syncActiveSegment
    split
    · exact h
    · exact hsync _ h
  syncAfterCancel _ _ _ := trivial
  syncAfterFooter _ _ := trivial

end Batpak.Store
