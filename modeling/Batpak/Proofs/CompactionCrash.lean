/-
Module: Batpak.Proofs.CompactionCrash
Purpose: Compaction under interruption: when the listing of a later open holds one copy of every
  surviving event.
Trusted boundary: what was written before the process stopped is in the file
Main exports: SafeStep, compaction_keeps_one_copy
-/
import Batpak.Proofs.CompactionContent
import Batpak.Store.WriterLoop
import Batpak.Util.Run

namespace Batpak.Store

open Batpak.Util

variable {rt : Runtime} {strategy : CompactionStrategy} {a : Nat} {act : Segment}

/-! ### Copies of an event -/

/-- The event frames of the files in a listing. -/
def listedEvents (files : List (Nat × Segment)) : List Frame :=
  files.flatMap fun e => eventFrames e.2.chunks

/-- An event is the same event whatever kind a tombstoning compaction gave it. -/
def Frame.untyped (f : Frame) : Frame :=
  { f with kind := default }

def Frame.sameEvent (x f : Frame) : Bool :=
  f.untyped = x.untyped

/-- How many copies of an event the files of a listing hold. -/
def copies (x : Frame) (files : List (Nat × Segment)) : Nat :=
  (listedEvents files).countP x.sameEvent

@[simp] theorem listedEvents_nil : listedEvents [] = [] := rfl

@[simp] theorem listedEvents_cons (e : Nat × Segment) (files : List (Nat × Segment)) :
    listedEvents (e :: files) = eventFrames e.2.chunks ++ listedEvents files := rfl

@[simp] theorem listedEvents_append (xs ys : List (Nat × Segment)) :
    listedEvents (xs ++ ys) = listedEvents xs ++ listedEvents ys :=
  List.flatMap_append ..

@[simp] theorem copies_nil (x : Frame) : copies x [] = 0 := rfl

@[simp] theorem copies_cons (x : Frame) (e : Nat × Segment) (files : List (Nat × Segment)) :
    copies x (e :: files) = (eventFrames e.2.chunks).countP x.sameEvent + copies x files := by
  simp [copies]

@[simp] theorem copies_append (x : Frame) (xs ys : List (Nat × Segment)) :
    copies x (xs ++ ys) = copies x xs + copies x ys := by
  simp [copies]

/-! ### The copy -/

namespace CompactionStrategy

@[simp] theorem rewrite_untyped (strategy : CompactionStrategy) (f : Frame) :
    (strategy.rewrite f).untyped = f.untyped := by
  cases strategy with
  | merge => rfl
  | retention predicate => rfl
  | tombstone predicate =>
      by_cases hkept : predicate f = true
      · simp [rewrite, hkept]
      · simp [rewrite, hkept, Frame.untyped]

end CompactionStrategy

/-- Every copy of the event among the sources survives the strategy. -/
def Retained (strategy : CompactionStrategy) (x : Frame) (sources : List (Nat × Segment)) : Prop :=
  ∀ f ∈ listedEvents sources, x.sameEvent f = true → strategy.retains f = true

theorem sourceEvents_map_snd (sources : List (Nat × Segment)) :
    sourceEvents (sources.map Prod.snd) = listedEvents sources := by
  unfold sourceEvents listedEvents
  rw [List.flatMap_map]

/-- The copy neither loses nor duplicates an event that the strategy retains. -/
theorem copiedChunks_copies {sources : List (Nat × Segment)} {chunks : List Chunk} {x : Frame}
    (hcopied : copiedChunks rt strategy (sources.map Prod.snd) = .ok chunks)
    (hretained : Retained strategy x sources) :
    (eventFrames chunks).countP x.sameEvent = copies x sources := by
  rw [copiedChunks_events hcopied, sourceEvents_map_snd, List.countP_map, List.countP_filter,
    copies]
  apply List.countP_congr
  intro f hf
  simp only [Function.comp_apply, Frame.sameEvent, CompactionStrategy.rewrite_untyped,
    Bool.and_eq_true, and_iff_left_iff_imp]
  exact hretained f hf

/-! ### What the reconciliation lists -/

theorem insertEntry_append_of_lt {α : Type*} {name : Nat} (b x : α) (init : List (Nat × α))
    (h : name < a) :
    Files.insertEntry name x (init ++ [(a, b)]) = Files.insertEntry name x init ++ [(a, b)] := by
  induction init with
  | nil => simp [Files.insertEntry, h]
  | cons e rest ih =>
      simp only [List.cons_append, Files.insertEntry]
      split
      · rfl
      · split
        · rfl
        · rw [ih, List.cons_append]

namespace DataDir

/-- What a marker does not supersede: the merged file and everything that is no source. -/
def keptBy (marker : PendingCompaction) (e : Nat × Segment) : Bool :=
  e.1 == marker.mergedId || !marker.sourceSegmentIds.contains e.1

theorem listed_iff (entries : List (Nat × Segment)) (id : Nat) :
    listed entries id = true ↔ ∃ e ∈ entries, e.1 = id := by
  simp [listed]

theorem mem_otherSources {marker : PendingCompaction} {id : Nat} :
    id ∈ otherSources marker ↔ id ∈ marker.sourceSegmentIds ∧ id ≠ marker.mergedId := by
  simp [otherSources]

/-- With the merged file present the marker hides the other sources; a stale marker has
none left to hide. -/
theorem reconcile_of_listed {marker : PendingCompaction} (temp : Option Segment)
    {entries : List (Nat × Segment)} (h : listed entries marker.mergedId = true) :
    reconcile marker temp entries = .ok (entries.filter (keptBy marker)) := by
  unfold reconcile
  simp only [h, Bool.true_and]
  split
  · rename_i hstale
    rw [Bool.and_eq_true, List.all_eq_true] at hstale
    congr 1
    rw [eq_comm, List.filter_eq_self]
    intro e he
    by_cases hsource : e.1 ∈ otherSources marker
    · have habsent := hstale.2 e.1 hsource
      rw [Bool.not_eq_true', ← Bool.not_eq_true, listed_iff] at habsent
      exact absurd ⟨e, he, rfl⟩ habsent
    · rw [mem_otherSources, not_and_or, not_not] at hsource
      rcases hsource with h | h
      · simp [keptBy, h]
      · simp [keptBy, h]
  · rfl

/-- Until the merged file exists the relocated source stands in for it. -/
theorem reconcile_of_relocated {marker : PendingCompaction} {source : Segment}
    {entries : List (Nat × Segment)} (hmerged : ∀ e ∈ entries, marker.mergedId < e.1)
    (hsources : ∀ id ∈ otherSources marker, listed entries id = true) :
    reconcile marker (some source) entries =
      .ok ((marker.mergedId, relocatedSegment source) :: entries) := by
  have habsent : listed entries marker.mergedId = false := by
    rw [← Bool.not_eq_true, listed_iff]
    rintro ⟨e, he, heq⟩
    exact Nat.ne_of_gt (hmerged e he) heq
  have hfilter : entries.filter (·.1 != marker.mergedId) = entries := by
    rw [List.filter_eq_self]
    intro e he
    simpa using Nat.ne_of_gt (hmerged e he)
  have hinsert : Files.insertEntry marker.mergedId (relocatedSegment source) entries =
      (marker.mergedId, relocatedSegment source) :: entries := by
    cases entries with
    | nil => rfl
    | cons e rest => simp [Files.insertEntry, hmerged e List.mem_cons_self]
  have hall : (otherSources marker).all
      (listed ((marker.mergedId, relocatedSegment source) :: entries)) = true := by
    rw [List.all_eq_true]
    intro id hid
    obtain ⟨e, he, heq⟩ := (listed_iff entries id).mp (hsources id hid)
    exact (listed_iff _ id).mpr ⟨e, List.mem_cons_of_mem _ he, heq⟩
  unfold reconcile
  simp [habsent, hfilter, hinsert, hall]

/-- A file newer than everything the marker names is listed as it is. -/
theorem reconcile_append {marker : PendingCompaction} {temp : Option Segment}
    {init : List (Nat × Segment)} (hmerged : marker.mergedId < a)
    (hsources : ∀ id ∈ marker.sourceSegmentIds, id < a) :
    reconcile marker temp (init ++ [(a, act)]) =
      (reconcile marker temp init).map (· ++ [(a, act)]) := by
  have hnew : a ∉ marker.sourceSegmentIds :=
    fun ha => Nat.lt_irrefl a (hsources a ha)
  have hpresent : ∀ (entries : List (Nat × Segment)) (id : Nat), id < a →
      listed (entries ++ [(a, act)]) id = listed entries id := by
    intro entries id hid
    have hne : (a == id) = false := beq_eq_false_iff_ne.mpr (Nat.ne_of_gt hid)
    simp [listed, hne]
  by_cases hlisted : listed init marker.mergedId = true
  · rw [reconcile_of_listed temp hlisted,
      reconcile_of_listed temp (by rw [hpresent init _ hmerged]; exact hlisted),
      List.filter_append]
    simp [keptBy, hnew, Except.map]
  · have hothers : ∀ entries : List (Nat × Segment),
        (otherSources marker).all (listed (entries ++ [(a, act)])) =
          (otherSources marker).all (listed entries) := by
      intro entries
      rw [Bool.eq_iff_iff, List.all_eq_true, List.all_eq_true]
      constructor
      · intro hall id hid
        rw [← hpresent entries id (hsources id (mem_otherSources.mp hid).1)]
        exact hall id hid
      · intro hall id hid
        rw [hpresent entries id (hsources id (mem_otherSources.mp hid).1)]
        exact hall id hid
    have hkeep : [(a, act)].filter (fun e => e.1 != marker.mergedId) = [(a, act)] := by
      simp [Nat.ne_of_gt hmerged]
    unfold reconcile
    simp only [hpresent init _ hmerged, hlisted, Bool.false_and, Bool.false_eq_true, if_false]
    cases temp with
    | none =>
        simp only [hothers]
        split
        · rfl
        · rfl
    | some source =>
        simp only [List.filter_append, hkeep, insertEntry_append_of_lt act _ _ hmerged, hothers]
        split
        · rfl
        · rfl

end DataDir

/-! ### The invariant -/

/-- The newest file is the active segment, a marker speaks about older files only, and the
listing holds `n` copies of the event. -/
structure ListsCopies (x : Frame) (n : Nat) (dir : DataDir) : Prop where
  intro ::
  witness : ∃ init a act files,
    dir.segments.entries = init ++ [(a, act)] ∧
    (∀ marker, dir.marker = some marker →
      marker.mergedId < a ∧ ∀ id ∈ marker.sourceSegmentIds, id < a) ∧
    dir.segmentPaths = .ok files ∧ copies x files = n

/-- The layout a performed compaction starts from: the sources, the first of which lends
its number to the merged file, and the active segment. -/
structure Layout where
  mergedId : Nat
  first : Segment
  others : List (Nat × Segment)
  activeId : Nat
  active : Segment
  first_lowest : ∀ e ∈ others, mergedId < e.1
  active_newest : ∀ e ∈ others, e.1 < activeId
  merged_lt_active : mergedId < activeId

namespace Layout

def sources (l : Layout) : List (Nat × Segment) :=
  (l.mergedId, l.first) :: l.others

def sourceIds (l : Layout) : List Nat :=
  l.sources.map Prod.fst

def marker (l : Layout) : PendingCompaction :=
  ⟨l.mergedId, l.sourceIds⟩

/-- The marker is written, the first source still lies where the merged file will. -/
def InPlace (l : Layout) (dir : DataDir) : Prop :=
  dir.marker = some l.marker ∧ dir.segments.entries = l.sources ++ [(l.activeId, l.active)]

def Relocated (l : Layout) (dir : DataDir) : Prop :=
  dir.marker = some l.marker ∧ dir.segments.entries = l.others ++ [(l.activeId, l.active)] ∧
    dir.compactSources.find? l.mergedId = some l.first

/-- The merged file exists and holds the given chunks. -/
def Copying (l : Layout) (chunks : List Chunk) (dir : DataDir) : Prop :=
  dir.marker = some l.marker ∧
    dir.compactSources.find? l.mergedId = some l.first ∧
    ∃ seg : Segment, seg.chunks = chunks ∧
      dir.segments.entries = (l.mergedId, seg) :: l.others ++ [(l.activeId, l.active)]

/-- The swap is done and the sources are being deleted. -/
def Finishing (l : Layout) (chunks : List Chunk) (removed : List Nat) (dir : DataDir) : Prop :=
  dir.marker = some l.marker ∧
    ∃ seg : Segment, seg.chunks = chunks ∧
      dir.segments.entries =
        (l.mergedId, seg) :: l.others.filter (fun e => !removed.contains e.1) ++
          [(l.activeId, l.active)]

variable {l : Layout} {dir : DataDir} {x : Frame} {chunks : List Chunk}

theorem sourceIds_lt_active (l : Layout) : ∀ id ∈ l.sourceIds, id < l.activeId := by
  intro id hid
  obtain ⟨e, he, rfl⟩ := List.mem_map.mp hid
  rcases List.mem_cons.mp he with rfl | he
  · exact l.merged_lt_active
  · exact l.active_newest e he

/-- With the marker in place it is enough to reconcile the files below the active one. -/
theorem listsCopies_of_reconcile {init files : List (Nat × Segment)} {n : Nat}
    (hmarker : dir.marker = some l.marker)
    (hentries : dir.segments.entries = init ++ [(l.activeId, l.active)])
    (hfiles : DataDir.reconcile l.marker (dir.compactSources.find? l.mergedId) init = .ok files)
    (hcopies : copies x files + copies x [(l.activeId, l.active)] = n) :
    ListsCopies x n dir := by
  refine ⟨init, l.activeId, l.active, files ++ [(l.activeId, l.active)], hentries, ?_, ?_, ?_⟩
  · intro marker hm
    rw [hmarker] at hm
    cases hm
    exact ⟨l.merged_lt_active, l.sourceIds_lt_active⟩
  · unfold DataDir.segmentPaths
    rw [hmarker, hentries]
    change DataDir.reconcile l.marker (dir.compactSources.find? l.mergedId) _ = _
    rw [DataDir.reconcile_append l.merged_lt_active l.sourceIds_lt_active, hfiles]
    rfl
  · rw [copies_append]
    exact hcopies

/-- Before the first source is moved the marker already hides the others: nothing is lost
only when there are none. -/
theorem InPlace.listsCopies (h : l.InPlace dir) (hsingle : l.others = []) :
    ListsCopies x (copies x l.sources + copies x [(l.activeId, l.active)]) dir := by
  obtain ⟨hmarker, hentries⟩ := h
  apply listsCopies_of_reconcile hmarker hentries _ rfl
  rw [DataDir.reconcile_of_listed _ (by simp [DataDir.listed, sources, marker])]
  simp [sources, hsingle, DataDir.keptBy, marker]

theorem Relocated.listsCopies (h : l.Relocated dir) :
    ListsCopies x (copies x l.sources + copies x [(l.activeId, l.active)]) dir := by
  obtain ⟨hmarker, hentries, htemp⟩ := h
  have hfiles : DataDir.reconcile l.marker (dir.compactSources.find? l.mergedId) l.others =
      .ok ((l.mergedId, DataDir.relocatedSegment l.first) :: l.others) := by
    rw [htemp]
    apply DataDir.reconcile_of_relocated l.first_lowest
    intro id hid
    obtain ⟨hsource, hne⟩ := DataDir.mem_otherSources.mp hid
    obtain ⟨e, he, rfl⟩ := List.mem_map.mp hsource
    rcases List.mem_cons.mp he with rfl | he
    · exact absurd rfl hne
    · exact (DataDir.listed_iff _ _).mpr ⟨e, he, rfl⟩
  apply listsCopies_of_reconcile hmarker hentries hfiles
  simp [sources, DataDir.relocatedSegment]

/-- Once the merged file is complete it speaks for every source. -/
theorem Finishing.listsCopies {removed : List Nat} (h : l.Finishing chunks removed dir)
    (hcopied : (eventFrames chunks).countP x.sameEvent = copies x l.sources) :
    ListsCopies x (copies x l.sources + copies x [(l.activeId, l.active)]) dir := by
  obtain ⟨hmarker, seg, hchunks, hentries⟩ := h
  have hothers : (l.others.filter fun e => !removed.contains e.1).filter
      (DataDir.keptBy l.marker) = [] := by
    rw [List.filter_eq_nil_iff]
    intro e he
    have hmem := List.mem_of_mem_filter he
    have hsource : e.1 ∈ l.sourceIds :=
      List.mem_map_of_mem (List.mem_cons_of_mem _ hmem)
    simp [DataDir.keptBy, marker, Nat.ne_of_gt (l.first_lowest e hmem), hsource]
  have hfiles : DataDir.reconcile l.marker (dir.compactSources.find? l.mergedId)
      ((l.mergedId, seg) :: l.others.filter fun e => !removed.contains e.1) =
      .ok [(l.mergedId, seg)] := by
    rw [DataDir.reconcile_of_listed _ (by simp [DataDir.listed, marker]),
      List.filter_cons_of_pos (by simp [DataDir.keptBy, marker]), hothers]
  apply listsCopies_of_reconcile hmarker hentries hfiles
  simp [hchunks, hcopied]

theorem Copying.finishing (h : l.Copying chunks dir) : l.Finishing chunks [] dir := by
  obtain ⟨hmarker, -, seg, hchunks, hentries⟩ := h
  exact ⟨hmarker, seg, hchunks, by simpa using hentries⟩

/-! ### One operation at a time -/

theorem Relocated.removeSegment (h : l.Relocated dir) :
    l.Relocated ((DirOp.removeSegment l.mergedId).apply dir) := by
  obtain ⟨hmarker, hentries, htemp⟩ := h
  refine ⟨hmarker, ?_, htemp⟩
  rw [DirOp.apply, Files.remove_entries, hentries, List.filter_eq_self]
  intro e he
  rcases List.mem_append.mp he with he | he
  · simpa using Nat.ne_of_gt (l.first_lowest e he)
  · rw [List.mem_singleton.mp he]
    simpa using Nat.ne_of_gt l.merged_lt_active

theorem InPlace.relocate (h : l.InPlace dir) :
    l.Relocated ((DirOp.relocate l.mergedId).apply dir) := by
  obtain ⟨hmarker, hentries⟩ := h
  have hfind := Files.find?_head hentries
  unfold DirOp.apply
  simp only [hfind]
  exact ⟨hmarker, Files.filter_ne_head hentries, Files.find?_put _ _ _⟩

theorem Relocated.createSegment (headerBytes : Nat) (h : l.Relocated dir) :
    l.Copying [] ((DirOp.createSegment l.mergedId headerBytes).apply dir) := by
  obtain ⟨hmarker, hentries, htemp⟩ := h
  refine ⟨hmarker, htemp, .create l.mergedId headerBytes, rfl, ?_⟩
  rw [DirOp.apply, Files.put_entries_of_lt, hentries]
  · rfl
  · rw [hentries]
    intro e he
    rcases List.mem_append.mp he with he | he
    · exact l.first_lowest e he
    · rw [List.mem_singleton.mp he]
      exact l.merged_lt_active

theorem Copying.appendChunk (c : Chunk) (h : l.Copying chunks dir) :
    l.Copying (chunks ++ [c]) ((DirOp.appendChunk l.mergedId c).apply dir) := by
  obtain ⟨hmarker, htemp, seg, hchunks, hentries⟩ := h
  refine ⟨hmarker, htemp, seg.appendChunk c, ?_, ?_⟩
  · rw [Segment.appendChunk, hchunks]
  · exact Files.modify_entries_head hentries _

theorem Copying.syncSegment (h : l.Copying chunks dir) :
    l.Copying chunks ((DirOp.syncSegment l.mergedId).apply dir) := by
  obtain ⟨hmarker, htemp, seg, hchunks, hentries⟩ := h
  exact ⟨hmarker, htemp, seg.sync, hchunks, Files.modify_entries_head hentries _⟩

theorem Copying.removeSegment (h : l.Copying chunks dir) :
    l.Relocated ((DirOp.removeSegment l.mergedId).apply dir) := by
  obtain ⟨hmarker, htemp, seg, -, hentries⟩ := h
  exact ⟨hmarker, Files.filter_ne_head hentries, htemp⟩

theorem Relocated.restoreSource (h : l.Relocated dir) :
    l.InPlace ((DirOp.restoreSource l.mergedId).apply dir) := by
  obtain ⟨hmarker, hentries, htemp⟩ := h
  unfold DirOp.apply
  simp only [htemp]
  refine ⟨hmarker, ?_⟩
  rw [Files.put_entries_of_lt, hentries]
  · rfl
  · rw [hentries]
    intro e he
    rcases List.mem_append.mp he with he | he
    · exact l.first_lowest e he
    · rw [List.mem_singleton.mp he]
      exact l.merged_lt_active

theorem Finishing.removeSegment {removed : List Nat} (id : Nat) (hid : l.mergedId < id)
    (hactive : id < l.activeId) (h : l.Finishing chunks removed dir) :
    l.Finishing chunks (id :: removed) ((DirOp.removeSegment id).apply dir) := by
  obtain ⟨hmarker, seg, hchunks, hentries⟩ := h
  refine ⟨hmarker, seg, hchunks, ?_⟩
  rw [DirOp.apply, Files.remove_entries, hentries]
  have hmerged : (l.mergedId != id) = true := by simpa using Nat.ne_of_lt hid
  have hact : (l.activeId != id) = true := by simpa using Nat.ne_of_gt hactive
  simp only [List.cons_append, List.filter_cons, hmerged, if_true, List.filter_append,
    List.filter_filter, hact, List.filter_nil]
  congr 2
  apply List.filter_congr
  intro e he
  rw [List.contains_cons, Bool.not_or, bne]

/-! ### Prefixes of a call -/

/-- The directory a performed compaction starts from. -/
def Start (l : Layout) (dir : DataDir) : Prop :=
  dir.segments.entries = l.sources ++ [(l.activeId, l.active)]

theorem listsCopies_of_unmarked {init : List (Nat × Segment)} (hmarker : dir.marker = none)
    (hentries : dir.segments.entries = init ++ [(l.activeId, l.active)]) :
    ListsCopies x (copies x init + copies x [(l.activeId, l.active)]) dir := by
  refine ⟨init, l.activeId, l.active, dir.segments.entries, hentries, ?_, ?_, ?_⟩
  · intro marker hm
    rw [hmarker] at hm
    cases hm
  · rw [DataDir.segmentPaths, hmarker]
  · rw [hentries, copies_append]

theorem Start.writeMarker (h : l.Start dir) :
    l.InPlace ((DirOp.writeMarker l.marker).apply dir) :=
  ⟨rfl, h⟩

theorem prepare_inPlace (headerBytes : Nat) (h : l.Start dir) {j : Nat} (hpos : 0 < j)
    (hj : j < 3) :
    l.InPlace (runOps ((prepareOps headerBytes l.mergedId l.sourceIds).take j) dir) := by
  obtain rfl | rfl : j = 1 ∨ j = 2 := by omega
  · exact h.writeMarker
  · exact h.writeMarker

theorem prepare_relocated (headerBytes : Nat) (h : l.Start dir) {j : Nat} (hlow : 2 < j)
    (hj : j < 5) :
    l.Relocated (runOps ((prepareOps headerBytes l.mergedId l.sourceIds).take j) dir) := by
  have hmoved : l.Relocated (runOps ((prepareOps headerBytes l.mergedId l.sourceIds).take 3) dir) :=
    InPlace.relocate (prepare_inPlace headerBytes h (by decide) (by decide : 2 < 3))
  obtain rfl | rfl : j = 3 ∨ j = 4 := by omega
  · exact hmoved
  · exact hmoved.removeSegment

theorem prepare_copying (headerBytes : Nat) (h : l.Start dir) {j : Nat} (hj : 4 < j) :
    l.Copying [] (runOps ((prepareOps headerBytes l.mergedId l.sourceIds).take j) dir) := by
  have hcreated : l.Copying [] (runOps ((prepareOps headerBytes l.mergedId l.sourceIds).take 5) dir) :=
    (prepare_relocated headerBytes h (by decide) (by decide : 4 < 5)).createSegment headerBytes
  obtain rfl | hlong : j = 5 ∨ 6 ≤ j := by omega
  · exact hcreated
  · rw [List.take_of_length_le (by simpa [prepareOps] using hlong)]
    exact hcreated

theorem copy_prefix {copied : List Chunk} (rest : List Chunk) (i : Nat)
    (h : l.Copying copied dir) :
    l.Copying (copied ++ rest.take i) (runOps ((copyOps l.mergedId rest).take i) dir) := by
  induction rest generalizing copied dir i with
  | nil =>
      rw [List.take_nil, List.append_nil]
      match i with
      | 0 => exact h
      | 1 => exact h.syncSegment
      | i + 2 =>
          rw [List.take_of_length_le (by simp [copyOps])]
          exact h.syncSegment
  | cons c rest ih =>
      cases i with
      | zero =>
          rw [List.take_zero, List.append_nil]
          exact h
      | succ i =>
          have hstep := ih i (h.appendChunk c)
          rw [List.append_assoc] at hstep
          exact hstep

theorem runOps_append (xs ys : List DirOp) (dir : DataDir) :
    runOps (xs ++ ys) dir = runOps ys (runOps xs dir) :=
  List.foldl_append

/-- Any prefix of the operations before the swap, once the merged file exists. -/
theorem preSwap_copying (headerBytes : Nat) (copied : List Chunk) (h : l.Start dir) {j : Nat}
    (hj : 4 < j) :
    l.Copying (copied.take (j - 6)) (runOps ((prepareOps headerBytes l.mergedId l.sourceIds ++
      copyOps l.mergedId copied).take j) dir) := by
  rw [List.take_append, runOps_append]
  exact copy_prefix copied _ (prepare_copying headerBytes h hj)

theorem finish_prefix (others : List Nat) (i : Nat) {removed : List Nat}
    (hothers : ∀ id ∈ others, l.mergedId < id ∧ id < l.activeId)
    (hremoved : ∀ e ∈ l.others, e.1 ∈ others ∨ e.1 ∈ removed)
    (h : l.Finishing chunks removed dir)
    (hcopied : (eventFrames chunks).countP x.sameEvent = copies x l.sources) :
    ListsCopies x (copies x l.sources + copies x [(l.activeId, l.active)])
      (runOps ((others.map DirOp.removeSegment ++
        [DirOp.removeCompactSource l.mergedId, DirOp.clearMarker]).take i) dir) := by
  induction others generalizing removed dir i with
  | nil =>
      match i with
      | 0 => exact h.listsCopies hcopied
      | 1 =>
          obtain ⟨hmarker, seg, hchunks, hentries⟩ := h
          exact Finishing.listsCopies ⟨hmarker, seg, hchunks, hentries⟩ hcopied
      | i + 2 =>
          obtain ⟨-, seg, hchunks, hentries⟩ := h
          have hnone : l.others.filter (fun e => !removed.contains e.1) = [] := by
            rw [List.filter_eq_nil_iff]
            intro e he
            simpa using hremoved e he
          rw [hnone] at hentries
          have hdone : ListsCopies x
              (copies x [(l.mergedId, seg)] + copies x [(l.activeId, l.active)])
              { dir with
                compactSources := dir.compactSources.remove l.mergedId
                marker := none } :=
            listsCopies_of_unmarked rfl hentries
          have hmerged : copies x [(l.mergedId, seg)] = copies x l.sources := by
            simp [hchunks, hcopied]
          rw [hmerged] at hdone
          rw [List.take_of_length_le (by simp)]
          exact hdone
  | cons id rest ih =>
      cases i with
      | zero => exact h.listsCopies hcopied
      | succ i =>
          obtain ⟨hlow, hhigh⟩ := hothers id List.mem_cons_self
          apply ih i (fun e he => hothers e (List.mem_cons_of_mem _ he)) _
            (h.removeSegment id hlow hhigh)
          intro e he
          rcases hremoved e he with hmem | hmem
          · rcases List.mem_cons.mp hmem with heq | hmem
            · exact .inr (heq ▸ List.mem_cons_self)
            · exact .inl hmem
          · exact .inr (List.mem_cons_of_mem _ hmem)

theorem rollback_prefix {i : Nat} (hpos : 0 < i) (hsingle : i = 2 → l.others = [])
    (h : l.Relocated dir ∨ ∃ copied, l.Copying copied dir) :
    ListsCopies x (copies x l.sources + copies x [(l.activeId, l.active)])
      (runOps ((rollbackOps l.mergedId true).take i) dir) := by
  have hmoved : l.Relocated ((DirOp.removeSegment l.mergedId).apply dir) := by
    rcases h with h | ⟨copied, h⟩
    · exact h.removeSegment
    · exact h.removeSegment
  match i with
  | 1 => exact hmoved.listsCopies
  | 2 => exact hmoved.restoreSource.listsCopies (hsingle rfl)
  | i + 3 =>
      rw [List.take_of_length_le (by simp [rollbackOps])]
      exact listsCopies_of_unmarked rfl hmoved.restoreSource.2

end Layout

/-! ### When an interruption is harmless -/

/-- After `j` operations the marker speaks for a merged file that is not complete: first
the untouched first source passes for it while there are others to hide, later the merged
file itself while something is left to copy. -/
def exposedAt (sources chunks j : Nat) : Bool :=
  (0 < j && j < 3 && sources != 1) || (4 < j && j - 6 < chunks)

/-- Chunks the copy has to bring over; sources that cannot be read are never complete. -/
def copyLength (copied : Except StoreError (List Chunk)) : Nat :=
  match copied with
  | .ok chunks => chunks.length
  | .error _ => 1

/-- An interruption that leaves a listing with every surviving event: the process does not
stop while the marker speaks for an incomplete file, the relocation of the first source
does not fail, and the rollback of any other failure does not stop between putting the
first source back and clearing the marker while there are other sources. -/
def Interruption.safe (sources : Nat) (copied : Except StoreError (List Chunk))
    (stop : Interruption) : Bool :=
  let unexposed := fun j => !exposedAt sources (copyLength copied) j
  match failingOp copied stop.fails with
  | none => stop.stops.all unexposed
  | some k =>
      if k = 0 then true
      else if k < 8 + copyLength copied then
        2 < k && stop.stops.all fun j => (k < j || unexposed j) && (j != k + 2 || sources = 1)
      else stop.stops.all unexposed

namespace Layout

variable {l : Layout} {dir : DataDir} {x : Frame} {chunks : List Chunk}

/-- The number of copies the listing should show. -/
def listedCopies (l : Layout) (x : Frame) : Nat :=
  copies x l.sources + copies x [(l.activeId, l.active)]

theorem others_nil_of_length (l : Layout) (h : l.sources.length = 1) : l.others = [] := by
  simpa [sources] using h

/-- Prefixes that end before the merged file exists. -/
theorem early_prefix (headerBytes : Nat) (copied : List Chunk) {c j : Nat} (h : l.Start dir)
    (hbefore : ListsCopies x (l.listedCopies x) dir) (hj : j < 5)
    (hsafe : exposedAt l.sources.length c j = false) :
    ListsCopies x (l.listedCopies x) (runOps ((prepareOps headerBytes l.mergedId l.sourceIds ++
      copyOps l.mergedId copied).take j) dir) := by
  have htake : (prepareOps headerBytes l.mergedId l.sourceIds ++ copyOps l.mergedId copied).take j =
      (prepareOps headerBytes l.mergedId l.sourceIds).take j :=
    List.take_append_of_le_length (by simp only [prepareOps, List.length_cons]; omega)
  rw [htake]
  by_cases hzero : j = 0
  · subst hzero
    exact hbefore
  · by_cases hplace : j < 3
    · have hone : l.sources.length = 1 := by
        by_contra hne
        have hexposed : exposedAt l.sources.length c j = true := by
          simp [exposedAt, hne, hplace, Nat.pos_of_ne_zero hzero]
        rw [hsafe] at hexposed
        cases hexposed
      exact (prepare_inPlace headerBytes h (Nat.pos_of_ne_zero hzero) hplace).listsCopies
        (l.others_nil_of_length hone)
    · exact (prepare_relocated headerBytes h (by omega) hj).listsCopies

/-- Prefixes of a call that runs into no error before the swap. -/
theorem forward_prefix (headerBytes : Nat) (copied : List Chunk) (q : Nat) {j : Nat}
    (h : l.Start dir) (hbefore : ListsCopies x (l.listedCopies x) dir)
    (hcopied : (eventFrames copied).countP x.sameEvent = copies x l.sources)
    (hsafe : exposedAt l.sources.length copied.length j = false) :
    ListsCopies x (l.listedCopies x) (runOps (((prepareOps headerBytes l.mergedId l.sourceIds ++
      copyOps l.mergedId copied) ++
        (finishOps l.mergedId l.sourceIds.tail).take q).take j) dir) := by
  have hlength : (prepareOps headerBytes l.mergedId l.sourceIds ++
      copyOps l.mergedId copied).length = 8 + copied.length := by
    simp only [prepareOps, copyOps, List.length_append, List.length_cons, List.length_nil,
      List.length_map]
    omega
  by_cases hearly : j < 5
  · rw [List.take_append_of_le_length (by rw [hlength]; omega)]
    exact early_prefix headerBytes copied h hbefore hearly hsafe
  · have hcomplete : copied.length ≤ j - 6 := by
      by_contra hlt
      have hexposed : exposedAt l.sources.length copied.length j = true := by
        have h4 : 4 < j := by omega
        have h6 : j - 6 < copied.length := by omega
        simp [exposedAt, h4, h6]
      rw [hsafe] at hexposed
      cases hexposed
    have hcopying := preSwap_copying headerBytes copied h (by omega : 4 < j)
    rw [List.take_of_length_le hcomplete] at hcopying
    rw [List.take_append, hlength, runOps_append]
    -- the swap has happened: what is left deletes the sources
    rw [List.take_take]
    generalize min (j - (8 + copied.length)) q = i
    cases i with
    | zero => exact hcopying.finishing.listsCopies hcopied
    | succ i =>
        have hfinishing : l.Finishing copied [] ((DirOp.removeCompactSource l.mergedId).apply
            (runOps ((prepareOps headerBytes l.mergedId l.sourceIds ++
              copyOps l.mergedId copied).take j) dir)) :=
          ⟨hcopying.1, hcopying.finishing.2⟩
        apply finish_prefix l.sourceIds.tail i _ _ hfinishing hcopied
        · intro id hid
          obtain ⟨e, he, rfl⟩ := List.mem_map.mp (show id ∈ l.others.map Prod.fst from hid)
          exact ⟨l.first_lowest e he, l.active_newest e he⟩
        · intro e he
          exact .inl (List.mem_map_of_mem he)

end Layout

namespace Layout

variable {l : Layout} {dir : DataDir} {x : Frame}

/-- A safe interruption of a call that cannot read its sources or hits an error before the
swap: everything done so far is undone. -/
theorem rolledBack_prefix (headerBytes : Nat) (copied : List Chunk) {k j : Nat}
    (h : l.Start dir) (hk : 2 < k) (hkj : k < j)
    (hsingle : j = k + 2 → l.sources.length = 1) (hlength : k ≤ 8 + copied.length) :
    ListsCopies x (l.listedCopies x)
      (runOps (((prepareOps headerBytes l.mergedId l.sourceIds ++
        copyOps l.mergedId copied).take k ++ rollbackOps l.mergedId (2 < k)).take j) dir) := by
  have htake : ((prepareOps headerBytes l.mergedId l.sourceIds ++
      copyOps l.mergedId copied).take k).length = k := by
    simp only [prepareOps, copyOps, List.length_take, List.length_append, List.length_cons,
      List.length_nil, List.length_map]
    omega
  have hall := List.take_of_length_le (Nat.le_trans (Nat.le_of_eq htake) (Nat.le_of_lt hkj))
  rw [List.take_append, htake, hall, runOps_append]
  simp only [hk, decide_true]
  apply rollback_prefix (by omega)
  · intro hi
    exact l.others_nil_of_length (hsingle (by omega))
  · by_cases hcreated : k < 5
    · left
      rw [List.take_append_of_le_length (by simp only [prepareOps, List.length_cons]; omega)]
      exact prepare_relocated headerBytes h hk hcreated
    · right
      exact ⟨_, preSwap_copying headerBytes copied h (by omega)⟩

/-- A call that fails before the swap, wherever it and its rollback stop. -/
theorem failed_listsCopies (headerBytes : Nat) (copied : List Chunk) {c k : Nat}
    {stops : Option Nat} (h : l.Start dir) (hlength : k ≤ 8 + copied.length) (hk : 2 < k)
    (hearly : ∀ j, j ≤ k → exposedAt l.sources.length c j = false →
      ListsCopies x (l.listedCopies x) (runOps ((prepareOps headerBytes l.mergedId l.sourceIds ++
        copyOps l.mergedId copied).take j) dir))
    (hsafe : stops.all (fun j => (k < j || !exposedAt l.sources.length c j) &&
      (j != k + 2 || l.sources.length = 1)) = true) :
    ListsCopies x (l.listedCopies x) (runInterrupted
      ((prepareOps headerBytes l.mergedId l.sourceIds ++ copyOps l.mergedId copied).take k ++
        rollbackOps l.mergedId (2 < k)) stops dir) := by
  cases stops with
  | none =>
      have hdone := rolledBack_prefix (x := x) headerBytes copied h hk (by omega : k < k + 3)
        (fun hj => by omega) hlength
      rw [List.take_of_length_le] at hdone
      · exact hdone
      · simp only [rollbackOps, hk, decide_true, if_true, List.length_append, List.length_take,
          List.length_cons, List.length_nil]
        omega
  | some j =>
      rw [Option.all_some, Bool.and_eq_true, Bool.or_eq_true, Bool.or_eq_true] at hsafe
      by_cases hkj : k < j
      · apply rolledBack_prefix headerBytes copied h hk hkj _ hlength
        intro hj
        rcases hsafe.2 with hne | hone
        · exact absurd hj (by simpa using hne)
        · exact of_decide_eq_true hone
      · have hunexposed : exposedAt l.sources.length c j = false := by
          rcases hsafe.1 with hlt | hexp
          · exact absurd (of_decide_eq_true hlt) hkj
          · simpa using hexp
        have hprefix := hearly j (by omega) hunexposed
        rw [runInterrupted, List.take_append_of_le_length, List.take_take,
          Nat.min_eq_left (by omega)]
        · exact hprefix
        · simp only [prepareOps, copyOps, List.length_take, List.length_append, List.length_cons,
            List.length_nil, List.length_map]
          omega

/-- A call that gets past the swap, wherever it stops. -/
theorem swapped_listsCopies (headerBytes : Nat) (copied : List Chunk) (q : Nat)
    {stops : Option Nat} (h : l.Start dir) (hbefore : ListsCopies x (l.listedCopies x) dir)
    (hcopied : (eventFrames copied).countP x.sameEvent = copies x l.sources)
    (hsafe : stops.all (fun j => !exposedAt l.sources.length copied.length j) = true) :
    ListsCopies x (l.listedCopies x) (runInterrupted
      ((prepareOps headerBytes l.mergedId l.sourceIds ++ copyOps l.mergedId copied) ++
        (finishOps l.mergedId l.sourceIds.tail).take q) stops dir) := by
  cases stops with
  | none =>
      have hdone := forward_prefix headerBytes copied q (j := 8 + copied.length + q + 8) h hbefore
        hcopied (by simp only [exposedAt]; simp; omega)
      rw [List.take_of_length_le] at hdone
      · exact hdone
      · simp only [prepareOps, copyOps, List.length_append, List.length_cons, List.length_nil,
          List.length_map, List.length_take]
        omega
  | some j => exact forward_prefix headerBytes copied q h hbefore hcopied (by simpa using hsafe)

/-- One interrupted call on a layout. -/
theorem compactOps_listsCopies (rt : Runtime) (headerBytes : Nat) {stop : Interruption}
    (h : l.Start dir) (hbefore : ListsCopies x (l.listedCopies x) dir)
    (hretained : Retained strategy x l.sources)
    (hsafe : stop.safe l.sources.length (copiedChunks rt strategy (l.sources.map Prod.snd)) = true) :
    ListsCopies x (l.listedCopies x) (runInterrupted
      (compactOps headerBytes l.mergedId l.sourceIds
        (copiedChunks rt strategy (l.sources.map Prod.snd)) stop.fails) stop.stops dir) := by
  have hnothing : ListsCopies x (l.listedCopies x) (runInterrupted [] stop.stops dir) := by
    cases stop.stops with
    | none => exact hbefore
    | some j =>
        rw [runInterrupted, List.take_nil]
        exact hbefore
  unfold Interruption.safe at hsafe
  unfold compactOps preSwapOps
  cases hcopied : copiedChunks rt strategy (l.sources.map Prod.snd) with
  | error e =>
      -- the sources cannot be read: the call fails at the latest right after creating the file
      rw [hcopied] at hsafe
      have hfive : min (stop.fails.getD 5) 5 ≤ 5 := Nat.min_le_right _ _
      have hone : copyLength (.error e) = 1 := rfl
      simp only [failingOp] at hsafe ⊢
      generalize min (stop.fails.getD 5) 5 = k at hfive hsafe ⊢
      by_cases hzero : k = 0
      · rw [if_pos hzero]
        exact hnothing
      · rw [if_neg hzero, if_pos (by omega), Bool.and_eq_true] at hsafe
        rw [if_neg hzero, if_pos (by simp only [prepareOps, copyOps]; simp; omega)]
        apply failed_listsCopies headerBytes [] h (by simp; omega) (of_decide_eq_true hsafe.1) _
          hsafe.2
        intro j hj hunexposed
        refine early_prefix headerBytes [] h hbefore ?_ hunexposed
        by_contra hlate
        have hexposed : exposedAt l.sources.length (copyLength (.error e)) j = true := by
          have h4 : 4 < j := by omega
          have h6 : j - 6 < 1 := by omega
          simp [exposedAt, hone, h4, h6]
        rw [hunexposed] at hexposed
        cases hexposed
  | ok chunks =>
      rw [hcopied] at hsafe
      have hcounts := copiedChunks_copies hcopied hretained
      simp only [failingOp] at hsafe ⊢
      cases hfails : stop.fails with
      | none =>
          rw [hfails] at hsafe
          have hdone := swapped_listsCopies headerBytes chunks
            (finishOps l.mergedId l.sourceIds.tail).length h hbefore hcounts hsafe
          rw [List.take_length] at hdone
          exact hdone
      | some k =>
          rw [hfails] at hsafe
          have hchunks : copyLength (.ok chunks) = chunks.length := rfl
          have hlength : (prepareOps headerBytes l.mergedId l.sourceIds ++
              copyOps l.mergedId chunks).length = 8 + chunks.length := by
            simp only [prepareOps, copyOps, List.length_append, List.length_cons,
              List.length_nil, List.length_map]
            omega
          simp only [hlength] at hsafe ⊢
          by_cases hzero : k = 0
          · rw [if_pos hzero]
            exact hnothing
          · rw [if_neg hzero] at hsafe ⊢
            by_cases hpre : k < 8 + chunks.length
            · rw [hchunks, if_pos hpre, Bool.and_eq_true] at hsafe
              rw [if_pos hpre]
              apply failed_listsCopies headerBytes chunks h (Nat.le_of_lt hpre)
                (of_decide_eq_true hsafe.1) _ hsafe.2
              intro j hj hunexposed
              have hprefix := forward_prefix headerBytes chunks 0 h hbefore hcounts hunexposed
              rw [List.take_zero, List.append_nil] at hprefix
              exact hprefix
            · rw [hchunks, if_neg hpre] at hsafe
              rw [if_neg hpre]
              exact swapped_listsCopies headerBytes chunks _ h hbefore hcounts hsafe

end Layout

/-! ### Runs of a directory -/

/-- What happens to the data directory: an open starts a segment, the writer adds to the
active segment or rotates it, and `compact` is called with some strategy and gets as far
as it gets. -/
inductive DirStep where
  | openStore
  | write (chunk : Chunk)
  | rotate (footer : Option (List SidxEntry))
  | compact (minSegments : Nat) (strategy : CompactionStrategy) (stop : Interruption)

def dirStep (rt : Runtime) (headerBytes : Nat) (dir : DataDir) : DirStep → DataDir
  | .openStore => dir.spawnSegment headerBytes
  | .write chunk => dir.updateActive (Segment.appendChunk chunk)
  | .rotate footer =>
      (dir.updateActive fun seg => { seg.sync with footer := footer }).spawnSegment headerBytes
  | .compact minSegments strategy stop =>
      compactDir rt headerBytes minSegments strategy stop dir

/-- Whether a call has enough sealed segments to do anything. -/
def DataDir.compacts (minSegments : Nat) (dir : DataDir) : Bool :=
  !dir.sealedSegments.isEmpty && minSegments ≤ dir.sealedSegments.length

/-- No file is superseded and no relocated source is in use: an open would read exactly
the segment files there are. -/
def DataDir.plain (dir : DataDir) : Bool :=
  match dir.segmentPaths with
  | .ok files => files = dir.segments.entries
  | .error _ => false

/-- A compaction that does anything starts from a plain directory and stops, if it stops,
where that is harmless. -/
def SafeStep (rt : Runtime) (dir : DataDir) : DirStep → Prop
  | .compact minSegments strategy stop =>
      dir.compacts minSegments = true →
        dir.plain = true ∧
          stop.safe dir.sealedSegments.length
            (copiedChunks rt strategy (dir.sealedSegments.map Prod.snd)) = true
  | _ => True

/-- The strategies of all compactions that do anything retain the event. -/
def RetainedStep (x : Frame) (dir : DataDir) : DirStep → Prop
  | .compact minSegments strategy _ =>
      dir.compacts minSegments = true → Retained strategy x dir.sealedSegments
  | _ => True

/-- How many copies of an event one step writes. -/
def DirStep.writes (x : Frame) : DirStep → Nat
  | .write chunk => (eventFrames [chunk]).countP x.sameEvent
  | _ => 0

/-- How often a run writes the event. -/
def timesWritten (x : Frame) (steps : List DirStep) : Nat :=
  (steps.map fun step => step.writes x).sum

/-! ### One step -/

section Steps

variable {rt : Runtime} {headerBytes n : Nat} {x : Frame} {dir : DataDir}

/-- The files below the active segment are the sealed ones. -/
theorem sealedSegments_eq {init : List (Nat × Segment)}
    (hentries : dir.segments.entries = init ++ [(a, act)]) : dir.sealedSegments = init := by
  have hsorted := dir.segments.sorted
  rw [hentries, List.pairwise_append] at hsorted
  have hnewest : dir.findLatestSegmentId.getD 0 = a := by
    simp [DataDir.findLatestSegmentId, Files.newest?, hentries]
  rw [DataDir.sealedSegments, hnewest, hentries, List.filter_append]
  have hact : [(a, act)].filter (fun e => e.1 < a) = [] := by simp
  rw [hact, List.append_nil, List.filter_eq_self]
  intro e he
  exact decide_eq_true (hsorted.2.2 e he (a, act) List.mem_cons_self)

theorem segmentPaths_of_plain (h : dir.plain = true) :
    dir.segmentPaths = .ok dir.segments.entries := by
  unfold DataDir.plain at h
  split at h
  · rename_i files hfiles
    rw [hfiles, of_decide_eq_true h]
  · cases h

theorem ListsCopies.spawnSegment (h : ListsCopies x n dir) :
    ListsCopies x n (dir.spawnSegment headerBytes) := by
  obtain ⟨init, a, act, files, hentries, hmarker, hfiles, hcopies⟩ := h
  have hnewest : dir.findLatestSegmentId = some a := by
    simp [DataDir.findLatestSegmentId, Files.newest?, hentries]
  have hsorted := dir.segments.sorted
  rw [hentries, List.pairwise_append] at hsorted
  have hput : (dir.segments.put (a + 1) (.create (a + 1) headerBytes)).entries =
      dir.segments.entries ++ [(a + 1, .create (a + 1) headerBytes)] := by
    apply Files.put_entries_of_gt
    intro e he
    rw [hentries] at he
    rcases List.mem_append.mp he with he | he
    · exact Nat.lt_succ_of_lt (hsorted.2.2 e he (a, act) List.mem_cons_self)
    · rw [List.mem_singleton.mp he]
      exact Nat.lt_succ_self a
  have hspawn : dir.spawnSegment headerBytes =
      { dir with segments := dir.segments.put (a + 1) (.create (a + 1) headerBytes) } := by
    rw [DataDir.spawnSegment, hnewest]
    rfl
  rw [hspawn]
  refine ⟨dir.segments.entries, a + 1, .create (a + 1) headerBytes,
    files ++ [(a + 1, .create (a + 1) headerBytes)], hput, ?_, ?_, ?_⟩
  · intro marker hm
    obtain ⟨hmerged, hsources⟩ := hmarker marker hm
    exact ⟨Nat.lt_succ_of_lt hmerged, fun id hid => Nat.lt_succ_of_lt (hsources id hid)⟩
  · unfold DataDir.segmentPaths at hfiles ⊢
    simp only [hput]
    cases hm : dir.marker with
    | none =>
        rw [hm] at hfiles
        cases hfiles
        rfl
    | some marker =>
        rw [hm] at hfiles
        obtain ⟨hmerged, hsources⟩ := hmarker marker hm
        simp only at hfiles ⊢
        rw [DataDir.reconcile_append (Nat.lt_succ_of_lt hmerged)
          (fun id hid => Nat.lt_succ_of_lt (hsources id hid)), hfiles]
        rfl
  · simp [hcopies, Segment.create]

/-- A change to the active segment shows in the listing as it is. -/
theorem ListsCopies.updateActive {g : Segment → Segment} {added : Nat}
    (hg : ∀ seg, (eventFrames (g seg).chunks).countP x.sameEvent =
      (eventFrames seg.chunks).countP x.sameEvent + added)
    (h : ListsCopies x n dir) : ListsCopies x (n + added) (dir.updateActive g) := by
  obtain ⟨init, a, act, files, hentries, hmarker, hfiles, hcopies⟩ := h
  have hnewest : dir.findLatestSegmentId = some a := by
    simp [DataDir.findLatestSegmentId, Files.newest?, hentries]
  have hmodify := Files.modify_entries_last hentries g
  have hupdate : dir.updateActive g = { dir with segments := dir.segments.modify a g } := by
    rw [DataDir.updateActive, hnewest]
  rw [hupdate]
  -- the files below the active one do not depend on what it holds
  obtain ⟨below, hbelow, hlisting⟩ : ∃ below, files = below ++ [(a, act)] ∧
      DataDir.segmentPaths { dir with segments := dir.segments.modify a g } =
        .ok (below ++ [(a, g act)]) := by
    unfold DataDir.segmentPaths at hfiles ⊢
    simp only [hmodify]
    rw [hentries] at hfiles
    cases hm : dir.marker with
    | none =>
        rw [hm] at hfiles
        cases hfiles
        exact ⟨init, rfl, rfl⟩
    | some marker =>
        rw [hm] at hfiles
        obtain ⟨hmerged, hsources⟩ := hmarker marker hm
        simp only [DataDir.reconcile_append hmerged hsources] at hfiles ⊢
        cases hinit : DataDir.reconcile marker (dir.compactSources.find? marker.mergedId) init with
        | error e =>
            rw [hinit] at hfiles
            cases hfiles
        | ok below =>
            rw [hinit] at hfiles
            cases hfiles
            exact ⟨below, rfl, rfl⟩
  refine ⟨init, a, g act, below ++ [(a, g act)], hmodify, hmarker, hlisting, ?_⟩
  subst hbelow
  simp only [copies_append, copies_cons, copies_nil, hg act] at hcopies ⊢
  omega

/-- The layout of a directory with at least one sealed segment. -/
theorem exists_layout {source : Nat × Segment} {others : List (Nat × Segment)}
    (hentries : dir.segments.entries = source :: others ++ [(a, act)]) :
    ∃ l : Layout, l.Start dir ∧ l.sources = source :: others ∧ l.mergedId = source.1 := by
  have hsorted := dir.segments.sorted
  rw [hentries, List.pairwise_append, List.pairwise_cons] at hsorted
  obtain ⟨⟨hfirst, -⟩, -, hlast⟩ := hsorted
  exact ⟨⟨source.1, source.2, others, a, act, hfirst,
    fun e he => hlast e (List.mem_cons_of_mem _ he) (a, act) List.mem_cons_self,
    hlast source List.mem_cons_self (a, act) List.mem_cons_self⟩, hentries, rfl, rfl⟩

theorem ListsCopies.compact {minSegments : Nat} {stop : Interruption} (h : ListsCopies x n dir)
    (hsafe : SafeStep rt dir (.compact minSegments strategy stop))
    (hretained : RetainedStep x dir (.compact minSegments strategy stop)) :
    ListsCopies x n (compactDir rt headerBytes minSegments strategy stop dir) := by
  obtain ⟨init, a, act, files, hentries, hmarker, hfiles, hcopies⟩ := h
  have hsealed := sealedSegments_eq hentries
  have hbefore : ListsCopies x n dir :=
    ⟨init, a, act, files, hentries, hmarker, hfiles, hcopies⟩
  unfold compactDir
  rw [hsealed]
  cases init with
  | nil => exact hbefore
  | cons source others =>
      simp only
      split
      · exact hbefore
      · rename_i henough
        have hcompacts : dir.compacts minSegments = true := by
          simp only [DataDir.compacts, hsealed, List.isEmpty_cons, Bool.not_false, Bool.true_and,
            decide_eq_true_eq]
          omega
        obtain ⟨hplain, hstop⟩ := hsafe hcompacts
        have hkept := hretained hcompacts
        rw [hsealed] at hstop hkept
        obtain ⟨l, hstart, hsources, hmerged⟩ := exists_layout hentries
        have hcount : l.listedCopies x = n := by
          have hlisted := segmentPaths_of_plain hplain
          rw [hfiles] at hlisted
          cases hlisted
          rw [hstart] at hcopies
          rw [← hcopies, copies_append, Layout.listedCopies]
        rw [← hsources] at hstop hkept ⊢
        rw [← hmerged]
        rw [← hcount] at hbefore ⊢
        exact Layout.compactOps_listsCopies rt headerBytes hstart hbefore hkept hstop

end Steps

/-- The directory after a first open. -/
def DataDir.fresh (headerBytes : Nat) : DataDir :=
  DataDir.empty.spawnSegment headerBytes

theorem fresh_listsCopies (headerBytes : Nat) (x : Frame) :
    ListsCopies x 0 (DataDir.fresh headerBytes) := by
  refine ⟨[], 1, .create 1 headerBytes, [(1, .create 1 headerBytes)], rfl, ?_, rfl, ?_⟩
  · intro marker hm
    cases hm
  · simp [Segment.create]

theorem dirStep_listsCopies {headerBytes n : Nat} {x : Frame} {dir : DataDir} {step : DirStep}
    (h : ListsCopies x n dir) (hsafe : SafeStep rt dir step) (hretained : RetainedStep x dir step) :
    ListsCopies x (n + step.writes x) (dirStep rt headerBytes dir step) := by
  cases step with
  | openStore => exact h.spawnSegment
  | write chunk =>
      apply ListsCopies.updateActive _ h
      intro seg
      rw [Segment.appendChunk, eventFrames_append, List.countP_append]
      rfl
  | rotate footer =>
      apply ListsCopies.spawnSegment
      exact ListsCopies.updateActive (fun seg => rfl) h
  | compact minSegments strategy stop => exact h.compact hsafe hretained

/-! ### Every run -/

theorem run_listsCopies {headerBytes n : Nat} {x : Frame} {dir : DataDir} {steps : List DirStep}
    (h : ListsCopies x n dir) (hsafe : Guarded (dirStep rt headerBytes) (SafeStep rt) dir steps)
    (hretained : Guarded (dirStep rt headerBytes) (RetainedStep x) dir steps) :
    ListsCopies x (n + timesWritten x steps) (run (dirStep rt headerBytes) dir steps) := by
  induction steps generalizing dir n with
  | nil => exact h
  | cons step steps ih =>
      have hstep : ListsCopies x (n + step.writes x) (dirStep rt headerBytes dir step) :=
        dirStep_listsCopies h hsafe.1 hretained.1
      have hrest := ih hstep hsafe.2 hretained.2
      rwa [Nat.add_assoc] at hrest

/-- However often a directory is opened, written to and compacted, and wherever the
compactions stopped: when every compaction started from a plain directory and stopped
harmlessly, the listing of the next open is defined and holds an event that all strategies
retained exactly as often as it was written. -/
theorem compaction_keeps_one_copy (rt : Runtime) (headerBytes : Nat) (steps : List DirStep)
    (x : Frame)
    (hsafe : Guarded (dirStep rt headerBytes) (SafeStep rt) (.fresh headerBytes) steps)
    (hretained : Guarded (dirStep rt headerBytes) (RetainedStep x) (.fresh headerBytes) steps) :
    ∃ files, (run (dirStep rt headerBytes) (.fresh headerBytes) steps).segmentPaths = .ok files ∧
      copies x files = timesWritten x steps := by
  have h := run_listsCopies (fresh_listsCopies headerBytes x) hsafe hretained
  obtain ⟨-, -, -, files, -, -, hfiles, hcopies⟩ := h
  rw [Nat.zero_add] at hcopies
  exact ⟨files, hfiles, hcopies⟩

instance (rt : Runtime) (dir : DataDir) : (step : DirStep) → Decidable (SafeStep rt dir step)
  | .openStore | .write _ | .rotate _ => inferInstanceAs (Decidable True)
  | .compact minSegments _ _ => inferInstanceAs (Decidable (dir.compacts minSegments = true → _))

instance (x : Frame) (dir : DataDir) : (step : DirStep) → Decidable (RetainedStep x dir step)
  | .openStore | .write _ | .rotate _ => inferInstanceAs (Decidable True)
  | .compact minSegments strategy _ =>
      inferInstanceAs (Decidable (dir.compacts minSegments = true →
        ∀ f ∈ listedEvents dir.sealedSegments, x.sameEvent f = true → strategy.retains f = true))

/-- A bare event frame. -/
def Frame.plain (eventId : Nat) : Frame where
  eventId := eventId
  correlationId := eventId
  causationId := none
  timestampUs := 0
  wallMs := 0
  clock := 0
  dagLane := 0
  dagDepth := 0
  payloadSize := 0
  kind := .data
  flags := 0
  payloadVersion := 0
  payload := []
  hashChain := ⟨0, 0⟩
  coord := ⟨"a", "b"⟩
  receiptExtensions := []
  provenance := none

/-- Two sealed segments with one event each, then a merge that stops as given. -/
def twoSealedThenMerge (stop : Interruption) : List DirStep :=
  [.write (.frame (.plain 1) 160), .rotate none, .write (.frame (.plain 2) 160), .rotate none,
    .compact 2 .merge stop]

/-- A merge of two sealed segments that stops right after writing its marker: the first
source passes for the merged file, and the event of the second one is gone from the
listing although merging retains every event. -/
theorem marker_hides_unmerged_source :
    ¬∀ (rt : Runtime) (headerBytes : Nat) (steps : List DirStep) (x : Frame),
      Guarded (dirStep rt headerBytes) (RetainedStep x) (.fresh headerBytes) steps →
      ∃ files, (run (dirStep rt headerBytes) (.fresh headerBytes) steps).segmentPaths = .ok files ∧
        copies x files = timesWritten x steps := by
  intro h
  obtain ⟨files, hfiles, hcopies⟩ := h .unsigned 32 (twoSealedThenMerge ⟨none, some 1⟩) (.plain 2)
    (by decide +kernel)
  have hlost : (run (dirStep .unsigned 32) (.fresh 32)
      (twoSealedThenMerge ⟨none, some 1⟩)).segmentPaths.toOption.map (copies (.plain 2)) =
      some 0 := by
    decide +kernel
  rw [hfiles] at hlost
  have hzero : copies (.plain 2) files = 0 := Option.some.inj hlost
  have hwritten : timesWritten (.plain 2) (twoSealedThenMerge ⟨none, some 1⟩) = 1 := by
    decide +kernel
  omega

/-- The same merge stopped after the first source was moved, then a crash, an open and
another append. -/
theorem one_copy_after_relocation :
    ∃ files, (run (dirStep .unsigned 32) (.fresh 32) (twoSealedThenMerge ⟨none, some 3⟩ ++
        [.openStore, .write (.frame (.plain 3) 160)])).segmentPaths = .ok files ∧
      copies (.plain 2) files = timesWritten (.plain 2) (twoSealedThenMerge ⟨none, some 3⟩ ++
        [.openStore, .write (.frame (.plain 3) 160)]) :=
  compaction_keeps_one_copy .unsigned 32 _ (.plain 2) (by decide +kernel) (by decide +kernel)

end Batpak.Store
