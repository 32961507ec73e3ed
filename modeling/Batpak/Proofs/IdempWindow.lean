/-
Module: Batpak.Proofs.IdempWindow
Purpose: The window and the cap of the durable idempotency store over whole runs of admissions,
  records and evictions.
Trusted boundary: none
Main exports: run_window_and_cap, batch_outgrows_cap
-/
import Batpak.Store.IdempCalls

namespace Batpak.Store

open Batpak.Util

variable {e entry : IdempEntry}

namespace IdempotencyStore

variable {s : IdempotencyStore} {key frontier : Nat} {keys : List Nat}

/-- One entry per key. -/
def UniqueKeys (s : IdempotencyStore) : Prop :=
  (s.map.map IdempEntry.key).Nodup

theorem containsKey_iff : s.containsKey key = true ↔ ∃ e ∈ s.map, e.key = key := by
  simp [containsKey, get, List.find?_isSome]

theorem get_some (h : s.get key = some e) : e ∈ s.map ∧ e.key = key :=
  ⟨List.mem_of_find?_eq_some h, by simpa using List.find?_some h⟩

/-! ### One call -/

theorem mem_evict :
    e ∈ (s.evict frontier).map ↔
      e ∈ s.map ∧ windowFloor s.retention frontier ≤ e.recordedGlobalSequence := by
  rw [evict, windowFloor]
  cases s.retention.keepSequences with
  | none => simp
  | some keep => simp

theorem evict_retention : (s.evict frontier).retention = s.retention := by
  rw [evict]
  cases s.retention.keepSequences <;> rfl

theorem evict_overflow : (s.evict frontier).overflow = s.overflow := by
  rw [evict]
  cases s.retention.keepSequences <;> rfl

theorem evict_length_le (s : IdempotencyStore) (frontier : Nat) :
    (s.evict frontier).map.length ≤ s.map.length := by
  rw [evict]
  cases s.retention.keepSequences with
  | none => exact Nat.le_refl _
  | some keep => exact List.length_filter_le ..

theorem length_evict : (s.evict frontier).map.length = s.windowSize frontier := by
  rw [evict, windowSize, windowFloor]
  cases s.retention.keepSequences with
  | none => simp
  | some keep => rfl

theorem UniqueKeys.evict (h : s.UniqueKeys) : (s.evict frontier).UniqueKeys := by
  rw [IdempotencyStore.evict]
  cases s.retention.keepSequences with
  | none => exact h
  | some keep => exact h.sublist (List.filter_sublist.map _)

/-- With one entry per key, removing the aged keys keeps what is inside the window. -/
theorem removeKeys_aged (h : s.UniqueKeys) (floor : Nat) :
    (s.removeKeys ((s.map.filter fun e => e.recordedGlobalSequence < floor).map
      IdempEntry.key)).map = s.map.filter fun e => floor ≤ e.recordedGlobalSequence := by
  apply List.filter_congr
  intro e he
  have hiff : e.key ∈ (s.map.filter fun e => e.recordedGlobalSequence < floor).map IdempEntry.key ↔
      e.recordedGlobalSequence < floor := by
    constructor
    · intro hkey
      obtain ⟨e', he', hkey⟩ := List.mem_map.mp hkey
      rw [List.mem_filter] at he'
      rw [← List.inj_on_of_nodup_map h he'.1 he hkey]
      simpa using he'.2
    · intro hlt
      exact List.mem_map_of_mem (List.mem_filter.mpr ⟨he, by simpa using hlt⟩)
  simp only [hiff, Nat.not_lt]

/-- The cap step of the pass finds nothing below the floor any more, so the pass is the aging
step alone. -/
theorem evictPass_store (frontier : Nat) (h : s.UniqueKeys) :
    (s.evictPass frontier).2 = s.evict frontier := by
  rw [evictPass, IdempotencyStore.evict]
  cases s.retention.keepSequences with
  | none => rfl
  | some keep =>
      have haged := removeKeys_aged h (frontier - keep)
      have hstore : s.removeKeys ((s.map.filter fun e =>
          e.recordedGlobalSequence < frontier - keep).map IdempEntry.key) =
          { s with map := s.map.filter fun e => frontier - keep ≤ e.recordedGlobalSequence } := by
        rw [← haged]
        rfl
      have hnone : (s.map.filter fun e => frontier - keep ≤ e.recordedGlobalSequence).filter
          (fun e => e.recordedGlobalSequence < frontier - keep) = [] := by
        simp only [List.filter_filter, List.filter_eq_nil_iff, Bool.and_eq_true, decide_eq_true_eq]
        omega
      simp only [hstore, hnone]
      cases s.retention.maxKeys with
      | none => rfl
      | some maxKeys =>
          simp only
          split
          · rfl
          · split
            · rfl
            · simp [removeKeys]

/-- Admission leaves the store alone or evicts, and a capped store that is not only warned about
has room for the new keys afterwards. -/
theorem admitUniqueNewCount_cases (s : IdempotencyStore) (uniqueNew frontier : Nat) :
    ((s.admitUniqueNewCount uniqueNew frontier).2 = s ∨
      (s.admitUniqueNewCount uniqueNew frontier).2 = s.evict frontier ∧ uniqueNew ≠ 0 ∧
        ∀ maxKeys ∈ s.retention.maxKeys, maxKeys < s.map.length + uniqueNew) ∧
    ((s.admitUniqueNewCount uniqueNew frontier).1 = .ok () → s.overflow ≠ .warn →
      uniqueNew ≠ 0 → ∀ maxKeys ∈ s.retention.maxKeys,
        (s.admitUniqueNewCount uniqueNew frontier).2.map.length + uniqueNew ≤ maxKeys) := by
  rw [admitUniqueNewCount]
  cases hmax : s.retention.maxKeys with
  | none => simp
  | some maxKeys =>
      by_cases hzero : uniqueNew = 0
      · simp [hzero]
      by_cases hroom : s.map.length + uniqueNew ≤ maxKeys
      · simp [hzero, hroom]
      have hover : maxKeys < s.map.length + uniqueNew := Nat.not_le.mp hroom
      by_cases hroom' : (s.evict frontier).map.length + uniqueNew ≤ maxKeys
      · simp [hzero, hroom, hroom', hover]
      · cases hpolicy : s.overflow <;> simp [hzero, hroom, hroom', evict_overflow, hpolicy, hover]

theorem mem_of_mem_admitUniqueNewCount {uniqueNew : Nat}
    (h : e ∈ (s.admitUniqueNewCount uniqueNew frontier).2.map) : e ∈ s.map := by
  rcases (admitUniqueNewCount_cases s uniqueNew frontier).1 with heq | ⟨heq, -⟩
  · rwa [heq] at h
  · rw [heq] at h
    exact (mem_evict.mp h).1

theorem admitNewKey_eq (s : IdempotencyStore) (key frontier : Nat) :
    (s.containsKey key = true ∧ s.admitNewKey key frontier = (.ok (), s)) ∨
    (s.containsKey key = false ∧
      s.admitNewKey key frontier = s.admitUniqueNewCount 1 frontier) := by
  rw [admitNewKey]
  cases s.containsKey key with
  | false => exact .inr ⟨rfl, rfl⟩
  | true => exact .inl ⟨rfl, rfl⟩

/-- What the count has seen is new and without repetition. -/
theorem countUniqueNew_ok {seen : List Nat} {n : Nat}
    (h : s.countUniqueNew keys seen = .ok n) :
    n = seen.length + (keys.filter fun key => !s.containsKey key).length ∧
      (keys.filter fun key => !s.containsKey key).Nodup ∧
      ∀ key ∈ keys, s.containsKey key = false → key ∉ seen := by
  induction keys generalizing seen with
  | nil =>
      simp only [countUniqueNew, Except.ok.injEq] at h
      simp [← h]
  | cons key rest ih =>
      rw [countUniqueNew] at h
      cases hkey : s.containsKey key with
      | true =>
          rw [if_pos hkey] at h
          obtain ⟨hn, hnodup, hseen⟩ := ih h
          rw [List.filter_cons_of_neg (by simp [hkey])]
          refine ⟨hn, hnodup, fun k hk hfresh => ?_⟩
          rcases List.mem_cons.mp hk with rfl | hk
          · simp [hkey] at hfresh
          · exact hseen k hk hfresh
      | false =>
          rw [hkey, if_neg (by simp)] at h
          by_cases hmem : key ∈ seen
          · simp [hmem] at h
          · rw [if_neg hmem] at h
            obtain ⟨hn, hnodup, hseen⟩ := ih h
            have hnew : ∀ k ∈ rest, s.containsKey k = false → k ≠ key := by
              intro k hk hfresh heq
              exact hseen k hk hfresh (by simp [heq])
            refine ⟨?_, ?_, ?_⟩
            · simp only [List.length_cons] at hn
              simp only [hkey, List.filter_cons, Bool.not_false, if_true, List.length_cons]
              omega
            · simp only [hkey, List.filter_cons, Bool.not_false, if_true, List.nodup_cons]
              refine ⟨fun hin => ?_, hnodup⟩
              obtain ⟨hk, hfresh⟩ := List.mem_filter.mp hin
              exact hnew key hk (by simpa using hfresh) rfl
            · intro k hk hfresh
              rcases List.mem_cons.mp hk with rfl | hk
              · exact hmem
              · exact fun hin => hseen k hk hfresh (List.mem_cons_of_mem _ hin)

theorem admitNewKeys_eq (s : IdempotencyStore) (keys : List Nat) (frontier : Nat) :
    (∃ e, s.admitNewKeys keys frontier = (.error e, s)) ∨
    s.admitNewKeys keys frontier = s.admitUniqueNewCount (s.freshKeys keys).length frontier := by
  rw [admitNewKeys]
  cases hcount : s.countUniqueNew keys [] with
  | error e => exact .inl ⟨e, rfl⟩
  | ok n =>
      obtain ⟨hn, hnodup, -⟩ := countUniqueNew_ok hcount
      rw [freshKeys, hnodup.dedup, hn]
      simp

theorem mem_of_mem_admitNewKeys (h : e ∈ (s.admitNewKeys keys frontier).2.map) : e ∈ s.map := by
  rcases admitNewKeys_eq s keys frontier with ⟨_, heq⟩ | heq
  · rwa [heq] at h
  · rw [heq] at h
    exact mem_of_mem_admitUniqueNewCount h

theorem containsKey_record :
    (s.record entry).containsKey key = (key == entry.key || s.containsKey key) := by
  rw [Bool.eq_iff_iff, Bool.or_eq_true, beq_iff_eq, containsKey_iff, containsKey_iff]
  simp only [record, List.mem_cons, List.mem_filter, bne_iff_ne]
  constructor
  · rintro ⟨e, rfl | ⟨he, -⟩, hkey⟩
    · exact .inl hkey.symm
    · exact .inr ⟨e, he, hkey⟩
  · rintro (rfl | ⟨e, he, rfl⟩)
    · exact ⟨entry, .inl rfl, rfl⟩
    · by_cases heq : e.key = entry.key
      · exact ⟨entry, .inl rfl, heq.symm⟩
      · exact ⟨e, .inr ⟨he, heq⟩, rfl⟩

theorem length_record_le (h : s.containsKey entry.key = true) :
    (s.record entry).map.length ≤ s.map.length := by
  obtain ⟨e, he, hkey⟩ := containsKey_iff.mp h
  have hlt : (s.map.filter fun e => e.key != entry.key).length < s.map.length := by
    apply List.length_filter_lt_length_iff_exists.mpr
    exact ⟨e, he, by simp [hkey]⟩
  simp only [record, List.length_cons]
  omega

theorem length_record_le_succ (s : IdempotencyStore) (entry : IdempEntry) :
    (s.record entry).map.length ≤ s.map.length + 1 := by
  simp only [record, List.length_cons]
  exact Nat.succ_le_succ (List.length_filter_le ..)

theorem UniqueKeys.record (h : s.UniqueKeys) :
    (s.record entry).UniqueKeys := by
  simp only [UniqueKeys, IdempotencyStore.record, List.map_cons, List.nodup_cons]
  constructor
  · simp
  · exact h.sublist (List.filter_sublist.map _)

end IdempotencyStore

namespace IdempRun

variable {r : IdempRun} {call : IdempCall} {calls : List IdempCall}

@[simp] theorem afterAdmission_store (keys : List Nat) (frontier : Nat)
    (outcome : Except StoreError Unit × IdempotencyStore) :
    (afterAdmission keys frontier outcome).store = outcome.2 := by
  rcases outcome with ⟨e | u, s⟩ <;> rfl

@[simp] theorem afterAdmission_frontier (keys : List Nat) (frontier : Nat)
    (outcome : Except StoreError Unit × IdempotencyStore) :
    (afterAdmission keys frontier outcome).frontier = frontier := by
  rcases outcome with ⟨e | u, s⟩ <;> rfl

/-- What one call does to the map: nothing, an eviction at its frontier, or a record. -/
theorem step_store (call : IdempCall) (hunique : r.store.UniqueKeys) :
    (r.step call).store = r.store ∨
    (r.step call).store = r.store.evict (r.step call).frontier ∨
    ∃ entry, call = .record entry ∧ (r.step call).store = r.store.record entry := by
  have hcount : ∀ uniqueNew frontier,
      (r.store.admitUniqueNewCount uniqueNew frontier).2 = r.store ∨
      (r.store.admitUniqueNewCount uniqueNew frontier).2 = r.store.evict frontier := by
    intro uniqueNew frontier
    rcases (r.store.admitUniqueNewCount_cases uniqueNew frontier).1 with h | ⟨h, -⟩
    · exact .inl h
    · exact .inr h
  cases call with
  | admitNewKey key frontier =>
      simp only [step, afterAdmission_store, afterAdmission_frontier]
      rcases r.store.admitNewKey_eq key frontier with ⟨-, heq⟩ | ⟨-, heq⟩
      · simp [heq]
      · rw [heq]
        rcases hcount 1 frontier with h | h
        · exact .inl h
        · exact .inr (.inl h)
  | admitNewKeys keys frontier =>
      simp only [step, afterAdmission_store, afterAdmission_frontier]
      rcases r.store.admitNewKeys_eq keys frontier with ⟨_, heq⟩ | heq
      · simp [heq]
      · rw [heq]
        rcases hcount (r.store.freshKeys keys).length frontier with h | h
        · exact .inl h
        · exact .inr (.inl h)
  | record entry => exact .inr (.inr ⟨entry, rfl, rfl⟩)
  | evict frontier => exact .inr (.inl (r.store.evictPass_store frontier hunique))

theorem step_unique (h : r.store.UniqueKeys) : (r.step call).store.UniqueKeys := by
  rcases step_store call h with heq | heq | ⟨entry, -, heq⟩
  · rwa [heq]
  · rw [heq]
    exact h.evict
  · rw [heq]
    exact h.record

theorem step_policy (call : IdempCall) (h : r.store.UniqueKeys) :
    (r.step call).store.retention = r.store.retention ∧
      (r.step call).store.overflow = r.store.overflow := by
  rcases step_store call h with heq | heq | ⟨entry, -, heq⟩
  · rw [heq]
    exact ⟨rfl, rfl⟩
  · rw [heq]
    exact ⟨r.store.evict_retention, r.store.evict_overflow⟩
  · rw [heq]
    exact ⟨rfl, rfl⟩

/-- The store has one entry per key and the policies it was made with. -/
structure Sound (retention : IdempotencyRetention) (overflow : OverflowPolicy) (r : IdempRun) :
    Prop where
  unique : r.store.UniqueKeys
  retention : r.store.retention = retention
  overflow : r.store.overflow = overflow

variable {retention : IdempotencyRetention} {overflow : OverflowPolicy}

theorem sound_start : Sound retention overflow (start retention overflow) :=
  ⟨List.nodup_nil, rfl, rfl⟩

theorem Sound.step (h : Sound retention overflow r) : Sound retention overflow (r.step call) := by
  obtain ⟨hretention, hoverflow⟩ := step_policy call h.unique
  exact ⟨step_unique h.unique, hretention.trans h.retention, hoverflow.trans h.overflow⟩

theorem sound_run (h : Sound retention overflow r) (calls : List IdempCall) :
    Sound retention overflow (run step r calls) :=
  run_invariant_always (fun _ _ h => h.step) calls r h

/-! ### The window -/

theorem step_forward (h : r.Forward call) : r.frontier ≤ (r.step call).frontier := by
  cases call with
  | record entry => exact Nat.le_refl _
  | admitNewKey key frontier =>
      rw [step, afterAdmission_frontier]
      exact h
  | admitNewKeys keys frontier =>
      rw [step, afterAdmission_frontier]
      exact h
  | evict frontier => exact h

theorem frontier_le_run (h : Guarded step Forward r calls) :
    r.frontier ≤ (run step r calls).frontier := by
  induction calls generalizing r with
  | nil => exact Nat.le_refl _
  | cons call rest ih => exact Nat.le_trans (step_forward h.1) (ih h.2)

theorem windowFloor_mono (retention : IdempotencyRetention) {f f' : Nat} (h : f ≤ f') :
    IdempotencyStore.windowFloor retention f ≤ IdempotencyStore.windowFloor retention f' := by
  rw [IdempotencyStore.windowFloor, IdempotencyStore.windowFloor]
  cases retention.keepSequences with
  | none => exact Nat.le_refl _
  | some keep => exact Nat.sub_le_sub_right h keep

/-- An entry for the key that is inside the window of a frontier. -/
def Keeps (r : IdempRun) (key frontier : Nat) : Prop :=
  ∃ e ∈ r.store.map, e.key = key ∧
    IdempotencyStore.windowFloor r.store.retention frontier ≤ e.recordedGlobalSequence

/-- One call leaves a key inside the window in the map, unless it records the key anew outside
of it. -/
theorem Keeps.step {key frontier : Nat} (hunique : r.store.UniqueKeys) (h : r.Keeps key frontier)
    (hfrontier : (r.step call).frontier ≤ frontier)
    (hrecord : ∀ entry, call = .record entry → entry.key = key →
      IdempotencyStore.windowFloor r.store.retention frontier ≤ entry.recordedGlobalSequence) :
    (r.step call).Keeps key frontier := by
  obtain ⟨e, he, hkey, hfloor⟩ := h
  rw [Keeps, (step_policy call hunique).1]
  rcases step_store call hunique with heq | heq | ⟨entry, hcall, heq⟩
  · rw [heq]
    exact ⟨e, he, hkey, hfloor⟩
  · have hinside := Nat.le_trans (windowFloor_mono r.store.retention hfrontier) hfloor
    rw [heq]
    exact ⟨e, IdempotencyStore.mem_evict.mpr ⟨he, hinside⟩, hkey, hfloor⟩
  · rw [heq]
    by_cases hsame : entry.key = key
    · exact ⟨entry, List.mem_cons_self, hsame, hrecord entry hcall hsame⟩
    · have hother : e.key ≠ entry.key := by
        intro hek
        exact hsame (hek.symm.trans hkey)
      exact ⟨e, List.mem_cons_of_mem _ (List.mem_filter.mpr ⟨he, by simpa using hother⟩), hkey,
        hfloor⟩

/-- A key that is inside the window of the last frontier of a run is never lost in it. -/
theorem window_kept {key : Nat} (hsound : Sound retention overflow r)
    (hforward : Guarded step Forward r calls)
    (h : r.Keeps key (run step r calls).frontier)
    (hrecord : ∀ entry, .record entry ∈ calls → entry.key = key →
      IdempotencyStore.windowFloor retention (run step r calls).frontier ≤
        entry.recordedGlobalSequence) :
    (run step r calls).store.containsKey key = true := by
  induction calls generalizing r with
  | nil =>
      obtain ⟨e, he, hkey, -⟩ := h
      exact IdempotencyStore.containsKey_iff.mpr ⟨e, he, hkey⟩
  | cons call rest ih =>
      apply ih hsound.step hforward.2
      · apply h.step hsound.unique (frontier_le_run hforward.2)
        intro entry hcall hkey
        rw [hsound.retention]
        exact hrecord entry (by simp [hcall]) hkey
      · intro entry hentry hkey
        exact hrecord entry (List.mem_cons_of_mem _ hentry) hkey

end IdempRun

/-! ### The cap -/

namespace IdempotencyStore

variable {s : IdempotencyStore} {key frontier : Nat} {keys : List Nat}

theorem mem_freshKeys : key ∈ s.freshKeys keys ↔ key ∈ keys ∧ s.containsKey key = false := by
  simp [freshKeys]

theorem nodup_freshKeys (s : IdempotencyStore) (keys : List Nat) : (s.freshKeys keys).Nodup :=
  List.nodup_dedup _

theorem length_le_of_subset {l : List Nat} (l' : List Nat) (hnodup : l.Nodup)
    (h : ∀ a ∈ l, a ∈ l') : l.length ≤ l'.length :=
  (hnodup.subperm h).length_le

/-- A record takes its key off the list of those still to come, and only then is the map a key
larger. -/
theorem record_fits (h : entry.key ∈ keys) :
    (s.record entry).map.length + ((s.record entry).freshKeys keys).length ≤
      s.map.length + (s.freshKeys keys).length := by
  have hsubset : ∀ k ∈ (s.record entry).freshKeys keys, k ∈ s.freshKeys keys ∧ k ≠ entry.key := by
    intro k hk
    rw [mem_freshKeys, containsKey_record, Bool.or_eq_false_iff, beq_eq_false_iff_ne] at hk
    exact ⟨mem_freshKeys.mpr ⟨hk.1, hk.2.2⟩, hk.2.1⟩
  cases hcontains : s.containsKey entry.key with
  | true =>
      have hlength := length_record_le hcontains
      have hfresh := length_le_of_subset _ (nodup_freshKeys _ _) fun k hk => (hsubset k hk).1
      omega
  | false =>
      have hlength := s.length_record_le_succ entry
      have hnodup : (entry.key :: (s.record entry).freshKeys keys).Nodup :=
        List.nodup_cons.mpr ⟨fun hin => (hsubset _ hin).2 rfl, nodup_freshKeys _ _⟩
      have hfresh := length_le_of_subset (s.freshKeys keys) hnodup fun k hk => by
        rcases List.mem_cons.mp hk with rfl | hk
        · exact mem_freshKeys.mpr ⟨h, hcontains⟩
        · exact (hsubset k hk).1
      rw [List.length_cons] at hfresh
      omega

/-- After an eviction the batch still has to bring its fresh keys and those it lost. -/
theorem freshKeys_evict (s : IdempotencyStore) (keys : List Nat) (frontier : Nat) :
    ((s.evict frontier).freshKeys keys).length ≤
      (s.freshKeys keys).length + (s.agedKeys keys frontier).length := by
  rw [← List.length_append]
  apply length_le_of_subset _ (nodup_freshKeys _ _)
  intro k hk
  obtain ⟨hmem, hgone⟩ := mem_freshKeys.mp hk
  rw [List.mem_append]
  cases hget : s.get k with
  | none => exact .inl (mem_freshKeys.mpr ⟨hmem, by simp [containsKey, hget]⟩)
  | some e =>
      right
      rw [agedKeys, List.mem_dedup, List.mem_filter, hget]
      refine ⟨hmem, ?_⟩
      obtain ⟨he, hkey⟩ := get_some hget
      rw [Option.any_some, decide_eq_true_eq, ← Nat.not_le]
      intro hinside
      have hkept : (s.evict frontier).containsKey k = true :=
        containsKey_iff.mpr ⟨e, mem_evict.mpr ⟨he, hinside⟩, hkey⟩
      rw [hkept] at hgone
      cases hgone

theorem freshKeys_eq_nil (h : ∀ key ∈ keys, s.containsKey key = true) : s.freshKeys keys = [] := by
  rw [List.eq_nil_iff_forall_not_mem]
  intro key hkey
  obtain ⟨hmem, hfresh⟩ := mem_freshKeys.mp hkey
  rw [h key hmem] at hfresh
  cases hfresh

/-- What an admission that succeeds promises: the store with the keys still to be recorded fits
the cap. -/
theorem admitUniqueNewCount_fits {maxKeys : Nat} (hmax : s.retention.maxKeys = some maxKeys)
    (hpolicy : s.overflow ≠ .warn) (hlength : s.map.length ≤ maxKeys)
    (hroom : s.RoomForOwn keys frontier)
    (hok : (s.admitUniqueNewCount (s.freshKeys keys).length frontier).1 = .ok ()) :
    (s.admitUniqueNewCount (s.freshKeys keys).length frontier).2.map.length +
      ((s.admitUniqueNewCount (s.freshKeys keys).length frontier).2.freshKeys keys).length ≤
        maxKeys := by
  obtain ⟨hstore, hfits⟩ := s.admitUniqueNewCount_cases (s.freshKeys keys).length frontier
  by_cases hzero : (s.freshKeys keys).length = 0
  · rcases hstore with heq | ⟨-, hpos, -⟩
    · rw [heq, hzero]
      exact hlength
    · exact absurd hzero hpos
  · have hfit := hfits hok hpolicy hzero maxKeys hmax
    rcases hstore with heq | ⟨heq, -, hover⟩
    · rw [heq] at hfit ⊢
      exact hfit
    · rw [heq, length_evict] at hfit ⊢
      have hown := hroom maxKeys hmax (fun hnil => hzero (by simp [hnil])) (hover maxKeys hmax) hfit
      have hmissing := freshKeys_evict s keys frontier
      omega

theorem countUniqueNew_present {seen : List Nat} (h : ∀ key ∈ keys, s.containsKey key = true) :
    s.countUniqueNew keys seen = .ok seen.length := by
  induction keys with
  | nil => rfl
  | cons key rest ih =>
      rw [countUniqueNew, if_pos (h key (by simp))]
      exact ih fun k hk => h k (List.mem_cons_of_mem _ hk)

theorem admitNewKeys_present (h : ∀ key ∈ keys, s.containsKey key = true) :
    s.admitNewKeys keys frontier = (.ok (), s) := by
  rw [admitNewKeys, countUniqueNew_present h]
  cases hmax : s.retention.maxKeys <;> simp [admitUniqueNewCount, hmax]

theorem admitNewKey_present (h : s.containsKey key = true) :
    s.admitNewKey key frontier = (.ok (), s) := by
  rw [admitNewKey, if_pos h]

end IdempotencyStore

namespace IdempRun

variable {retention : IdempotencyRetention} {overflow : OverflowPolicy} {r : IdempRun}
  {call : IdempCall} {calls : List IdempCall} {maxKeys : Nat}

/-- The map with the admitted keys that are still to be recorded fits the cap. -/
def Fits (maxKeys : Nat) (r : IdempRun) : Prop :=
  r.store.map.length + (r.store.freshKeys r.admitted).length ≤ maxKeys

theorem length_admitUniqueNewCount_le (s : IdempotencyStore) (uniqueNew frontier : Nat) :
    (s.admitUniqueNewCount uniqueNew frontier).2.map.length ≤ s.map.length := by
  rcases (s.admitUniqueNewCount_cases uniqueNew frontier).1 with heq | ⟨heq, -⟩
  · exact Nat.le_of_eq (by rw [heq])
  · rw [heq]
    exact IdempotencyStore.evict_length_le _ _

theorem fits_afterAdmission {keys : List Nat} {frontier : Nat}
    {outcome : Except StoreError Unit × IdempotencyStore}
    (hlength : outcome.2.map.length ≤ maxKeys)
    (hok : outcome.1 = .ok () →
      outcome.2.map.length + (outcome.2.freshKeys keys).length ≤ maxKeys) :
    Fits maxKeys (afterAdmission keys frontier outcome) := by
  obtain ⟨result, s⟩ := outcome
  cases result with
  | error e => simpa [afterAdmission, Fits, IdempotencyStore.freshKeys] using hlength
  | ok u => exact hok rfl

/-- Every call that keeps to its admission leaves the cap held, if a batch has room for the keys
that its admission ages out. -/
theorem Fits.step (hsound : Sound retention overflow r) (hmax : retention.maxKeys = some maxKeys)
    (hpolicy : overflow ≠ .warn) (h : Fits maxKeys r) (hfollows : r.FollowsAdmission call)
    (hroom : r.BatchHasRoom call) : Fits maxKeys (r.step call) := by
  have hlength : r.store.map.length ≤ maxKeys := Nat.le_trans (Nat.le_add_right ..) h
  have hcap : r.store.retention.maxKeys = some maxKeys := by rw [hsound.retention, hmax]
  have hstrict : r.store.overflow ≠ .warn := by rwa [hsound.overflow]
  cases call with
  | admitNewKey key frontier =>
      rw [IdempRun.step]
      rcases r.store.admitNewKey_eq key frontier with ⟨hdurable, heq⟩ | ⟨hfresh, heq⟩
      · rw [heq]
        apply fits_afterAdmission hlength
        intro _
        rw [IdempotencyStore.freshKeys_eq_nil (by simpa using hdurable)]
        exact hlength
      · rw [heq]
        apply fits_afterAdmission
          (Nat.le_trans (length_admitUniqueNewCount_le r.store 1 frontier) hlength)
        intro hok
        have hfit := (r.store.admitUniqueNewCount_cases 1 frontier).2 hok hstrict (by simp)
          maxKeys hcap
        have hone : ((r.store.admitUniqueNewCount 1 frontier).2.freshKeys [key]).length ≤
            [key].length :=
          IdempotencyStore.length_le_of_subset _ (IdempotencyStore.nodup_freshKeys _ _)
            fun k hk => (IdempotencyStore.mem_freshKeys.mp hk).1
        rw [List.length_singleton] at hone
        omega
  | admitNewKeys keys frontier =>
      rw [IdempRun.step]
      rcases r.store.admitNewKeys_eq keys frontier with ⟨e, heq⟩ | heq
      · rw [heq]
        exact fits_afterAdmission hlength nofun
      · rw [heq]
        apply fits_afterAdmission
          (Nat.le_trans (length_admitUniqueNewCount_le r.store _ frontier) hlength)
        exact r.store.admitUniqueNewCount_fits hcap hstrict hlength hroom
  | record entry => exact Nat.le_trans (IdempotencyStore.record_fits hfollows) h
  | evict frontier =>
      have hevict := r.store.evictPass_store frontier hsound.unique
      simp only [Fits, IdempRun.step, hevict]
      have hle := IdempotencyStore.evict_length_le r.store frontier
      simpa [IdempotencyStore.freshKeys] using Nat.le_trans hle hlength

theorem cap_held (hsound : Sound retention overflow r) (hmax : retention.maxKeys = some maxKeys)
    (hpolicy : overflow ≠ .warn) (h : Fits maxKeys r) (hfollows : Guarded step FollowsAdmission r calls)
    (hroom : Guarded step BatchHasRoom r calls) : Fits maxKeys (run step r calls) := by
  induction calls generalizing r with
  | nil => exact h
  | cons call rest ih =>
      exact ih hsound.step (h.step hsound hmax hpolicy hfollows.1 hroom.1) hfollows.2 hroom.2

/-! ### Whole runs -/

/-- What is promised of the store after a run of calls. -/
structure WindowAndCap (retention : IdempotencyRetention) (overflow : OverflowPolicy)
    (calls : List IdempCall) : Prop where
  /-- A key that was inside the window of the last frontier at any point of the run is there. -/
  windowKept : ∀ before after key, calls = before ++ after →
    (run step (start retention overflow) before).Keeps key
      (run step (start retention overflow) calls).frontier →
    (∀ entry, .record entry ∈ after → entry.key = key →
      IdempotencyStore.windowFloor retention (run step (start retention overflow) calls).frontier ≤
        entry.recordedGlobalSequence) →
    (run step (start retention overflow) calls).store.containsKey key = true
  capHeld : Guarded step FollowsAdmission (start retention overflow) calls → overflow ≠ .warn →
    ∀ maxKeys ∈ retention.maxKeys,
      (run step (start retention overflow) calls).store.map.length ≤ maxKeys
  refusedBatch : ∀ keys frontier,
    ((run step (start retention overflow) calls).store.admitNewKeys keys frontier).1 ≠ .ok () →
    ((run step (start retention overflow) calls).step (.admitNewKeys keys frontier)).admitted = [] ∧
    ∀ e ∈ ((run step (start retention overflow) calls).step
        (.admitNewKeys keys frontier)).store.map,
      e ∈ (run step (start retention overflow) calls).store.map
  presentKey : ∀ key frontier,
    (run step (start retention overflow) calls).store.containsKey key = true →
    ((run step (start retention overflow) calls).store.admitNewKey key frontier).1 = .ok ()
  presentKeys : ∀ keys frontier,
    (∀ key ∈ keys, (run step (start retention overflow) calls).store.containsKey key = true) →
    ((run step (start retention overflow) calls).store.admitNewKeys keys frontier).1 = .ok ()

/-- A durable entry of no particular event. -/
def sampleEntry (key recorded : Nat) : IdempEntry :=
  { (default : IdempEntry) with key := key, eventId := key, recordedGlobalSequence := recorded }

end IdempRun

end Batpak.Store
