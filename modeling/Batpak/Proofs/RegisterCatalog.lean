/-
Module: Batpak.Proofs.RegisterCatalog
Purpose: The register catalog stays rebuildable exactly as long as every row is appended to
  entries that its call still fits.
Trusted boundary: none
Main exports: Tracked, catalog_rebuildable_iff
-/
import Batpak.Syncbat.RegisterStore
import Batpak.Util.Run
import Batpak.Util.Scan

namespace Batpak.Syncbat

open Batpak.Util

variable {name : String} {state : CatalogEntryState} {descriptors : List OperationDescriptor}
variable {d : OperationDescriptor}

/-! ### Calls on a catalog -/

/-- The names of a call are in a state that the call fits: a put finds nothing or itself, an
update an active operation, a delete an active operation or a deleted one, and a supersession
an active source with a free or equal replacement, or itself. -/
def StillFits (entries : CatalogEntries) : CatalogCall → Prop
  | .persist d => entries[d.name]? = none ∨ entries[d.name]? = some (.active d)
  | .update d => ∃ existing, entries[d.name]? = some (.active existing)
  | .delete name =>
      (∃ existing, entries[name]? = some (.active existing)) ∨
        entries[name]? = some (.tombstoned .deleted)
  | .supersede supersededName d =>
      ((∃ existing, entries[supersededName]? = some (.active existing)) ∧
        (entries[d.name]? = none ∨ entries[d.name]? = some (.active d))) ∨
      (entries[supersededName]? = some (.tombstoned (.superseded d)) ∧
        entries[d.name]? = some (.active d))

/-- The entries behind the row of a call. -/
def foldedCall (entries : CatalogEntries) : CatalogCall → CatalogEntries
  | .persist d => entries.insert d.name (.active d)
  | .update d => entries.insert d.name (.active d)
  | .delete name => entries.insert name (.tombstoned .deleted)
  | .supersede supersededName d =>
      (entries.insert supersededName (.tombstoned (.superseded d))).insert d.name (.active d)

/-- What a call does to the active operations. -/
def applyCall (operations : OperationMap) : CatalogCall → OperationMap
  | .persist d => operations.insert d.name d
  | .update d => operations.insert d.name d
  | .delete name => operations.erase name
  | .supersede supersededName d => (operations.erase supersededName).insert d.name d

/-- The register of the calls, applied in order. -/
def appliedCalls (calls : List CatalogCall) : OperationMap :=
  calls.foldl applyCall ∅

section Rows

variable {entries entries' : CatalogEntries}

theorem getElem?_insert_entry {V : Type} (entries : Std.ExtTreeMap String V compare)
    (name other : String) (state : V) :
    (entries.insert name state)[other]? =
      if name = other then some state else entries[other]? := by
  rw [Std.ExtTreeMap.getElem?_insert]
  simp only [Std.LawfulEqCmp.compare_eq_iff_eq]

theorem getElem?_erase_entry {V : Type} (entries : Std.ExtTreeMap String V compare)
    (name other : String) :
    (entries.erase name)[other]? = if name = other then none else entries[other]? := by
  rw [Std.ExtTreeMap.getElem?_erase]
  simp only [Std.LawfulEqCmp.compare_eq_iff_eq]

/-- What is there already is put there in vain. -/
theorem insert_eq_self (h : entries[name]? = some state) : entries.insert name state = entries := by
  apply Std.ExtTreeMap.ext_getElem?
  intro other
  rw [getElem?_insert_entry]
  split_ifs with heq
  · rw [← heq, h]
  · rfl

theorem descriptor_of_validate {row : RegisterOperationRowV1}
    (hrow : row = { RegisterOperationRowV1.fromDescriptor d with
      action := row.action, supersedes := row.supersedes })
    (h : d.validate = .ok ()) : row.descriptor = .ok d := by
  rw [hrow]
  unfold RegisterOperationRowV1.descriptor RegisterOperationRowV1.fromDescriptor
  rw [EffectClass.fromCatalogStr_asStr]
  change (d.validate.mapError StoreRegisterCatalogError.invalidDescriptor >>= fun _ => pure d) = _
  rw [h]
  rfl

theorem validate_of_mapError
    (h : d.validate.mapError StoreRegisterCatalogError.invalidDescriptor = .ok ()) :
    d.validate = .ok () := by
  cases hd : d.validate with
  | ok => rfl
  | error error =>
      rw [hd] at h
      cases h

theorem foldPut_iff (h : d.validate = .ok ()) :
    foldPut entries (.fromDescriptor d) = .ok entries' ↔
      StillFits entries (.persist d) ∧ foldedCall entries (.persist d) = entries' := by
  unfold foldPut StillFits foldedCall
  rw [if_neg (by simp [RegisterOperationRowV1.fromDescriptor]), descriptor_of_validate rfl h]
  dsimp only [bind, Except.bind]
  cases hentry : entries[d.name]? with
  | none => simp [pure, Except.pure]
  | some state =>
      cases state with
      | tombstoned tombstone => simp [conflict]
      | active existing =>
          dsimp only
          split_ifs with heq
          · subst heq
            simp [pure, Except.pure, insert_eq_self hentry]
          · simp [conflict, heq]

theorem foldUpdate_iff (h : d.validate = .ok ()) :
    foldUpdate entries (.update d) = .ok entries' ↔
      StillFits entries (.update d) ∧ foldedCall entries (.update d) = entries' := by
  unfold foldUpdate StillFits foldedCall
  rw [if_neg (by simp [RegisterOperationRowV1.update, RegisterOperationRowV1.fromDescriptor]),
    descriptor_of_validate rfl h]
  dsimp only [bind, Except.bind]
  cases hentry : entries[d.name]? with
  | none => simp [conflict]
  | some state =>
      cases state with
      | tombstoned tombstone => simp [conflict]
      | active existing => simp [pure, Except.pure]

theorem foldDelete_iff (h : validateCatalogName name = .ok ()) :
    foldDelete entries (.delete name) = .ok entries' ↔
      StillFits entries (.delete name) ∧ foldedCall entries (.delete name) = entries' := by
  unfold foldDelete StillFits foldedCall
  rw [if_neg (by simp [RegisterOperationRowV1.delete,
    RegisterOperationRowV1.descriptorPayloadIsEmpty, OperationEffectRow.isEmpty,
    OperationEffectRow.empty])]
  dsimp only [RegisterOperationRowV1.delete]
  rw [h]
  dsimp only [bind, Except.bind]
  cases hentry : entries[name]? with
  | none => simp [conflict]
  | some state =>
      cases state with
      | active existing => simp [pure, Except.pure]
      | tombstoned tombstone =>
          cases tombstone with
          | deleted => simp [pure, Except.pure, insert_eq_self hentry]
          | superseded replacement => simp [conflict]

theorem foldReplacement_iff {supersededName : String} :
    foldReplacement entries supersededName d = .ok entries' ↔
      (entries[d.name]? = none ∨ entries[d.name]? = some (.active d)) ∧
        foldedCall entries (.supersede supersededName d) = entries' := by
  unfold foldReplacement foldedCall
  cases hentry : entries[d.name]? with
  | none => simp
  | some state =>
      cases state with
      | tombstoned tombstone => simp [conflict]
      | active existing =>
          dsimp only
          split_ifs with heq
          · simp [conflict, heq]
          · simp [not_not.mp heq]

theorem foldSupersede_iff {supersededName : String}
    (hname : validateCatalogName supersededName = .ok ()) (h : d.validate = .ok ())
    (hne : supersededName ≠ d.name) :
    foldSupersede entries (.supersede supersededName d) = .ok entries' ↔
      StillFits entries (.supersede supersededName d) ∧
        foldedCall entries (.supersede supersededName d) = entries' := by
  unfold foldSupersede StillFits
  rw [descriptor_of_validate rfl h]
  dsimp only [RegisterOperationRowV1.supersede]
  rw [hname]
  dsimp only [bind, Except.bind]
  rw [if_neg hne]
  cases hsource : entries[supersededName]? with
  | none => simp [conflict]
  | some state =>
      cases state with
      | active existing =>
          dsimp only
          rw [foldReplacement_iff]
          simp
      | tombstoned tombstone =>
          cases tombstone with
          | deleted => simp [conflict]
          | superseded replacement =>
              dsimp only
              split_ifs with hrepeat
              · obtain ⟨hactive, rfl⟩ := hrepeat
                have hsame : foldedCall entries (.supersede supersededName replacement) =
                    entries := by
                  simp only [foldedCall]
                  rw [insert_eq_self hsource, insert_eq_self hactive]
                simp [pure, Except.pure, hactive, hsame]
              · have hother : ¬(replacement = d ∧ entries[d.name]? = some (.active d)) :=
                  fun ⟨heq, hactive⟩ => hrepeat ⟨hactive, heq⟩
                simpa [conflict] using fun heq hactive => absurd ⟨heq, hactive⟩ hother

/-- A row is folded in exactly when the call that appended it fits the entries. -/
theorem foldRow_iff {call : CatalogCall} (h : call.validate = .ok ()) :
    foldRow entries call.row = .ok entries' ↔
      StillFits entries call ∧ foldedCall entries call = entries' := by
  cases call with
  | persist d => exact foldPut_iff (validate_of_mapError h)
  | update d => exact foldUpdate_iff (validate_of_mapError h)
  | delete name => exact foldDelete_iff h
  | supersede supersededName d =>
      obtain ⟨⟨⟩, hname, hrest⟩ := bindOk_iff.mp h
      obtain ⟨⟨⟩, hvalid, hrest⟩ := bindOk_iff.mp hrest
      split at hrest
      next heq => cases hrest
      next hne => exact foldSupersede_iff hname (validate_of_mapError hvalid) hne

end Rows

/-! ### The register of the entries -/

/-- Every active operation is valid and stands under its name. -/
def EntriesSound (entries : CatalogEntries) : Prop :=
  ∀ (name : String) (d : OperationDescriptor), entries[name]? = some (.active d) →
    d.name = name ∧ d.validate = .ok ()

/-- The operations are the active entries. -/
def Tracks (entries : CatalogEntries) (operations : OperationMap) : Prop :=
  ∀ name : String, operations[name]? = entries[name]?.bind CatalogEntryState.active?

section Registers

variable {entries : CatalogEntries} {operations : OperationMap}

theorem entriesSound_insert (h : EntriesSound entries)
    (hstate : ∀ d, state = .active d → d.name = name ∧ d.validate = .ok ()) :
    EntriesSound (entries.insert name state) := by
  intro other d hd
  rw [getElem?_insert_entry] at hd
  split_ifs at hd with heq
  · cases hd
    exact heq ▸ hstate d rfl
  · exact h other d hd

theorem entriesSound_foldedCall {call : CatalogCall} (h : EntriesSound entries)
    (hcall : call.validate = .ok ()) : EntriesSound (foldedCall entries call) := by
  have hactive (d x : OperationDescriptor) (hd : d.validate = .ok ())
      (hx : CatalogEntryState.active d = .active x) : x.name = d.name ∧ x.validate = .ok () := by
    cases hx
    exact ⟨rfl, hd⟩
  cases call with
  | persist d => exact entriesSound_insert h fun x => hactive d x (validate_of_mapError hcall)
  | update d => exact entriesSound_insert h fun x => hactive d x (validate_of_mapError hcall)
  | delete name =>
      apply entriesSound_insert h
      intro x hx
      cases hx
  | supersede supersededName d =>
      obtain ⟨⟨⟩, -, hrest⟩ := bindOk_iff.mp hcall
      obtain ⟨⟨⟩, hvalid, -⟩ := bindOk_iff.mp hrest
      apply entriesSound_insert _ fun x => hactive d x (validate_of_mapError hvalid)
      apply entriesSound_insert h
      intro x hx
      cases hx

theorem tracks_foldedCall (call : CatalogCall) (h : Tracks entries operations) :
    Tracks (foldedCall entries call) (applyCall operations call) := by
  intro name
  have hname := h name
  cases call with
  | persist d =>
      simp only [foldedCall, applyCall, getElem?_insert_entry]
      split_ifs
      · rfl
      · exact hname
  | update d =>
      simp only [foldedCall, applyCall, getElem?_insert_entry]
      split_ifs
      · rfl
      · exact hname
  | delete deleted =>
      simp only [foldedCall, applyCall, getElem?_insert_entry, getElem?_erase_entry]
      split_ifs
      · rfl
      · exact hname
  | supersede supersededName d =>
      simp only [foldedCall, applyCall, getElem?_insert_entry, getElem?_erase_entry]
      split_ifs
      · rfl
      · rfl
      · exact hname

/-- Descriptors under their names, the later ones over the earlier. -/
def insertAll (operations : OperationMap) (descriptors : List OperationDescriptor) :
    OperationMap :=
  descriptors.foldl (fun operations d => operations.insert d.name d) operations

/-- Descriptors with names of their own are all there. -/
theorem getElem?_insertAll (hdistinct : descriptors.Pairwise fun a b => a.name ≠ b.name)
    (hnew : ∀ d ∈ descriptors, operations[d.name]? = none) :
    (insertAll operations descriptors)[name]? = some d ↔
      operations[name]? = some d ∨ (d ∈ descriptors ∧ d.name = name) := by
  induction descriptors generalizing operations with
  | nil => simp [insertAll]
  | cons first rest ih =>
      obtain ⟨hfirst, hrest⟩ := List.pairwise_cons.mp hdistinct
      have hfree := hnew first List.mem_cons_self
      have hnew' : ∀ x ∈ rest, (operations.insert first.name first)[x.name]? = none := by
        intro x hx
        rw [getElem?_insert_entry, if_neg (hfirst x hx)]
        exact hnew x (List.mem_cons_of_mem _ hx)
      change (insertAll (operations.insert first.name first) rest)[name]? = some d ↔ _
      rw [ih hrest hnew', getElem?_insert_entry, List.mem_cons]
      constructor
      · rintro (hd | ⟨hd, hname⟩)
        · split_ifs at hd with heq
          · cases hd
            exact .inr ⟨.inl rfl, heq⟩
          · exact .inl hd
        · exact .inr ⟨.inr hd, hname⟩
      · rintro (hd | ⟨rfl | hd, hname⟩)
        · left
          rw [if_neg]
          · exact hd
          · intro heq
            rw [heq, hd] at hfree
            cases hfree
        · left
          rw [if_pos hname]
        · exact .inr ⟨hd, hname⟩

/-- A register takes valid descriptors with names of their own. -/
theorem foldlM_insertOperation {register : Register}
    (hdistinct : descriptors.Pairwise fun a b => a.name ≠ b.name)
    (hvalid : ∀ d ∈ descriptors, d.validate = .ok ())
    (hnew : ∀ d ∈ descriptors, register.operations[d.name]? = none) :
    ∃ result, descriptors.foldlM Register.insertOperation register = .ok result ∧
      result.operations = insertAll register.operations descriptors := by
  induction descriptors generalizing register with
  | nil => exact ⟨register, rfl, rfl⟩
  | cons first rest ih =>
      obtain ⟨hfirst, hrest⟩ := List.pairwise_cons.mp hdistinct
      have hfree : first.name ∉ register.operations := by
        rw [Std.ExtTreeMap.mem_iff_isSome_getElem?, hnew first List.mem_cons_self]
        simp
      obtain ⟨next, hnext, hoperations⟩ : ∃ next,
          register.insertOperation first = .ok next ∧
            next.operations = register.operations.insert first.name first := by
        unfold Register.insertOperation
        split
        next source herror =>
          rw [hvalid first List.mem_cons_self] at herror
          cases herror
        next hok =>
          rw [if_neg hfree]
          exact ⟨_, rfl, rfl⟩
      have hnew' : ∀ x ∈ rest, next.operations[x.name]? = none := by
        intro x hx
        rw [hoperations, getElem?_insert_entry, if_neg (hfirst x hx)]
        exact hnew x (List.mem_cons_of_mem _ hx)
      obtain ⟨result, hresult, hall⟩ := ih hrest
        (fun x hx => hvalid x (List.mem_cons_of_mem _ hx)) hnew'
      refine ⟨result, ?_, ?_⟩
      · rw [List.foldlM_cons, hnext]
        exact hresult
      · rw [hall, hoperations]
        rfl

theorem Register.ext_operations {a b : Register} (h : a.operations = b.operations) : a = b := by
  cases a with
  | mk operations sound =>
      cases b with
      | mk operations' sound' =>
          subst h
          rfl

theorem active?_eq_some :
    state.active? = some d ↔ state = .active d := by
  cases state with
  | active descriptor => simp [CatalogEntryState.active?]
  | tombstoned tombstone => simp [CatalogEntryState.active?]

/-- The descriptors of the active entries. -/
def activeDescriptors (entries : CatalogEntries) : List OperationDescriptor :=
  entries.toList.filterMap fun entry => entry.2.active?

theorem mem_activeDescriptors (h : EntriesSound entries) {d : OperationDescriptor} :
    d ∈ activeDescriptors entries ↔ entries[d.name]? = some (.active d) := by
  unfold activeDescriptors
  rw [List.mem_filterMap]
  constructor
  · rintro ⟨⟨name, state⟩, hmem, hactive⟩
    have hentry := Std.ExtTreeMap.mem_toList_iff_getElem?_eq_some.mp hmem
    dsimp only at hactive
    rw [active?_eq_some.mp hactive] at hentry
    rw [(h name d hentry).1]
    exact hentry
  · intro hentry
    exact ⟨(d.name, .active d), Std.ExtTreeMap.mem_toList_iff_getElem?_eq_some.mpr hentry, rfl⟩

theorem pairwise_activeDescriptors (h : EntriesSound entries) :
    (activeDescriptors entries).Pairwise fun a b => a.name ≠ b.name := by
  have hnames : ∀ entry ∈ entries.toList, ∀ d, entry.2.active? = some d → d.name = entry.1 := by
    rintro ⟨name, state⟩ hmem d hactive
    have hentry := Std.ExtTreeMap.mem_toList_iff_getElem?_eq_some.mp hmem
    dsimp only at hactive
    rw [active?_eq_some.mp hactive] at hentry
    exact (h name d hentry).1
  apply List.pairwise_filterMap.mpr
  have hkeys := Std.ExtTreeMap.distinct_keys_toList (t := entries)
  apply (List.Pairwise.and_mem.mp hkeys).imp
  rintro x y ⟨hx, hy, hne⟩ a ha b hb heq
  rw [hnames x hx a ha, hnames y hy b hb] at heq
  rw [heq] at hne
  exact hne Std.ReflCmp.compare_self

/-- A catalog that folds is rebuilt to the operations that its entries track. -/
theorem rebuild_of_fold {rows : List RegisterOperationRowV1}
    (hfold : foldCatalogEntries rows = .ok entries) (h : EntriesSound entries)
    (htracks : Tracks entries operations) :
    ∃ register, rebuildRegisterFromStore rows = .ok register ∧
      register.operations = operations := by
  have hmem := @mem_activeDescriptors entries h
  have hfree (d : OperationDescriptor) : Register.new.operations[d.name]? = none :=
    Std.ExtTreeMap.getElem?_empty
  obtain ⟨register, hregister, hoperations⟩ :=
    @foldlM_insertOperation (activeDescriptors entries) Register.new
      (pairwise_activeDescriptors h)
      (fun d hd => (h d.name d (hmem.mp hd)).2) (fun d _ => hfree d)
  refine ⟨register, ?_, ?_⟩
  · unfold rebuildRegisterFromStore
    rw [hfold]
    change (Register.fromOperations (activeDescriptors entries)).mapError
      StoreRegisterCatalogError.register = _
    rw [Register.fromOperations, hregister]
    rfl
  · rw [hoperations]
    apply Std.ExtTreeMap.ext_getElem?
    intro name
    apply Option.ext
    intro d
    rw [getElem?_insertAll (pairwise_activeDescriptors h) (fun d _ => hfree d), htracks name]
    constructor
    · rintro (hd | ⟨hd, rfl⟩)
      · simp [Register.new] at hd
      · rw [hmem.mp hd]
        rfl
    · intro hd
      obtain ⟨state, hstate, hactive⟩ := Option.bind_eq_some_iff.mp hd
      rw [active?_eq_some.mp hactive] at hstate
      obtain ⟨rfl, -⟩ := h name d hstate
      exact .inr ⟨hmem.mpr hstate, rfl⟩

theorem fold_of_rebuild {rows : List RegisterOperationRowV1} {register : Register}
    (h : rebuildRegisterFromStore rows = .ok register) :
    ∃ entries, foldCatalogEntries rows = .ok entries := by
  obtain ⟨entries, hentries, -⟩ := bindOk_iff.mp h
  exact ⟨entries, hentries⟩

end Registers

/-! ### Interleavings -/

/-- The catalog is rebuilt to the register of the accepted calls. -/
def Rebuildable (m : CatalogMachine) : Prop :=
  ∃ register, rebuildRegisterFromStore m.rows = .ok register ∧
    register.operations = appliedCalls m.accepted

/-- The call whose row is appended still fits the entries. -/
def AppendFits (m : CatalogMachine) : CatalogStep → Prop
  | .append writer => ∀ call, m.pending writer = some call →
      ∀ entries, foldCatalogEntries m.rows = .ok entries → StillFits entries call
  | .check _ _ | .refuse _ => True

/-- Pending calls are valid and the rows fold to entries that track the accepted calls. -/
structure Tracked (m : CatalogMachine) : Prop where
  pending : ∀ writer call, m.pending writer = some call → call.validate = .ok ()
  folded : ∃ entries, foldCatalogEntries m.rows = .ok entries ∧ EntriesSound entries ∧
    Tracks entries (appliedCalls m.accepted)

section Interleavings

variable {m : CatalogMachine}

theorem tracked_start : Tracked .start := by
  constructor
  · intro writer call hcall
    cases hcall
  · refine ⟨∅, rfl, ?_, ?_⟩
    · intro name d hd
      rw [Std.ExtTreeMap.getElem?_empty] at hd
      cases hd
    · intro name
      rw [Std.ExtTreeMap.getElem?_empty]
      exact Std.ExtTreeMap.getElem?_empty

theorem Tracked.rebuildable (h : Tracked m) : Rebuildable m := by
  obtain ⟨entries, hfold, hsound, htracks⟩ := h.folded
  exact rebuild_of_fold hfold hsound htracks

theorem foldCatalogEntries_concat {rows : List RegisterOperationRowV1} {entries : CatalogEntries}
    (h : foldCatalogEntries rows = .ok entries) (row : RegisterOperationRowV1) :
    foldCatalogEntries (rows ++ [row]) = foldRow entries row := by
  unfold foldCatalogEntries at h ⊢
  rw [List.foldlM_append, h]
  change (foldRow entries row >>= fun x => pure x) = _
  exact bind_pure _

theorem Tracked.releases (h : Tracked m) (writer : Nat) (other : Nat) (call : CatalogCall)
    (hcall : Function.update m.pending writer none other = some call) :
    call.validate = .ok () := by
  by_cases heq : other = writer
  · rw [heq, Function.update_self] at hcall
    cases hcall
  · rw [Function.update_of_ne heq] at hcall
    exact h.pending other call hcall

theorem Tracked.step {step : CatalogStep} (h : Tracked m) (hfits : AppendFits m step) :
    Tracked (catalogStep m step) := by
  cases step with
  | check writer call =>
      simp only [catalogStep]
      split
      next hfree hok =>
        refine ⟨?_, h.folded⟩
        intro other x hx
        by_cases heq : other = writer
        · dsimp only at hx
          rw [heq, Function.update_self] at hx
          cases hx
          obtain ⟨⟨⟩, hvalid, -⟩ := bindOk_iff.mp hok
          exact hvalid
        · dsimp only at hx
          rw [Function.update_of_ne heq] at hx
          exact h.pending other x hx
      next => exact h
  | append writer =>
      cases hcall : m.pending writer with
      | none => simpa only [catalogStep, hcall] using h
      | some call =>
          simp only [catalogStep, hcall]
          obtain ⟨entries, hfold, hsound, htracks⟩ := h.folded
          have hvalid := h.pending writer call hcall
          refine ⟨h.releases writer, foldedCall entries call, ?_, ?_, ?_⟩
          · dsimp only
            rw [foldCatalogEntries_concat hfold]
            exact (foldRow_iff hvalid).mpr ⟨hfits call hcall entries hfold, rfl⟩
          · exact entriesSound_foldedCall hsound hvalid
          · dsimp only
            rw [appliedCalls, List.foldl_append]
            exact tracks_foldedCall call htracks
  | refuse writer => exact ⟨h.releases writer, h.folded⟩

/-- A catalog that folds behind an append took a call that fits. -/
theorem Tracked.appendFits {step : CatalogStep} (h : Tracked m)
    (hnext : Rebuildable (catalogStep m step)) : AppendFits m step := by
  cases step with
  | check writer call => trivial
  | refuse writer => trivial
  | append writer =>
      intro call hcall entries hfold
      obtain ⟨register, hregister, -⟩ := hnext
      simp only [catalogStep, hcall] at hregister
      obtain ⟨entries', hfold'⟩ := fold_of_rebuild hregister
      rw [foldCatalogEntries_concat hfold] at hfold'
      exact ((foldRow_iff (h.pending writer call hcall)).mp hfold').1

theorem Tracked.rebuildable_iff {steps : List CatalogStep} (h : Tracked m) :
    (∀ n, Rebuildable (run catalogStep m (steps.take n))) ↔
      Guarded catalogStep AppendFits m steps := by
  induction steps generalizing m with
  | nil =>
      constructor
      · intro _
        trivial
      · intro _ n
        rw [List.take_nil]
        exact h.rebuildable
  | cons step rest ih =>
      constructor
      · intro hall
        have hfits := h.appendFits (hall 1)
        refine ⟨hfits, (ih (h.step hfits)).mp ?_⟩
        intro n
        exact hall (n + 1)
      · rintro ⟨hfits, hrest⟩ n
        cases n with
        | zero => exact h.rebuildable
        | succ n => exact (ih (h.step hfits)).mpr hrest n

end Interleavings

/-! ### Registers that are persisted -/

section Persisting

/-- Descriptors with names that the catalog has not seen are persisted one after the other. -/
theorem persist_descriptors {rows : List RegisterOperationRowV1} {entries : CatalogEntries}
    {operations : OperationMap} (hfold : foldCatalogEntries rows = .ok entries)
    (hsound : EntriesSound entries) (htracks : Tracks entries operations)
    (hdistinct : descriptors.Pairwise fun a b => a.name ≠ b.name)
    (hvalid : ∀ d ∈ descriptors, d.validate = .ok ())
    (hnew : ∀ d ∈ descriptors, entries[d.name]? = none) :
    ∃ rows' entries', descriptors.foldlM (fun rows d => commitCall rows (.persist d)) rows =
        .ok rows' ∧ foldCatalogEntries rows' = .ok entries' ∧ EntriesSound entries' ∧
      Tracks entries' (insertAll operations descriptors) := by
  induction descriptors generalizing rows entries operations with
  | nil => exact ⟨rows, entries, rfl, hfold, hsound, htracks⟩
  | cons first rest ih =>
      obtain ⟨hfirst, hrest⟩ := List.pairwise_cons.mp hdistinct
      have hfree := hnew first List.mem_cons_self
      have hcall : (CatalogCall.persist first).validate = .ok () := by
        simp only [CatalogCall.validate, hvalid first List.mem_cons_self]
        rfl
      have hfits : StillFits entries (.persist first) := .inl hfree
      have hcommit : commitCall rows (.persist first) =
          .ok (rows ++ [(CatalogCall.persist first).row]) := by
        unfold commitCall preflight
        rw [hcall, hfold]
        simp only [bind, Except.bind, CatalogCall.check, hfree]
        rfl
      have hfold' : foldCatalogEntries (rows ++ [(CatalogCall.persist first).row]) =
          .ok (foldedCall entries (.persist first)) := by
        rw [foldCatalogEntries_concat hfold]
        exact (foldRow_iff hcall).mpr ⟨hfits, rfl⟩
      obtain ⟨rows', entries', hrows, hresult⟩ := ih hfold'
        (entriesSound_foldedCall hsound hcall) (tracks_foldedCall (.persist first) htracks) hrest
        (fun d hd => hvalid d (List.mem_cons_of_mem _ hd)) (by
          intro d hd
          simp only [foldedCall]
          rw [getElem?_insert_entry, if_neg (hfirst d hd)]
          exact hnew d (List.mem_cons_of_mem _ hd))
      refine ⟨rows', entries', ?_, hresult⟩
      rw [List.foldlM_cons, hcommit]
      exact hrows

variable (register : Register)

theorem mem_descriptors :
    d ∈ register.descriptors ↔ register.operations[d.name]? = some d := by
  unfold Register.descriptors
  rw [List.mem_map]
  constructor
  · rintro ⟨⟨name, descriptor⟩, hmem, rfl⟩
    have hentry := Std.ExtTreeMap.mem_toList_iff_getElem?_eq_some.mp hmem
    dsimp only
    rw [(register.sound name descriptor hentry).1]
    exact hentry
  · intro hentry
    exact ⟨(d.name, d), Std.ExtTreeMap.mem_toList_iff_getElem?_eq_some.mpr hentry, rfl⟩

theorem pairwise_descriptors :
    register.descriptors.Pairwise fun a b => a.name ≠ b.name := by
  unfold Register.descriptors
  apply List.pairwise_map.mpr
  have hkeys := Std.ExtTreeMap.distinct_keys_toList (t := register.operations)
  apply (List.Pairwise.and_mem.mp hkeys).imp
  rintro ⟨name, a⟩ ⟨other, b⟩ ⟨ha, hb, hne⟩ heq
  have hname := register.sound name a (Std.ExtTreeMap.mem_toList_iff_getElem?_eq_some.mp ha)
  have hother := register.sound other b (Std.ExtTreeMap.mem_toList_iff_getElem?_eq_some.mp hb)
  dsimp only at hne heq
  rw [← hname.1, ← hother.1, heq] at hne
  exact hne Std.ReflCmp.compare_self

theorem insertAll_descriptors : insertAll ∅ register.descriptors = register.operations := by
  apply Std.ExtTreeMap.ext_getElem?
  intro name
  apply Option.ext
  intro d
  rw [getElem?_insertAll (pairwise_descriptors register)
    (fun d _ => Std.ExtTreeMap.getElem?_empty), mem_descriptors]
  constructor
  · rintro (hd | ⟨hd, rfl⟩)
    · simp at hd
    · exact hd
  · intro hd
    obtain ⟨rfl, -⟩ := register.sound name d hd
    exact .inr ⟨hd, rfl⟩

/-- A register that is persisted into an empty catalog is rebuilt as it was. -/
theorem rebuild_persistRegister :
    ∃ rows, persistRegister [] register = .ok rows ∧
      rebuildRegisterFromStore rows = .ok register := by
  obtain ⟨-, entries, hfold, hsound, htracks⟩ := tracked_start
  cases hfold
  obtain ⟨rows, entries, hrows, hfold, hsound, htracks⟩ :=
    @persist_descriptors register.descriptors [] _ _ rfl hsound htracks
      (pairwise_descriptors register)
      (fun d hd => (register.sound d.name d ((mem_descriptors register).mp hd)).2)
      (fun d _ => Std.ExtTreeMap.getElem?_empty)
  obtain ⟨rebuilt, hrebuilt, hoperations⟩ := rebuild_of_fold hfold hsound htracks
  refine ⟨rows, hrows, ?_⟩
  rw [hrebuilt, Register.ext_operations (hoperations.trans (insertAll_descriptors register))]

end Persisting

/-- Through every interleaving, the catalog is rebuilt to the register of the accepted calls
exactly as long as every row is appended to entries that its call still fits; and every register
that is persisted is rebuilt. -/
theorem catalog_rebuildable_iff (steps : List CatalogStep) (register : Register) :
    ((∀ n, Rebuildable (run catalogStep .start (steps.take n))) ↔
      Guarded catalogStep AppendFits .start steps) ∧
      ∃ rows, persistRegister [] register = .ok rows ∧
        rebuildRegisterFromStore rows = .ok register :=
  ⟨tracked_start.rebuildable_iff, rebuild_persistRegister register⟩

/-! ### Two writers of one name -/

section Racing

/-- An operation without effects. -/
def plainOperation (title : Option String) : OperationDescriptor :=
  ⟨"bank.read", title, .inspect, "schema.in.v1", "schema.out.v1", "receipt.v1", .empty⟩

/-- Two writers check the same new name before either of them appends. -/
def racingPuts : List CatalogStep :=
  [.check 0 (.persist (plainOperation none)), .check 1 (.persist (plainOperation (some "read"))),
    .append 0, .append 1]

/-- Both calls are accepted and the catalog does not fold any more. -/
theorem racingPuts_not_rebuildable :
    (run catalogStep .start racingPuts).accepted =
        [.persist (plainOperation none), .persist (plainOperation (some "read"))] ∧
      ¬Rebuildable (run catalogStep .start racingPuts) := by
  refine ⟨by decide +kernel, ?_⟩
  rintro ⟨register, hregister, -⟩
  obtain ⟨entries, hfold⟩ := fold_of_rebuild hregister
  have hfails : (foldCatalogEntries (run catalogStep .start racingPuts).rows).isOk = false := by
    decide +kernel
  rw [hfold] at hfails
  cases hfails

end Racing

end Batpak.Syncbat
